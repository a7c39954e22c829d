import RoleStack.Number.Binary64

/-!
JSON values. Whole numbers of 64 bits, signed or unsigned, are kept apart from floating-point
numbers, and an object's members are sorted by name.
-/

namespace RoleStack

inductive Json where
  | null
  | bool (value : Bool)
  | integer (value : Int)
  | real (value : Binary64)
  | string (value : String)
  | array (elements : List Json)
  | object (members : List (String × Json))
deriving Inhabited

namespace Json

/-- The numbers that a signed or an unsigned word of 64 bits holds. -/
def isWord (value : Int) : Bool :=
  -9223372036854775808 ≤ value && value ≤ 18446744073709551615

def ofNat (value : Nat) : Json := .integer value

def ofWord (value : UInt64) : Json := .integer value.toNat

def ofOption {Value : Type} (encode : Value → Json) : Option Value → Json
  | none => .null
  | some value => encode value

def ofList {Value : Type} (encode : Value → Json) (values : List Value) : Json :=
  .array (values.map encode)

/-- The later of two members of one name replaces the earlier. -/
def insertMember (name : String) (value : Json) : List (String × Json) → List (String × Json)
  | [] => [(name, value)]
  | (other, old) :: rest =>
      if name = other then (name, value) :: rest
      else if name < other then (name, value) :: (other, old) :: rest
      else (other, old) :: insertMember name value rest

/-- The object with these members, in any order. -/
def ofMembers (members : List (String × Json)) : Json :=
  .object (members.foldl (fun sorted member => insertMember member.1 member.2 sorted) [])

def member? (name : String) : Json → Option Json
  | .object members => members.lookup name
  | _ => none

def string? : Json → Option String
  | .string value => some value
  | _ => none

def bool? : Json → Option Bool
  | .bool value => some value
  | _ => none

/-- Only a whole number without sign is a word. -/
def word? : Json → Option UInt64
  | .integer (.ofNat value) =>
      if bound : value < UInt64.size then some (UInt64.ofNatLT value bound) else none
  | _ => none

def elements? : Json → Option (List Json)
  | .array elements => some elements
  | _ => none

@[simp]
theorem string?_string (text : String) : (string text).string? = some text := rfl

@[simp]
theorem bool?_bool (value : Bool) : (bool value).bool? = some value := rfl

@[simp]
theorem word?_ofWord (value : UInt64) : (ofWord value).word? = some value := by
  have hbound : value.toNat < UInt64.size := value.toNat_lt
  show (if bound : value.toNat < UInt64.size then some (UInt64.ofNatLT value.toNat bound) else none) = _
  rw [dif_pos hbound]
  exact congrArg some (UInt64.ofNatLT_toNat value)

end Json

end RoleStack

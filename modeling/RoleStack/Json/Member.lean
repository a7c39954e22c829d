import RoleStack.Json.Value

/-!
Reading the members of an object, where null says as little as a missing member.
-/

namespace RoleStack.Json

variable {Value : Type}

def given? (json : Json) (name : String) : Option Json :=
  match json.member? name with
  | some .null => none
  | found => found

def text? (json : Json) (name : String) : Option String := (json.given? name).bind string?

def number? (json : Json) (name : String) : Option UInt64 := (json.given? name).bind word?

/-- A flag that is not given is off. -/
def flag (json : Json) (name : String) : Bool := ((json.given? name).bind bool?).getD false

/-- A list that is not given is empty. -/
def items? (json : Json) (name : String) : Option (List Json) :=
  match json.given? name with
  | none => some []
  | some found => found.elements?

def itemsOf? (decode : Json → Option Value) (json : Json) (name : String) :
    Option (List Value) :=
  (json.items? name).bind fun items => items.mapM decode

def texts? (json : Json) (name : String) : Option (List String) := itemsOf? string? json name

def required? (decode : Json → Option Value) (json : Json) (name : String) : Option Value :=
  (json.given? name).bind decode

/-- A member need not be given, but has to be well-formed if it is. -/
def optional? (decode : Json → Option Value) (json : Json) (name : String) :
    Option (Option Value) :=
  match json.given? name with
  | none => some none
  | some found => (decode found).map some

def members : Json → List (String × Json)
  | .object members => members
  | _ => []

/-- The object with more members; of two with one name the added one counts. -/
def extend (json : Json) (more : List (String × Json)) : Json := ofMembers (json.members ++ more)

def pair? : Json → Option (String × Json)
  | .array [.string name, value] => some (name, value)
  | _ => none

def textPair? (json : Json) : Option (String × String) := do
  let (name, value) ← json.pair?
  return (name, ← value.string?)

end RoleStack.Json

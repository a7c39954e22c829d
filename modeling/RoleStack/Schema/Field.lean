import RoleStack.Json.Value

/-!
Reading typed data out of JSON values. A structure is an object of its fields, where unknown members
are ignored, or an array of its fields in order.
-/

namespace RoleStack.Schema

inductive Field where
  | given (value : Json)
  /-- The object has no such member. -/
  | missing
  /-- The array is too short. -/
  | beyond

namespace Field

variable {Value : Type}

def required (decode : Json → Option Value) : Field → Option Value
  | .given value => decode value
  | .missing | .beyond => none

def nullable (decode : Json → Option Value) : Json → Option (Option Value)
  | .null => some none
  | value => (decode value).map some

/-- An object may leave the field out, an array may not. -/
def optional (decode : Json → Option Value) : Field → Option (Option Value)
  | .given value => nullable decode value
  | .missing => some none
  | .beyond => none

def defaulting (default : Value) (decode : Json → Option Value) : Field → Option Value
  | .given value => decode value
  | .missing | .beyond => some default

variable (default : Value) (value : Json) (decode : Json → Option Value)

@[simp]
theorem required_given : (given value).required decode = decode value := rfl

@[simp]
theorem nullable_null : nullable decode .null = some none := rfl

@[simp]
theorem optional_given : (given value).optional decode = nullable decode value := rfl

@[simp]
theorem optional_missing : missing.optional decode = some none := rfl

@[simp]
theorem defaulting_given : (given value).defaulting default decode = decode value := rfl

@[simp]
theorem defaulting_missing : missing.defaulting default decode = some default := rfl

end Field

/-- What to do with elements of an array beyond the last field. -/
inductive Surplus where
  | refused
  | ignored
deriving DecidableEq

def elementFields : List String → List Json → List Field
  | [], _ => []
  | _ :: names, [] => .beyond :: elementFields names []
  | _ :: names, value :: values => .given value :: elementFields names values

def memberField (members : List (String × Json)) (name : String) : Field :=
  match members.lookup name with
  | some value => .given value
  | none => .missing

/-- The fields of a structure, in the order of their names. -/
def fieldsOf (surplus : Surplus) (names : List String) : Json → Option (List Field)
  | .object members => some (names.map (memberField members))
  | .array elements =>
      if surplus = .refused ∧ names.length < elements.length then none
      else some (elementFields names elements)
  | _ => none

@[simp]
theorem memberField_cons (name other : String) (value : Json) (members : List (String × Json)) :
    memberField ((other, value) :: members) name =
      if name = other then .given value else memberField members name := by
  by_cases hsame : name = other
  · rw [if_pos hsame, memberField, hsame, List.lookup_cons_self]
  · rw [if_neg hsame, memberField, List.lookup_cons, beq_false_of_ne hsame, memberField]

theorem memberField_eq_missing {name : String} {members : List (String × Json)}
    (h : members.lookup name = none) : memberField members name = .missing := by
  rw [memberField, h]

@[simp]
theorem fieldsOf_object (surplus : Surplus) (names : List String) (members : List (String × Json)) :
    fieldsOf surplus names (.object members) = some (names.map (memberField members)) := rfl

def listOf {Value : Type} (decode : Json → Option Value) : Json → Option (List Value)
  | .array elements => elements.mapM decode
  | _ => none

/-- One of several named values, written as its name or as an object with that member alone. -/
def choiceOf {Value : Type} (named : String → Option Value) : Json → Option Value
  | .string name => named name
  | .object [(name, .null)] => named name
  | _ => none

end RoleStack.Schema

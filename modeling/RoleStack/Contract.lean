import RoleStack.Json.Value

/-!
What a role offers: the operations of its contract, the marker it shows and the tasks it carries out
by itself.
-/

namespace RoleStack

inductive ValueKind where
  | null
  | bool
  | integer
  | float
  | string
  | array
  | object
  | any
deriving DecidableEq

namespace ValueKind

def all : List ValueKind :=
  [.null, .bool, .integer, .float, .string, .array, .object, .any]

def name : ValueKind → String
  | .null => "Null"
  | .bool => "Bool"
  | .integer => "Integer"
  | .float => "Float"
  | .string => "String"
  | .array => "Array"
  | .object => "Object"
  | .any => "Any"

/-- A whole number is admitted as a float too, but not the other way round. -/
def admits : ValueKind → Json → Bool
  | .any, _ => true
  | .null, .null => true
  | .bool, .bool _ => true
  | .integer, .integer _ => true
  | .float, .integer _ => true
  | .float, .real _ => true
  | .string, .string _ => true
  | .array, .array _ => true
  | .object, .object _ => true
  | _, _ => false

end ValueKind

structure Parameter where
  name : String
  kind : ValueKind
deriving DecidableEq

structure Signature where
  name : String
  parameters : List Parameter
  returns : ValueKind
deriving DecidableEq

def Signature.arity (signature : Signature) : Nat := signature.parameters.length

/-- A named list of operations. Contracts are told apart by their names alone. -/
structure Contract where
  name : String
  operations : List Signature
deriving DecidableEq

namespace Contract

def find? (contract : Contract) (operation : String) : Option Signature :=
  contract.operations.find? fun signature => signature.name = operation

def operationNames (contract : Contract) : List String :=
  contract.operations.map Signature.name

def sameAs (contract other : Contract) : Bool := contract.name = other.name

end Contract

/-- A visible sign of a role, with no operations. -/
structure Marker where
  name : String
deriving DecidableEq

/-- Something a role does by itself, outside every contract. -/
structure Task where
  name : String
  parameters : List Parameter
  returns : ValueKind
deriving DecidableEq

structure RoleDescriptor where
  role : String
  contract : Option String
  marker : Option String
  operations : List String
  tasks : List Task
deriving DecidableEq

end RoleStack

import RoleStack.HandleClass.Basic

/-!
The classes that engines have made, by name. Classes enter in batches, each whole or not at all, and
stay for good.
-/

namespace RoleStack

structure Registry where
  classes : Table String HandleClass

namespace Registry

def empty : Registry := ⟨Table.empty⟩

def get? (registry : Registry) (name : String) : Option HandleClass :=
  registry.classes.get? name

def contains (registry : Registry) (name : String) : Bool := registry.classes.contains name

def size (registry : Registry) : Nat := registry.classes.size

def names (registry : Registry) : List String :=
  registry.classes.keys.mergeSort fun first second => first ≤ second

/-! ### Batches

A batch changes the registry in place: the registry beside an answer is as the steps up to it left it. -/

/-- Stops at the first name of the batch that repeats an earlier one of it or is registered already. -/
def check : List HandleClass → List String → Registry → Except String Unit × Registry
  | [], _, registry => (.ok (), registry)
  | made :: rest, earlier, registry =>
      if earlier.contains made.name || registry.contains made.name then (.error made.name, registry)
      else check rest (made.name :: earlier) registry

def enter : List HandleClass → Registry → Registry
  | [], registry => registry
  | made :: rest, registry => enter rest ⟨registry.classes.insert made.name made⟩

/-- The whole batch is checked before its first class enters. The error is the name that collides. -/
def takeIn (registry : Registry) (batch : List HandleClass) : Except String Unit × Registry :=
  match check batch [] registry with
  | (.error name, registry) => (.error name, registry)
  | (.ok _, registry) => (.ok (), enter batch registry)

end Registry

end RoleStack

import RoleStack.HandleClass.Basic

/-!
Taking a class apart: the layer that a removal drops, the layers that it keeps, and the nearest
ancestor without a contract.
-/

namespace RoleStack.HandleClass

/-- A class cut at one of its layers. -/
structure Split where
  base : HandleClass
  removed : HandleClass
  /-- The layers over the removed one, from the bottom up. -/
  retained : List HandleClass

/-- Cuts at the most derived level that the test holds for. A base class cannot be removed. -/
def splitAt? (declares : HandleClass → Bool) : HandleClass → Option Split
  | .base .. => none
  | .roleLayer name parent contract key forwarders =>
      let layer := HandleClass.roleLayer name parent contract key forwarders
      if declares layer then some ⟨parent, layer, []⟩
      else (splitAt? declares parent).map fun split =>
        { split with retained := split.retained ++ [layer] }
  | .markerLayer name parent marker =>
      let layer := HandleClass.markerLayer name parent marker
      if declares layer then some ⟨parent, layer, []⟩
      else (splitAt? declares parent).map fun split =>
        { split with retained := split.retained ++ [layer] }

/-- The class itself or else its nearest ancestor that does not implement the contract. -/
def nearestWithout? (contract : String) : HandleClass → Option HandleClass
  | .base name layout contracts extension =>
      let level := HandleClass.base name layout contracts extension
      if level.implements contract then none else some level
  | .roleLayer name parent declared key forwarders =>
      let level := HandleClass.roleLayer name parent declared key forwarders
      if level.implements contract then nearestWithout? contract parent else some level
  | .markerLayer name parent marker =>
      let level := HandleClass.markerLayer name parent marker
      if level.implements contract then nearestWithout? contract parent else some level

/-- The ancestor to fall back to for losing a contract. Unless `strict` is set, a class that declares
exactly one interface is left in any case, whichever interface that is. -/
def fallback? (strict : Bool) (handleClass : HandleClass) (contract : String) :
    Option HandleClass :=
  if !strict && handleClass.declaredInterfaces.length = 1 then
    handleClass.parent?.bind (nearestWithout? contract)
  else if handleClass.implements contract then nearestWithout? contract handleClass
  else none

end RoleStack.HandleClass

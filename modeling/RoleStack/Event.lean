import RoleStack.Identity

/-!
The ways to change a handle's roles, and the events that tell how a change ended.
-/

namespace RoleStack

inductive Injection where
  | addRole
  | removeRole
  | addMarker
  | removeMarker
deriving DecidableEq

namespace Injection

def name : Injection → String
  | .addRole => "AddPublicRole"
  | .removeRole => "RemovePublicRole"
  | .addMarker => "AddVisibleRoleMarker"
  | .removeMarker => "RemoveVisibleRoleMarker"

def display : Injection → String
  | .addRole => "ADD_PUBLIC_ROLE"
  | .removeRole => "REMOVE_PUBLIC_ROLE"
  | .addMarker => "ADD_VISIBLE_ROLE_MARKER"
  | .removeMarker => "REMOVE_VISIBLE_ROLE_MARKER"

def isAddition : Injection → Bool
  | .addRole | .addMarker => true
  | .removeRole | .removeMarker => false

def concernsMarker : Injection → Bool
  | .addMarker | .removeMarker => true
  | .addRole | .removeRole => false

end Injection

inductive Outcome where
  | success
  | failure (reason : String)
deriving DecidableEq

inductive EventKind where
  | roleAssumed
  | roleReleased
  | compositionFailed
deriving DecidableEq

def EventKind.name : EventKind → String
  | .roleAssumed => "RoleAssumed"
  | .roleReleased => "RoleReleased"
  | .compositionFailed => "CompositionFailed"

structure RoleEvent where
  identity : Identity
  agent : AgentId
  injection : Injection
  role : String
  outcome : Outcome
  /-- The class of the resulting handle, when there is one. -/
  className : Option String
deriving DecidableEq

namespace RoleEvent

def succeeded (event : RoleEvent) : Bool := event.outcome = .success

def kind (event : RoleEvent) : EventKind :=
  match event.outcome with
  | .failure _ => .compositionFailed
  | .success => if event.injection.isAddition then .roleAssumed else .roleReleased

end RoleEvent

end RoleStack

import RoleStack.Transfer

/-!
Why a composition fails.
-/

namespace RoleStack

inductive CompositionCause where
  | missingContract (role : String)
  | missingMarker (role : String)
  | contractPresent (className contract : String)
  | markerPresent (className marker : String)
  | ancestryNotFound (className target : String)
  | duplicateOperation (contract operation : String)
  | forwardersNotPrepared
  | nameCollision (name : String)
  | transfer (error : TransferError)
deriving DecidableEq

namespace CompositionCause

def message : CompositionCause → String
  | .missingContract role => s!"Role '{role}' declares no public contract"
  | .missingMarker role => s!"Role '{role}' declares no visibility marker"
  | .contractPresent className contract => s!"Class {className} already implements {contract}"
  | .markerPresent className marker => s!"Class {className} already carries marker {marker}"
  | .ancestryNotFound className target =>
      s!"No ancestor of {className} qualifies for removing {target}"
  | .duplicateOperation contract operation =>
      s!"Contract {contract} declares operation '{operation}' more than once"
  | .forwardersNotPrepared => "Forwarder generator used before prepare"
  | .nameCollision name => s!"Class name {name} is already registered"
  | .transfer error => error.message

def sources : CompositionCause → List String
  | .transfer error => error.sources
  | _ => []

def isAncestryNotFound : CompositionCause → Bool
  | .ancestryNotFound .. => true
  | _ => false

def isTransferViolation : CompositionCause → Bool
  | .transfer error => error.isViolation
  | _ => false

end CompositionCause

end RoleStack

import RoleStack.Config.Basic
import RoleStack.Director
import RoleStack.Json.Member

/-!
Reports on errors: a code for the kind of error, its text, and the texts of the errors underneath.
-/

namespace RoleStack

/-- The list of errors underneath is left out when it is empty. -/
def Json.errorReport (code message : String) (sources : List String) : Json :=
  .ofMembers <| [("error", .string code), ("message", .string message)] ++
    if sources.isEmpty then [] else [("sources", .ofList .string sources)]

namespace RoleError

def code : RoleError → String
  | .unknownOperation _ => "Role.UnknownOperation"
  | .invalidArguments .. => "Role.InvalidArguments"
  | .failed .. => "Role.Failed"

def report (error : RoleError) : Json := .errorReport error.code error.message []

end RoleError

namespace HandleError

/-- An error of a role keeps the role's code. -/
def code : HandleError → String
  | .unknownOperation .. => "UnknownOperation"
  | .arityMismatch .. => "ArityMismatch"
  | .unbound .. => "Unbound"
  | .unknownField .. => "UnknownField"
  | .extendedState _ => "ExtendedState"
  | .role error => error.code

def report (error : HandleError) : Json := .errorReport error.code error.message []

end HandleError

namespace TransferError

def code : TransferError → String
  | .sourceSetTwice => "Transfer.SourceSetTwice"
  | .destinationSetTwice => "Transfer.DestinationSetTwice"
  | .sourceUnset => "Transfer.SourceUnset"
  | .destinationUnset => "Transfer.DestinationUnset"
  | .alreadyTransferred => "Transfer.AlreadyTransferred"
  | .notTransferred => "Transfer.NotTransferred"
  | .extendedState _ => "Transfer.ExtendedState"

def report (error : TransferError) : Json :=
  .errorReport error.code error.message error.sources

end TransferError

namespace CompositionCause

/-- A failed transfer keeps the transfer's code. -/
def code : CompositionCause → String
  | .missingContract _ => "MissingContract"
  | .missingMarker _ => "MissingMarker"
  | .contractPresent .. => "ContractAlreadyPresent"
  | .markerPresent .. => "MarkerAlreadyPresent"
  | .ancestryNotFound .. => "AncestryNotFound"
  | .duplicateOperation .. => "DuplicateOperation"
  | .forwardersNotPrepared => "ForwardersNotPrepared"
  | .nameCollision _ => "NameCollision"
  | .transfer error => error.code

def report (cause : CompositionCause) : Json :=
  .errorReport cause.code cause.message cause.sources

end CompositionCause

namespace OperationError

def code : OperationError → String
  | .notQueued _ => "NotQueued"
  | .sealed _ => "Sealed"

def report (error : OperationError) : Json := .errorReport error.code error.message []

end OperationError

namespace CompositionError

/-- A failed composition has the code of its cause. -/
def code : CompositionError → String
  | .failed _ _ _ cause => cause.code
  | .operation error => error.code

def report (error : CompositionError) : Json :=
  (Json.errorReport error.code error.message error.sources).extend
    [("ancestry_not_found", .bool error.isAncestryNotFound),
     ("transfer_violation", .bool error.isTransferViolation)]

end CompositionError

namespace DirectorError

def report (error : DirectorError) : Json :=
  match error with
  | .unknownIdentity _ => .errorReport "UnknownIdentity" error.message []
  | .composition error => error.report

end DirectorError

namespace ConfigError

def code : ConfigError → String
  | .unreadable _ => "Io"
  | .malformed => "Parse"
  | .invalid .. => "Invalid"

def report (error : ConfigError) : Json :=
  .ofMembers <| ("error", .string error.code) ::
    (error.message?.map fun message => ("message", Json.string message)).toList

end ConfigError

end RoleStack

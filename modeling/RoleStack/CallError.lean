import RoleStack.Forwarding
import RoleStack.Identity

/-!
Why a call on a role or on a handle fails.
-/

namespace RoleStack

inductive RoleError where
  | unknownOperation (operation : String)
  | invalidArguments (operation message : String)
  | failed (operation message : String)
deriving DecidableEq

def RoleError.message : RoleError → String
  | .unknownOperation operation => s!"Role does not provide operation '{operation}'"
  | .invalidArguments operation message => s!"Invalid arguments for '{operation}': {message}"
  | .failed operation message => s!"Operation '{operation}' failed: {message}"

inductive HandleError where
  | unknownOperation (className operation : String)
  | arityMismatch (operation : String) (expected actual : Nat)
  | unbound (identity : Identity) (key : Key)
  | unknownField (className field : String)
  | extendedState (message : String)
  | role (error : RoleError)
deriving DecidableEq

def HandleError.message : HandleError → String
  | .unknownOperation className operation => s!"Class {className} has no operation '{operation}'"
  | .arityMismatch operation expected actual =>
      s!"Operation '{operation}' takes {expected} argument(s), got {actual}"
  | .unbound identity key => s!"No role bound under key '{key.text}' on {identity.display}"
  | .unknownField className field => s!"Class {className} has no field '{field}'"
  | .extendedState message => s!"Extended state copy failed: {message}"
  | .role error => error.message

end RoleStack

import RoleStack.HandleClass.Basic
import RoleStack.Role

/-!
Handles: one version of an identity, with a class, field values, the roles bound to it and perhaps
extended state. A shared handle keeps its identity, class and bindings.
-/

namespace RoleStack

structure Handle where
  identity : Identity
  handleClass : HandleClass
  fields : Table String Json
  bindings : Table Key RoleRef
  extension : Option Extension

/-- A handle that several holders share: which one it is, and whose version. -/
structure SharedHandle where
  cell : Ref Handle
  identity : Identity
deriving DecidableEq

namespace Handle

def blank (identity : Identity) (handleClass : HandleClass) : Handle :=
  { identity := identity
    handleClass := handleClass
    fields := handleClass.layout
    bindings := Table.empty
    extension := handleClass.extension? }

def className (handle : Handle) : String := handle.handleClass.name

def bind (handle : Handle) (key : Key) (role : RoleRef) : Handle :=
  { handle with bindings := handle.bindings.insert key role }

/-- The field's previous value, with the handle afterwards. -/
def setField (handle : Handle) (field : String) (value : Json) :
    Except HandleError (Json × Handle) :=
  match handle.fields.get? field with
  | some previous => .ok (previous, { handle with fields := handle.fields.insert field value })
  | none => .error (.unknownField handle.className field)

/-- The role that answers an operation, and the operation to call on it. A role must be bound before
the arguments are counted. -/
def dispatch (handle : Handle) (operation : String) (argumentCount : Nat) :
    Except HandleError (RoleRef × String) :=
  match handle.handleClass.findForwarder? operation with
  | none => .error (.unknownOperation handle.className operation)
  | some forwarder =>
      match handle.bindings.get? forwarder.key with
      | none => .error (.unbound handle.identity forwarder.key)
      | some role =>
          if argumentCount = forwarder.arity then .ok (role, forwarder.operation)
          else .error (.arityMismatch forwarder.operation forwarder.arity argumentCount)

/-- Calls an operation, where `call` answers for the roles. -/
def invoke (call : RoleRef → String → List Json → Except RoleError Json) (handle : Handle)
    (operation : String) (arguments : List Json) : Except HandleError Json :=
  match handle.dispatch operation arguments.length with
  | .error error => .error error
  | .ok (role, target) =>
      match call role target arguments with
      | .error error => .error (.role error)
      | .ok value => .ok value

/-- Counts one use of an operation, if the handle keeps count. -/
def recordUse (handle : Handle) (operation : String) : Handle :=
  { handle with extension := handle.extension.map fun extension => extension.record operation }

def useCount? (handle : Handle) (operation : String) : Option Nat :=
  handle.extension.bind fun extension => extension.count? operation

end Handle

end RoleStack

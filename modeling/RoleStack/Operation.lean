import RoleStack.Event
import RoleStack.Generator

/-!
One attempt to change the roles of a handle, and why it fails. An operation runs once: it is queued,
started and then completed for good.
-/

namespace RoleStack

inductive Status where
  | queued
  | started
  | completedSuccess
  | completedFailure
deriving DecidableEq

namespace Status

def display : Status → String
  | .queued => "QUEUED"
  | .started => "STARTED"
  | .completedSuccess => "COMPLETED_SUCCESS"
  | .completedFailure => "COMPLETED_FAILURE"

def isTerminal : Status → Bool
  | .completedSuccess | .completedFailure => true
  | .queued | .started => false

end Status

inductive OperationError where
  | notQueued (status : Status)
  | sealed (status : Status)
deriving DecidableEq

def OperationError.message : OperationError → String
  | .notQueued status => s!"Operation is {status.display}, expected QUEUED"
  | .sealed status => s!"Operation is {status.display} and can no longer change"

inductive CompositionError where
  | failed (identity : Identity) (injection : Injection) (role : String) (cause : CompositionCause)
  | operation (error : OperationError)
deriving DecidableEq

namespace CompositionError

def message : CompositionError → String
  | .failed identity injection role _ =>
      s!"Composition {injection.display} of role '{role}' on {identity.display} failed"
  | .operation error => error.message

def cause? : CompositionError → Option CompositionCause
  | .failed _ _ _ cause => some cause
  | .operation _ => none

/-- The texts of the errors underneath, the nearest first. -/
def sources (error : CompositionError) : List String :=
  match error.cause? with
  | some cause => cause.message :: cause.sources
  | none => []

def isAncestryNotFound (error : CompositionError) : Bool :=
  (error.cause?.map CompositionCause.isAncestryNotFound).getD false

def isTransferViolation (error : CompositionError) : Bool :=
  (error.cause?.map CompositionCause.isTransferViolation).getD false

end CompositionError

/-- How much the removal of a contract takes away. -/
inductive RemovalScope where
  /-- The layer alone; those over it are stacked again. -/
  | layer
  /-- The layer and all over it. -/
  | until
deriving DecidableEq

def RemovalScope.name : RemovalScope → String
  | .layer => "Layer"
  | .until => "Until"

structure Operation where
  injection : Injection
  scope : RemovalScope
  target : SharedHandle
  role : RoleRef
  generator : Generator
  transfer : Transfer
  status : Status
  cause : Option CompositionCause
  resultClass : Option String

namespace Operation

def queued (injection : Injection) (scope : RemovalScope) (target : SharedHandle)
    (role : RoleRef) : Operation :=
  { injection := injection
    scope := scope
    target := target
    role := role
    generator := Generator.default
    transfer := Transfer.fresh
    status := .queued
    cause := none
    resultClass := none }

/-- A queued operation may change, a completed one is sealed. -/
def ensureQueued (operation : Operation) : Except OperationError Unit :=
  match operation.status with
  | .queued => .ok ()
  | .started => .error (.notQueued .started)
  | status => .error (.sealed status)

def setGenerator (operation : Operation) (generator : Generator) :
    Except OperationError Operation := do
  operation.ensureQueued
  return { operation with generator := generator }

def setTransfer (operation : Operation) (transfer : Transfer) :
    Except OperationError Operation := do
  operation.ensureQueued
  return { operation with transfer := transfer }

def fail (operation : Operation) (cause : CompositionCause) : Operation :=
  { operation with status := .completedFailure, cause := some cause }

def succeed (operation : Operation) (className : String) : Operation :=
  { operation with status := .completedSuccess, resultClass := some className }

/-- Gives the operation up, unless it is completed. -/
def setFailure (operation : Operation) (cause : CompositionCause) :
    Except OperationError Operation :=
  if operation.status.isTerminal then .error (.sealed operation.status)
  else .ok (operation.fail cause)

def start (operation : Operation) : Except OperationError Operation :=
  if operation.status = .queued then .ok { operation with status := .started }
  else .error (.notQueued operation.status)

def succeeded (operation : Operation) : Bool := operation.status = .completedSuccess

/-- How a completed operation ended, which only its cause tells. -/
def outcome (operation : Operation) : Outcome :=
  match operation.cause with
  | some cause => .failure cause.message
  | none => .success

end Operation

end RoleStack

import RoleStack.Handle

/-!
Moving the state of a handle into a new instance. Each side is set once and the transfer runs once,
so a transfer that was used cannot mix two compositions.
-/

namespace RoleStack

inductive TransferError where
  | sourceSetTwice
  | destinationSetTwice
  | sourceUnset
  | destinationUnset
  | alreadyTransferred
  | notTransferred
  | extendedState (source : HandleError)
deriving DecidableEq

namespace TransferError

def violation? : TransferError → Option String
  | .sourceSetTwice => some "source set twice"
  | .destinationSetTwice => some "destination set twice"
  | .sourceUnset => some "source not set"
  | .destinationUnset => some "destination not set"
  | .alreadyTransferred => some "transfer already performed"
  | .notTransferred => some "transfer not yet performed"
  | .extendedState _ => none

def isViolation (error : TransferError) : Bool := error.violation?.isSome

def message (error : TransferError) : String :=
  match error.violation? with
  | some violation => "Transfer protocol violation: " ++ violation
  | none => "Extended state transfer failed"

def sources : TransferError → List String
  | .extendedState source => [source.message]
  | _ => []

end TransferError

namespace Handle

/-- Each field of the destination takes the source's value, where the source has the field. -/
def mergeFields (source destination : Table String Json) : Table String Json :=
  ⟨destination.entries.map fun entry => (entry.1, (source.get? entry.1).getD entry.2)⟩

/-- The source's bindings under keys that the class refers to, except where the destination has its
own. -/
def inheritedBindings (source destination : Table Key RoleRef) (keys : List Key) :
    List (Key × RoleRef) :=
  source.entries.filter fun entry => keys.contains entry.1 && !destination.contains entry.1

/-- Extended state is copied into a fresh one, if the class makes any and both sides have some. -/
def copiedExtension (source destination : Handle) : Except HandleError (Option Extension) :=
  match destination.handleClass.extension?, source.extension, destination.extension with
  | some fresh, some state, some _ => (state.copyInto fresh).map some
  | _, _, current => .ok current

/-- The destination as the next version of the source. -/
def absorb (source destination : Handle) : Except HandleError Handle := do
  let extension ← copiedExtension source destination
  return { identity := source.identity
           handleClass := destination.handleClass
           fields := mergeFields source.fields destination.fields
           bindings :=
             ⟨destination.bindings.entries ++
               inheritedBindings source.bindings destination.bindings
                 destination.handleClass.referencedKeys⟩
           extension := extension }

end Handle

structure Transfer where
  source : Option SharedHandle
  destination : Option Handle
  sourceSet : Bool
  destinationSet : Bool
  transferred : Bool

namespace Transfer

def fresh : Transfer := ⟨none, none, false, false, false⟩

def setSource (transfer : Transfer) (source : SharedHandle) : Except TransferError Transfer :=
  if transfer.sourceSet then .error .sourceSetTwice
  else .ok { transfer with source := some source, sourceSet := true }

def setDestination (transfer : Transfer) (destination : Handle) :
    Except TransferError Transfer :=
  if transfer.destinationSet then .error .destinationSetTwice
  else .ok { transfer with destination := some destination, destinationSet := true }

/-- Moves the state across, where `read` gives the present state of a shared handle. -/
def perform (read : SharedHandle → Handle) (transfer : Transfer) :
    Except TransferError Transfer :=
  if transfer.transferred then .error .alreadyTransferred
  else
    match transfer.source, transfer.destination with
    | none, _ => .error .sourceUnset
    | some _, none => .error .destinationUnset
    | some source, some destination =>
        match Handle.absorb (read source) destination with
        | .error error => .error (.extendedState error)
        | .ok merged => .ok { transfer with destination := some merged, transferred := true }

/-- The destination can be taken once, after the transfer. -/
def takeDestination (transfer : Transfer) : Except TransferError (Handle × Transfer) :=
  if transfer.transferred then
    match transfer.destination with
    | none => .error .destinationUnset
    | some destination => .ok (destination, { transfer with destination := none })
  else .error .notTransferred

end Transfer

end RoleStack

import RoleStack.Event
import RoleStack.Pool
import RoleStack.Table

/-!
Announcing role events. A dispatcher records what it is told or passes it on to its subscribers, and
a listener may make subscriptions, its own or another's, while it is being told.
-/

namespace RoleStack

structure Notice where
  kind : EventKind
  event : RoleEvent
deriving DecidableEq

/-- A named listener's wish to hear of one identity, or of all. -/
structure Subscription where
  listener : String
  identity : Option Identity
deriving DecidableEq

def Subscription.wants (subscription : Subscription) (identity : Identity) : Bool :=
  match subscription.identity with
  | none => true
  | some wanted => wanted = identity

inductive Dispatcher where
  | recording (notices : List Notice)
  | passing (subscriptions : List Subscription)

namespace Dispatcher

def notices : Dispatcher → List Notice
  | .recording notices => notices
  | .passing _ => []

def subscriptions : Dispatcher → List Subscription
  | .recording _ => []
  | .passing subscriptions => subscriptions

def subscribe (subscription : Subscription) : Dispatcher → Dispatcher
  | .recording notices => .recording notices
  | .passing subscriptions => .passing (subscriptions ++ [subscription])

def eventsOf (identity : Identity) (dispatcher : Dispatcher) : List RoleEvent :=
  (dispatcher.notices.map Notice.event).filter fun event => event.identity = identity

end Dispatcher

structure Listener where
  heard : List Notice
  /-- The subscriptions that the listener makes, and where, while it is told something. They depend on
  all that it has heard, the new notice included. Subscribing is all that a listener does then: one that
  fires a notice of its own while it is told another is left out. -/
  reaction : List Notice → List (Ref Dispatcher × Subscription)

namespace Listener

def silent : Listener := ⟨[], fun _ => []⟩

/-- Subscribes the child, to all identities, each time it is told something. -/
def parent (dispatcher : Ref Dispatcher) (child : String) : Listener :=
  ⟨[], fun _ => [(dispatcher, ⟨child, none⟩)]⟩

def hear (listener : Listener) (notice : Notice) : Listener :=
  { listener with heard := listener.heard ++ [notice] }

end Listener

structure NoticeBoard where
  dispatchers : Pool Dispatcher
  listeners : Table String Listener

namespace NoticeBoard

def empty : NoticeBoard := ⟨Pool.empty, Table.empty⟩

def addDispatcher (board : NoticeBoard) (dispatcher : Dispatcher) : NoticeBoard :=
  { board with dispatchers := board.dispatchers.add dispatcher }

def listener (board : NoticeBoard) (name : String) : Listener :=
  (board.listeners.get? name).getD .silent

def subscriptionCount (board : NoticeBoard) (dispatcher : Ref Dispatcher) : Nat :=
  ((board.dispatchers.get? dispatcher).map fun found => found.subscriptions.length).getD 0

def addSubscription (board : NoticeBoard) (dispatcher : Ref Dispatcher)
    (subscription : Subscription) : NoticeBoard :=
  match board.dispatchers.get? dispatcher with
  | none => board
  | some found =>
      { board with dispatchers := board.dispatchers.set dispatcher (found.subscribe subscription) }

def addSubscriptions (board : NoticeBoard) (made : List (Ref Dispatcher × Subscription)) :
    NoticeBoard :=
  made.foldl (fun board entry => board.addSubscription entry.1 entry.2) board

/-- Makes the listener, unless there is one of this name. -/
def mention (board : NoticeBoard) (name : String) (made : Listener) : NoticeBoard :=
  if board.listeners.contains name then board
  else { board with listeners := board.listeners.insert name made }

/-- A listener is made when it is first named, as a child too, and its own child is fixed then. The
child is named first, so that a listener never becomes its own child. -/
def subscribe (board : NoticeBoard) (dispatcher : Ref Dispatcher) (subscription : Subscription)
    (child : Option String) : NoticeBoard :=
  let listener := subscription.listener
  match child with
  | none => (board.mention listener .silent).addSubscription dispatcher subscription
  | some child =>
      ((board.mention child .silent).mention listener (.parent dispatcher child)).addSubscription
        dispatcher subscription

def tell (board : NoticeBoard) (notice : Notice) (name : String) : NoticeBoard :=
  let listener := (board.listener name).hear notice
  { board with listeners := board.listeners.insert name listener }.addSubscriptions
    (listener.reaction listener.heard)

/-- How many heard the notice. Subscriptions made on the way count from the next notice on. -/
def fire (board : NoticeBoard) (dispatcher : Ref Dispatcher) (identity : Identity)
    (notice : Notice) : Nat × NoticeBoard :=
  match board.dispatchers.get? dispatcher with
  | none => (0, board)
  | some (.recording notices) =>
      (1, { board with
            dispatchers := board.dispatchers.set dispatcher (.recording (notices ++ [notice])) })
  | some (.passing subscriptions) =>
      let targets := subscriptions.filter fun subscription => subscription.wants identity
      (targets.length, targets.foldl (fun board target => board.tell notice target.listener) board)

end NoticeBoard

end RoleStack

import RoleStack.Session.Basic

/-!
Workers inside calls. One step of a worker is one critical section, a session settles when no worker
can take a step any more, and a worker that has not returned then is blocked.
-/

namespace RoleStack

inductive Answer where
  | reply (reply : Coordinator.Reply)
  | change (result : Except DirectorError SharedHandle)

namespace Activity

def answer? : Activity → Option Answer
  | .calling _ _ (.returned reply) _ => some (.reply reply)
  | .changing _ _ (.returned result) => some (.change result)
  | _ => none

/-- Wakes a sleeper on an entry of a coordinator. -/
def wake (coordinator : Ref Coordinator) (cell : Ref Entry) : Activity → Activity
  | .calling other call stage timeout =>
      .calling other call (if other = coordinator then stage.wake cell else stage) timeout
  | .changing director change stage => .changing director change stage

/-- Whether the call sleeps with a time limit that is no longer than `patience`. -/
def runsOut (patience : UInt64) : Activity → Bool
  | .calling _ _ (.asleep _) (some timeout) => timeout ≠ 0 && timeout ≤ patience
  | _ => false

def expire : Activity → Activity
  | .calling coordinator call stage timeout => .calling coordinator call stage.expire timeout
  | .changing director change stage => .changing director change stage

end Activity

namespace Session

def setActivity (session : Session) (worker : Worker) (activity : Activity) : Session :=
  { session with activities := session.activities.insert worker activity }

def wake (session : Session) (coordinator : Ref Coordinator) (cell : Option (Ref Entry)) :
    Session :=
  match cell with
  | none => session
  | some cell =>
      { session with
        activities :=
          ⟨session.activities.entries.map fun entry => (entry.1, entry.2.wake coordinator cell)⟩ }

/-- Stops to track an identity at once, also while a change to it is under way. Those who wait for the
identity wake up. -/
def forget (session : Session) (director : Ref Director) (identity : Identity) :
    Option SharedHandle × Session :=
  match session.directors.get? director with
  | none => (none, session)
  | some found =>
      let coordinator := session.coordinator found.coordinator
      let cell := coordinator.find? identity
      let (last, coordinator) := coordinator.delete identity
      let session :=
        { session with
          directors := session.directors.set director
            { found with writers := found.writers.forget identity }
          coordinators := session.coordinators.set found.coordinator coordinator }
      (last, session.wake found.coordinator cell)

/-- A step of a worker inside a call on a coordinator. -/
def stepCall? (session : Session) (worker : Worker) (reference : Ref Coordinator)
    (call : Coordinator.Call) (stage : Coordinator.Stage) (timeout : Option UInt64) :
    Option Session := do
  let coordinator ← session.coordinators.get? reference
  let progress ← call.step? coordinator worker stage
  let session :=
    { session with coordinators := session.coordinators.set reference progress.coordinator }
  let session := session.setActivity worker (.calling reference call progress.stage timeout)
  return session.wake reference progress.wakes

/-- A step of a worker inside a change, where composing is one step. -/
def stepChange? (session : Session) (worker : Worker) (reference : Ref Director)
    (change : Change) (stage : Change.Stage) : Option Session := do
  let director ← session.directors.get? reference
  match stage with
  | .composing lock current =>
      let (result, _, session) := session.compose director.workshop change.agent
        (change.kind.operation current change.role)
      return session.setActivity worker (.changing reference change (Change.composed lock result))
  | stage =>
      let coordinator ← session.coordinators.get? director.coordinator
      let progress ← change.step? worker director.writers coordinator stage
      let session :=
        { session with
          directors := session.directors.set reference { director with writers := progress.writers }
          coordinators := session.coordinators.set director.coordinator progress.coordinator }
      let session := session.setActivity worker (.changing reference change progress.stage)
      return session.wake director.coordinator progress.wakes

def step? (session : Session) (worker : Worker) : Option Session :=
  match session.activities.get? worker with
  | none => none
  | some (.calling coordinator call stage timeout) =>
      session.stepCall? worker coordinator call stage timeout
  | some (.changing director change stage) => session.stepChange? worker director change stage

def stepFirst? (session : Session) : List Worker → Option Session
  | [] => none
  | worker :: rest => session.step? worker <|> session.stepFirst? rest

def settleWith (fuel : Nat) (session : Session) : Session :=
  match fuel with
  | 0 => session
  | fuel + 1 =>
      match session.stepFirst? session.activities.keys with
      | none => session
      | some next => next.settleWith fuel

/-- Lets every worker go on until none can. A call takes at most ten steps of its own and one more
each time that another call wakes it. -/
def settle (session : Session) : Session :=
  let workers := session.activities.size
  session.settleWith ((workers + 10) * (workers + 1))

/-- Stops to track an identity, after which those who waited for it go on. -/
def deregister (session : Session) (director : Ref Director) (identity : Identity) :
    Option SharedHandle × Session :=
  let (last, session) := session.forget director identity
  (last, session.settle)

/-- Lets the time of a worker's call run out, if its limit is within `patience`. -/
def passTime (session : Session) (worker : Worker) (patience : UInt64) : Session :=
  match session.activities.get? worker with
  | none => session
  | some activity =>
      if activity.runsOut patience then (session.setActivity worker activity.expire).settle
      else session

/-- The answer of a worker's call, if it has returned; the worker is free then. -/
def collect (session : Session) (worker : Worker) : Option Answer × Session :=
  match (session.activities.get? worker).bind Activity.answer? with
  | none => (none, session)
  | some answer =>
      (some answer, { session with activities := session.activities.erase worker })

/-- Waits for a worker's call, at most as long as `patience`. -/
def await (session : Session) (worker : Worker) (patience : UInt64) : Option Answer × Session :=
  (session.passTime worker patience).collect worker

/-- Starts a call and waits for it, at most as long as `patience`. -/
def perform (session : Session) (worker : Worker) (activity : Activity) (patience : UInt64) :
    Option Answer × Session :=
  ((session.setActivity worker activity).settle).await worker patience

end Session

end RoleStack

import RoleStack.Coordinator.Basic

/-!
Calls on the coordinator, step by step. A call looks its entry up, enters it, and may have to sleep
there until it is woken; between two steps other workers may take theirs.
-/

namespace RoleStack.Coordinator

inductive Call where
  | store (handle : SharedHandle)
  | delete (identity : Identity)
  /-- With `waits`, the call returns only when all holds have gone. -/
  | lock (handle : SharedHandle) (waits : Bool)
  | unlock (identity : Identity) (all : Bool)
  | current (identity : Identity)
deriving DecidableEq

inductive Reply where
  | version (handle : Option SharedHandle)
  | flag (value : Bool)
deriving DecidableEq

inductive Stage where
  | begun
  /-- The entry is known and not entered yet. -/
  | entering (cell : Ref Entry)
  | asleep (cell : Ref Entry)
  /-- Woken up, or at the end of its time. -/
  | roused (cell : Ref Entry) (timedOut : Bool)
  | returned (reply : Reply)
deriving DecidableEq

structure Progress where
  coordinator : Coordinator
  stage : Stage
  /-- The entry whose sleepers are woken. -/
  wakes : Option (Ref Entry)

namespace Call

def lookUp (coordinator : Coordinator) : Call → Progress
  | .store handle =>
      let coordinator := coordinator.count
      match coordinator.find? handle.identity with
      | some cell => ⟨coordinator, .entering cell, none⟩
      | none =>
          ⟨coordinator.track (Entry.start handle).touch, .returned (.version none), none⟩
  | .delete identity =>
      match coordinator.find? identity with
      | some cell => ⟨coordinator.untrack identity, .entering cell, none⟩
      | none => ⟨coordinator, .returned (.version none), none⟩
  | .lock handle _ =>
      let (cell, coordinator) := coordinator.count.findOrTrack handle
      ⟨coordinator, .entering cell, none⟩
  | .unlock identity _ =>
      match coordinator.find? identity with
      | some cell => ⟨coordinator, .entering cell, none⟩
      | none => ⟨coordinator, .returned (.flag false), none⟩
  | .current identity =>
      match coordinator.find? identity with
      | some cell => ⟨coordinator, .entering cell, none⟩
      | none => ⟨coordinator, .returned (.version none), none⟩

/-- Whether the entry is free of holds now, so that its sleepers have to be woken. -/
def wakesAfterRelease (coordinator : Coordinator) (cell : Ref Entry) : Option (Ref Entry) :=
  match coordinator.cells.get? cell with
  | some entry => if entry.isLocked then none else some cell
  | none => none

/-- Reads the current version, or goes to sleep. -/
def readOrSleep (coordinator : Coordinator) (worker : Worker) (cell : Ref Entry) : Progress :=
  match coordinator.readIn? cell worker with
  | none => ⟨coordinator, .asleep cell, none⟩
  | some version => ⟨coordinator, .returned (.version version), none⟩

/-- Returns whether all holds went, or goes to sleep unless the time is over. -/
def drainOrSleep (coordinator : Coordinator) (cell : Ref Entry) (timedOut : Bool) : Progress :=
  match coordinator.cells.get? cell with
  | none => ⟨coordinator, .returned (.flag false), none⟩
  | some entry =>
      if entry.blocksDrain && !timedOut then ⟨coordinator, .asleep cell, none⟩
      else ⟨coordinator, .returned (.flag entry.isDrained), none⟩

def enter (coordinator : Coordinator) (worker : Worker) (cell : Ref Entry) : Call → Progress
  | .store handle =>
      let (previous, coordinator) := coordinator.replaceIn cell handle
      ⟨coordinator, .returned (.version previous), none⟩
  | .delete _ =>
      let (last, coordinator) := coordinator.retireIn cell
      ⟨coordinator, .returned (.version last), some cell⟩
  | .lock _ waits =>
      let coordinator := coordinator.acquireIn cell worker
      if waits then drainOrSleep coordinator cell false
      else ⟨coordinator, .returned (.flag true), none⟩
  | .unlock _ all =>
      let (released, coordinator) := coordinator.releaseIn cell worker all
      ⟨coordinator, .returned (.flag released),
        if released then wakesAfterRelease coordinator cell else none⟩
  | .current _ => readOrSleep coordinator worker cell

def resume (coordinator : Coordinator) (worker : Worker) (cell : Ref Entry) (timedOut : Bool) :
    Call → Progress
  | .lock _ _ => drainOrSleep coordinator cell timedOut
  | _ => readOrSleep coordinator worker cell

/-- The next step of a call, if it can take one. -/
def step? (call : Call) (coordinator : Coordinator) (worker : Worker) : Stage → Option Progress
  | .begun => some (call.lookUp coordinator)
  | .entering cell => some (call.enter coordinator worker cell)
  | .roused cell timedOut => some (call.resume coordinator worker cell timedOut)
  | .asleep _ | .returned _ => none

end Call

/-- A sleeper on the entry wakes up; others stay as they are. -/
def Stage.wake (cell : Ref Entry) : Stage → Stage
  | .asleep other => if other = cell then .roused other false else .asleep other
  | stage => stage

def Stage.expire : Stage → Stage
  | .asleep cell => .roused cell true
  | stage => stage

end RoleStack.Coordinator

import RoleStack.HandleClass.Samples
import RoleStack.Session.Activity
import RoleStack.Proofs.Versions

/-!
# Interleavings around one identity

Workers change one identity through a director while others lock, unlock and read it, in any order of
their steps. Only changes have a writer lock, and no other move makes or ends one that has it.
-/

namespace RoleStack

/-! ### What the workers do -/

/-- What was seen of the changes, the newest first. -/
structure History where
  /-- What each successful composition was on, and what it made. -/
  composed : List (SharedHandle × SharedHandle)
  stored : List SharedHandle
  /-- What the successful changes gave back. -/
  returned : List SharedHandle

namespace History

def empty : History := ⟨[], [], []⟩

/-- What the step of a worker between these activities adds. -/
def record (history : History) : Option Activity → Option Activity → History
  | some (.changing _ _ (.composing _ current)), some (.changing _ _ (.storing _ next)) =>
      { history with composed := (current, next) :: history.composed }
  | some (.changing _ _ (.storing _ next)), some (.changing _ _ (.lettingGo _ _)) =>
      { history with stored := next :: history.stored }
  | some (.changing _ _ (.leaving _ _)), some (.changing _ _ (.returned (.ok next))) =>
      { history with returned := next :: history.returned }
  | _, _ => history

def made (history : History) : List SharedHandle := history.composed.map Prod.snd

/-- The first composition was on the given version, each other on what the one before it made. -/
def Linked (registered : SharedHandle) : List (SharedHandle × SharedHandle) → Prop
  | [] => True
  | (current, _) :: earlier =>
      current = (earlier.map Prod.snd).headD registered ∧ Linked registered earlier

end History

/-- One step around an identity of a director: a worker that is idle starts a change or a call on holds,
a worker in a call goes on, its time runs out, or its answer is collected. -/
inductive Move (director : Ref Director) (identity : Identity) (session : Session)
    (history : History) : Session → History → Prop where
  | change (worker : Worker) (change : Change) (hidle : session.activities.get? worker = none)
      (hidentity : change.identity = identity) :
      Move director identity session history
        (session.setActivity worker (.changing director change .begun)) history
  | call (worker : Worker) (found : Director) (call : Coordinator.Call) (timeout : Option UInt64)
      (hidle : session.activities.get? worker = none)
      (hdirector : session.directors.get? director = some found)
      (hspares : call.Spares identity) :
      Move director identity session history
        (session.setActivity worker (.calling found.coordinator call .begun timeout)) history
  | step (worker : Worker) (next : Session) (hstep : session.step? worker = some next) :
      Move director identity session history next
        (history.record (session.activities.get? worker) (next.activities.get? worker))
  | expire (worker : Worker) (activity : Activity)
      (hactivity : session.activities.get? worker = some activity) :
      Move director identity session history (session.setActivity worker activity.expire) history
  | collect (worker : Worker) :
      Move director identity session history (session.collect worker).2 history

inductive Interleaved (director : Ref Director) (identity : Identity) (start : Session) :
    Session → History → Prop where
  | start : Interleaved director identity start start .empty
  | move {session later : Session} {history recorded : History}
      (interleaved : Interleaved director identity start session history)
      (move : Move director identity session history later recorded) :
      Interleaved director identity start later recorded

namespace Session

def Shares (session : Session) (identity : Identity) (version : SharedHandle) : Prop :=
  version.identity = identity ∧
    ∃ state, session.handles.get? version.cell = some state ∧ state.identity = identity

/-- The handle is the current version of its identity at a director that nobody uses. -/
structure Registers (session : Session) (director : Ref Director) (handle : SharedHandle) : Prop where
  registered : ∃ found coordinator cell, session.directors.get? director = some found ∧
    session.coordinators.get? found.coordinator = some coordinator ∧
    coordinator.Tracks handle.identity cell handle ∧
    ∀ lock, found.writers.locks.get? handle.identity = some lock →
      found.writers.cells.get? lock = some ⟨none⟩
  shared : session.Shares handle.identity handle
  idle : ∀ worker, session.activities.get? worker = none

end Session

/-! ### Activities -/

theorem Table.lookupEntry_map {Key Value : Type} [DecidableEq Key] (change : Value → Value)
    (key : Key) (entries : List (Key × Value)) :
    lookupEntry key (entries.map fun entry => (entry.1, change entry.2)) =
      (lookupEntry key entries).map change := by
  induction entries with
  | nil => rfl
  | cons entry rest ih =>
      obtain ⟨other, value⟩ := entry
      rw [List.map_cons, lookupEntry, lookupEntry, ih]
      split <;> rfl

def Change.Stage.held? : Change.Stage → Option (Ref WriterLock)
  | .reading lock | .waiting lock _ | .holding lock _ | .composing lock _ | .storing lock _
  | .lettingGo lock _ | .leaving lock _ => some lock
  | .begun | .queued _ | .returned _ => none

namespace Activity

def held? : Activity → Option (Ref WriterLock)
  | .calling .. => none
  | .changing _ _ stage => stage.held?

def wakeAt (coordinator : Ref Coordinator) (cell : Option (Ref Entry)) (activity : Activity) :
    Activity :=
  match cell with
  | none => activity
  | some cell => activity.wake coordinator cell

@[simp]
theorem wakeAt_changing (coordinator : Ref Coordinator) (cell : Option (Ref Entry))
    (director : Ref Director) (change : Change) (stage : Change.Stage) :
    (changing director change stage).wakeAt coordinator cell = .changing director change stage := by
  cases cell <;> rfl

theorem exists_wakeAt_calling (woken : Ref Coordinator) (cell : Option (Ref Entry))
    (coordinator : Ref Coordinator) (call : Coordinator.Call) (stage : Coordinator.Stage)
    (timeout : Option UInt64) :
    ∃ stage', (calling coordinator call stage timeout).wakeAt woken cell =
        .calling coordinator call stage' timeout ∧
      ∀ entry, stage.In entry → stage'.In entry := by
  cases cell with
  | none => exact ⟨stage, rfl, fun _ h => h⟩
  | some cell =>
      refine ⟨_, rfl, ?_⟩
      intro entry h
      split
      · exact h.wake cell
      · exact h

@[simp]
theorem held?_wakeAt (activity : Activity) (coordinator : Ref Coordinator)
    (cell : Option (Ref Entry)) : (activity.wakeAt coordinator cell).held? = activity.held? := by
  cases activity with
  | calling other call stage timeout =>
      obtain ⟨stage', hwoken, -⟩ := exists_wakeAt_calling coordinator cell other call stage timeout
      rw [hwoken]
      rfl
  | changing director change stage => rw [wakeAt_changing]

end Activity

namespace Session

theorem get?_wake (session : Session) (coordinator : Ref Coordinator) (cell : Option (Ref Entry))
    (worker : Worker) :
    (session.wake coordinator cell).activities.get? worker =
      (session.activities.get? worker).map (Activity.wakeAt coordinator cell) := by
  cases cell with
  | none =>
      change session.activities.get? worker = _
      cases session.activities.get? worker <;> rfl
  | some cell => exact Table.lookupEntry_map _ worker session.activities.entries

theorem wake_frame (session : Session) (coordinator : Ref Coordinator) (cell : Option (Ref Entry)) :
    (session.wake coordinator cell).directors = session.directors ∧
      (session.wake coordinator cell).coordinators = session.coordinators ∧
      (session.wake coordinator cell).handles = session.handles := by
  cases cell <;> exact ⟨rfl, rfl, rfl⟩

theorem get?_setActivity (session : Session) (worker other : Worker) (activity : Activity) :
    (session.setActivity worker activity).activities.get? other =
      if worker = other then some activity else session.activities.get? other :=
  Table.get?_insert _ _ _ _

theorem collect_frame (session : Session) (worker : Worker) :
    (session.collect worker).2.directors = session.directors ∧
      (session.collect worker).2.coordinators = session.coordinators ∧
      (session.collect worker).2.handles = session.handles := by
  unfold collect
  split <;> exact ⟨rfl, rfl, rfl⟩

theorem get?_of_collect {session : Session} {worker other : Worker} {activity : Activity}
    (h : (session.collect worker).2.activities.get? other = some activity) :
    session.activities.get? other = some activity := by
  unfold collect at h
  split at h
  · exact h
  · rw [Table.get?_erase] at h
    split at h
    · cases h
    · exact h

end Session

/-! ### A step of a change -/

section Steps

variable {session later : Session} {director : Ref Director} {found : Director}
  {coordinator : Coordinator} {worker : Worker} {change : Change} {stage : Change.Stage}

/-- The session after a step of a change other than composing. -/
def Session.proceed (session : Session) (director : Ref Director) (found : Director)
    (worker : Worker) (change : Change) (progress : Change.Progress) : Session :=
  (({ session with
      directors := session.directors.set director { found with writers := progress.writers }
      coordinators := session.coordinators.set found.coordinator progress.coordinator } :
    Session).setActivity worker (.changing director change progress.stage)).wake found.coordinator
      progress.wakes

theorem exists_of_stepChange? (hdirected : session.directors.get? director = some found)
    (hcoordinated : session.coordinators.get? found.coordinator = some coordinator)
    (hstage : ∀ lock current, stage ≠ .composing lock current)
    (hstep : session.stepChange? worker director change stage = some later) :
    ∃ progress, change.step? worker found.writers coordinator stage = some progress ∧
      later = session.proceed director found worker change progress := by
  rw [Session.stepChange?, hdirected, Option.bind_eq_bind, Option.bind_some] at hstep
  split at hstep
  · rename_i lock current
    exact absurd rfl (hstage lock current)
  · rw [hcoordinated, Option.bind_eq_bind, Option.bind_some] at hstep
    cases hprogress : change.step? worker found.writers coordinator stage with
    | none =>
        rw [hprogress] at hstep
        cases hstep
    | some progress =>
        rw [hprogress] at hstep
        exact ⟨progress, rfl, (Option.some.inj hstep).symm⟩

theorem eq_of_stepChange?_composing (hdirected : session.directors.get? director = some found)
    {lock : Ref WriterLock} {current : SharedHandle}
    (hstep : session.stepChange? worker director change (.composing lock current) = some later) :
    later = (session.compose found.workshop change.agent
      (change.kind.operation current change.role)).2.2.setActivity worker
        (.changing director change (Change.composed lock (session.compose found.workshop change.agent
          (change.kind.operation current change.role)).1)) := by
  rw [Session.stepChange?, hdirected, Option.bind_eq_bind, Option.bind_some] at hstep
  exact (Option.some.inj hstep).symm

theorem get?_proceed (session : Session) (director : Ref Director) (found : Director)
    (worker : Worker) (change : Change) (progress : Change.Progress) (other : Worker) :
    (session.proceed director found worker change progress).activities.get? other =
      if worker = other then some (.changing director change progress.stage)
      else (session.activities.get? other).map
        (Activity.wakeAt found.coordinator progress.wakes) := by
  rw [Session.proceed, Session.get?_wake, Session.get?_setActivity]
  split
  · rw [Option.map_some, Activity.wakeAt_changing]
  · rfl

theorem proceed_directed (hdirected : session.directors.get? director = some found)
    (worker : Worker) (change : Change) (progress : Change.Progress) :
    (session.proceed director found worker change progress).directors.get? director =
      some { found with writers := progress.writers } := by
  rw [Session.proceed, (Session.wake_frame _ _ _).1]
  exact Pool.get?_set_of_get? hdirected _

theorem proceed_coordinated
    (hcoordinated : session.coordinators.get? found.coordinator = some coordinator)
    (director : Ref Director) (worker : Worker) (change : Change) (progress : Change.Progress) :
    (session.proceed director found worker change progress).coordinators.get? found.coordinator =
      some progress.coordinator := by
  rw [Session.proceed, (Session.wake_frame _ _ _).2.1]
  exact Pool.get?_set_of_get? hcoordinated _

end Steps

/-! ### Quiet moves -/

/-- The worker is idle, or does what needs no writer lock. -/
def Session.Outside (session : Session) (worker : Worker) : Prop :=
  ∀ activity, session.activities.get? worker = some activity → activity.held? = none

section Quiet

variable {session : Session} {worker : Worker} {activity : Activity}

theorem Session.outside_of_idle (h : session.activities.get? worker = none) :
    session.Outside worker := by
  intro present hpresent
  rw [h] at hpresent
  cases hpresent

theorem Session.outside_of_get? (h : session.activities.get? worker = some activity)
    (hfree : activity.held? = none) : session.Outside worker := by
  intro present hpresent
  obtain rfl := Option.some.inj (h.symm.trans hpresent)
  exact hfree

/-- The changes that have a writer lock are the same. -/
def Quiet (before after : Table Worker Activity) : Prop :=
  ∀ worker activity, activity.held? ≠ none →
    (before.get? worker = some activity ↔ after.get? worker = some activity)

theorem quiet_setActivity (hbefore : session.Outside worker) (hafter : activity.held? = none) :
    Quiet session.activities (session.setActivity worker activity).activities := by
  intro other inside hinside
  rw [Session.get?_setActivity]
  split
  · rename_i hsame
    subst hsame
    constructor
    · intro hpresent
      exact absurd (hbefore inside hpresent) hinside
    · intro hset
      rw [← Option.some.inj hset] at hinside
      exact absurd hafter hinside
  · rfl

theorem quiet_wake (session : Session) (coordinator : Ref Coordinator) (cell : Option (Ref Entry)) :
    Quiet session.activities (session.wake coordinator cell).activities := by
  intro other inside hinside
  rw [Session.get?_wake, Option.map_eq_some_iff]
  have hwoken : ∀ present : Activity, present.wakeAt coordinator cell = inside → present = inside := by
    intro present hpresent
    cases present with
    | calling reference call stage timeout =>
        rw [← hpresent, Activity.held?_wakeAt] at hinside
        exact absurd rfl hinside
    | changing reference change stage =>
        rw [Activity.wakeAt_changing] at hpresent
        exact hpresent
  constructor
  · intro hpresent
    refine ⟨inside, hpresent, ?_⟩
    cases inside with
    | calling reference call stage timeout => exact absurd rfl hinside
    | changing reference change stage => rw [Activity.wakeAt_changing]
  · rintro ⟨present, hpresent, hsame⟩
    rw [hpresent, hwoken present hsame]

theorem quiet_collect (session : Session) (worker : Worker) :
    Quiet session.activities (session.collect worker).2.activities := by
  intro other inside hinside
  unfold Session.collect
  split
  · rfl
  · rename_i answer hanswer
    simp only [Table.get?_erase]
    split
    · rename_i hsame
      subst hsame
      constructor
      · intro hpresent
        rw [hpresent, Option.bind_some] at hanswer
        -- Only what has returned is collected, and that has no writer lock.
        cases inside with
        | calling reference call stage timeout => exact absurd rfl hinside
        | changing reference change stage =>
            cases stage with
            | returned result => exact absurd rfl hinside
            | begun | queued | reading | waiting | holding | composing | storing | lettingGo
            | leaving => cases hanswer
      · intro hnone
        cases hnone
    · rfl

end Quiet

end RoleStack

import RoleStack.Proofs.Brackets

/-!
# A worker by itself

When nobody else is in a call, a worker takes one step after the other until it returns or has to wait.
What a whole call does is then what its parts do in turn: a lock or an unlock is that of the
coordinator, and a change that need not wait locks, composes, stores what was made and unlocks.
-/

namespace RoleStack

theorem Pool.set_set {Object : Type} (pool : Pool Object) (reference : Ref Object)
    (first second : Object) : (pool.set reference first).set reference second =
      pool.set reference second := by
  rw [set, set, set, Pool.mk.injEq, Array.setIfInBounds_setIfInBounds]

namespace Session

/-- The worker is in a call, and nobody else is. -/
def alone (session : Session) (worker : Worker) (activity : Activity) : Session :=
  { session with activities := ⟨[(worker, activity)]⟩ }

def idle (session : Session) : Session := { session with activities := Table.empty }

section Alone

variable {session later : Session} {worker : Worker} {activity ended : Activity} {count fuel : Nat}
  {patience : UInt64}

theorem idle_of_activities (h : session.activities = Table.empty) : session.idle = session := by
  rw [idle, ← h]

theorem setActivity_of_activities (h : session.activities = Table.empty) (worker : Worker)
    (activity : Activity) : session.setActivity worker activity = session.alone worker activity := by
  rw [setActivity, h]
  rfl

theorem setActivity_alone (session : Session) (worker : Worker) (activity next : Activity) :
    (session.alone worker activity).setActivity worker next = session.alone worker next := by
  simp only [alone, setActivity, Table.insert, Table.insertEntry, if_true]

theorem get?_alone (session : Session) (worker : Worker) (activity : Activity) :
    (session.alone worker activity).activities.get? worker = some activity :=
  if_pos rfl

theorem wake_alone (session : Session) (worker : Worker) (activity : Activity)
    (coordinator : Ref Coordinator) (cell : Option (Ref Entry)) :
    (session.alone worker activity).wake coordinator cell =
      session.alone worker (activity.wakeAt coordinator cell) := by
  cases cell <;> rfl

/-- So many steps lead from the one to the other. -/
inductive Takes (worker : Worker) : Nat → Session → Activity → Session → Activity → Prop where
  | done (session : Session) (activity : Activity) :
      Takes worker 0 session activity session activity
  | step {count : Nat} {session next later : Session} {activity following ended : Activity}
      (hstep : (session.alone worker activity).step? worker = some (next.alone worker following))
      (hrest : Takes worker count next following later ended) :
      Takes worker (count + 1) session activity later ended

theorem Takes.trans {more : Nat} {middle : Session} {following : Activity}
    (h : Takes worker count session activity middle following)
    (h' : Takes worker more middle following later ended) :
    Takes worker (more + count) session activity later ended := by
  induction h with
  | done => exact h'
  | step hstep _ ih => exact .step hstep (ih h')

theorem Takes.single {next : Session} {following : Activity}
    (h : (session.alone worker activity).step? worker = some (next.alone worker following)) :
    Takes worker 1 session activity next following :=
  .step h (.done next following)

theorem settleWith_of_takes (h : Takes worker count session activity later ended)
    (hlast : (later.alone worker ended).step? worker = none) (hfuel : count ≤ fuel) :
    (session.alone worker activity).settleWith fuel = later.alone worker ended := by
  induction h generalizing fuel with
  | done session activity =>
      cases fuel with
      | zero => rfl
      | succ fuel =>
          simp only [settleWith, alone, Table.keys, List.map_cons, List.map_nil, stepFirst?] at hlast ⊢
          rw [hlast]
          rfl
  | step hstep _ ih =>
      cases fuel with
      | zero => exact absurd hfuel (Nat.not_succ_le_zero _)
      | succ fuel =>
          rw [← ih hlast (Nat.le_of_succ_le_succ hfuel)]
          simp only [settleWith, alone, Table.keys, List.map_cons, List.map_nil, stepFirst?] at hstep ⊢
          rw [hstep]
          rfl

/-- A session with one worker in it gives the worker as many steps as any call takes. -/
theorem settle_of_takes (h : Takes worker count session activity later ended)
    (hlast : (later.alone worker ended).step? worker = none) (hcount : count ≤ 22) :
    (session.alone worker activity).settle = later.alone worker ended :=
  settleWith_of_takes h hlast hcount

/-- Who has an answer takes no more steps. -/
theorem step?_of_answer? {answer : Answer} (h : activity.answer? = some answer) :
    (session.alone worker activity).step? worker = none := by
  cases hstep : (session.alone worker activity).step? worker with
  | none => rfl
  | some later =>
      cases Stepped.of_step? hstep with
      | call reference call stage timeout coordinator progress hactivity _ hprogress =>
          rw [get?_alone] at hactivity
          obtain rfl := Option.some.inj hactivity
          cases stage with
          | returned reply => cases hprogress
          | begun | entering | asleep | roused => cases h
      | change director change stage found coordinator progress hactivity _ _ hprogress =>
          rw [get?_alone] at hactivity
          obtain rfl := Option.some.inj hactivity
          cases stage with
          | returned result => cases hprogress
          | begun | queued | reading | waiting | holding | composing | storing | lettingGo
            | leaving => cases h
      | compose director change lock current found hactivity _ =>
          rw [get?_alone] at hactivity
          obtain rfl := Option.some.inj hactivity
          cases h

theorem passTime_alone (h : activity.runsOut patience = false) :
    (session.alone worker activity).passTime worker patience = session.alone worker activity := by
  unfold passTime
  rw [get?_alone]
  simp only [h, Bool.false_eq_true, if_false]

theorem collect_alone_of_answer? {answer : Answer} (h : activity.answer? = some answer) :
    (session.alone worker activity).collect worker = (some answer, session.idle) := by
  have herased : (session.alone worker activity).activities.erase worker = Table.empty := by
    simp [alone, Table.erase, Table.empty]
  unfold collect
  rw [get?_alone, Option.bind_some, h]
  simp only [herased]
  rfl

theorem collect_alone_of_none (h : activity.answer? = none) :
    ((session.alone worker activity).collect worker).1 = none := by
  unfold collect
  rw [get?_alone, Option.bind_some, h]

/-- The call comes to its answer at once. -/
theorem perform_of_answer? {answer : Answer} (hidle : session.activities = Table.empty)
    (h : Takes worker count session activity later ended) (hcount : count ≤ 22)
    (hanswer : ended.answer? = some answer) :
    session.perform worker activity patience = (some answer, later.idle) := by
  have hruns : ended.runsOut patience = false := by
    cases ended with
    | calling reference call stage timeout =>
        cases stage with
        | returned reply => rfl
        | begun | entering | asleep | roused => cases hanswer
    | changing => rfl
  rw [perform, setActivity_of_activities hidle, settle_of_takes h (step?_of_answer? hanswer) hcount,
    await, passTime_alone hruns, collect_alone_of_answer? hanswer]

/-- The call cannot go on, so there is no answer. -/
theorem perform_of_step?_eq_none (hidle : session.activities = Table.empty)
    (h : Takes worker count session activity later ended) (hcount : count ≤ 22)
    (hlast : (later.alone worker ended).step? worker = none) (hanswer : ended.answer? = none)
    (hruns : ended.runsOut patience = false) :
    (session.perform worker activity patience).1 = none := by
  rw [perform, setActivity_of_activities hidle, settle_of_takes h hlast hcount, await,
    passTime_alone hruns, collect_alone_of_none hanswer]

end Alone

/-! ### Calls on a coordinator -/

section Calls

variable {session : Session} {worker : Worker} {reference : Ref Coordinator}
  {coordinator : Coordinator} {call : Coordinator.Call} {stage : Coordinator.Stage}
  {reply : Coordinator.Reply}

def withCoordinator (session : Session) (reference : Ref Coordinator) (coordinator : Coordinator) :
    Session :=
  { session with coordinators := session.coordinators.set reference coordinator }

theorem step?_alone_calling (hcoordinated : session.coordinators.get? reference = some coordinator)
    {timeout : Option UInt64} {progress : Coordinator.Progress}
    (hprogress : call.step? coordinator worker stage = some progress) :
    (session.alone worker (.calling reference call stage timeout)).step? worker =
      some ((session.withCoordinator reference progress.coordinator).alone worker
        ((Activity.calling reference call progress.stage timeout).wakeAt reference
          progress.wakes)) := by
  have hproceeded : (session.alone worker (.calling reference call stage timeout)).proceedCall
      reference worker call timeout progress =
        ((session.withCoordinator reference progress.coordinator).alone worker
          (.calling reference call progress.stage timeout)).wake reference progress.wakes :=
    congrArg (fun later => wake later reference progress.wakes)
      (setActivity_alone (session.withCoordinator reference progress.coordinator) worker
        (.calling reference call stage timeout) (.calling reference call progress.stage timeout))
  rw [step?_calling (get?_alone ..) hcoordinated, hprogress, Option.map_some, hproceeded, wake_alone]

theorem withCoordinator_withCoordinator (session : Session) (reference : Ref Coordinator)
    (first second : Coordinator) :
    (session.withCoordinator reference first).withCoordinator reference second =
      session.withCoordinator reference second := by
  simp only [withCoordinator, Pool.set_set]

theorem get?_withCoordinator (hcoordinated : session.coordinators.get? reference = some coordinator)
    (next : Coordinator) :
    (session.withCoordinator reference next).coordinators.get? reference = some next :=
  Pool.get?_set_of_get? hcoordinated next

theorem idle_withCoordinator (hidle : session.activities = Table.empty)
    (reference : Ref Coordinator) (coordinator : Coordinator) :
    (session.withCoordinator reference coordinator).idle =
      session.withCoordinator reference coordinator :=
  idle_of_activities hidle

/-- A call that looks its entry up comes to stand in it. -/
theorem takes_to_entered (hcoordinated : session.coordinators.get? reference = some coordinator)
    {cell : Ref Entry} {found entered : Coordinator} {wakes : Option (Ref Entry)}
    (hlookUp : call.lookUp coordinator = ⟨found, .entering cell, none⟩)
    (henter : call.enter found worker cell = ⟨entered, stage, wakes⟩) (timeout : Option UInt64) :
    Takes worker 2 session (.calling reference call .begun timeout)
      (session.withCoordinator reference entered)
      ((Activity.calling reference call stage timeout).wakeAt reference wakes) := by
  have hfirst : call.step? coordinator worker .begun = some ⟨found, .entering cell, none⟩ :=
    congrArg some hlookUp
  have hsecond : call.step? found worker (.entering cell) = some ⟨entered, stage, wakes⟩ :=
    congrArg some henter
  have hentering : (session.alone worker (.calling reference call .begun timeout)).step? worker =
      some ((session.withCoordinator reference found).alone worker
        (.calling reference call (.entering cell) timeout)) :=
    step?_alone_calling hcoordinated hfirst
  have hentered : ((session.withCoordinator reference found).alone worker
      (.calling reference call (.entering cell) timeout)).step? worker =
        some ((session.withCoordinator reference entered).alone worker
          ((Activity.calling reference call stage timeout).wakeAt reference wakes)) := by
    rw [step?_alone_calling (get?_withCoordinator hcoordinated found) hsecond,
      withCoordinator_withCoordinator]
  exact (Takes.single hentering).trans (Takes.single hentered)

/-- A call that looks its entry up and returns from it. -/
theorem perform_of_enter (hidle : session.activities = Table.empty)
    (hcoordinated : session.coordinators.get? reference = some coordinator) {cell : Ref Entry}
    {found entered : Coordinator} {wakes : Option (Ref Entry)}
    (hlookUp : call.lookUp coordinator = ⟨found, .entering cell, none⟩)
    (henter : call.enter found worker cell = ⟨entered, .returned reply, wakes⟩)
    (timeout : Option UInt64) (patience : UInt64) :
    session.perform worker (.calling reference call .begun timeout) patience =
      (some (.reply reply), session.withCoordinator reference entered) := by
  have hwoken : (Activity.calling reference call (.returned reply) timeout).wakeAt reference wakes =
      .calling reference call (.returned reply) timeout := by
    cases wakes with
    | none => rfl
    | some woken => simp [Activity.wakeAt, Activity.wake, Coordinator.Stage.wake]
  have htakes := takes_to_entered hcoordinated hlookUp henter timeout
  rw [hwoken] at htakes
  rw [perform_of_answer? hidle htakes (by decide) rfl, idle_withCoordinator hidle]

/-- A call that returns when it looks its entry up. -/
theorem perform_of_lookUp (hidle : session.activities = Table.empty)
    (hcoordinated : session.coordinators.get? reference = some coordinator) {found : Coordinator}
    (hlookUp : call.lookUp coordinator = ⟨found, .returned reply, none⟩) (timeout : Option UInt64)
    (patience : UInt64) :
    session.perform worker (.calling reference call .begun timeout) patience =
      (some (.reply reply), session.withCoordinator reference found) := by
  have hfirst : call.step? coordinator worker .begun = some ⟨found, .returned reply, none⟩ :=
    congrArg some hlookUp
  have hreturned : (session.alone worker (.calling reference call .begun timeout)).step? worker =
      some ((session.withCoordinator reference found).alone worker
        (.calling reference call (.returned reply) timeout)) :=
    step?_alone_calling hcoordinated hfirst
  rw [perform_of_answer? hidle (Takes.single hreturned) (by decide) rfl, idle_withCoordinator hidle]

/-- A lock that does not wait is one on the coordinator, whatever its time limit. -/
theorem perform_lock (hidle : session.activities = Table.empty)
    (hcoordinated : session.coordinators.get? reference = some coordinator) (handle : SharedHandle)
    (timeout : Option UInt64) (patience : UInt64) :
    session.perform worker (.calling reference (.lock handle false) .begun timeout) patience =
      (some (.reply (.flag true)),
        session.withCoordinator reference (coordinator.lock worker handle)) :=
  perform_of_enter hidle hcoordinated rfl rfl timeout patience

theorem perform_unlock (hidle : session.activities = Table.empty)
    (hcoordinated : session.coordinators.get? reference = some coordinator) (identity : Identity)
    (all : Bool) (timeout : Option UInt64) (patience : UInt64) :
    session.perform worker (.calling reference (.unlock identity all) .begun timeout) patience =
      (some (.reply (.flag (coordinator.unlock worker identity all).1)),
        session.withCoordinator reference (coordinator.unlock worker identity all).2) := by
  cases hfound : coordinator.find? identity with
  | some cell =>
      have hlookUp : (Coordinator.Call.unlock identity all).lookUp coordinator =
          ⟨coordinator, .entering cell, none⟩ := by
        simp only [Coordinator.Call.lookUp, hfound]
      simp only [Coordinator.unlock, hfound]
      exact perform_of_enter hidle hcoordinated hlookUp rfl timeout patience
  | none =>
      have hlookUp : (Coordinator.Call.unlock identity all).lookUp coordinator =
          ⟨coordinator, .returned (.flag false), none⟩ := by
        simp only [Coordinator.Call.lookUp, hfound]
      simp only [Coordinator.unlock, hfound]
      exact perform_of_lookUp hidle hcoordinated hlookUp timeout patience

end Calls

/-! ### Changes -/

/-- Directors, coordinators and activities have no part in a composition. -/
theorem compose_with (session : Session) (directors : Pool Director)
    (coordinators : Pool Coordinator) (activities : Table Worker Activity) (workshop : Ref Workshop)
    (agent : AgentId) (operation : Operation) :
    ({ session with
        directors := directors
        coordinators := coordinators
        activities := activities } : Session).compose workshop agent operation =
      ((session.compose workshop agent operation).1, (session.compose workshop agent operation).2.1,
        { (session.compose workshop agent operation).2.2 with
          directors := directors
          coordinators := coordinators
          activities := activities }) := by
  unfold compose
  simp only
  cases session.workshops.get? workshop with
  | none => rfl
  | some found =>
      have hread : ({ session with
          directors := directors
          coordinators := coordinators
          activities := activities } : Session).read = session.read := rfl
      have hregistry : ({ session with
          directors := directors
          coordinators := coordinators
          activities := activities } : Session).registry = session.registry := rfl
      simp only [hread, hregistry]
      generalize found.engine.compose (session.registry found.registry) session.identities
        session.read agent operation = composition
      obtain ⟨engine, registry, sequence, operation, result, event⟩ := composition
      obtain ⟨kept, filled, dispatcher⟩ := found
      cases result <;> cases event <;> cases dispatcher <;> rfl

/-- The session with other writer locks at the director and another coordinator. -/
def withDirector (session : Session) (director : Ref Director) (found : Director)
    (writers : Writers) (coordinator : Coordinator) : Session :=
  { session with
    directors := session.directors.set director { found with writers := writers }
    coordinators := session.coordinators.set found.coordinator coordinator }

section Changes

variable {session : Session} {director : Ref Director} {found : Director} {worker : Worker}
  {change : Change} {stage : Change.Stage} {coordinator before : Coordinator} {writers : Writers}
  {lock : Ref WriterLock} {cell : Ref Entry} {entry : Entry}

theorem step?_alone_changing (hdirected : session.directors.get? director = some found)
    (hcoordinated : session.coordinators.get? found.coordinator = some before)
    (hstage : ∀ lock current, stage ≠ .composing lock current) :
    ((session.withDirector director found writers coordinator).alone worker
        (.changing director change stage)).step? worker =
      (change.step? worker writers coordinator stage).map fun progress =>
        (session.withDirector director found progress.writers progress.coordinator).alone worker
          (.changing director change progress.stage) := by
  have hdirected' : ((session.withDirector director found writers coordinator).alone worker
      (.changing director change stage)).directors.get? director =
        some { found with writers := writers } := Pool.get?_set_of_get? hdirected _
  have hcoordinated' : ((session.withDirector director found writers coordinator).alone worker
      (.changing director change stage)).coordinators.get? found.coordinator =
        some coordinator := Pool.get?_set_of_get? hcoordinated _
  rw [step?_changing (get?_alone ..) hdirected' hcoordinated' hstage]
  congr 1
  funext progress
  have hproceeded : ((session.withDirector director found writers coordinator).alone worker
      (.changing director change stage)).proceed director { found with writers := writers } worker
        change progress =
          (((session.withDirector director found writers coordinator).withDirector director
            { found with writers := writers } progress.writers progress.coordinator).alone worker
              (.changing director change progress.stage)).wake found.coordinator progress.wakes :=
    congrArg (fun later => wake later found.coordinator progress.wakes)
      (setActivity_alone ((session.withDirector director found writers coordinator).withDirector
        director { found with writers := writers } progress.writers progress.coordinator) worker
          (.changing director change stage) (.changing director change progress.stage))
  have hsame : (session.withDirector director found writers coordinator).withDirector director
      { found with writers := writers } progress.writers progress.coordinator =
        session.withDirector director found progress.writers progress.coordinator := by
    simp only [withDirector, Pool.set_set]
  rw [hproceeded, hsame, wake_alone, Activity.wakeAt_changing]

theorem takes_of_step? (hdirected : session.directors.get? director = some found)
    (hcoordinated : session.coordinators.get? found.coordinator = some before)
    {progress : Change.Progress}
    (hprogress : change.step? worker writers coordinator stage = some progress) :
    Takes worker 1 (session.withDirector director found writers coordinator)
      (.changing director change stage)
      (session.withDirector director found progress.writers progress.coordinator)
      (.changing director change progress.stage) := by
  have hstage : ∀ lock current, stage ≠ .composing lock current := by
    rintro lock current rfl
    cases hprogress
  apply Takes.single
  rw [step?_alone_changing hdirected hcoordinated hstage, hprogress, Option.map_some]

theorem step?_alone_composing (hdirected : session.directors.get? director = some found)
    {current : SharedHandle} :
    ((session.withDirector director found writers coordinator).alone worker
        (.changing director change (.composing lock current))).step? worker =
      let composed := session.compose found.workshop change.agent
        (change.kind.operation current change.role)
      some ((composed.2.2.withDirector director found writers coordinator).alone worker
        (.changing director change (Change.composed lock composed.1))) := by
  have hdirected' : ((session.withDirector director found writers coordinator).alone worker
      (.changing director change (.composing lock current))).directors.get? director =
        some { found with writers := writers } := Pool.get?_set_of_get? hdirected _
  obtain ⟨hcoordinators, hdirectors, -⟩ := session.compose_frame found.workshop change.agent
    (change.kind.operation current change.role)
  have hcomposed : ((session.withDirector director found writers coordinator).alone worker
      (.changing director change (.composing lock current))).compose found.workshop change.agent
        (change.kind.operation current change.role) =
      let composed := session.compose found.workshop change.agent
        (change.kind.operation current change.role)
      (composed.1, composed.2.1,
        (composed.2.2.withDirector director found writers coordinator).alone worker
          (.changing director change (.composing lock current))) := by
    simp only [withDirector, hdirectors, hcoordinators]
    exact session.compose_with _ _ _ found.workshop change.agent
      (change.kind.operation current change.role)
  rw [step?_composing (get?_alone ..) hdirected', proceedComposing]
  simp only [hcomposed, setActivity_alone]

end Changes

end Session

namespace Writers

def lockOf (writers : Writers) (identity : Identity) : Ref WriterLock := (writers.obtain identity).1

/-- The locks while the worker has that of the identity. -/
def during (writers : Writers) (identity : Identity) (worker : Worker) : Writers :=
  (writers.obtain identity).2.take (writers.lockOf identity) worker

/-- The locks when the worker has given it back. -/
def served (writers : Writers) (identity : Identity) (worker : Worker) : Writers :=
  (writers.during identity worker).release (writers.lockOf identity)

/-- Nobody has a lock that is known to be that of an identity. -/
def Free (writers : Writers) : Prop :=
  ∀ identity lock, writers.locks.get? identity = some lock → writers.isFree lock = true

theorem isFree_iff {writers : Writers} {lock : Ref WriterLock} :
    writers.isFree lock = true ↔ writers.cells.get? lock = some ⟨none⟩ := by
  unfold isFree
  cases writers.cells.get? lock with
  | none => simp
  | some found =>
      obtain ⟨holder⟩ := found
      simp

theorem free_empty : empty.Free := by
  intro identity lock hlock
  cases hlock

theorem Free.obtain {writers : Writers} (h : writers.Free) (identity : Identity) :
    (writers.obtain identity).2.Free := by
  unfold Writers.obtain
  cases hlock : writers.locks.get? identity with
  | some lock => exact h
  | none =>
      intro other lock hother
      rw [Table.get?_insert] at hother
      rw [isFree_iff, Pool.get?_add]
      by_cases hnext : lock = writers.cells.next
      · rw [if_pos hnext]
      · rw [if_neg hnext, ← isFree_iff]
        split at hother
        · exact absurd (Option.some.inj hother).symm hnext
        · exact h other lock hother

/-- Who comes after finds all locks free again. -/
theorem Free.served {writers : Writers} (h : writers.Free) (identity : Identity) (worker : Worker) :
    (writers.served identity worker).Free := by
  have hcells : (writers.served identity worker).cells =
      (writers.obtain identity).2.cells.set (writers.lockOf identity) ⟨none⟩ :=
    Pool.set_set _ _ _ _
  intro other lock hother
  have hfree := isFree_iff.mp (h.obtain identity other lock hother)
  rw [isFree_iff, hcells, Pool.get?_set, hfree, Option.map_some, ite_self]

end Writers

namespace Session

section Changes

variable {session : Session} {director : Ref Director} {found : Director} {worker : Worker}
  {change : Change} {stage : Change.Stage} {coordinator before : Coordinator} {writers : Writers}
  {lock : Ref WriterLock} {cell : Ref Entry} {entry : Entry}

/-- A change whose turn it is comes to the reading of its entry. -/
theorem takes_to_reading (hdirected : session.directors.get? director = some found)
    (hcoordinated : session.coordinators.get? found.coordinator = some coordinator)
    (hfree : found.writers.Free) (worker : Worker) (change : Change) :
    Takes worker 2 session (.changing director change .begun)
      (session.withDirector director found (found.writers.during change.identity worker) coordinator)
      (.changing director change (.reading (found.writers.lockOf change.identity))) := by
  have hself : session.withDirector director found found.writers coordinator = session := by
    simp only [withDirector, Pool.set_of_get?_eq_some hdirected,
      Pool.set_of_get?_eq_some hcoordinated]
  have hqueued : change.step? worker found.writers coordinator .begun =
      some ⟨(found.writers.obtain change.identity).2, coordinator,
        .queued (found.writers.lockOf change.identity), none⟩ := rfl
  have htaken : change.step? worker (found.writers.obtain change.identity).2 coordinator
      (.queued (found.writers.lockOf change.identity)) =
        some ⟨found.writers.during change.identity worker, coordinator,
          .reading (found.writers.lockOf change.identity), none⟩ :=
    if_pos (Writers.isFree_obtain (hfree change.identity))
  have hqueue := takes_of_step? hdirected hcoordinated hqueued
  rw [hself] at hqueue
  exact hqueue.trans (takes_of_step? hdirected hcoordinated htaken)

/-- A tracked identity that is not blocked is held, and composing begins. -/
theorem takes_to_composing (hdirected : session.directors.get? director = some found)
    (hcoordinated : session.coordinators.get? found.coordinator = some before)
    (hplaces : coordinator.Places change.identity cell entry) (hretired : entry.retired = false)
    (hreads : entry.blocksReader worker = false) :
    Takes worker 3 (session.withDirector director found writers coordinator)
      (.changing director change (.reading lock))
      (session.withDirector director found writers (coordinator.lock worker entry.current))
      (.changing director change (.composing lock entry.current)) := by
  have hlook : change.step? worker writers coordinator (.reading lock) =
      some ⟨writers, coordinator, .waiting lock cell, none⟩ := by
    rw [Change.step?, hplaces.found]
  have hread : change.step? worker writers coordinator (.waiting lock cell) =
      some ⟨writers, coordinator, .holding lock entry.current, none⟩ := by
    have hversion : coordinator.readIn? cell worker = some (some entry.current) := by
      simp [Coordinator.readIn?, hplaces.present, hreads, Entry.version?, hretired]
    rw [Change.step?, hversion]
  have hhold : change.step? worker writers coordinator (.holding lock entry.current) =
      some ⟨writers, coordinator.lock worker entry.current, .composing lock entry.current, none⟩ := rfl
  have hwaiting := takes_of_step? hdirected hcoordinated hlook
  have hholding := hwaiting.trans (takes_of_step? hdirected hcoordinated hread)
  exact hholding.trans (takes_of_step? hdirected hcoordinated hhold)

/-- From the letting go on, nothing keeps a change from its end. -/
theorem takes_to_return (hdirected : session.directors.get? director = some found)
    (hcoordinated : session.coordinators.get? found.coordinator = some before)
    (result : Except DirectorError SharedHandle) :
    Takes worker 2 (session.withDirector director found writers coordinator)
      (.changing director change (.lettingGo lock result))
      (session.withDirector director found (writers.release lock)
        (coordinator.unlock worker change.identity false).2)
      (.changing director change (.returned result)) := by
  obtain ⟨wakes, hunlock⟩ : ∃ wakes, change.step? worker writers coordinator
      (.lettingGo lock result) = some ⟨writers, (coordinator.unlock worker change.identity false).2,
        .leaving lock result, wakes⟩ := ⟨_, rfl⟩
  have hleave : change.step? worker writers (coordinator.unlock worker change.identity false).2
      (.leaving lock result) = some ⟨writers.release lock,
        (coordinator.unlock worker change.identity false).2, .returned result, none⟩ := rfl
  exact (takes_of_step? hdirected hcoordinated hunlock).trans
    (takes_of_step? hdirected hcoordinated hleave)

theorem idle_withDirector (hidle : session.activities = Table.empty) (director : Ref Director)
    (found : Director) (writers : Writers) (coordinator : Coordinator) :
    (session.withDirector director found writers coordinator).idle =
      session.withDirector director found writers coordinator :=
  idle_of_activities hidle

theorem perform_change_unknown (hidle : session.activities = Table.empty)
    (hdirected : session.directors.get? director = some found)
    (hcoordinated : session.coordinators.get? found.coordinator = some coordinator)
    (hfree : found.writers.Free) (huntracked : coordinator.find? change.identity = none)
    (patience : UInt64) :
    session.perform worker (.changing director change .begun) patience =
      (some (.change change.unknown),
        session.withDirector director found (found.writers.served change.identity worker)
          coordinator) := by
  have hreading := takes_to_reading hdirected hcoordinated hfree worker change
  have hlook : change.step? worker (found.writers.during change.identity worker) coordinator
      (.reading (found.writers.lockOf change.identity)) =
        some ⟨found.writers.during change.identity worker, coordinator,
          .leaving (found.writers.lockOf change.identity) change.unknown, none⟩ := by
    rw [Change.step?, huntracked]
  have hleave : change.step? worker (found.writers.during change.identity worker) coordinator
      (.leaving (found.writers.lockOf change.identity) change.unknown) =
        some ⟨found.writers.served change.identity worker, coordinator, .returned change.unknown,
          none⟩ := rfl
  have hleaving := hreading.trans (takes_of_step? hdirected hcoordinated hlook)
  have hreturned := hleaving.trans (takes_of_step? hdirected hcoordinated hleave)
  rw [perform_of_answer? hidle hreturned (by decide) rfl, idle_withDirector hidle]

/-- A change of an identity that others hold waits for them. -/
theorem perform_change_blocked (hidle : session.activities = Table.empty)
    (hdirected : session.directors.get? director = some found)
    (hcoordinated : session.coordinators.get? found.coordinator = some coordinator)
    (hfree : found.writers.Free) (hplaces : coordinator.Places change.identity cell entry)
    (hblocked : entry.blocksReader worker = true) (patience : UInt64) :
    (session.perform worker (.changing director change .begun) patience).1 = none := by
  have hreading := takes_to_reading hdirected hcoordinated hfree worker change
  have hlook : change.step? worker (found.writers.during change.identity worker) coordinator
      (.reading (found.writers.lockOf change.identity)) =
        some ⟨found.writers.during change.identity worker, coordinator,
          .waiting (found.writers.lockOf change.identity) cell, none⟩ := by
    rw [Change.step?, hplaces.found]
  have hwaiting := hreading.trans (takes_of_step? hdirected hcoordinated hlook)
  have hread : coordinator.readIn? cell worker = none := by
    simp [Coordinator.readIn?, hplaces.present, hblocked]
  have hstuck : change.step? worker (found.writers.during change.identity worker) coordinator
      (.waiting (found.writers.lockOf change.identity) cell) = none := by
    rw [Change.step?, hread]
  have hlast : ((session.withDirector director found (found.writers.during change.identity worker)
      coordinator).alone worker (.changing director change
        (.waiting (found.writers.lockOf change.identity) cell))).step? worker = none := by
    rw [step?_alone_changing hdirected hcoordinated (fun _ _ => Change.Stage.noConfusion), hstuck,
      Option.map_none]
  exact perform_of_step?_eq_none hidle hwaiting (by decide) hlast rfl rfl

/-- A change that need not wait does what its parts do in turn. -/
theorem perform_change (hidle : session.activities = Table.empty)
    (hdirected : session.directors.get? director = some found)
    (hcoordinated : session.coordinators.get? found.coordinator = some coordinator)
    (hfree : found.writers.Free) (hplaces : coordinator.Places change.identity cell entry)
    (hretired : entry.retired = false) (hreads : entry.blocksReader worker = false)
    (patience : UInt64) :
    let composed := session.compose found.workshop change.agent
      (change.kind.operation entry.current change.role)
    let held := coordinator.lock worker entry.current
    session.perform worker (.changing director change .begun) patience =
      match composed.1 with
      | .error error =>
          (some (.change (.error (.composition error))),
            composed.2.2.withDirector director found
              (found.writers.served change.identity worker)
              (held.unlock worker change.identity false).2)
      | .ok made =>
          (some (.change (.ok made)),
            composed.2.2.withDirector director found
              (found.writers.served change.identity worker)
              ((held.store made).2.unlock worker change.identity false).2) := by
  intro composed held
  have hreading := takes_to_reading hdirected hcoordinated hfree worker change
  have hcomposing := hreading.trans (takes_to_composing hdirected hcoordinated hplaces hretired hreads)
  obtain ⟨hcoordinators, hdirectors, hactivities⟩ := session.compose_frame found.workshop change.agent
    (change.kind.operation entry.current change.role)
  have hdirected' : composed.2.2.directors.get? director = some found := by
    rw [hdirectors]
    exact hdirected
  have hcoordinated' : composed.2.2.coordinators.get? found.coordinator = some coordinator := by
    rw [hcoordinators]
    exact hcoordinated
  have hcomposed := hcomposing.trans (Takes.single (step?_alone_composing hdirected))
  have hidle' : composed.2.2.activities = Table.empty := hactivities.trans hidle
  cases hresult : composed.1 with
  | error error =>
      rw [show (session.compose _ _ _).1 = _ from hresult] at hcomposed
      have hreturned := hcomposed.trans (takes_to_return hdirected' hcoordinated' _)
      rw [perform_of_answer? hidle hreturned (by decide) rfl, idle_withDirector hidle']
      rfl
  | ok made =>
      rw [show (session.compose _ _ _).1 = _ from hresult] at hcomposed
      have hstore : change.step? worker (found.writers.during change.identity worker) held
          (.storing (found.writers.lockOf change.identity) made) =
            some ⟨found.writers.during change.identity worker, (held.store made).2,
              .lettingGo (found.writers.lockOf change.identity) (.ok made), none⟩ := rfl
      have hstored := hcomposed.trans (takes_of_step? hdirected' hcoordinated' hstore)
      have hreturned := hstored.trans (takes_to_return hdirected' hcoordinated' _)
      rw [perform_of_answer? hidle hreturned (by decide) rfl, idle_withDirector hidle']
      rfl

end Changes

end Session

end RoleStack

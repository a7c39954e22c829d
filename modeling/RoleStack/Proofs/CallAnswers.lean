import RoleStack.Proofs.Errands

/-!
# Answers to a lone worker

When nobody else is in a call, a store or a removal is that of the coordinator. A read is answered or has
to wait, whatever time passes, and a lock that waits for all holds to go can only run out of time, since
its own does not go.
-/

namespace RoleStack

theorem Entry.isDrained_of_blocksDrain {entry : Entry} (h : entry.blocksDrain = true) :
    entry.isDrained = false := by
  have hlocked : entry.isLocked = true := (Bool.and_eq_true_iff.mp h).1
  simp [isDrained, hlocked]

theorem Entry.blocksDrain_acquire {entry : Entry} (h : entry.retired = false) (worker : Worker) :
    (entry.acquire worker).blocksDrain = true := by
  simp [blocksDrain, acquire, touch, isLocked, h]

namespace Coordinator

variable {coordinator : Coordinator}

theorem Sound.places_findOrTrack (h : coordinator.Sound) (handle : SharedHandle) :
    ∃ entry, (coordinator.findOrTrack handle).2.Places handle.identity
      (coordinator.findOrTrack handle).1 entry ∧ entry.retired = false := by
  unfold findOrTrack
  cases hfound : coordinator.find? handle.identity with
  | none =>
      exact ⟨Entry.start handle, ⟨(Table.get?_insert _ _ _ _).trans (if_pos rfl),
        Pool.get?_add_next _ _⟩, rfl⟩
  | some cell =>
      obtain ⟨entry, hpresent, -, hretired⟩ := h.placed handle.identity cell hfound
      exact ⟨entry, ⟨hfound, hpresent⟩, hretired⟩

/-- A lock comes to an entry that its own hold keeps from being drained. -/
theorem Sound.exists_of_lock (h : coordinator.Sound) (worker : Worker) (handle : SharedHandle) :
    ∃ cell found entry, coordinator.count.findOrTrack handle = (cell, found) ∧
      found.acquireIn cell worker = coordinator.lock worker handle ∧
      (coordinator.lock worker handle).cells.get? cell = some entry ∧ entry.blocksDrain = true := by
  obtain ⟨entry, hplaces, hretired⟩ := h.count.places_findOrTrack handle
  rcases hfound : coordinator.count.findOrTrack handle with ⟨cell, found⟩
  simp only [hfound] at hplaces
  have hlock : coordinator.lock worker handle = found.setEntry cell (entry.acquire worker) := by
    simp only [Coordinator.lock, hfound, acquireIn, hplaces.present]
  refine ⟨cell, found, entry.acquire worker, rfl, ?_, ?_, Entry.blocksDrain_acquire hretired worker⟩
  · simp only [Coordinator.lock, hfound]
  · rw [hlock]
    exact (hplaces.setEntry _).present

end Coordinator

namespace Session

section Calls

variable {session later : Session} {worker : Worker} {reference : Ref Coordinator}
  {coordinator found entered : Coordinator} {call : Coordinator.Call} {cell : Ref Entry}
  {reply : Coordinator.Reply} {timeout : Option UInt64} {patience : UInt64}

theorem withCoordinator_self (h : session.coordinators.get? reference = some coordinator) :
    session.withCoordinator reference coordinator = session := by
  rw [withCoordinator, Pool.set_of_get?_eq_some h]

theorem coordinator_eq (h : session.coordinators.get? reference = some coordinator) :
    session.coordinator reference = coordinator := by
  rw [Session.coordinator, h, Option.getD_some]

theorem step?_alone_of_none (hcoordinated : session.coordinators.get? reference = some coordinator)
    {stage : Coordinator.Stage} (hstage : call.step? coordinator worker stage = none) :
    (session.alone worker (.calling reference call stage timeout)).step? worker = none := by
  rw [step?_calling (get?_alone ..) hcoordinated, hstage]
  rfl

theorem wake_of_activities (h : session.activities = Table.empty) (reference : Ref Coordinator)
    (cell : Option (Ref Entry)) : session.wake reference cell = session := by
  cases cell with
  | none => rfl
  | some cell =>
      rw [wake, h]
      exact idle_of_activities h

/-- Where nobody is in a call, nothing goes on. -/
theorem settle_of_activities (h : session.activities = Table.empty) : session.settle = session := by
  have hsettled : ∀ fuel, session.settleWith fuel = session := by
    intro fuel
    cases fuel with
    | zero => rfl
    | succ fuel => simp [settleWith, h, Table.empty, Table.keys, stepFirst?]
  exact hsettled _

/-- A call that sleeps has no answer while its time has not run out. -/
theorem perform_of_asleep (hidle : session.activities = Table.empty)
    (hcoordinated : session.coordinators.get? reference = some coordinator)
    (hlookUp : call.lookUp coordinator = ⟨found, .entering cell, none⟩)
    (henter : call.enter found worker cell = ⟨entered, .asleep cell, none⟩)
    (hruns : (Activity.calling reference call (.asleep cell) timeout).runsOut patience = false) :
    (session.perform worker (.calling reference call .begun timeout) patience).1 = none :=
  perform_of_step?_eq_none hidle (takes_to_entered hcoordinated hlookUp henter timeout) (by decide)
    (step?_alone_of_none (get?_withCoordinator hcoordinated entered) rfl) rfl hruns

/-- When its time has run out, a call that sleeps looks at its entry once more. -/
theorem perform_of_runsOut (hidle : session.activities = Table.empty)
    (hcoordinated : session.coordinators.get? reference = some coordinator)
    (hlookUp : call.lookUp coordinator = ⟨found, .entering cell, none⟩)
    (henter : call.enter found worker cell = ⟨entered, .asleep cell, none⟩)
    (hruns : (Activity.calling reference call (.asleep cell) timeout).runsOut patience = true)
    {stage : Coordinator.Stage}
    (hresume : call.resume entered worker cell true = ⟨entered, stage, none⟩)
    (hlast : call.step? entered worker stage = none) :
    session.perform worker (.calling reference call .begun timeout) patience =
      ((session.withCoordinator reference entered).alone worker
        (.calling reference call stage timeout)).collect worker := by
  have hentered := get?_withCoordinator hcoordinated entered
  have hasleep : Takes worker 2 session (.calling reference call .begun timeout)
      (session.withCoordinator reference entered)
      (.calling reference call (.asleep cell) timeout) :=
    takes_to_entered hcoordinated hlookUp henter timeout
  have hroused : call.step? entered worker (.roused cell true) = some ⟨entered, stage, none⟩ :=
    congrArg some hresume
  have hresumed : ((session.withCoordinator reference entered).alone worker
      (.calling reference call (.roused cell true) timeout)).step? worker =
        some ((session.withCoordinator reference entered).alone worker
          (.calling reference call stage timeout)) := by
    rw [step?_alone_calling hentered hroused, withCoordinator_self hentered]
    rfl
  have hpassed : ((session.withCoordinator reference entered).alone worker
      (.calling reference call (.asleep cell) timeout)).passTime worker patience =
        (session.withCoordinator reference entered).alone worker
          (.calling reference call stage timeout) := by
    rw [passTime, get?_alone]
    simp only [hruns, if_true, setActivity_alone]
    exact settle_of_takes (Takes.single hresumed) (step?_alone_of_none hentered hlast) (by decide)
  rw [perform, setActivity_of_activities hidle,
    settle_of_takes hasleep (step?_alone_of_none hentered rfl) (by decide), await, hpassed]

theorem perform_store (hidle : session.activities = Table.empty)
    (hcoordinated : session.coordinators.get? reference = some coordinator) (handle : SharedHandle)
    (timeout : Option UInt64) (patience : UInt64) :
    session.perform worker (.calling reference (.store handle) .begun timeout) patience =
      (some (.reply (.version (coordinator.store handle).1)),
        session.withCoordinator reference (coordinator.store handle).2) := by
  cases hfound : coordinator.count.find? handle.identity with
  | some cell =>
      have hlookUp : (Coordinator.Call.store handle).lookUp coordinator =
          ⟨coordinator.count, .entering cell, none⟩ := by
        simp only [Coordinator.Call.lookUp, hfound]
      simp only [Coordinator.store, hfound]
      exact perform_of_enter hidle hcoordinated hlookUp rfl timeout patience
  | none =>
      have hlookUp : (Coordinator.Call.store handle).lookUp coordinator =
          ⟨coordinator.count.track (Entry.start handle).touch, .returned (.version none), none⟩ := by
        simp only [Coordinator.Call.lookUp, hfound]
      simp only [Coordinator.store, hfound]
      exact perform_of_lookUp hidle hcoordinated hlookUp timeout patience

theorem perform_delete (hidle : session.activities = Table.empty)
    (hcoordinated : session.coordinators.get? reference = some coordinator) (identity : Identity)
    (timeout : Option UInt64) (patience : UInt64) :
    session.perform worker (.calling reference (.delete identity) .begun timeout) patience =
      (some (.reply (.version (coordinator.delete identity).1)),
        session.withCoordinator reference (coordinator.delete identity).2) := by
  cases hfound : coordinator.find? identity with
  | some cell =>
      have hlookUp : (Coordinator.Call.delete identity).lookUp coordinator =
          ⟨coordinator.untrack identity, .entering cell, none⟩ := by
        simp only [Coordinator.Call.lookUp, hfound]
      simp only [Coordinator.delete, hfound]
      exact perform_of_enter hidle hcoordinated hlookUp rfl timeout patience
  | none =>
      have hlookUp : (Coordinator.Call.delete identity).lookUp coordinator =
          ⟨coordinator, .returned (.version none), none⟩ := by
        simp only [Coordinator.Call.lookUp, hfound]
      simp only [Coordinator.delete, hfound]
      exact perform_of_lookUp hidle hcoordinated hlookUp timeout patience

/-- A read that need not wait leaves everything as it is. -/
theorem perform_current (hidle : session.activities = Table.empty)
    (hcoordinated : session.coordinators.get? reference = some coordinator) {identity : Identity}
    {version : Option SharedHandle} (hreads : coordinator.current? worker identity = some version)
    (timeout : Option UInt64) (patience : UInt64) :
    session.perform worker (.calling reference (.current identity) .begun timeout) patience =
      (some (.reply (.version version)), session) := by
  have hself := withCoordinator_self hcoordinated
  cases hfound : coordinator.find? identity with
  | some cell =>
      have hlookUp : (Coordinator.Call.current identity).lookUp coordinator =
          ⟨coordinator, .entering cell, none⟩ := by
        simp only [Coordinator.Call.lookUp, hfound]
      simp only [Coordinator.current?, hfound] at hreads
      have henter : (Coordinator.Call.current identity).enter coordinator worker cell =
          ⟨coordinator, .returned (.version version), none⟩ := by
        simp only [Coordinator.Call.enter, Coordinator.Call.readOrSleep, hreads]
      rw [perform_of_enter hidle hcoordinated hlookUp henter timeout patience, hself]
  | none =>
      have hlookUp : (Coordinator.Call.current identity).lookUp coordinator =
          ⟨coordinator, .returned (.version none), none⟩ := by
        simp only [Coordinator.Call.lookUp, hfound]
      simp only [Coordinator.current?, hfound, Option.some.injEq] at hreads
      rw [perform_of_lookUp hidle hcoordinated hlookUp timeout patience, hself, hreads]

/-- A read that has to wait has no answer, also after its time has run out. -/
theorem perform_current_of_none (hidle : session.activities = Table.empty)
    (hcoordinated : session.coordinators.get? reference = some coordinator) {identity : Identity}
    (hwaits : coordinator.current? worker identity = none) (timeout : Option UInt64)
    (patience : UInt64) :
    (session.perform worker (.calling reference (.current identity) .begun timeout) patience).1 =
      none := by
  cases hfound : coordinator.find? identity with
  | none =>
      simp only [Coordinator.current?, hfound] at hwaits
      cases hwaits
  | some cell =>
      simp only [Coordinator.current?, hfound] at hwaits
      have hlookUp : (Coordinator.Call.current identity).lookUp coordinator =
          ⟨coordinator, .entering cell, none⟩ := by
        simp only [Coordinator.Call.lookUp, hfound]
      have hsleeps : Coordinator.Call.readOrSleep coordinator worker cell =
          ⟨coordinator, .asleep cell, none⟩ := by
        simp only [Coordinator.Call.readOrSleep, hwaits]
      cases hruns : (Activity.calling reference (.current identity) (.asleep cell) timeout).runsOut
          patience with
      | false => exact perform_of_asleep hidle hcoordinated hlookUp hsleeps hruns
      | true =>
          rw [perform_of_runsOut hidle hcoordinated hlookUp hsleeps hruns hsleeps rfl]
          exact collect_alone_of_none rfl

/-- A lock that waits for all holds to go waits for its own, so that it can only run out of time. -/
theorem eq_of_perform_waiting_lock (hidle : session.activities = Table.empty)
    (hcoordinated : session.coordinators.get? reference = some coordinator)
    (hsound : coordinator.Sound) {handle : SharedHandle}
    (h : session.perform worker (.calling reference (.lock handle true) .begun timeout) patience =
      (some (.reply reply), later)) :
    reply = .flag false ∧
      later = session.withCoordinator reference (coordinator.lock worker handle) := by
  obtain ⟨cell, found, entry, hfound, hlock, hentry, hblocks⟩ := hsound.exists_of_lock worker handle
  have hlookUp : (Coordinator.Call.lock handle true).lookUp coordinator =
      ⟨found, .entering cell, none⟩ := by
    simp only [Coordinator.Call.lookUp, hfound]
  have hasleep : (Coordinator.Call.lock handle true).enter found worker cell =
      ⟨coordinator.lock worker handle, .asleep cell, none⟩ := by
    simp [Coordinator.Call.enter, hlock, Coordinator.Call.drainOrSleep, hentry, hblocks]
  have hresumed : (Coordinator.Call.lock handle true).resume (coordinator.lock worker handle) worker
      cell true = ⟨coordinator.lock worker handle, .returned (.flag false), none⟩ := by
    have hdrained := entry.isDrained_of_blocksDrain hblocks
    simp [Coordinator.Call.resume, Coordinator.Call.drainOrSleep, hentry, hdrained]
  cases hruns : (Activity.calling reference (.lock handle true) (.asleep cell) timeout).runsOut
      patience with
  | false =>
      have hnone := perform_of_asleep hidle hcoordinated hlookUp hasleep hruns
      rw [h] at hnone
      cases hnone
  | true =>
      rw [perform_of_runsOut hidle hcoordinated hlookUp hasleep hruns hresumed rfl,
        collect_alone_of_answer? rfl, idle_withCoordinator hidle] at h
      cases h
      exact ⟨rfl, rfl⟩

end Calls

end Session

end RoleStack

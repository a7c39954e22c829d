import RoleStack.Coordinator.Call
import RoleStack.Director
import RoleStack.Proofs.Entries

/-!
# Steps and sleepers

Reads and locks that wait sleep on the same entries. Their waits end in three ways: the last hold goes,
all holds go, or the entry is retired. Each of these steps wakes all sleepers of the entry, every other
step leaves the entry such that they have to wait, and a step ends in sleep only where this is so.
-/

namespace RoleStack

namespace Coordinator

/-! ### What a step may do to an entry that others sleep on -/

/-- After a step of the worker, every entry that made others wait makes them wait still, or its
sleepers are woken. -/
def Alerts (before after : Coordinator) (worker : Worker) (wakes : Option (Ref Entry)) : Prop :=
  ∀ cell entry, before.cells.get? cell = some entry → entry.blocksDrain = true →
    wakes = some cell ∨ ∃ changed, after.cells.get? cell = some changed ∧
      changed.blocksDrain = true ∧
      ∀ other, other ≠ worker → entry.isHeldBy other = false → changed.isHeldBy other = false

section Entries

variable {coordinator before middle after : Coordinator} {worker : Worker} {cell : Ref Entry}
  {wakes : Option (Ref Entry)} {old changed : Entry}

theorem alerts_of_cells_eq (h : after.cells = before.cells) (worker : Worker)
    (wakes : Option (Ref Entry)) : before.Alerts after worker wakes := by
  intro cell entry hentry hblocks
  refine Or.inr ⟨entry, ?_, hblocks, fun other hother hheld => hheld⟩
  rw [h]
  exact hentry

theorem alerts_count (coordinator : Coordinator) (worker : Worker) :
    coordinator.Alerts coordinator.count worker none :=
  alerts_of_cells_eq rfl worker none

theorem Alerts.trans (first : before.Alerts middle worker none)
    (second : middle.Alerts after worker wakes) : before.Alerts after worker wakes := by
  intro cell entry hentry hblocks
  rcases first cell entry hentry hblocks with hwoken | ⟨changed, hchanged, hstill, hheld⟩
  · cases hwoken
  rcases second cell changed hchanged hstill with hwoken | ⟨last, hlast, hwaits, hlater⟩
  · exact Or.inl hwoken
  · exact Or.inr ⟨last, hlast, hwaits,
      fun other hother hfree => hlater other hother (hheld other hother hfree)⟩

theorem alerts_track (coordinator : Coordinator) (entry : Entry) (worker : Worker) :
    coordinator.Alerts (coordinator.track entry) worker none := by
  intro cell present hpresent hblocks
  exact Or.inr ⟨present, Pool.get?_add_of_get? _ _ _ _ hpresent, hblocks, fun _ _ hheld => hheld⟩

theorem alerts_setEntry (hold : coordinator.cells.get? cell = some old)
    (hchange : old.blocksDrain = true → wakes = some cell ∨ changed.blocksDrain = true ∧
      ∀ other, other ≠ worker → old.isHeldBy other = false → changed.isHeldBy other = false) :
    coordinator.Alerts (coordinator.setEntry cell changed) worker wakes := by
  intro place entry hentry hblocks
  by_cases hplace : cell = place
  · subst hplace
    obtain rfl : old = entry := Option.some.inj (hold.symm.trans hentry)
    rcases hchange hblocks with hwoken | ⟨hstill, hheld⟩
    · exact Or.inl hwoken
    · exact Or.inr ⟨changed, Pool.get?_set_of_get? hold changed, hstill, hheld⟩
  · refine Or.inr ⟨entry, ?_, hblocks, fun other hother hheld => hheld⟩
    simp only [Coordinator.setEntry, Pool.get?_set, if_neg hplace]
    exact hentry

theorem alerts_replaceIn (coordinator : Coordinator) (cell : Ref Entry) (next : SharedHandle)
    (worker : Worker) : coordinator.Alerts (coordinator.replaceIn cell next).2 worker none := by
  unfold replaceIn
  split
  · exact alerts_of_cells_eq rfl worker none
  · rename_i entry hentry
    apply alerts_setEntry hentry
    intro hblocks
    exact Or.inr ⟨hblocks, fun other hother hheld => hheld⟩

theorem alerts_acquireIn (coordinator : Coordinator) (cell : Ref Entry) (worker : Worker) :
    coordinator.Alerts (coordinator.acquireIn cell worker) worker none := by
  unfold acquireIn
  split
  · exact alerts_of_cells_eq rfl worker none
  · rename_i entry hentry
    apply alerts_setEntry hentry
    intro hblocks
    refine Or.inr ⟨?_, ?_⟩
    · have hretired : entry.retired = false := by
        simp only [Entry.blocksDrain, Bool.and_eq_true] at hblocks
        simpa using hblocks.2
      simp [Entry.blocksDrain, Entry.isLocked, Entry.acquire, Entry.touch, hretired]
    · intro other hother hheld
      have hnotMem : other ∉ entry.holders := by simpa [Entry.isHeldBy] using hheld
      simp [Entry.isHeldBy, Entry.acquire, hother, hnotMem]

theorem alerts_retireIn (coordinator : Coordinator) (cell : Ref Entry) (worker : Worker) :
    coordinator.Alerts (coordinator.retireIn cell).2 worker (some cell) := by
  unfold retireIn
  split
  · exact alerts_of_cells_eq rfl worker (some cell)
  · rename_i entry hentry
    exact alerts_setEntry hentry fun _ => Or.inl rfl

/-- Where fewer holds are left, the sleepers have to be woken only if none is. -/
theorem alerts_fewer (hold : coordinator.cells.get? cell = some old)
    (hsubset : changed.holders ⊆ old.holders) (hretired : changed.retired = old.retired)
    (worker : Worker) :
    coordinator.Alerts (coordinator.count.setEntry cell changed) worker
      (if changed.isLocked then none else some cell) := by
  have hpresent : coordinator.count.cells.get? cell = some old := hold
  refine (alerts_count coordinator worker).trans (alerts_setEntry hpresent ?_)
  intro hblocks
  by_cases hlocked : changed.isLocked = true
  · refine Or.inr ⟨?_, ?_⟩
    · simp only [Entry.blocksDrain, Bool.and_eq_true] at hblocks ⊢
      rw [hretired]
      exact ⟨hlocked, hblocks.2⟩
    · intro other hother hheld
      have hnotMem : other ∉ old.holders := by simpa [Entry.isHeldBy] using hheld
      have hfree : other ∉ changed.holders := fun hmem => hnotMem (hsubset hmem)
      simpa [Entry.isHeldBy] using hfree
  · exact Or.inl (if_neg hlocked)

theorem alerts_releaseIn (coordinator : Coordinator) (cell : Ref Entry) (worker : Worker)
    (all : Bool) :
    coordinator.Alerts (coordinator.releaseIn cell worker all).2 worker
      (if (coordinator.releaseIn cell worker all).1 then
        Call.wakesAfterRelease (coordinator.releaseIn cell worker all).2 cell
      else none) := by
  cases hentry : coordinator.cells.get? cell with
  | none =>
      simp only [releaseIn, hentry]
      exact alerts_of_cells_eq rfl worker _
  | some entry =>
      by_cases hlocked : entry.isLocked = true
      · have hpresent : coordinator.count.cells.get? cell = some entry := hentry
        simp only [releaseIn, hentry, hlocked, if_true, Call.wakesAfterRelease, setEntry,
          Pool.get?_set_of_get? hpresent]
        cases all with
        | true =>
            exact alerts_fewer hentry entry.holders_releaseAll_subset
              (releaseAll_current entry).2 worker
        | false =>
            exact alerts_fewer hentry (entry.holders_release_subset worker)
              (release_current entry worker).2 worker
      · simp only [releaseIn, hentry, if_neg hlocked]
        exact alerts_of_cells_eq rfl worker _

/-! ### Whole calls inside a change -/

theorem alerts_store (coordinator : Coordinator) (next : SharedHandle) (worker : Worker) :
    coordinator.Alerts (coordinator.store next).2 worker none := by
  refine (alerts_count coordinator worker).trans ?_
  cases hfound : coordinator.count.find? next.identity with
  | none =>
      simp only [store, hfound]
      exact alerts_track coordinator.count _ worker
  | some cell =>
      simp only [store, hfound]
      exact alerts_replaceIn coordinator.count cell next worker

theorem alerts_findOrTrack (coordinator : Coordinator) (handle : SharedHandle) (worker : Worker) :
    coordinator.Alerts (coordinator.findOrTrack handle).2 worker none := by
  unfold findOrTrack
  split
  · exact alerts_of_cells_eq rfl worker none
  · exact alerts_track coordinator (Entry.start handle) worker

theorem alerts_lock (coordinator : Coordinator) (worker : Worker) (handle : SharedHandle) :
    coordinator.Alerts (coordinator.lock worker handle) worker none := by
  have hfound := alerts_findOrTrack coordinator.count handle worker
  exact ((alerts_count coordinator worker).trans hfound).trans (alerts_acquireIn _ _ worker)

theorem alerts_unlock (coordinator : Coordinator) (worker : Worker) (identity : Identity) :
    coordinator.Alerts (coordinator.unlock worker identity false).2 worker
      (if (coordinator.unlock worker identity false).1 &&
          !(coordinator.unlock worker identity false).2.isLocked identity then
        (coordinator.unlock worker identity false).2.find? identity
      else none) := by
  cases hfound : coordinator.find? identity with
  | none =>
      simp only [unlock, hfound]
      exact alerts_of_cells_eq rfl worker _
  | some cell =>
      cases hentry : coordinator.cells.get? cell with
      | none =>
          simp only [unlock, hfound, releaseIn, hentry]
          exact alerts_of_cells_eq rfl worker _
      | some entry =>
          have hplaces : coordinator.Places identity cell entry := ⟨hfound, hentry⟩
          by_cases hlocked : entry.isLocked = true
          · have hcounted : coordinator.count.Places identity cell entry := ⟨hfound, hentry⟩
            have hreleased := hcounted.setEntry (entry.release worker)
            have halerts := alerts_fewer hentry (entry.holders_release_subset worker)
              (release_current entry worker).2 worker
            rw [hplaces.unlock_eq hlocked]
            simp only [Bool.false_eq_true, if_false, Coordinator.isLocked, hreleased.entry?_eq,
              Option.map_some, Option.getD_some, hreleased.found, Bool.true_and]
            by_cases hstill : (entry.release worker).isLocked = true
            · simpa [hstill] using halerts
            · simpa [hstill] using halerts
          · rw [hplaces.unlock_eq_of_not_isLocked (by simpa using hlocked)]
            exact alerts_of_cells_eq rfl worker _

end Entries

/-! ### Steps of a call -/

namespace Call

/-- The call may have to sleep. -/
def Waits : Call → Prop
  | .lock _ waits => waits = true
  | .current _ => True
  | .store _ | .delete _ | .unlock .. => False

/-- The worker cannot return from the call as long as the entry is so. -/
def HeldUp (worker : Worker) (entry : Entry) : Call → Prop
  | .lock _ waits => waits = true ∧ entry.blocksDrain = true
  | .current _ => entry.blocksReader worker = true
  | .store _ | .delete _ | .unlock .. => False

variable {coordinator : Coordinator} {worker : Worker} {call : Call} {stage : Stage}
  {progress : Progress} {cell : Ref Entry} {entry changed : Entry}

theorem HeldUp.waits (h : call.HeldUp worker entry) : call.Waits := by
  cases call with
  | store | delete | unlock => exact h
  | lock handle waits => exact h.1
  | current identity => trivial

theorem HeldUp.blocksDrain (h : call.HeldUp worker entry) : entry.blocksDrain = true := by
  cases call with
  | store | delete | unlock => cases h
  | lock handle waits => exact h.2
  | current identity =>
      simp only [HeldUp, Entry.blocksReader, Bool.and_eq_true] at h
      simp [Entry.blocksDrain, h.1]

/-- What others do to the entry without waking its sleepers does not let them go on. -/
theorem HeldUp.of_blocksDrain (h : call.HeldUp worker entry) (hblocks : changed.blocksDrain = true)
    (hheld : entry.isHeldBy worker = false → changed.isHeldBy worker = false) :
    call.HeldUp worker changed := by
  cases call with
  | store | delete | unlock => cases h
  | lock handle waits => exact ⟨h.1, hblocks⟩
  | current identity =>
      simp only [HeldUp, Entry.blocksReader, Bool.and_eq_true, Bool.not_eq_true'] at h
      have hfree : changed.isHeldBy worker = false := hheld h.2
      simp only [Entry.blocksDrain, Bool.and_eq_true] at hblocks
      simp [HeldUp, Entry.blocksReader, hblocks, hfree]

theorem alerts_lookUp (call : Call) (coordinator : Coordinator) (worker : Worker) :
    coordinator.Alerts (call.lookUp coordinator).coordinator worker
      (call.lookUp coordinator).wakes := by
  cases call with
  | store handle =>
      refine (alerts_count coordinator worker).trans ?_
      simp only [lookUp]
      split
      · exact alerts_of_cells_eq rfl worker none
      · exact alerts_track coordinator.count _ worker
  | lock handle waits =>
      exact (alerts_count coordinator worker).trans
        (alerts_findOrTrack coordinator.count handle worker)
  | delete identity | unlock identity all | current identity =>
      simp only [lookUp]
      split <;> exact alerts_of_cells_eq rfl worker none

theorem readOrSleep_wakes (coordinator : Coordinator) (worker : Worker) (cell : Ref Entry) :
    (readOrSleep coordinator worker cell).wakes = none := by
  unfold readOrSleep
  split <;> rfl

theorem drainOrSleep_wakes (coordinator : Coordinator) (cell : Ref Entry) (timedOut : Bool) :
    (drainOrSleep coordinator cell timedOut).wakes = none := by
  unfold drainOrSleep
  split
  · rfl
  split <;> rfl

theorem resume_keeps (call : Call) (coordinator : Coordinator) (worker : Worker) (cell : Ref Entry)
    (timedOut : Bool) :
    (call.resume coordinator worker cell timedOut).coordinator = coordinator ∧
      (call.resume coordinator worker cell timedOut).stage.In cell ∧
      (call.resume coordinator worker cell timedOut).wakes = none := by
  unfold resume
  split
  · obtain ⟨hsame, hin⟩ := drainOrSleep_keeps coordinator cell timedOut
    exact ⟨hsame, hin, drainOrSleep_wakes coordinator cell timedOut⟩
  · obtain ⟨hsame, hin⟩ := readOrSleep_keeps coordinator worker cell
    exact ⟨hsame, hin, readOrSleep_wakes coordinator worker cell⟩

theorem alerts_enter (call : Call) (coordinator : Coordinator) (worker : Worker)
    (cell : Ref Entry) :
    coordinator.Alerts (call.enter coordinator worker cell).coordinator worker
      (call.enter coordinator worker cell).wakes := by
  cases call with
  | store handle => exact alerts_replaceIn coordinator cell handle worker
  | delete identity => exact alerts_retireIn coordinator cell worker
  | lock handle waits =>
      have hacquired := alerts_acquireIn coordinator cell worker
      rw [enter]
      split
      · rw [(drainOrSleep_keeps _ cell false).1, drainOrSleep_wakes]
        exact hacquired
      · exact hacquired
  | unlock identity all => exact alerts_releaseIn coordinator cell worker all
  | current identity =>
      rw [enter, (readOrSleep_keeps coordinator worker cell).1, readOrSleep_wakes]
      exact alerts_of_cells_eq rfl worker none

theorem alerts_resume (call : Call) (coordinator : Coordinator) (worker : Worker)
    (cell : Ref Entry) (timedOut : Bool) :
    coordinator.Alerts (call.resume coordinator worker cell timedOut).coordinator worker
      (call.resume coordinator worker cell timedOut).wakes := by
  obtain ⟨hsame, -, hwakes⟩ := call.resume_keeps coordinator worker cell timedOut
  rw [hsame, hwakes]
  exact alerts_of_cells_eq rfl worker none

theorem alerts_step? (hstep : call.step? coordinator worker stage = some progress) :
    coordinator.Alerts progress.coordinator worker progress.wakes := by
  cases stage with
  | begun =>
      obtain rfl := Option.some.inj hstep
      exact alerts_lookUp call coordinator worker
  | entering cell =>
      obtain rfl := Option.some.inj hstep
      exact alerts_enter call coordinator worker cell
  | roused cell timedOut =>
      obtain rfl := Option.some.inj hstep
      exact alerts_resume call coordinator worker cell timedOut
  | asleep cell => cases hstep
  | returned reply => cases hstep

/-! ### Going to sleep -/

/-- A step of the call ends in sleep only where the worker is held up, and never wakes the worker. -/
structure RestsHeldUp (call : Call) (worker : Worker) (progress : Progress) : Prop where
  asleep : ∀ cell, progress.stage = .asleep cell → ∃ entry,
    progress.coordinator.cells.get? cell = some entry ∧ call.HeldUp worker entry
  roused : ∀ cell timedOut, progress.stage ≠ .roused cell timedOut

theorem restsHeldUp_of_returned {reply : Reply} (h : progress.stage = .returned reply) :
    call.RestsHeldUp worker progress := by
  constructor
  · intro cell hasleep
    rw [h] at hasleep
    cases hasleep
  · intro cell timedOut hroused
    rw [h] at hroused
    cases hroused

theorem restsHeldUp_of_entering (h : progress.stage = .entering cell) :
    call.RestsHeldUp worker progress := by
  constructor
  · intro other hasleep
    rw [h] at hasleep
    cases hasleep
  · intro other timedOut hroused
    rw [h] at hroused
    cases hroused

theorem restsHeldUp_of_asleep (hentry : coordinator.cells.get? cell = some entry)
    (hheld : call.HeldUp worker entry) :
    call.RestsHeldUp worker ⟨coordinator, .asleep cell, none⟩ := by
  constructor
  · rintro other ⟨⟩
    exact ⟨entry, hentry, hheld⟩
  · rintro other timedOut ⟨⟩

theorem restsHeldUp_readOrSleep (coordinator : Coordinator) (worker : Worker) (cell : Ref Entry)
    (identity : Identity) :
    (current identity).RestsHeldUp worker (readOrSleep coordinator worker cell) := by
  unfold readOrSleep readIn?
  cases hentry : coordinator.cells.get? cell with
  | none => exact restsHeldUp_of_returned rfl
  | some entry =>
      by_cases hblocks : entry.blocksReader worker = true
      · simp only [hblocks, if_true]
        exact restsHeldUp_of_asleep hentry hblocks
      · simp only [if_neg hblocks]
        exact restsHeldUp_of_returned rfl

theorem restsHeldUp_drainOrSleep (coordinator : Coordinator) (worker : Worker) (cell : Ref Entry)
    (timedOut : Bool) (handle : SharedHandle) :
    (lock handle true).RestsHeldUp worker (drainOrSleep coordinator cell timedOut) := by
  unfold drainOrSleep
  cases hentry : coordinator.cells.get? cell with
  | none => exact restsHeldUp_of_returned rfl
  | some entry =>
      by_cases hblocks : (entry.blocksDrain && !timedOut) = true
      · have hdrain : entry.blocksDrain = true := by
          rw [Bool.and_eq_true] at hblocks
          exact hblocks.1
        simp only [hblocks, if_true]
        exact restsHeldUp_of_asleep hentry ⟨rfl, hdrain⟩
      · simp only [if_neg hblocks]
        exact restsHeldUp_of_returned rfl

theorem restsHeldUp_lookUp (call : Call) (coordinator : Coordinator) (worker : Worker) :
    call.RestsHeldUp worker (call.lookUp coordinator) := by
  cases call with
  | lock handle waits => exact restsHeldUp_of_entering rfl
  | store handle | delete identity | unlock identity all | current identity =>
      simp only [lookUp]
      split
      · exact restsHeldUp_of_entering rfl
      · exact restsHeldUp_of_returned rfl

theorem restsHeldUp_enter (call : Call) (coordinator : Coordinator) (worker : Worker)
    (cell : Ref Entry) : call.RestsHeldUp worker (call.enter coordinator worker cell) := by
  cases call with
  | store handle | delete identity | unlock identity all => exact restsHeldUp_of_returned rfl
  | lock handle waits =>
      cases waits with
      | true => exact restsHeldUp_drainOrSleep _ worker cell false handle
      | false => exact restsHeldUp_of_returned rfl
  | current identity => exact restsHeldUp_readOrSleep coordinator worker cell identity

theorem restsHeldUp_step? (hstep : call.step? coordinator worker stage = some progress)
    (hwaits : ∀ cell timedOut, stage = .roused cell timedOut → call.Waits) :
    call.RestsHeldUp worker progress := by
  cases stage with
  | begun =>
      obtain rfl := Option.some.inj hstep
      exact restsHeldUp_lookUp call coordinator worker
  | entering cell =>
      obtain rfl := Option.some.inj hstep
      exact restsHeldUp_enter call coordinator worker cell
  | roused cell timedOut =>
      obtain rfl := Option.some.inj hstep
      have hwaits := hwaits cell timedOut rfl
      cases call with
      | store | delete | unlock => cases hwaits
      | lock handle waits =>
          obtain rfl : waits = true := hwaits
          exact restsHeldUp_drainOrSleep coordinator worker cell timedOut handle
      | current identity => exact restsHeldUp_readOrSleep coordinator worker cell identity
  | asleep cell => cases hstep
  | returned reply => cases hstep

end Call

end Coordinator

/-! ### Steps of a change -/

theorem Change.alerts_step? {change : Change} {worker : Worker} {writers : Writers}
    {coordinator : Coordinator} {stage : Stage} {progress : Progress}
    (hstep : change.step? worker writers coordinator stage = some progress) :
    coordinator.Alerts progress.coordinator worker progress.wakes := by
  have hsame : ∀ wakes, coordinator.Alerts coordinator worker wakes :=
    fun wakes => Coordinator.alerts_of_cells_eq rfl worker wakes
  cases stage with
  | begun =>
      obtain rfl := Option.some.inj hstep
      exact hsame none
  | queued lock =>
      rw [step?] at hstep
      split at hstep
      · obtain rfl := Option.some.inj hstep
        exact hsame none
      · cases hstep
  | reading lock =>
      rw [step?] at hstep
      split at hstep <;> obtain rfl := Option.some.inj hstep <;> exact hsame none
  | waiting lock cell =>
      rw [step?] at hstep
      split at hstep
      · cases hstep
      · obtain rfl := Option.some.inj hstep
        exact hsame none
      · obtain rfl := Option.some.inj hstep
        exact hsame none
  | holding lock current =>
      obtain rfl := Option.some.inj hstep
      exact Coordinator.alerts_lock coordinator worker current
  | composing lock current => cases hstep
  | storing lock made =>
      obtain rfl := Option.some.inj hstep
      exact Coordinator.alerts_store coordinator made worker
  | lettingGo lock result =>
      obtain rfl := Option.some.inj hstep
      exact Coordinator.alerts_unlock coordinator worker change.identity
  | leaving lock result =>
      obtain rfl := Option.some.inj hstep
      exact hsame none
  | returned result => cases hstep

end RoleStack

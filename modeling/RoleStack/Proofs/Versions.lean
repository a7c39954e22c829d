import RoleStack.Coordinator.Call
import RoleStack.Proofs.SessionComposing

/-!
# The current version of an identity

Holds come and go without any effect on the version that a coordinator keeps. Only a store changes it,
and until the identity is removed it stays in the same entry.
-/

namespace RoleStack

namespace Coordinator

/-- The identity is in this entry with this version, and was not removed. -/
structure Tracks (coordinator : Coordinator) (identity : Identity) (cell : Ref Entry)
    (version : SharedHandle) : Prop where
  found : coordinator.find? identity = some cell
  entry : ∃ entry, coordinator.cells.get? cell = some entry ∧ entry.current = version ∧
    entry.retired = false

section Entries

variable {coordinator : Coordinator} {identity : Identity} {cell : Ref Entry}
  {version next handle : SharedHandle} {worker : Worker}

theorem Tracks.peek (h : coordinator.Tracks identity cell version) :
    coordinator.peek identity = some version := by
  obtain ⟨entry, hentry, hcurrent, -⟩ := h.entry
  rw [Coordinator.peek, entry?, h.found, Option.bind_some, hentry, Option.map_some, hcurrent]

theorem Tracks.count (h : coordinator.Tracks identity cell version) :
    coordinator.count.Tracks identity cell version :=
  ⟨h.found, h.entry⟩

theorem Tracks.setEntry (h : coordinator.Tracks identity cell version) {entry : Entry}
    (hcurrent : entry.current = next) (hretired : entry.retired = false) :
    (coordinator.setEntry cell entry).Tracks identity cell next := by
  obtain ⟨present, hpresent, -⟩ := h.entry
  exact ⟨h.found, entry, Pool.get?_set_of_get? hpresent entry, hcurrent, hretired⟩

theorem Tracks.acquireIn (h : coordinator.Tracks identity cell version) (worker : Worker) :
    (coordinator.acquireIn cell worker).Tracks identity cell version := by
  obtain ⟨entry, hentry, hcurrent, hretired⟩ := h.entry
  rw [Coordinator.acquireIn, hentry]
  exact h.setEntry hcurrent hretired

theorem release_current (entry : Entry) (worker : Worker) :
    (entry.release worker).current = entry.current ∧
      (entry.release worker).retired = entry.retired := by
  unfold Entry.release
  split <;> exact ⟨rfl, rfl⟩

theorem releaseAll_current (entry : Entry) :
    entry.releaseAll.current = entry.current ∧ entry.releaseAll.retired = entry.retired := by
  unfold Entry.releaseAll
  split <;> exact ⟨rfl, rfl⟩

theorem Tracks.releaseIn (h : coordinator.Tracks identity cell version) (worker : Worker)
    (all : Bool) : (coordinator.releaseIn cell worker all).2.Tracks identity cell version := by
  obtain ⟨entry, hentry, hcurrent, hretired⟩ := h.entry
  rw [Coordinator.releaseIn, hentry]
  simp only
  split
  · cases all with
    | true =>
        obtain ⟨hkept, hstays⟩ := releaseAll_current entry
        exact h.count.setEntry (hkept.trans hcurrent) (hstays.trans hretired)
    | false =>
        obtain ⟨hkept, hstays⟩ := release_current entry worker
        exact h.count.setEntry (hkept.trans hcurrent) (hstays.trans hretired)
  · exact h

theorem Tracks.findOrTrack (h : coordinator.Tracks identity cell version)
    (hidentity : handle.identity = identity) : coordinator.findOrTrack handle = (cell, coordinator) := by
  rw [Coordinator.findOrTrack, hidentity, h.found]

theorem Tracks.lock (h : coordinator.Tracks identity cell version)
    (hidentity : handle.identity = identity) (worker : Worker) :
    (coordinator.lock worker handle).Tracks identity cell version := by
  rw [Coordinator.lock, h.count.findOrTrack hidentity]
  exact h.count.acquireIn worker

theorem Tracks.unlock (h : coordinator.Tracks identity cell version) (worker : Worker)
    (all : Bool) : (coordinator.unlock worker identity all).2.Tracks identity cell version := by
  rw [Coordinator.unlock, h.found]
  exact h.releaseIn worker all

theorem Tracks.store (h : coordinator.Tracks identity cell version)
    (hidentity : next.identity = identity) :
    (coordinator.store next).2.Tracks identity cell next := by
  obtain ⟨entry, hentry, -, hretired⟩ := h.count.entry
  rw [Coordinator.store, hidentity]
  rw [h.count.found]
  simp only [Coordinator.replaceIn, hentry]
  exact h.count.setEntry rfl hretired

/-- Who need not wait reads the current version. -/
theorem Tracks.eq_of_readIn? (h : coordinator.Tracks identity cell version)
    {result : Option SharedHandle} (hread : coordinator.readIn? cell worker = some result) :
    result = some version := by
  obtain ⟨entry, hentry, rfl, hretired⟩ := h.entry
  rw [Coordinator.readIn?, hentry] at hread
  simp only at hread
  split at hread
  · cases hread
  · rw [Entry.version?, hretired] at hread
    exact (Option.some.inj hread).symm

end Entries

/-! ### Calls on holds -/

/-- A lock, an unlock or a read of this identity. -/
def Call.Spares (identity : Identity) : Call → Prop
  | .lock handle _ => handle.identity = identity
  | .unlock other _ => other = identity
  | .current other => other = identity
  | .store _ | .delete _ => False

def Stage.In (cell : Ref Entry) : Stage → Prop
  | .entering other | .asleep other | .roused other _ => other = cell
  | .begun | .returned _ => True

section Calls

variable {coordinator : Coordinator} {identity : Identity} {cell : Ref Entry}
  {version : SharedHandle} {worker : Worker} {call : Call} {stage : Stage} {progress : Progress}

theorem Stage.In.wake (h : stage.In cell) (woken : Ref Entry) : (stage.wake woken).In cell := by
  cases stage with
  | asleep other =>
      rw [Stage.wake]
      split <;> exact h
  | begun | entering | roused | returned => exact h

theorem Stage.In.expire (h : stage.In cell) : stage.expire.In cell := by
  cases stage with
  | asleep other => exact h
  | begun | entering | roused | returned => exact h

theorem Call.readOrSleep_keeps (coordinator : Coordinator) (worker : Worker) (cell : Ref Entry) :
    (Call.readOrSleep coordinator worker cell).coordinator = coordinator ∧
      (Call.readOrSleep coordinator worker cell).stage.In cell := by
  unfold Call.readOrSleep
  split
  · exact ⟨rfl, rfl⟩
  · exact ⟨rfl, trivial⟩

theorem Call.drainOrSleep_keeps (coordinator : Coordinator) (cell : Ref Entry) (timedOut : Bool) :
    (Call.drainOrSleep coordinator cell timedOut).coordinator = coordinator ∧
      (Call.drainOrSleep coordinator cell timedOut).stage.In cell := by
  unfold Call.drainOrSleep
  split
  · exact ⟨rfl, trivial⟩
  split
  · exact ⟨rfl, rfl⟩
  · exact ⟨rfl, trivial⟩

theorem Call.Spares.lookUp (h : call.Spares identity)
    (htracks : coordinator.Tracks identity cell version) :
    (call.lookUp coordinator).coordinator.Tracks identity cell version ∧
      (call.lookUp coordinator).stage.In cell := by
  cases call with
  | store handle => cases h
  | delete other => cases h
  | lock handle waits =>
      rw [Call.lookUp, htracks.count.findOrTrack h]
      exact ⟨htracks.count, rfl⟩
  | unlock other all =>
      obtain rfl : other = identity := h
      rw [Call.lookUp, htracks.found]
      exact ⟨htracks, rfl⟩
  | current other =>
      obtain rfl : other = identity := h
      rw [Call.lookUp, htracks.found]
      exact ⟨htracks, rfl⟩

theorem Call.Spares.enter (h : call.Spares identity)
    (htracks : coordinator.Tracks identity cell version) (worker : Worker) :
    (call.enter coordinator worker cell).coordinator.Tracks identity cell version ∧
      (call.enter coordinator worker cell).stage.In cell := by
  cases call with
  | store handle => cases h
  | delete other => cases h
  | lock handle waits =>
      have hacquired := htracks.acquireIn worker
      rw [Call.enter]
      split
      · obtain ⟨hkept, hstage⟩ :=
          Call.drainOrSleep_keeps (coordinator.acquireIn cell worker) cell false
        rw [hkept]
        exact ⟨hacquired, hstage⟩
      · exact ⟨hacquired, trivial⟩
  | unlock other all => exact ⟨htracks.releaseIn worker all, trivial⟩
  | current other =>
      obtain ⟨hkept, hstage⟩ := Call.readOrSleep_keeps coordinator worker cell
      rw [Call.enter, hkept]
      exact ⟨htracks, hstage⟩

theorem Call.Spares.resume (h : call.Spares identity)
    (htracks : coordinator.Tracks identity cell version) (worker : Worker) (timedOut : Bool) :
    (call.resume coordinator worker cell timedOut).coordinator.Tracks identity cell version ∧
      (call.resume coordinator worker cell timedOut).stage.In cell := by
  cases call with
  | store handle => cases h
  | delete other => cases h
  | lock handle waits =>
      obtain ⟨hkept, hstage⟩ := Call.drainOrSleep_keeps coordinator cell timedOut
      rw [Call.resume, hkept]
      exact ⟨htracks, hstage⟩
  | unlock other all | current other =>
      obtain ⟨hkept, hstage⟩ := Call.readOrSleep_keeps coordinator worker cell
      rw [Call.resume, hkept]
      · exact ⟨htracks, hstage⟩
      · intro _ _ hcall
        cases hcall

/-- No step of such a call touches the version. -/
theorem Call.Spares.step (h : call.Spares identity)
    (htracks : coordinator.Tracks identity cell version) (hstage : stage.In cell)
    (hstep : call.step? coordinator worker stage = some progress) :
    progress.coordinator.Tracks identity cell version ∧ progress.stage.In cell := by
  cases stage with
  | begun =>
      obtain rfl := Option.some.inj hstep
      exact h.lookUp htracks
  | entering other =>
      obtain rfl : other = cell := hstage
      obtain rfl := Option.some.inj hstep
      exact h.enter htracks worker
  | roused other timedOut =>
      obtain rfl : other = cell := hstage
      obtain rfl := Option.some.inj hstep
      exact h.resume htracks worker timedOut
  | asleep other => cases hstep
  | returned reply => cases hstep

end Calls

end Coordinator

end RoleStack

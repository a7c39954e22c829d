import RoleStack.Proofs.Versions

/-!
# Entries of identities

A call on an identity works in the entry that the identity has. No two identities share an entry, so
the call leaves all others alone, and the version in an entry is one of its identity.
-/

namespace RoleStack

namespace Pool

variable {Object : Type}

theorem get?_next (pool : Pool Object) : pool.get? pool.next = none := by
  simp [get?, next]

theorem next_ne_of_get? {pool : Pool Object} {reference : Ref Object} {object : Object}
    (h : pool.get? reference = some object) : pool.next ≠ reference := by
  intro hsame
  rw [← hsame, get?_next] at h
  cases h

end Pool

namespace Entry

variable {entry : Entry} {worker : Worker}

theorem isLocked_of_isHeldBy (h : entry.isHeldBy worker = true) : entry.isLocked = true := by
  have hmem : worker ∈ entry.holders := by simpa [isHeldBy] using h
  simp [isLocked, List.ne_nil_of_mem hmem]

/-- A worker that holds the entry drops a hold of its own. -/
theorem release_of_isHeldBy (h : entry.isHeldBy worker = true) :
    entry.release worker = { entry.touch with holders := entry.holders.erase worker } := by
  rw [release, if_pos (isLocked_of_isHeldBy h), if_pos h]

theorem isHeldBy_acquire_self (entry : Entry) (worker : Worker) :
    (entry.acquire worker).isHeldBy worker = true := by
  simp [acquire, isHeldBy]

/-- The hold that was taken is the one that goes, whatever other holds there are. -/
theorem release_acquire (entry : Entry) (worker : Worker) :
    (entry.acquire worker).release worker =
      { entry with manipulations := entry.manipulations + 2 } := by
  rw [release_of_isHeldBy (isHeldBy_acquire_self entry worker)]
  simp [acquire, touch, UInt64.add_assoc]

theorem release_replace_acquire (entry : Entry) (worker : Worker) (next : SharedHandle) :
    ((entry.acquire worker).replace next).release worker =
      { entry with current := next, manipulations := entry.manipulations + 3 } := by
  have hheld : ((entry.acquire worker).replace next).isHeldBy worker = true :=
    isHeldBy_acquire_self entry worker
  rw [release_of_isHeldBy hheld]
  simp [acquire, replace, touch, UInt64.add_assoc]

theorem holders_release_subset (entry : Entry) (worker : Worker) :
    (entry.release worker).holders ⊆ entry.holders := by
  unfold release
  split
  · by_cases hheld : entry.isHeldBy worker = true
    · rw [if_pos hheld]
      exact List.erase_subset
    · rw [if_neg hheld]
      exact (List.tail_sublist entry.holders).subset
  · exact List.Subset.refl _

theorem holders_releaseAll_subset (entry : Entry) : entry.releaseAll.holders ⊆ entry.holders := by
  unfold releaseAll
  split
  · exact List.nil_subset _
  · exact List.Subset.refl _

end Entry

namespace Coordinator

variable {coordinator : Coordinator} {identity other : Identity} {cell : Ref Entry}
  {entry changed : Entry} {handle : SharedHandle}

/-- The identity is tracked, and this is its entry. -/
structure Places (coordinator : Coordinator) (identity : Identity) (cell : Ref Entry)
    (entry : Entry) : Prop where
  found : coordinator.find? identity = some cell
  present : coordinator.cells.get? cell = some entry

namespace Places

variable (h : coordinator.Places identity cell entry)
include h

theorem entry?_eq : coordinator.entry? identity = some entry := by
  rw [Coordinator.entry?, h.found, Option.bind_some, h.present]

theorem count : coordinator.count.Places identity cell entry :=
  ⟨h.found, h.present⟩

theorem setEntry (changed : Entry) :
    (coordinator.setEntry cell changed).Places identity cell changed :=
  ⟨h.found, Pool.get?_set_of_get? h.present changed⟩

theorem lock_eq (hidentity : handle.identity = identity) (worker : Worker) :
    coordinator.lock worker handle = coordinator.count.setEntry cell (entry.acquire worker) := by
  have hfound : coordinator.count.find? handle.identity = some cell := by
    rw [hidentity]
    exact h.found
  have hpresent : coordinator.count.cells.get? cell = some entry := h.present
  simp only [Coordinator.lock, findOrTrack, hfound, acquireIn, hpresent]

theorem lock (hidentity : handle.identity = identity) (worker : Worker) :
    (coordinator.lock worker handle).Places identity cell (entry.acquire worker) := by
  rw [h.lock_eq hidentity]
  exact h.count.setEntry _

theorem store_eq (hidentity : handle.identity = identity) :
    coordinator.store handle =
      (some entry.current, coordinator.count.setEntry cell (entry.replace handle)) := by
  have hfound : coordinator.count.find? handle.identity = some cell := by
    rw [hidentity]
    exact h.found
  have hpresent : coordinator.count.cells.get? cell = some entry := h.present
  simp only [Coordinator.store, hfound, replaceIn, hpresent]

theorem store (hidentity : handle.identity = identity) :
    (coordinator.store handle).2.Places identity cell (entry.replace handle) := by
  rw [h.store_eq hidentity]
  exact h.count.setEntry _

theorem unlock_eq (hlocked : entry.isLocked = true) (worker : Worker) (all : Bool) :
    coordinator.unlock worker identity all =
      (true, coordinator.count.setEntry cell
        (if all then entry.releaseAll else entry.release worker)) := by
  simp only [unlock, h.found, releaseIn, h.present, hlocked, if_true]

theorem unlock_one (hlocked : entry.isLocked = true) (worker : Worker) :
    (coordinator.unlock worker identity false).2.Places identity cell (entry.release worker) := by
  rw [h.unlock_eq hlocked]
  exact h.count.setEntry _

theorem unlock_eq_of_not_isLocked (hunlocked : entry.isLocked = false) (worker : Worker)
    (all : Bool) : coordinator.unlock worker identity all = (false, coordinator) := by
  simp [unlock, h.found, releaseIn, h.present, hunlocked]

theorem delete_eq :
    coordinator.delete identity =
      (some entry.current, (coordinator.untrack identity).setEntry cell entry.retire) := by
  have hpresent : (coordinator.untrack identity).cells.get? cell = some entry := h.present
  simp only [delete, h.found, retireIn, hpresent]

end Places

/-- What all calls keep: each tracked identity has an entry to itself, which was not retired and whose
version is one of this identity. -/
structure Sound (coordinator : Coordinator) : Prop where
  placed : ∀ identity cell, coordinator.find? identity = some cell →
    ∃ entry, coordinator.cells.get? cell = some entry ∧ entry.current.identity = identity ∧
      entry.retired = false
  apart : ∀ identity other cell, coordinator.find? identity = some cell →
    coordinator.find? other = some cell → identity = other

theorem sound_start (config : CoordinatorConfig) : (start config).Sound := by
  constructor
  · intro identity cell hfound
    cases hfound
  · intro identity other cell hfound
    cases hfound

namespace Sound

variable (h : coordinator.Sound)
include h

theorem count : coordinator.count.Sound :=
  ⟨h.placed, h.apart⟩

theorem setEntry (hplaces : coordinator.Places identity cell entry)
    (hcurrent : changed.current.identity = identity) (hretired : changed.retired = false) :
    (coordinator.setEntry cell changed).Sound := by
  constructor
  · intro other place hfound
    by_cases hplace : cell = place
    · subst hplace
      have hsame : identity = other := h.apart identity other cell hplaces.found hfound
      refine ⟨changed, (hplaces.setEntry changed).present, ?_, hretired⟩
      rw [hcurrent, hsame]
    · obtain ⟨present, hpresent, hkept⟩ := h.placed other place hfound
      refine ⟨present, ?_, hkept⟩
      simp only [Coordinator.setEntry, Pool.get?_set, if_neg hplace]
      exact hpresent
  · exact h.apart

/-- The entries of all other identities stay as they are. -/
theorem entry?_setEntry_of_ne (hplaces : coordinator.Places identity cell entry)
    (hother : other ≠ identity) :
    Coordinator.entry? (coordinator.setEntry cell changed) other = coordinator.entry? other := by
  have hsame : (coordinator.setEntry cell changed).find? other = coordinator.find? other := rfl
  rw [Coordinator.entry?, Coordinator.entry?, hsame]
  cases hfound : coordinator.find? other with
  | none => rfl
  | some place =>
      have hplace : cell ≠ place := by
        intro hplace
        subst hplace
        exact hother (h.apart other identity cell hfound hplaces.found)
      simp only [Option.bind_some, Coordinator.setEntry, Pool.get?_set, if_neg hplace]

theorem track (hretired : entry.retired = false) : (coordinator.track entry).Sound := by
  have hfind : ∀ identity, (coordinator.track entry).find? identity =
      if entry.current.identity = identity then some coordinator.cells.next
      else coordinator.find? identity :=
    fun identity => Table.get?_insert _ _ _ _
  -- The place of the new entry was nobody's before.
  have hfresh : ∀ identity, coordinator.find? identity ≠ some coordinator.cells.next := by
    intro identity hfound
    obtain ⟨present, hpresent, -⟩ := h.placed identity _ hfound
    exact Pool.next_ne_of_get? hpresent rfl
  constructor
  · intro identity cell hfound
    rw [hfind] at hfound
    split at hfound
    · rename_i hidentity
      obtain rfl := Option.some.inj hfound
      exact ⟨entry, Pool.get?_add_next _ _, hidentity, hretired⟩
    · obtain ⟨present, hpresent, hkept⟩ := h.placed identity cell hfound
      exact ⟨present, Pool.get?_add_of_get? _ _ _ _ hpresent, hkept⟩
  · intro identity other cell hfound hother
    rw [hfind] at hfound hother
    split at hfound <;> split at hother
    · rename_i hidentity hsame
      exact hidentity.symm.trans hsame
    · rw [← hfound] at hother
      exact absurd hother (hfresh other)
    · rw [← hother] at hfound
      exact absurd hfound (hfresh identity)
    · exact h.apart identity other cell hfound hother

theorem store (handle : SharedHandle) : (coordinator.store handle).2.Sound := by
  cases hfound : coordinator.count.find? handle.identity with
  | none =>
      simp only [Coordinator.store, hfound]
      exact h.count.track rfl
  | some cell =>
      obtain ⟨entry, hpresent, -, hretired⟩ := h.count.placed handle.identity cell hfound
      have hplaces : coordinator.count.Places handle.identity cell entry := ⟨hfound, hpresent⟩
      simp only [Coordinator.store, hfound, replaceIn, hpresent]
      exact h.count.setEntry hplaces rfl hretired

theorem lock (worker : Worker) (handle : SharedHandle) :
    (coordinator.lock worker handle).Sound := by
  cases hfound : coordinator.count.find? handle.identity with
  | none =>
      have hplaces : (coordinator.count.track (Entry.start handle)).Places handle.identity
          coordinator.count.cells.next (Entry.start handle) := by
        constructor
        · rw [find?, Coordinator.track, Table.get?_insert]
          exact if_pos rfl
        · exact Pool.get?_add_next _ _
      have htracked : (coordinator.count.track (Entry.start handle)).Sound := h.count.track rfl
      simp only [Coordinator.lock, findOrTrack, hfound, acquireIn, hplaces.present]
      exact htracked.setEntry hplaces rfl rfl
  | some cell =>
      obtain ⟨entry, hpresent, hcurrent, hretired⟩ :=
        h.count.placed handle.identity cell hfound
      have hplaces : coordinator.count.Places handle.identity cell entry := ⟨hfound, hpresent⟩
      simp only [Coordinator.lock, findOrTrack, hfound, acquireIn, hpresent]
      exact h.count.setEntry hplaces hcurrent hretired

theorem unlock (worker : Worker) (identity : Identity) (all : Bool) :
    (coordinator.unlock worker identity all).2.Sound := by
  cases hfound : coordinator.find? identity with
  | none =>
      simp only [Coordinator.unlock, hfound]
      exact h
  | some cell =>
      obtain ⟨entry, hpresent, hcurrent, hretired⟩ := h.placed identity cell hfound
      have hplaces : coordinator.Places identity cell entry := ⟨hfound, hpresent⟩
      by_cases hlocked : entry.isLocked = true
      · rw [hplaces.unlock_eq hlocked]
        have hplaces : coordinator.count.Places identity cell entry := ⟨hfound, hpresent⟩
        apply h.count.setEntry hplaces
        · cases all with
          | true => rw [if_pos rfl, (releaseAll_current entry).1, hcurrent]
          | false => simp [(release_current entry worker).1, hcurrent]
        · cases all with
          | true => rw [if_pos rfl, (releaseAll_current entry).2, hretired]
          | false => simp [(release_current entry worker).2, hretired]
      · rw [hplaces.unlock_eq_of_not_isLocked (by simpa using hlocked)]
        exact h

theorem delete (identity : Identity) : (coordinator.delete identity).2.Sound := by
  cases hfound : coordinator.find? identity with
  | none =>
      simp only [Coordinator.delete, hfound]
      exact h
  | some cell =>
      obtain ⟨entry, hpresent, -⟩ := h.placed identity cell hfound
      have hplaces : coordinator.Places identity cell entry := ⟨hfound, hpresent⟩
      have hfind : ∀ other, ((coordinator.untrack identity).setEntry cell entry.retire).find? other =
          if identity = other then none else coordinator.find? other :=
        fun other => Table.get?_erase _ _ _
      rw [hplaces.delete_eq]
      constructor
      · intro other place hother
        rw [hfind] at hother
        split at hother
        · cases hother
        · rename_i hne
          have hplace : cell ≠ place := by
            intro hplace
            subst hplace
            exact hne (h.apart identity other cell hfound hother)
          obtain ⟨present, hkept⟩ := h.placed other place hother
          refine ⟨present, ?_⟩
          simp only [Coordinator.setEntry, Pool.get?_set, if_neg hplace]
          exact hkept
      · intro first second place hfirst hsecond
        rw [hfind] at hfirst hsecond
        split at hfirst
        · cases hfirst
        split at hsecond
        · cases hsecond
        exact h.apart first second place hfirst hsecond

end Sound

/-- The coordinators that calls lead to from an empty one. Reads leave a coordinator as it is. -/
inductive Reached : Coordinator → Prop where
  | start (config : CoordinatorConfig) : Reached (start config)
  | store {coordinator : Coordinator} (reached : Reached coordinator) (handle : SharedHandle) :
      Reached (coordinator.store handle).2
  | lock {coordinator : Coordinator} (reached : Reached coordinator) (worker : Worker)
      (handle : SharedHandle) : Reached (coordinator.lock worker handle)
  | unlock {coordinator : Coordinator} (reached : Reached coordinator) (worker : Worker)
      (identity : Identity) (all : Bool) : Reached (coordinator.unlock worker identity all).2
  | delete {coordinator : Coordinator} (reached : Reached coordinator) (identity : Identity) :
      Reached (coordinator.delete identity).2

theorem Reached.sound (h : coordinator.Reached) : coordinator.Sound := by
  induction h with
  | start config => exact sound_start config
  | store reached handle ih => exact ih.store handle
  | lock reached worker handle ih => exact ih.lock worker handle
  | unlock reached worker identity all ih => exact ih.unlock worker identity all
  | delete reached identity ih => exact ih.delete identity

end Coordinator

end RoleStack

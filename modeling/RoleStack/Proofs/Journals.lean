import RoleStack.Proofs.Errands

/-!
# Journals of a coordinator

Every call that can change a coordinator leaves a line in its journal, the newest first. A line touches
the entry of one identity only, so an entry is what the lines on its identity have made of it.
-/

namespace RoleStack

namespace Table

variable {Key Value : Type} [DecidableEq Key]

theorem mem_keys_insert (table : Table Key Value) (key other : Key) (value : Value) :
    other ∈ (table.insert key value).keys ↔ key = other ∨ other ∈ table.keys := by
  rw [mem_keys_iff, mem_keys_iff, get?_insert]
  by_cases hsame : key = other <;> simp [hsame]

theorem nodup_keys_insert {table : Table Key Value} (h : table.keys.Nodup) (key : Key)
    (value : Value) : (table.insert key value).keys.Nodup := by
  obtain ⟨entries⟩ := table
  induction entries with
  | nil => exact List.nodup_singleton key
  | cons entry rest ih =>
      obtain ⟨present, old⟩ := entry
      obtain ⟨hnew, hrest⟩ := List.nodup_cons.mp h
      by_cases hpresent : present = key
      · subst hpresent
        simp only [insert, insertEntry, if_true]
        exact h
      · have hmem := (mem_keys_insert ⟨rest⟩ key present value).not.mpr
          (not_or.mpr ⟨Ne.symm hpresent, hnew⟩)
        simp only [insert, insertEntry, if_neg hpresent]
        exact List.nodup_cons.mpr ⟨hmem, ih hrest⟩

theorem nodup_keys_erase {table : Table Key Value} (h : table.keys.Nodup) (key : Key) :
    (table.erase key).keys.Nodup :=
  h.sublist (List.filter_sublist.map Prod.fst)

end Table

namespace Coordinator

/-! ### Lines -/

/-- What a call did. -/
inductive Transaction where
  | stored (handle : SharedHandle)
  | locked (worker : Worker) (handle : SharedHandle)
  /-- With whether there was any hold to drop. -/
  | unlocked (worker : Worker) (identity : Identity) (all released : Bool)
  | deleted (identity : Identity)
deriving DecidableEq

namespace Transaction

def identity : Transaction → Identity
  | .stored handle | .locked _ handle => handle.identity
  | .unlocked _ identity _ _ | .deleted identity => identity

def isDeletion : Transaction → Bool
  | .deleted _ => true
  | .stored _ | .locked .. | .unlocked .. => false

/-- The version that the call brought along. -/
def handle? : Transaction → Option SharedHandle
  | .stored handle | .locked _ handle => some handle
  | .unlocked .. | .deleted _ => none

/-- What becomes of the entry of the identity, which begins with a store or a lock. -/
def amend (entry : Option Entry) : Transaction → Option Entry
  | .stored handle => some ((entry.getD (Entry.start handle)).replace handle)
  | .locked worker handle => some ((entry.getD (Entry.start handle)).acquire worker)
  | .unlocked worker _ all _ =>
      entry.map fun entry => if all then entry.releaseAll else entry.release worker
  | .deleted _ => none

/-- An unlock tells whether the entry was locked. -/
def Fits (entry : Option Entry) : Transaction → Prop
  | .unlocked _ _ _ released => released = (entry.map Entry.isLocked).getD false
  | .stored _ | .locked .. | .deleted _ => True

/-- The lines on an identity. -/
def linesOn (journal : List Transaction) (identity : Identity) : List Transaction :=
  journal.filter fun line => line.identity = identity

/-- The lines on an identity after its last removal. -/
def sinceRemoval (journal : List Transaction) (identity : Identity) : List Transaction :=
  (linesOn journal identity).takeWhile fun line => !line.isDeletion

variable {line : Transaction} {identity : Identity}

theorem linesOn_cons_of_eq (h : line.identity = identity) (journal : List Transaction) :
    linesOn (line :: journal) identity = line :: linesOn journal identity :=
  List.filter_cons_of_pos (decide_eq_true h)

theorem linesOn_cons_of_ne (h : line.identity ≠ identity) (journal : List Transaction) :
    linesOn (line :: journal) identity = linesOn journal identity :=
  List.filter_cons_of_neg (by simpa using h)

theorem sinceRemoval_cons_of_eq (h : line.identity = identity) (hkept : line.isDeletion = false)
    (journal : List Transaction) :
    sinceRemoval (line :: journal) identity = line :: sinceRemoval journal identity := by
  rw [sinceRemoval, linesOn_cons_of_eq h, List.takeWhile_cons_of_pos (by simp [hkept]), sinceRemoval]

theorem sinceRemoval_cons_of_isDeletion (h : line.identity = identity)
    (hgone : line.isDeletion = true) (journal : List Transaction) :
    sinceRemoval (line :: journal) identity = [] := by
  rw [sinceRemoval, linesOn_cons_of_eq h, List.takeWhile_cons_of_neg (by simp [hgone])]

end Transaction

/-- The call leads from one coordinator to the next, and this is its line. -/
inductive Leads (before : Coordinator) : Transaction → Coordinator → Prop where
  | store (handle : SharedHandle) : before.Leads (.stored handle) (before.store handle).2
  | lock (worker : Worker) (handle : SharedHandle) :
      before.Leads (.locked worker handle) (before.lock worker handle)
  | unlock (worker : Worker) (identity : Identity) (all : Bool) :
      before.Leads (.unlocked worker identity all (before.unlock worker identity all).1)
        (before.unlock worker identity all).2
  | delete (identity : Identity) : before.Leads (.deleted identity) (before.delete identity).2

/-- The coordinators that calls lead to from an empty one, each with its journal. -/
inductive After (config : CoordinatorConfig) : List Transaction → Coordinator → Prop where
  | start : After config [] (start config)
  | next {journal : List Transaction} {line : Transaction} {before after : Coordinator}
      (earlier : After config journal before) (leads : before.Leads line after) :
      After config (line :: journal) after

section Steps

variable {coordinator before after : Coordinator} {line : Transaction} {identity : Identity}
  {config : CoordinatorConfig} {journal : List Transaction} {entry : Entry}

theorem Sound.amends_delete (h : coordinator.Sound) (identity : Identity) :
    coordinator.Amends (coordinator.delete identity).2 identity none := by
  have hsound := h.delete identity
  cases hentry : coordinator.entry? identity with
  | none =>
      have hsame : coordinator.delete identity = (none, coordinator) := by
        rw [Coordinator.delete, h.find?_of_entry? hentry]
      rw [hsame]
      exact ⟨h, hentry, fun _ _ => rfl⟩
  | some entry =>
      obtain ⟨cell, hplaces, -⟩ := h.places_of_entry? hentry
      rw [hplaces.delete_eq] at hsound ⊢
      have hfind : ∀ other, ((coordinator.untrack identity).setEntry cell entry.retire).find? other =
          if identity = other then none else coordinator.find? other :=
        fun other => Table.get?_erase _ _ _
      refine ⟨hsound, ?_, ?_⟩
      · rw [Coordinator.entry?, hfind, if_pos rfl, Option.bind_none]
      · intro other hother
        have hsame : Coordinator.entry? (coordinator.setEntry cell entry.retire) other =
            coordinator.entry? other := h.entry?_setEntry_of_ne hplaces hother
        rw [Coordinator.entry?, hfind, if_neg (Ne.symm hother), ← hsame]
        rfl

theorem Leads.amends (h : before.Leads line after) (hsound : before.Sound) :
    before.Amends after line.identity (line.amend (before.entry? line.identity)) := by
  cases h with
  | store handle => exact hsound.amends_store handle
  | lock worker handle => exact hsound.amends_lock worker handle
  | unlock worker identity all => exact hsound.amends_unlock worker identity all
  | delete identity => exact hsound.amends_delete identity

theorem Leads.fits (h : before.Leads line after) (hsound : before.Sound) :
    line.Fits (before.entry? line.identity) := by
  cases h with
  | unlock worker identity all => exact hsound.unlock_fst worker identity all
  | store | lock | delete => trivial

theorem Leads.nodup_keys (h : before.Leads line after) (hnodup : before.entries.keys.Nodup) :
    after.entries.keys.Nodup := by
  cases h with
  | store handle =>
      unfold Coordinator.store replaceIn
      cases hfound : before.count.find? handle.identity with
      | none =>
          simp only [hfound]
          exact Table.nodup_keys_insert hnodup _ _
      | some cell =>
          simp only [hfound]
          split <;> exact hnodup
  | lock worker handle =>
      unfold Coordinator.lock findOrTrack acquireIn
      cases hfound : before.count.find? handle.identity with
      | none =>
          simp only
          split <;> exact Table.nodup_keys_insert hnodup _ _
      | some cell =>
          simp only
          split <;> exact hnodup
  | unlock worker identity all =>
      unfold Coordinator.unlock releaseIn
      split
      · exact hnodup
      · split
        · exact hnodup
        · split <;> exact hnodup
  | delete identity =>
      unfold Coordinator.delete retireIn
      split
      · exact hnodup
      · split <;> exact Table.nodup_keys_erase hnodup _

theorem After.sound (h : coordinator.After config journal) : coordinator.Sound := by
  induction h with
  | start => exact sound_start config
  | next _ leads ih => exact (leads.amends ih).sound

/-- What is so of an untracked identity without lines, and stays so with every line, is so of each
identity and its lines. -/
theorem After.of_lines {motive : List Transaction → Option Entry → Prop} (hstart : motive [] none)
    (hnext : ∀ line lines entry, line.Fits entry → motive lines entry →
      motive (line :: lines) (line.amend entry))
    (h : coordinator.After config journal) (identity : Identity) :
    motive (Transaction.linesOn journal identity) (coordinator.entry? identity) := by
  induction h with
  | start => exact hstart
  | @next journal line before after earlier leads ih =>
      have hamends := leads.amends earlier.sound
      by_cases hidentity : line.identity = identity
      · subst hidentity
        rw [Transaction.linesOn_cons_of_eq rfl, hamends.amended]
        exact hnext _ _ _ (leads.fits earlier.sound) ih
      · rw [Transaction.linesOn_cons_of_ne hidentity, hamends.others identity (Ne.symm hidentity)]
        exact ih

/-! ### Tracked identities -/

theorem After.nodup_identities (h : coordinator.After config journal) :
    coordinator.identities.Nodup := by
  have hkeys : coordinator.entries.keys.Nodup := by
    induction h with
    | start => exact List.nodup_nil
    | next _ leads ih => exact leads.nodup_keys ih
  exact (List.mergeSort_perm _ _).nodup_iff.mpr hkeys

theorem Sound.contains_eq (h : coordinator.Sound) (identity : Identity) :
    coordinator.contains identity = (coordinator.entry? identity).isSome := by
  rw [contains_eq_isSome]
  cases hentry : coordinator.entry? identity with
  | none =>
      rw [h.find?_of_entry? hentry]
      rfl
  | some entry =>
      obtain ⟨cell, hplaces, -⟩ := h.places_of_entry? hentry
      rw [hplaces.found]
      rfl

theorem Sound.mem_identities_iff (h : coordinator.Sound) :
    identity ∈ coordinator.identities ↔ (coordinator.entry? identity).isSome = true := by
  rw [← h.contains_eq]
  exact (List.mergeSort_perm _ _).mem_iff.trans (Table.mem_keys_iff _ _)

end Steps

end Coordinator

end RoleStack

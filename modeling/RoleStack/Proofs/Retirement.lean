import RoleStack.Proofs.Interleaving

/-!
# Retired entries

An entry that was retired stays so, and whoever still has it in hand reads nothing there. Of the steps
of a change only the hold and the store look an identity up again, so only they can track it anew.
-/

namespace RoleStack

namespace Coordinator

/-- If the identity is tracked, its entry is there. -/
def Known (coordinator : Coordinator) (identity : Identity) : Prop :=
  ∀ cell, coordinator.find? identity = some cell →
    ∃ entry, coordinator.cells.get? cell = some entry

def Retired (coordinator : Coordinator) (cell : Ref Entry) : Prop :=
  ∃ entry, coordinator.cells.get? cell = some entry ∧ entry.retired = true

/-- The entry is that of the identity, or was at some time. -/
def Offers (coordinator : Coordinator) (identity : Identity) (cell : Ref Entry) : Prop :=
  coordinator.find? identity = some cell ∨ coordinator.Retired cell

/-- No entry that a caller may have in hand gets lost. -/
structure Follows (identity : Identity) (before after : Coordinator) : Prop where
  known : before.Known identity → after.Known identity
  offers : ∀ cell, before.Offers identity cell → after.Offers identity cell

section Entries

variable {coordinator before middle after : Coordinator} {identity : Identity} {cell : Ref Entry}
  {other : Ref Entry} {old entry : Entry}

theorem Retired.readIn? (h : coordinator.Retired cell) (worker : Worker) :
    coordinator.readIn? cell worker = some none := by
  obtain ⟨entry, hentry, hretired⟩ := h
  rw [Coordinator.readIn?, hentry]
  simp [Entry.blocksReader, Entry.version?, hretired]

theorem Follows.refl (identity : Identity) (coordinator : Coordinator) :
    Follows identity coordinator coordinator :=
  ⟨id, fun _ => id⟩

theorem Follows.trans (first : Follows identity before middle)
    (second : Follows identity middle after) : Follows identity before after :=
  ⟨second.known ∘ first.known, fun cell h => second.offers cell (first.offers cell h)⟩

theorem follows_count (identity : Identity) (coordinator : Coordinator) :
    Follows identity coordinator coordinator.count :=
  ⟨id, fun _ => id⟩

theorem Known.setEntry (h : coordinator.Known identity) (cell : Ref Entry) (entry : Entry) :
    (coordinator.setEntry cell entry).Known identity := by
  intro other hfound
  obtain ⟨old, hold⟩ := h other hfound
  rw [Coordinator.setEntry]
  simp only [Pool.get?_set]
  split
  · exact ⟨entry, by rw [hold, Option.map_some]⟩
  · exact ⟨old, hold⟩

theorem Retired.setEntry (h : coordinator.Retired other)
    (hold : coordinator.cells.get? cell = some old)
    (hstays : old.retired = true → entry.retired = true) :
    (coordinator.setEntry cell entry).Retired other := by
  obtain ⟨present, hpresent, hretired⟩ := h
  rw [Retired, Coordinator.setEntry]
  simp only [Pool.get?_set]
  split
  · rename_i hsame
    subst hsame
    obtain rfl := Option.some.inj (hold.symm.trans hpresent)
    exact ⟨entry, by rw [hold, Option.map_some], hstays hretired⟩
  · exact ⟨present, hpresent, hretired⟩

/-- An entry may change in any way that does not bring it back. -/
theorem follows_setEntry (identity : Identity) (hold : coordinator.cells.get? cell = some old)
    (hstays : old.retired = true → entry.retired = true) :
    Follows identity coordinator (coordinator.setEntry cell entry) where
  known h := h.setEntry cell entry
  offers _ h := h.imp id fun hretired => hretired.setEntry hold hstays

/-- A new entry takes nobody's place if its identity had none. -/
theorem follows_track (identity : Identity)
    (hfresh : coordinator.find? entry.current.identity = none) :
    Follows identity coordinator (coordinator.track entry) := by
  have hkept : ∀ cell, coordinator.find? identity = some cell →
      (coordinator.track entry).find? identity = some cell := by
    intro cell hfound
    rw [find?, Coordinator.track, Table.get?_insert, if_neg]
    · exact hfound
    · intro hsame
      rw [hsame, hfound] at hfresh
      cases hfresh
  constructor
  · intro hknown cell hfound
    rw [find?, Coordinator.track, Table.get?_insert] at hfound
    split at hfound
    · obtain rfl := Option.some.inj hfound
      exact ⟨entry, Pool.get?_add_next _ _⟩
    · obtain ⟨old, hold⟩ := hknown cell hfound
      exact ⟨old, Pool.get?_add_of_get? _ _ _ _ hold⟩
  · rintro cell (hfound | ⟨old, hold, hretired⟩)
    · exact Or.inl (hkept cell hfound)
    · exact Or.inr ⟨old, Pool.get?_add_of_get? _ _ _ _ hold, hretired⟩

theorem follows_replaceIn (identity : Identity) (coordinator : Coordinator) (cell : Ref Entry)
    (next : SharedHandle) : Follows identity coordinator (coordinator.replaceIn cell next).2 := by
  unfold Coordinator.replaceIn
  split
  · exact .refl identity coordinator
  · rename_i entry hentry
    exact follows_setEntry identity hentry id

theorem follows_acquireIn (identity : Identity) (coordinator : Coordinator) (cell : Ref Entry)
    (worker : Worker) : Follows identity coordinator (coordinator.acquireIn cell worker) := by
  unfold Coordinator.acquireIn
  split
  · exact .refl identity coordinator
  · rename_i entry hentry
    exact follows_setEntry identity hentry id

theorem follows_releaseIn (identity : Identity) (coordinator : Coordinator) (cell : Ref Entry)
    (worker : Worker) : Follows identity coordinator (coordinator.releaseIn cell worker false).2 := by
  unfold Coordinator.releaseIn
  split
  · exact .refl identity coordinator
  split
  · rename_i entry hentry _
    refine (follows_count identity coordinator).trans (follows_setEntry identity hentry ?_)
    exact (release_current entry worker).2.trans
  · exact .refl identity coordinator

theorem follows_store (identity : Identity) (coordinator : Coordinator) (next : SharedHandle) :
    Follows identity coordinator (coordinator.store next).2 := by
  refine (follows_count identity coordinator).trans ?_
  cases hfound : coordinator.count.find? next.identity with
  | some cell =>
      simp only [Coordinator.store, hfound]
      exact follows_replaceIn identity coordinator.count cell next
  | none =>
      simp only [Coordinator.store, hfound]
      exact follows_track identity hfound

theorem follows_lock (identity : Identity) (coordinator : Coordinator) (worker : Worker)
    (handle : SharedHandle) : Follows identity coordinator (coordinator.lock worker handle) := by
  refine (follows_count identity coordinator).trans ?_
  cases hfound : coordinator.count.find? handle.identity with
  | some cell =>
      simp only [Coordinator.lock, Coordinator.findOrTrack, hfound]
      exact follows_acquireIn identity coordinator.count cell worker
  | none =>
      simp only [Coordinator.lock, Coordinator.findOrTrack, hfound]
      exact (follows_track identity hfound).trans (follows_acquireIn identity _ _ worker)

theorem follows_unlock (identity : Identity) (coordinator : Coordinator) (worker : Worker)
    (released : Identity) :
    Follows identity coordinator (coordinator.unlock worker released false).2 := by
  unfold Coordinator.unlock
  split
  · exact .refl identity coordinator
  · exact follows_releaseIn identity coordinator _ worker

theorem find?_delete (coordinator : Coordinator) (identity : Identity) :
    (coordinator.delete identity).2.find? identity = none := by
  cases hfound : coordinator.find? identity with
  | none =>
      simp only [Coordinator.delete, hfound]
  | some cell =>
      have huntracked : (coordinator.untrack identity).find? identity = none := by
        rw [find?, untrack, Table.get?_erase, if_pos rfl]
      simp only [Coordinator.delete, hfound, retireIn]
      split <;> exact huntracked

/-- Removal is the only way that an identity loses its entry, and it retires that entry. -/
theorem follows_delete (hknown : coordinator.Known identity) :
    Follows identity coordinator (coordinator.delete identity).2 := by
  have huntracked := find?_delete coordinator identity
  cases hfound : coordinator.find? identity with
  | none =>
      simp only [Coordinator.delete, hfound]
      exact .refl identity coordinator
  | some cell =>
      obtain ⟨entry, hentry⟩ := hknown cell hfound
      have hdeleted : (coordinator.delete identity).2 =
          (coordinator.untrack identity).setEntry cell entry.retire := by
        rw [Coordinator.delete, hfound]
        simp only [retireIn, untrack, hentry]
      rw [hdeleted] at huntracked ⊢
      constructor
      · intro _ other hother
        rw [huntracked] at hother
        cases hother
      rintro other (hother | ⟨present, hpresent, hretired⟩)
      · obtain rfl := Option.some.inj (hfound.symm.trans hother)
        exact Or.inr ⟨entry.retire, Pool.get?_set_of_get? hentry _, rfl⟩
      · have hgone : (coordinator.untrack identity).Retired other := ⟨present, hpresent, hretired⟩
        exact Or.inr (hgone.setEntry hentry fun _ => rfl)

theorem find?_unlock (coordinator : Coordinator) (worker : Worker) (other identity : Identity) :
    (coordinator.unlock worker other false).2.find? identity = coordinator.find? identity := by
  unfold Coordinator.unlock
  split
  · rfl
  unfold Coordinator.releaseIn
  split
  · rfl
  split <;> rfl

end Entries

end Coordinator

/-! ### Steps of a change -/

namespace Change

/-- The change has read the version that it works on, and may still have to store. -/
def Stage.HasRead : Stage → Prop
  | .holding .. | .composing .. | .storing .. => True
  | .begun | .queued _ | .reading _ | .waiting .. | .lettingGo .. | .leaving .. | .returned _ => False

/-- The next step takes the hold or stores, which tracks the identity if nobody does. -/
def Stage.Tracks : Stage → Prop
  | .holding .. | .storing .. => True
  | .begun | .queued _ | .reading _ | .waiting .. | .composing .. | .lettingGo .. | .leaving ..
  | .returned _ => False

theorem Stage.Tracks.hasRead {stage : Stage} (h : stage.Tracks) : stage.HasRead := by
  cases stage with
  | holding | storing => trivial
  | begun | queued | reading | waiting | composing | lettingGo | leaving | returned => cases h

/-- What a step of a change may do to the entries of a coordinator, and where it may lead. -/
structure Effect (change : Change) (worker : Worker) (coordinator : Coordinator) (stage : Stage)
    (next : Coordinator) (reached : Stage) : Prop where
  follows : Coordinator.Follows change.identity coordinator next
  found : ¬ stage.Tracks → next.find? change.identity = coordinator.find? change.identity
  waits : ∀ lock cell, reached = .waiting lock cell → next.find? change.identity = some cell
  reads : reached.HasRead → stage.HasRead ∨ ∃ lock cell current, stage = .waiting lock cell ∧
    coordinator.readIn? cell worker = some (some current)

variable {change : Change} {worker : Worker} {writers : Writers} {coordinator next : Coordinator}
  {stage reached : Stage} {progress : Progress}

/-- A step that leads neither to the entry nor to its version. -/
theorem Effect.of_apart (follows : Coordinator.Follows change.identity coordinator next)
    (found : ¬ stage.Tracks → next.find? change.identity = coordinator.find? change.identity)
    (hwaits : ∀ lock cell, reached ≠ .waiting lock cell) (hreads : ¬ reached.HasRead) :
    change.Effect worker coordinator stage next reached :=
  ⟨follows, found, fun lock cell h => absurd h (hwaits lock cell), fun h => absurd h hreads⟩

theorem effect_of_step? (hstep : change.step? worker writers coordinator stage = some progress) :
    change.Effect worker coordinator stage progress.coordinator progress.stage := by
  cases stage with
  | begun =>
      obtain rfl := Option.some.inj hstep
      exact .of_apart (.refl _ _) (fun _ => rfl) (by rintro _ _ ⟨⟩) id
  | queued lock =>
      rw [step?] at hstep
      split at hstep
      · obtain rfl := Option.some.inj hstep
        exact .of_apart (.refl _ _) (fun _ => rfl) (by rintro _ _ ⟨⟩) id
      · cases hstep
  | reading lock =>
      rw [step?] at hstep
      split at hstep
      · rename_i cell hfound
        obtain rfl := Option.some.inj hstep
        refine ⟨.refl _ _, fun _ => rfl, ?_, False.elim⟩
        rintro _ _ ⟨⟩
        exact hfound
      · obtain rfl := Option.some.inj hstep
        exact .of_apart (.refl _ _) (fun _ => rfl) (by rintro _ _ ⟨⟩) id
  | waiting lock cell =>
      rw [step?] at hstep
      split at hstep
      · cases hstep
      · obtain rfl := Option.some.inj hstep
        exact .of_apart (.refl _ _) (fun _ => rfl) (by rintro _ _ ⟨⟩) id
      · rename_i current hread
        obtain rfl := Option.some.inj hstep
        refine ⟨.refl _ _, fun _ => rfl, by rintro _ _ ⟨⟩, ?_⟩
        exact fun _ => Or.inr ⟨lock, cell, current, rfl, hread⟩
  | holding lock current =>
      obtain rfl := Option.some.inj hstep
      exact ⟨Coordinator.follows_lock _ _ worker current, fun h => absurd trivial h,
        by rintro _ _ ⟨⟩, fun _ => Or.inl trivial⟩
  | composing lock current => cases hstep
  | storing lock made =>
      obtain rfl := Option.some.inj hstep
      exact .of_apart (Coordinator.follows_store _ _ made) (fun h => absurd trivial h)
        (by rintro _ _ ⟨⟩) id
  | lettingGo lock result =>
      obtain rfl := Option.some.inj hstep
      exact .of_apart (Coordinator.follows_unlock _ _ worker change.identity)
        (fun _ => Coordinator.find?_unlock _ _ _ _) (by rintro _ _ ⟨⟩) id
  | leaving lock result =>
      obtain rfl := Option.some.inj hstep
      exact .of_apart (.refl _ _) (fun _ => rfl) (by rintro _ _ ⟨⟩) id
  | returned result => cases hstep

theorem effect_of_composed (change : Change) (worker : Worker) (coordinator : Coordinator)
    (lock : Ref WriterLock) (current : SharedHandle) (result : Except CompositionError SharedHandle) :
    change.Effect worker coordinator (.composing lock current) coordinator (composed lock result) := by
  refine ⟨.refl _ _, fun _ => rfl, ?_, fun _ => Or.inl trivial⟩
  cases result <;> rintro _ _ ⟨⟩

/-- Without an entry a change cannot get at a version, and only one that has a version brings the
entry back. -/
theorem Effect.of_removed (h : change.Effect worker coordinator stage next reached)
    (hremoved : coordinator.find? change.identity = none)
    (hoffered : ∀ lock cell, stage = .waiting lock cell → coordinator.Offers change.identity cell)
    (hstage : ¬ stage.Tracks) :
    next.find? change.identity = none ∧ (reached.HasRead → stage.HasRead) := by
  refine ⟨(h.found hstage).trans hremoved, fun hreached => ?_⟩
  rcases h.reads hreached with hread | ⟨lock, cell, current, hwaiting, hread⟩
  · exact hread
  rcases hoffered lock cell hwaiting with hfound | hretired
  · rw [hremoved] at hfound
    cases hfound
  · rw [hretired.readIn? worker] at hread
    cases hread

end Change

end RoleStack

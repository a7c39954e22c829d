import RoleStack.Proofs.Holds
import Mathlib.Algebra.BigOperators.Group.List.Basic
import Mathlib.Algebra.GroupWithZero.Nat

/-!
# Counted manipulations

A coordinator counts the stores, the locks and the unlocks that dropped a hold, on all identities together
and on each since it began to track it. The two agree but for what was counted on removed identities. The
counters are words, so they are exact as long as less is counted than a word can hold.
-/

namespace RoleStack

namespace Coordinator

namespace Transaction

/-- A store, a lock, or an unlock that dropped a hold. -/
def isManipulation : Transaction → Bool
  | .stored _ | .locked .. => true
  | .unlocked _ _ _ released => released
  | .deleted _ => false

/-- The manipulations of an identity since its last removal. -/
def manipulationsIn (journal : List Transaction) (identity : Identity) : Nat :=
  (sinceRemoval journal identity).countP isManipulation

/-- What had been counted on the removed identities when they were removed. -/
def countedAtRemovals : List Transaction → Nat
  | [] => 0
  | line :: earlier =>
      (if line.isDeletion then manipulationsIn earlier line.identity else 0) +
        countedAtRemovals earlier

theorem isManipulation_of_isDeletion {line : Transaction} (h : line.isDeletion = true) :
    line.isManipulation = false := by
  cases line with
  | deleted identity => rfl
  | stored | locked | unlocked => cases h

theorem manipulationsIn_cons (line : Transaction) (journal : List Transaction) :
    manipulationsIn (line :: journal) line.identity =
      if line.isDeletion then 0
      else manipulationsIn journal line.identity + if line.isManipulation then 1 else 0 := by
  cases hkept : line.isDeletion with
  | true =>
      rw [manipulationsIn, sinceRemoval_cons_of_isDeletion rfl hkept]
      rfl
  | false =>
      rw [manipulationsIn, sinceRemoval_cons_of_eq rfl hkept, List.countP_cons]
      rfl

theorem manipulationsIn_cons_of_ne {line : Transaction} {identity : Identity}
    (h : line.identity ≠ identity) (journal : List Transaction) :
    manipulationsIn (line :: journal) identity = manipulationsIn journal identity := by
  rw [manipulationsIn, sinceRemoval, linesOn_cons_of_ne h, manipulationsIn, sinceRemoval]

theorem ofNat_countP_cons (line : Transaction) (lines : List Transaction) :
    UInt64.ofNat ((line :: lines).countP isManipulation) =
      UInt64.ofNat (lines.countP isManipulation) + if line.isManipulation then 1 else 0 := by
  rw [List.countP_cons, UInt64.ofNat_add]
  split <;> rfl

end Transaction

section Counting

variable {coordinator before after : Coordinator} {config : CoordinatorConfig}
  {journal : List Transaction} {line : Transaction} {identity : Identity}

open Transaction

theorem manipulations_release (entry : Entry) (worker : Worker) :
    (entry.release worker).manipulations =
      entry.manipulations + if entry.isLocked then 1 else 0 := by
  unfold Entry.release
  cases entry.isLocked with
  | true => rfl
  | false => exact (UInt64.add_zero _).symm

theorem manipulations_releaseAll (entry : Entry) :
    entry.releaseAll.manipulations = entry.manipulations + if entry.isLocked then 1 else 0 := by
  unfold Entry.releaseAll
  cases entry.isLocked with
  | true => rfl
  | false => exact (UInt64.add_zero _).symm

/-- One more line is one more manipulation of its identity or none, unless it removes the identity. -/
theorem Transaction.manipulations_amend {entry : Option Entry} (hfits : line.Fits entry)
    (hkept : line.isDeletion = false) :
    ((line.amend entry).map Entry.manipulations).getD 0 =
      (entry.map Entry.manipulations).getD 0 + if line.isManipulation then 1 else 0 := by
  cases line with
  | stored handle => cases entry <;> rfl
  | locked worker handle => cases entry <;> rfl
  | unlocked worker identity all released =>
      obtain rfl : released = _ := hfits
      cases entry with
      | none => rfl
      | some entry =>
          cases all with
          | true => exact manipulations_releaseAll entry
          | false => exact manipulations_release entry worker
  | deleted identity => cases hkept

theorem After.manipulationsOf_eq (h : coordinator.After config journal) (identity : Identity) :
    coordinator.manipulationsOf identity = .ofNat (manipulationsIn journal identity) := by
  refine h.of_lines (motive := fun lines entry => (entry.map Entry.manipulations).getD 0 =
    .ofNat ((lines.takeWhile fun line => !line.isDeletion).countP isManipulation)) rfl ?_ identity
  intro line lines entry hfits hlines
  cases hkept : line.isDeletion with
  | true =>
      have hgone : line.amend entry = none := by
        cases line with
        | deleted identity => rfl
        | stored | locked | unlocked => cases hkept
      rw [hgone, List.takeWhile_cons_of_neg (by simp [hkept])]
      rfl
  | false =>
      rw [manipulations_amend hfits hkept, hlines, List.takeWhile_cons_of_pos (by simp [hkept]),
        ofNat_countP_cons]

/-- All identities together are counted line by line. -/
theorem Leads.counted (h : before.Leads line after) :
    after.manipulations = before.manipulations + if line.isManipulation then 1 else 0 := by
  cases h with
  | store handle =>
      unfold Coordinator.store replaceIn
      cases hfound : before.count.find? handle.identity with
      | none =>
          simp only [hfound]
          rfl
      | some cell =>
          simp only [hfound]
          split <;> rfl
  | lock worker handle =>
      unfold Coordinator.lock findOrTrack acquireIn
      cases hfound : before.count.find? handle.identity with
      | none =>
          simp only
          split <;> rfl
      | some cell =>
          simp only
          split <;> rfl
  | unlock worker identity all =>
      cases hfound : before.find? identity with
      | none => simp [Coordinator.unlock, hfound, isManipulation]
      | some cell =>
          cases hpresent : before.cells.get? cell with
          | none => simp [Coordinator.unlock, hfound, releaseIn, hpresent, isManipulation]
          | some entry =>
              cases hlocked : entry.isLocked <;>
                simp [Coordinator.unlock, hfound, releaseIn, hpresent, hlocked, isManipulation,
                  setEntry, count]
  | delete identity =>
      refine Eq.trans ?_ (UInt64.add_zero _).symm
      unfold Coordinator.delete retireIn
      split
      · rfl
      · split <;> rfl

theorem After.manipulations_eq (h : coordinator.After config journal) :
    coordinator.manipulations = .ofNat (journal.countP isManipulation) := by
  induction h with
  | start => rfl
  | next _ leads ih => rw [leads.counted, ih, ofNat_countP_cons]

/-- Nothing is to be counted on an untracked identity. -/
theorem After.manipulationsIn_eq_zero (h : coordinator.After config journal)
    (huntracked : coordinator.entry? identity = none) : manipulationsIn journal identity = 0 := by
  refine h.of_lines (motive := fun lines entry => entry = none →
    (lines.takeWhile fun line => !line.isDeletion).countP isManipulation = 0) (fun _ => rfl) ?_
    identity huntracked
  intro line lines entry hfits hlines hnone
  cases line with
  | stored | locked => cases hnone
  | deleted identity => rfl
  | unlocked worker identity all released =>
      -- there is no entry either before an unlock that leaves none, and so no hold to drop
      obtain rfl : entry = none := Option.map_eq_none_iff.mp hnone
      obtain rfl : released = false := hfits
      exact hlines rfl

/-- The manipulations of the tracked identities, put together. -/
def countedOnTracked (coordinator : Coordinator) (journal : List Transaction) : Nat :=
  (coordinator.identities.map (manipulationsIn journal)).sum

theorem After.countedOnTracked_eq (h : coordinator.After config journal) (identity : Identity) :
    coordinator.countedOnTracked journal = manipulationsIn journal identity +
      ((coordinator.identities.erase identity).map (manipulationsIn journal)).sum := by
  unfold countedOnTracked
  by_cases hmem : identity ∈ coordinator.identities
  · exact (List.sum_map_erase (manipulationsIn journal) hmem).symm
  · have huntracked : coordinator.entry? identity = none := by
      simpa using h.sound.mem_identities_iff.not.mp hmem
    rw [h.manipulationsIn_eq_zero huntracked, List.erase_of_not_mem hmem, Nat.zero_add]

/-- The other identities are counted as before. -/
theorem After.sum_erase (h : before.After config journal) (leads : before.Leads line after) :
    ((after.identities.erase line.identity).map (manipulationsIn (line :: journal))).sum =
      ((before.identities.erase line.identity).map (manipulationsIn journal)).sum := by
  have hnext := After.next h leads
  have hamends := leads.amends h.sound
  have hsame : ∀ other ∈ after.identities.erase line.identity,
      manipulationsIn (line :: journal) other = manipulationsIn journal other := fun other hother =>
    manipulationsIn_cons_of_ne (Ne.symm (hnext.nodup_identities.mem_erase_iff.mp hother).1) journal
  have hperm : (after.identities.erase line.identity).Perm
      (before.identities.erase line.identity) := by
    rw [List.perm_ext_iff_of_nodup (hnext.nodup_identities.erase _) (h.nodup_identities.erase _)]
    intro other
    rw [hnext.nodup_identities.mem_erase_iff, h.nodup_identities.mem_erase_iff]
    refine and_congr_right fun hother => ?_
    rw [hnext.sound.mem_identities_iff, h.sound.mem_identities_iff, hamends.others other hother]
  rw [List.map_congr_left hsame]
  exact (hperm.map (manipulationsIn journal)).sum_eq

theorem countedOnTracked_start (config : CoordinatorConfig) :
    (Coordinator.start config).countedOnTracked [] = 0 := by
  have hnone : (Coordinator.start config).identities = [] := List.mergeSort_nil
  rw [countedOnTracked, hnone]
  rfl

/-- A manipulation is one of a tracked identity, until this is removed. -/
theorem After.countP_eq (h : coordinator.After config journal) :
    journal.countP isManipulation =
      coordinator.countedOnTracked journal + countedAtRemovals journal := by
  induction h with
  | start => rw [countedOnTracked_start]; rfl
  | @next journal line before after earlier leads ih =>
      have hothers := earlier.sum_erase leads
      have hbefore := earlier.countedOnTracked_eq line.identity
      have hafter := (After.next earlier leads).countedOnTracked_eq line.identity
      have hline := manipulationsIn_cons line journal
      rw [countedAtRemovals, List.countP_cons]
      cases hkept : line.isDeletion with
      | true =>
          have hnone := line.isManipulation_of_isDeletion hkept
          simp only [hkept, hnone, if_true, Bool.false_eq_true, if_false] at hline ⊢
          omega
      | false =>
          simp only [hkept, Bool.false_eq_true, if_false] at hline ⊢
          omega

/-- What a word counts is exact if all that is counted fits into one. -/
theorem After.toNat_manipulationsOf (h : coordinator.After config journal)
    (hfits : journal.countP isManipulation < UInt64.size) (identity : Identity) :
    (coordinator.manipulationsOf identity).toNat = manipulationsIn journal identity := by
  have hle : manipulationsIn journal identity ≤ journal.countP isManipulation := by
    rw [h.countP_eq, h.countedOnTracked_eq identity, Nat.add_assoc]
    exact Nat.le_add_right _ _
  rw [h.manipulationsOf_eq, UInt64.toNat_ofNat', Nat.mod_eq_of_lt (Nat.lt_of_le_of_lt hle hfits)]

theorem Sound.manipulationsOf_eq_zero (h : coordinator.Sound)
    (huntracked : coordinator.contains identity = false) :
    coordinator.manipulationsOf identity = 0 := by
  rw [h.contains_eq, Option.isSome_eq_false_iff, Option.isNone_iff_eq_none] at huntracked
  rw [manipulationsOf, huntracked]
  rfl

theorem stats_entries (coordinator : Coordinator) :
    coordinator.stats.entries = coordinator.identities.length := by
  rw [identities, List.length_mergeSort, Table.keys, List.length_map]
  rfl

theorem stats_locked (coordinator : Coordinator) :
    coordinator.stats.locked =
      (coordinator.identities.filter fun identity => 0 < coordinator.lockCount identity).length := by
  have hlocked : coordinator.isLocked = fun identity => 0 < coordinator.lockCount identity := by
    funext identity
    exact coordinator.isLocked_eq identity
  rw [← hlocked]
  exact ((List.mergeSort_perm _ _).filter coordinator.isLocked).length_eq.symm

end Counting

end Coordinator

namespace Session

open Coordinator

/-- On each identity the stores, the locks and the unlocks that dropped a hold are counted since it was
tracked, and nothing while it is not. All of them together are those of the tracked identities and what had
been counted on the removed ones. Each counter is its number as a word, and so the number itself as long as
all of them together fit into a word. -/
theorem manipulations_counted {session : Session} {reference : Ref Coordinator}
    {config : CoordinatorConfig} {journal : List Transaction}
    (h : session.Serial reference config journal) :
    let coordinator := session.coordinator reference
    let counted := journal.countP Transaction.isManipulation
    let removed := Transaction.countedAtRemovals journal
    (∀ identity, coordinator.manipulationsOf identity =
        .ofNat (Transaction.manipulationsIn journal identity)) ∧
      (∀ identity, coordinator.contains identity = false →
        coordinator.manipulationsOf identity = 0) ∧
      coordinator.stats.manipulations = .ofNat counted ∧
      counted =
        (coordinator.identities.map (Transaction.manipulationsIn journal)).sum + removed ∧
      (counted < UInt64.size →
        (∀ identity, (coordinator.manipulationsOf identity).toNat =
          Transaction.manipulationsIn journal identity) ∧
        coordinator.stats.manipulations.toNat =
          (coordinator.identities.map fun identity =>
            (coordinator.manipulationsOf identity).toNat).sum + removed) ∧
      coordinator.identities.Nodup ∧
      (∀ identity, identity ∈ coordinator.identities ↔ coordinator.contains identity = true) ∧
      coordinator.stats.entries = coordinator.identities.length ∧
      coordinator.stats.locked =
        (coordinator.identities.filter fun identity =>
          0 < coordinator.lockCount identity).length := by
  intro coordinator counted removed
  obtain ⟨-, hafter, -⟩ := h.keeps
  have hall : coordinator.stats.manipulations = .ofNat counted := hafter.manipulations_eq
  refine ⟨hafter.manipulationsOf_eq, ?_, hall, hafter.countP_eq, ?_, hafter.nodup_identities, ?_, ?_,
    ?_⟩
  · exact fun _ => hafter.sound.manipulationsOf_eq_zero
  · intro hfits
    have hof := hafter.toNat_manipulationsOf hfits
    refine ⟨hof, ?_⟩
    rw [hall, UInt64.toNat_ofNat', Nat.mod_eq_of_lt hfits,
      List.map_congr_left fun identity _ => hof identity]
    exact hafter.countP_eq
  · intro identity
    rw [hafter.sound.mem_identities_iff, hafter.sound.contains_eq]
  · exact stats_entries coordinator
  · exact stats_locked coordinator

/-- An identity is removed with three manipulations counted on it, of which the unlock that came too late
was none, and is then tracked again. -/
theorem manipulations_counted_past_removal :
    let worker : Worker := ⟨"worker"⟩
    let journal : List Transaction :=
      [.locked worker smallMetered, .stored smallDatabase, .deleted ⟨1⟩,
        .unlocked worker ⟨1⟩ true false, .unlocked worker ⟨1⟩ true true,
        .locked worker smallDatabase, .stored smallDatabase]
    ∃ session : Session, session.Serial ⟨0⟩ ⟨0⟩ journal ∧
      (session.coordinator ⟨0⟩).manipulationsOf ⟨1⟩ = 1 ∧
      (session.coordinator ⟨0⟩).manipulationsOf ⟨2⟩ = 1 ∧
      (session.coordinator ⟨0⟩).manipulationsOf ⟨3⟩ = 0 ∧
      (session.coordinator ⟨0⟩).stats.manipulations.toNat =
        ((session.coordinator ⟨0⟩).identities.map fun identity =>
          ((session.coordinator ⟨0⟩).manipulationsOf identity).toNat).sum + 3 := by
  intro worker journal
  have hstored := serial_small.store smallDatabase shares_smallDatabase.obtained
  have hlocked := hstored.lock smallDatabase (by simp [shares_smallDatabase.obtained]) worker
  have hunlocked : Serial ⟨0⟩ ⟨0⟩ _ [.unlocked worker ⟨1⟩ true true,
      .locked worker smallDatabase, .stored smallDatabase] :=
    hlocked.unlock (by decide +kernel) worker true
  have hagain : Serial ⟨0⟩ ⟨0⟩ _ [.unlocked worker ⟨1⟩ true false, .unlocked worker ⟨1⟩ true true,
      .locked worker smallDatabase, .stored smallDatabase] :=
    hunlocked.unlock (by decide +kernel) worker true
  have hremoved := hagain.delete ⟨1⟩
  have hstored := hremoved.store smallDatabase (by simp [shares_smallDatabase.obtained])
  have htracked := hstored.lock smallMetered (by simp [shares_smallMetered.obtained]) worker
  obtain ⟨hof, huntracked, -, -, hexact, -⟩ := manipulations_counted htracked
  have hunknown := huntracked ⟨3⟩ (by decide +kernel)
  obtain ⟨-, hall⟩ := hexact (by decide)
  exact ⟨_, htracked, hof ⟨1⟩, hof ⟨2⟩, hunknown, hall⟩

end Session

end RoleStack

import RoleStack.Proofs.SerialCalls

/-!
# Counted holds

Holds on an identity are counted one by one, whoever took them. A worker that drops one drops its own
newest, and only a worker without any drops that of somebody else.
-/

namespace RoleStack

namespace Coordinator

namespace Transaction

/-- The holds, the oldest first, without the newest one of the worker. -/
def dropNewest (worker : Worker) : List Worker → List Worker
  | [] => []
  | first :: rest =>
      if worker ∈ rest then first :: dropNewest worker rest
      else if first = worker then rest
      else first :: rest

/-- What becomes of the holds on an identity, which are none at all while it is untracked. -/
def hold (holds : Option (List Worker)) : Transaction → Option (List Worker)
  | .stored _ => some (holds.getD [])
  | .locked worker _ => some (holds.getD [] ++ [worker])
  | .unlocked worker _ all _ => holds.map fun holds =>
      if all then []
      else if worker ∈ holds then dropNewest worker holds
      else holds.dropLast
  | .deleted _ => none

/-- One worker for each hold on the identity, the oldest first, as the calls took and dropped them. -/
def holds? (journal : List Transaction) (identity : Identity) : Option (List Worker) :=
  (linesOn journal identity).foldr (fun line holds => line.hold holds) none

theorem dropNewest_append {worker : Worker} {newer : List Worker} (h : worker ∉ newer)
    (older : List Worker) : dropNewest worker (older ++ worker :: newer) = older ++ newer := by
  induction older with
  | nil => simp [dropNewest, h]
  | cons first rest ih =>
      have hmem : worker ∈ rest ++ worker :: newer := List.mem_append_right rest List.mem_cons_self
      rw [List.cons_append, dropNewest, if_pos hmem, ih, List.cons_append]

theorem dropNewest_reverse {worker : Worker} {holders : List Worker} (h : worker ∈ holders) :
    dropNewest worker holders.reverse = (holders.erase worker).reverse := by
  obtain ⟨newer, older, rfl, hnewer⟩ := List.eq_append_cons_of_mem h
  have hnew : worker ∉ newer.reverse := List.mem_reverse.not.mpr hnewer
  rw [List.erase_append_right _ hnewer, List.erase_cons_head, List.reverse_append,
    List.reverse_append, List.reverse_cons, List.append_assoc, List.singleton_append,
    dropNewest_append hnew]

end Transaction

section Holding

variable {coordinator : Coordinator} {config : CoordinatorConfig} {journal : List Transaction}
  {identity : Identity} {worker : Worker} {holds : List Worker}

open Transaction

theorem Transaction.holds?_unlocked (worker : Worker) (identity : Identity) (all released : Bool)
    (journal : List Transaction) :
    holds? (.unlocked worker identity all released :: journal) identity =
      hold (holds? journal identity) (.unlocked worker identity all released) := by
  have hidentity : (unlocked worker identity all released).identity = identity := rfl
  rw [holds?, linesOn_cons_of_eq hidentity, List.foldr_cons, holds?]

theorem Transaction.perm_dropNewest (h : worker ∈ holds) :
    (worker :: dropNewest worker holds).Perm holds := by
  obtain ⟨newer, older, hholds, hnewer⟩ := List.eq_append_cons_of_mem (List.mem_reverse.mpr h)
  have hsplit : holds = older.reverse ++ worker :: newer.reverse := by
    rw [← List.reverse_reverse holds, hholds, List.reverse_append, List.reverse_cons,
      List.append_assoc, List.singleton_append]
  rw [hsplit, dropNewest_append (List.mem_reverse.not.mpr hnewer)]
  exact List.perm_middle.symm

/-- Dropping one hold leaves one less, whoever's it is. -/
theorem Transaction.length_hold_unlocked (worker : Worker) (identity : Identity)
    (released : Bool) (holds : List Worker) :
    (((unlocked worker identity false released).hold (some holds)).getD []).length =
      holds.length - 1 := by
  simp only [hold, Option.map_some, Option.getD_some, Bool.false_eq_true, if_false]
  split
  · rename_i hmem
    have hlength := (perm_dropNewest hmem).length_eq
    rw [List.length_cons] at hlength
    omega
  · exact List.length_dropLast

theorem reverse_holders_release (entry : Entry) (worker : Worker) :
    (entry.release worker).holders.reverse =
      if worker ∈ entry.holders.reverse then dropNewest worker entry.holders.reverse
      else entry.holders.reverse.dropLast := by
  by_cases hmem : worker ∈ entry.holders
  · have hheld : entry.isHeldBy worker = true := by simpa [Entry.isHeldBy] using hmem
    rw [Entry.release_of_isHeldBy hheld, if_pos (List.mem_reverse.mpr hmem), dropNewest_reverse hmem]
  · have hfree : entry.isHeldBy worker = false := by simpa [Entry.isHeldBy] using hmem
    rw [if_neg (List.mem_reverse.not.mpr hmem), List.dropLast_reverse]
    unfold Entry.release
    cases hlocked : entry.isLocked with
    | true => simp [hfree]
    | false =>
        have hnone : entry.holders = [] := by simpa [Entry.isLocked] using hlocked
        simp [hnone]

theorem reverse_holders_releaseAll (entry : Entry) : entry.releaseAll.holders.reverse = [] := by
  unfold Entry.releaseAll
  cases hlocked : entry.isLocked with
  | true => rfl
  | false => simpa [Entry.isLocked] using hlocked

/-- The entry of an identity has the holds that the calls took and did not drop. -/
theorem After.holds_eq (h : coordinator.After config journal) (identity : Identity) :
    (coordinator.entry? identity).map (fun entry => entry.holders.reverse) =
      holds? journal identity := by
  refine h.of_lines (motive := fun lines entry =>
    entry.map (fun entry => entry.holders.reverse) =
      lines.foldr (fun line holds => line.hold holds) none) rfl ?_ identity
  intro line lines entry _ hlines
  rw [List.foldr_cons, ← hlines]
  cases line with
  | stored handle => cases entry <;> rfl
  | locked worker handle => cases entry <;> simp [amend, hold, Entry.acquire, Entry.start]
  | unlocked worker identity all released =>
      cases entry with
      | none => rfl
      | some entry =>
          cases all with
          | true => exact congrArg some (reverse_holders_releaseAll entry)
          | false => exact congrArg some (reverse_holders_release entry worker)
  | deleted identity => rfl

/-- So many of the holds on the identity are the worker's. -/
def holdsBy (coordinator : Coordinator) (worker : Worker) (identity : Identity) : Nat :=
  ((coordinator.entry? identity).map fun entry => entry.holders.count worker).getD 0

theorem After.lockCount_eq (h : coordinator.After config journal) (identity : Identity) :
    coordinator.lockCount identity = ((holds? journal identity).getD []).length := by
  rw [← h.holds_eq, lockCount]
  cases coordinator.entry? identity with
  | none => rfl
  | some entry => exact List.length_reverse.symm

theorem After.holdsBy_eq (h : coordinator.After config journal) (worker : Worker)
    (identity : Identity) :
    coordinator.holdsBy worker identity = ((holds? journal identity).getD []).count worker := by
  rw [← h.holds_eq, holdsBy]
  cases coordinator.entry? identity with
  | none => rfl
  | some entry => exact List.count_reverse.symm

theorem isLocked_eq (coordinator : Coordinator) (identity : Identity) :
    coordinator.isLocked identity = decide (0 < coordinator.lockCount identity) := by
  unfold isLocked lockCount
  cases coordinator.entry? identity with
  | none => rfl
  | some entry => cases hholders : entry.holders <;> simp [Entry.isLocked, Entry.lockCount, hholders]

theorem After.lockCount_unlock (h : coordinator.After config journal) (worker : Worker)
    (identity : Identity) (all : Bool) :
    (coordinator.unlock worker identity all).2.lockCount identity =
      if all then 0 else coordinator.lockCount identity - 1 := by
  rw [(h.next (.unlock worker identity all)).lockCount_eq, h.lockCount_eq, holds?_unlocked]
  cases holds? journal identity with
  | none => cases all <;> rfl
  | some holds =>
      cases all with
      | true => rfl
      | false => exact length_hold_unlocked worker identity _ holds

/-- Who has a hold drops one of its own, and none of anybody else. -/
theorem After.holdsBy_unlock (h : coordinator.After config journal)
    (hheld : 0 < coordinator.holdsBy worker identity) {other : Worker} (hother : other ≠ worker) :
    (coordinator.unlock worker identity false).2.holdsBy other identity =
      coordinator.holdsBy other identity := by
  rw [h.holdsBy_eq] at hheld
  rw [(h.next (.unlock worker identity false)).holdsBy_eq, h.holdsBy_eq, holds?_unlocked]
  cases hholds : holds? journal identity with
  | none =>
      rw [hholds] at hheld
      cases hheld
  | some holds =>
      rw [hholds, Option.getD_some, List.count_pos_iff] at hheld
      have hcount := (perm_dropNewest hheld).count_eq other
      rw [List.count_cons_of_ne hother.symm] at hcount
      simpa [hold, hheld] using hcount

end Holding

end Coordinator

namespace Session

open Coordinator

/-- There are as many holds on an identity as calls took and did not drop. To drop one or all is answered
with whether there was any, and who has a hold of its own drops none of anybody else. Calls that never
wait are answered. -/
theorem holds_counted {session : Session} {reference : Ref Coordinator} {config : CoordinatorConfig}
    {journal : List Transaction} (h : session.Serial reference config journal)
    (identity : Identity) :
    let coordinator := session.coordinator reference
    let holds? := Transaction.holds? journal identity
    coordinator.contains identity = holds?.isSome ∧
      coordinator.lockCount identity = (holds?.getD []).length ∧
      (∀ worker, coordinator.holdsBy worker identity = (holds?.getD []).count worker) ∧
      (∀ worker all timeout patience, ∃ later,
        session.perform worker (.calling reference (.unlock identity all) .begun timeout) patience =
            (some (.reply (.flag (decide (0 < coordinator.lockCount identity)))), later) ∧
          (later.coordinator reference).lockCount identity =
            (if all then 0 else coordinator.lockCount identity - 1) ∧
          (all = false → 0 < coordinator.holdsBy worker identity → ∀ other, other ≠ worker →
            (later.coordinator reference).holdsBy other identity =
              coordinator.holdsBy other identity)) ∧
      ∀ worker call timeout patience, Call.mayWait call = false → ∃ reply later,
        session.perform worker (.calling reference call .begun timeout) patience =
          (some (.reply reply), later) := by
  intro coordinator holds?
  obtain ⟨hstands, hafter, -⟩ := h.keeps
  refine ⟨?_, hafter.lockCount_eq identity, fun worker => hafter.holdsBy_eq worker identity, ?_, ?_⟩
  · rw [hafter.sound.contains_eq, ← Option.isSome_map, hafter.holds_eq]
  · intro worker all timeout patience
    have hlater := coordinator_eq (get?_withCoordinator hstands.coordinated
      (coordinator.unlock worker identity all).2)
    refine ⟨session.withCoordinator reference (coordinator.unlock worker identity all).2, ?_, ?_, ?_⟩
    · rw [perform_unlock hstands.idle hstands.coordinated, hafter.sound.unlock_fst, isLocked_eq]
    · rw [hlater, hafter.lockCount_unlock]
    · rintro rfl hheld other hother
      rw [hlater, hafter.holdsBy_unlock hheld hother]
  · intro worker call timeout patience hwaits
    exact h.exists_answer hwaits worker timeout patience

/-- The second worker drops the hold of its own, although the first has a newer one. -/
theorem holds_counted_of_two_workers :
    let first : Worker := ⟨"first"⟩
    let second : Worker := ⟨"second"⟩
    let journal : List Transaction :=
      [.unlocked second ⟨1⟩ false true, .locked first smallDatabase, .locked second smallDatabase,
        .locked first smallDatabase]
    ∃ session : Session, session.Serial ⟨0⟩ ⟨0⟩ journal ∧
      Transaction.holds? journal ⟨1⟩ = some [first, first] ∧
      (session.coordinator ⟨0⟩).lockCount ⟨1⟩ = 2 ∧
      (session.coordinator ⟨0⟩).holdsBy second ⟨1⟩ = 0 := by
  intro first second journal
  have hfirst := serial_small.lock smallDatabase shares_smallDatabase.obtained first
  have hsecond := hfirst.lock smallDatabase (by simp [shares_smallDatabase.obtained]) second
  have hthird := hsecond.lock smallDatabase (by simp [shares_smallDatabase.obtained]) first
  have hdropped : Serial ⟨0⟩ ⟨0⟩ _ journal := hthird.unlock (by decide +kernel) second false
  have hholds : Transaction.holds? journal ⟨1⟩ = some [first, first] := by decide
  obtain ⟨-, hcount, hby, -⟩ := holds_counted hdropped ⟨1⟩
  exact ⟨_, hdropped, hholds, hcount, hby second⟩

end Session

end RoleStack

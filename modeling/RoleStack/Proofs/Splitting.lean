import RoleStack.Proofs.FallingBack

/-!
# Cuts lose no level

A cut takes the levels of a class apart into those over the removed layer, this layer, and those of the
class below it. The removed layer is the most derived level that the test holds for, so there is at most
one way to cut, and there is none exactly if the test holds for no level or first for the base.
-/

namespace RoleStack.HandleClass

variable {declares : HandleClass → Bool} {handleClass level : HandleClass} {split other : Split}

/-- A level with another one below it is a layer. -/
theorem isBase_eq_false_of_append {above below : List HandleClass} {next : HandleClass}
    (h : handleClass.levels = above ++ level :: next :: below) : level.isBase = false := by
  have hlevels := levels_of_append h
  cases level with
  | base =>
      have hnil := (List.cons.inj hlevels).2
      cases hnil
  | roleLayer => rfl
  | markerLayer => rfl

theorem levels_injective : Function.Injective levels := by
  intro first second h
  rw [levels_eq_cons_ancestors first, levels_eq_cons_ancestors second] at h
  exact (List.cons.inj h).1

/-- A walk down the levels stops at a base class or at a layer, and only a layer can be cut out. -/
theorem splitAt?_eq_none_iff_isBase (declares : HandleClass → Bool) (handleClass : HandleClass) :
    handleClass.splitAt? declares = none ↔
      ∀ level, handleClass.levels.find? declares = some level → level.isBase = true := by
  induction handleClass with
  | base name layout contracts extension =>
      have hbase : ∀ level, [base name layout contracts extension].find? declares = some level →
          level.isBase = true := by
        intro level hlevel
        obtain rfl := List.mem_singleton.mp (List.mem_of_find?_eq_some hlevel)
        rfl
      simpa only [splitAt?, levels, true_iff] using hbase
  | roleLayer name parent contract key forwarders ih =>
      simp only [splitAt?, levels, List.find?_cons]
      cases hstops : declares (roleLayer name parent contract key forwarders) with
      | true => simp [isBase]
      | false => simpa using ih
  | markerLayer name parent marker ih =>
      simp only [splitAt?, levels, List.find?_cons]
      cases hstops : declares (markerLayer name parent marker) with
      | true => simp [isBase]
      | false => simpa using ih

namespace Split.Cuts

theorem find?_eq (h : split.Cuts declares handleClass) :
    handleClass.levels.find? declares = some split.removed := by
  rw [List.find?_eq_some_iff_append]
  refine ⟨h.removed, split.retained.reverse, split.base.levels, h.levels, ?_⟩
  intro layer hlayer
  simp [(h.retained layer (List.mem_reverse.mp hlayer)).2]

theorem parent?_removed (h : split.Cuts declares handleClass) :
    split.removed.parent? = some split.base := by
  have hlevels := levels_of_append h.levels
  cases hremoved : split.removed with
  | base =>
      rw [hremoved, levels_eq_cons_ancestors split.base] at hlevels
      cases (List.cons.inj hlevels).2
  | roleLayer name parent contract key forwarders =>
      rw [hremoved] at hlevels
      exact congrArg some (levels_injective (List.cons.inj hlevels).2).symm
  | markerLayer name parent marker =>
      rw [hremoved] at hlevels
      exact congrArg some (levels_injective (List.cons.inj hlevels).2).symm

theorem isBase_removed (h : split.Cuts declares handleClass) : split.removed.isBase = false := by
  have hlevels := h.levels
  rw [levels_eq_cons_ancestors split.base] at hlevels
  exact isBase_eq_false_of_append hlevels

/-- Where the walk stops decides the rest. -/
theorem eq (h : split.Cuts declares handleClass) (h' : other.Cuts declares handleClass) :
    split = other := by
  have hremoved : split.removed = other.removed :=
    Option.some.inj (h.find?_eq.symm.trans h'.find?_eq)
  have hbase : split.base = other.base := by
    have hparent := h.parent?_removed
    rw [hremoved, h'.parent?_removed] at hparent
    exact (Option.some.inj hparent).symm
  have hretained : split.retained = other.retained := by
    have hlevels := h.levels.symm.trans h'.levels
    rw [hremoved, hbase, List.append_cancel_right_eq, List.reverse_inj] at hlevels
    exact hlevels
  obtain ⟨base, removed, retained⟩ := split
  obtain rfl := hbase
  obtain rfl := hremoved
  obtain rfl := hretained
  rfl

/-- What is over the removed layer need not be asked whether it is a base class. -/
theorem of_levels
    (hlevels : handleClass.levels = split.retained.reverse ++ split.removed :: split.base.levels)
    (hremoved : declares split.removed = true)
    (hretained : ∀ layer ∈ split.retained, declares layer = false) :
    split.Cuts declares handleClass := by
  refine ⟨hlevels, hremoved, fun layer hlayer => ⟨?_, hretained layer hlayer⟩⟩
  obtain ⟨above, below, happend⟩ := List.append_of_mem (List.mem_reverse.mpr hlayer)
  rw [happend, List.append_assoc] at hlevels
  cases below with
  | nil => exact isBase_eq_false_of_append hlevels
  | cons next rest => exact isBase_eq_false_of_append hlevels

end Split.Cuts

/-- There is a cut exactly if the walk stops at a layer, and it is the only one. -/
theorem splitAt?_eq_some_iff (declares : HandleClass → Bool) (handleClass : HandleClass)
    (split : Split) :
    handleClass.splitAt? declares = some split ↔ split.Cuts declares handleClass := by
  constructor
  · exact cuts_of_splitAt?
  · intro hcuts
    cases hsplit : handleClass.splitAt? declares with
    | none =>
        rw [splitAt?_eq_none_iff_isBase] at hsplit
        have hbase := hsplit split.removed hcuts.find?_eq
        rw [hcuts.isBase_removed] at hbase
        cases hbase
    | some found => rw [hcuts.eq (cuts_of_splitAt? hsplit)]

/-- The levels of a class are the retained layers from the top down, the removed one and those of the base
of the cut. The removed layer is the most derived level that the test holds for. There is no cut exactly
if there is no such level or it is a base class. -/
theorem splitAt?_parts_levels (declares : HandleClass → Bool) (handleClass : HandleClass) :
    (∀ split, handleClass.splitAt? declares = some split ↔
      handleClass.levels = split.retained.reverse ++ split.removed :: split.base.levels ∧
        declares split.removed = true ∧ ∀ layer ∈ split.retained, declares layer = false) ∧
    (∀ split, handleClass.splitAt? declares = some split →
      split.removed.isBase = false ∧ split.removed.parent? = some split.base ∧
        handleClass.levels.find? declares = some split.removed) ∧
    (handleClass.splitAt? declares = none ↔
      (∀ level ∈ handleClass.levels, declares level = false) ∨
        ∃ base, handleClass.levels.find? declares = some base ∧ base.isBase = true) := by
  refine ⟨?_, ?_, ?_⟩
  · intro split
    rw [splitAt?_eq_some_iff]
    constructor
    · intro hcuts
      exact ⟨hcuts.levels, hcuts.removed, fun layer hlayer => (hcuts.retained layer hlayer).2⟩
    · rintro ⟨hlevels, hremoved, hretained⟩
      exact .of_levels hlevels hremoved hretained
  · intro split hsplit
    have hcuts := cuts_of_splitAt? hsplit
    exact ⟨hcuts.isBase_removed, hcuts.parent?_removed, hcuts.find?_eq⟩
  · rw [splitAt?_eq_none_iff_isBase]
    cases hfound : handleClass.levels.find? declares with
    | none =>
        have hnone : ∀ level ∈ handleClass.levels, declares level = false := by
          simpa using hfound
        exact iff_of_true (fun level hlevel => nomatch hlevel) (.inl hnone)
    | some level =>
        have hstops : ¬ ∀ level ∈ handleClass.levels, declares level = false := by
          intro hnone
          have hfree := hnone level (List.mem_of_find?_eq_some hfound)
          rw [List.find?_some hfound] at hfree
          cases hfree
        simp [hstops]

/-- The base of the class is cut off at its first layer, never taken out itself. -/
example :
    let conforming : HandleClass := .base "Conforming" Table.empty ["IAdmin"] none
    let administered : HandleClass :=
      .roleLayer "Administered" conforming Role.administration (.ofContract "IAdmin") Table.empty
    let audited : HandleClass :=
      .roleLayer "Audited" conforming Role.auditing (.ofContract "IAuditor") Table.empty
    (administered.splitAt? (declaresContract "IAdmin")).map (fun split => split.base.name) =
        some "Conforming" ∧
      (audited.splitAt? (declaresContract "IAdmin")).isNone = true := by
  decide

end RoleStack.HandleClass

import RoleStack.HandleClass.Samples
import RoleStack.Proofs.Roots

/-!
# Falling back

What a class falls back to for losing a contract is the nearest of its proper ancestors that is free of
it. The strict mode asks that the class has the contract to lose and then does the same. So a base class,
whatever it declares, has nothing to fall back to.
-/

namespace RoleStack.HandleClass

/-- The classes below this one, the nearest first. -/
def ancestors (handleClass : HandleClass) : List HandleClass := handleClass.levels.tail

/-- The proper ancestor is free of the contract, and no class on the way down to it is. -/
structure NearestFree (handleClass : HandleClass) (contract : String) (ancestor : HandleClass) :
    Prop where
  free : ancestor.implements contract = false
  passed : ∃ between, handleClass.ancestors = between ++ ancestor.levels ∧
    ∀ level ∈ between, level.implements contract = true

variable {handleClass ancestor : HandleClass} {contract : String}

/-! ### Ancestors -/

theorem levels_eq_cons_ancestors (handleClass : HandleClass) :
    handleClass.levels = handleClass :: handleClass.ancestors := by
  cases handleClass <;> rfl

/-- From each level on, the levels are those of that class. -/
theorem levels_of_append {above below : List HandleClass} {level : HandleClass}
    (h : handleClass.levels = above ++ level :: below) : level :: below = level.levels := by
  induction above generalizing handleClass with
  | nil =>
      rw [List.nil_append, levels_eq_cons_ancestors] at h
      obtain ⟨rfl, rfl⟩ := List.cons.inj h
      exact (levels_eq_cons_ancestors handleClass).symm
  | cons first rest ih =>
      cases handleClass with
      | base =>
          have hnil := (List.cons.inj h).2
          simp at hnil
      | roleLayer name parent declared key forwarders => exact ih (List.cons.inj h).2
      | markerLayer name parent marker => exact ih (List.cons.inj h).2

theorem depth_le_of_mem_levels {level : HandleClass} (h : level ∈ handleClass.levels) :
    level.depth ≤ handleClass.depth := by
  obtain ⟨above, below, hlevels⟩ := List.append_of_mem h
  have hbelow := levels_of_append hlevels
  have hlength := congrArg List.length hlevels
  rw [hbelow, List.length_append, length_levels, length_levels] at hlength
  omega

namespace NearestFree

theorem mem_ancestors (h : handleClass.NearestFree contract ancestor) :
    ancestor ∈ handleClass.ancestors := by
  obtain ⟨between, hbetween, -⟩ := h.passed
  rw [hbetween]
  exact List.mem_append_right _ ancestor.mem_levels_self

theorem depth_lt (h : handleClass.NearestFree contract ancestor) :
    ancestor.depth < handleClass.depth := by
  obtain ⟨between, hbetween, -⟩ := h.passed
  have hlength : handleClass.depth + 1 = 1 + (between.length + (ancestor.depth + 1)) := by
    rw [← length_levels, levels_eq_cons_ancestors, hbetween, List.length_cons, List.length_append,
      length_levels, Nat.add_comm]
  omega

/-- Whatever lies between is passed because it has the contract. -/
theorem implements_of_depth_lt (h : handleClass.NearestFree contract ancestor)
    {level : HandleClass} (hmem : level ∈ handleClass.ancestors)
    (hdepth : ancestor.depth < level.depth) : level.implements contract = true := by
  obtain ⟨between, hbetween, himplements⟩ := h.passed
  rw [hbetween] at hmem
  rcases List.mem_append.mp hmem with habove | hbelow
  · exact himplements level habove
  · have hle := depth_le_of_mem_levels hbelow
    omega

end NearestFree

theorem find?_ancestors_eq_some_iff :
    handleClass.ancestors.find? (fun level => !level.implements contract) = some ancestor ↔
      handleClass.NearestFree contract ancestor := by
  rw [List.find?_eq_some_iff_append]
  constructor
  · rintro ⟨hfree, between, below, hancestors, hbetween⟩
    have hlevels : handleClass.levels = (handleClass :: between) ++ ancestor :: below := by
      rw [levels_eq_cons_ancestors, hancestors, List.cons_append]
    refine ⟨by simpa using hfree, between, ?_, by simpa using hbetween⟩
    rw [hancestors, levels_of_append hlevels]
  · rintro ⟨hfree, between, hancestors, hbetween⟩
    refine ⟨by simpa using hfree, between, ancestor.ancestors, ?_, by simpa using hbetween⟩
    rw [hancestors, levels_eq_cons_ancestors]

/-! ### Both modes -/

theorem nearestWithout?_eq_find? (handleClass : HandleClass) (contract : String) :
    handleClass.nearestWithout? contract =
      handleClass.levels.find? fun level => !level.implements contract := by
  induction handleClass with
  | base name layout contracts extension =>
      rw [nearestWithout?, levels, List.find?_singleton]
      cases (base name layout contracts extension).implements contract <;> rfl
  | roleLayer name parent declared key forwarders ih =>
      rw [nearestWithout?, levels, List.find?_cons, ih]
      cases (roleLayer name parent declared key forwarders).implements contract <;> rfl
  | markerLayer name parent marker ih =>
      rw [nearestWithout?, levels, List.find?_cons, ih]
      cases (markerLayer name parent marker).implements contract <;> rfl

/-- A layer declares one interface and so is left in any case; a base class has no parent to go to. -/
theorem fallback?_false_eq_find? (handleClass : HandleClass) (contract : String) :
    handleClass.fallback? false contract =
      handleClass.ancestors.find? fun level => !level.implements contract := by
  cases handleClass with
  | base => exact fallback?_eq_none_of_layers_eq_nil rfl false contract
  | roleLayer name parent declared key forwarders =>
      exact parent.nearestWithout?_eq_find? contract
  | markerLayer name parent marker => exact parent.nearestWithout?_eq_find? contract

theorem fallback?_true_eq (handleClass : HandleClass) (contract : String) :
    handleClass.fallback? true contract =
      if handleClass.implements contract then handleClass.fallback? false contract else none := by
  rw [fallback?_strict]
  split
  · rename_i himplements
    rw [nearestWithout?_eq_find?, levels_eq_cons_ancestors, List.find?_cons_of_neg,
      fallback?_false_eq_find?]
    simp [himplements]
  · rfl

theorem fallback?_false_of_fallback? {strict : Bool}
    (h : handleClass.fallback? strict contract = some ancestor) :
    handleClass.fallback? false contract = some ancestor := by
  cases strict with
  | false => exact h
  | true =>
      rw [fallback?_true_eq] at h
      split at h
      · exact h
      · cases h

/-- The lenient mode finds the nearest proper ancestor that is free of the contract, and the strict mode
the same one for a class that has the contract. -/
theorem fallback?_nearest_free (handleClass : HandleClass) (contract : String) :
    (∀ ancestor, handleClass.fallback? false contract = some ancestor ↔
      handleClass.NearestFree contract ancestor) ∧
    (handleClass.fallback? false contract = none ↔
      ∀ ancestor ∈ handleClass.ancestors, ancestor.implements contract = true) ∧
    (handleClass.isBase = true → ∀ strict, handleClass.fallback? strict contract = none) ∧
    (handleClass.fallback? true contract =
      if handleClass.implements contract then handleClass.fallback? false contract else none) ∧
    ∀ strict ancestor, handleClass.fallback? strict contract = some ancestor →
      handleClass.fallback? false contract = some ancestor ∧
        ancestor.implements contract = false ∧
        ancestor ∈ handleClass.ancestors ∧ ancestor.depth < handleClass.depth ∧
        ∀ level ∈ handleClass.ancestors, ancestor.depth < level.depth →
          level.implements contract = true := by
  have hnearest : ∀ ancestor, handleClass.fallback? false contract = some ancestor ↔
      handleClass.NearestFree contract ancestor := by
    intro ancestor
    rw [fallback?_false_eq_find?, find?_ancestors_eq_some_iff]
  refine ⟨hnearest, ?_, ?_, fallback?_true_eq handleClass contract, ?_⟩
  · rw [fallback?_false_eq_find?, List.find?_eq_none]
    simp
  · intro hbase strict
    exact fallback?_eq_none_of_layers_eq_nil (layers_of_isBase hbase) strict contract
  · intro strict ancestor hfallback
    have hlenient := fallback?_false_of_fallback? hfallback
    have hfound := (hnearest ancestor).mp hlenient
    exact ⟨hlenient, hfound.free, hfound.mem_ancestors, hfound.depth_lt,
      fun level hmem hdepth => hfound.implements_of_depth_lt hmem hdepth⟩

/-- A lone layer of another contract is left all the same, but not in the strict mode. -/
example :
    let audited : HandleClass := .roleLayer "Audited" .database Role.auditing (.ofContract "IAuditor")
      Table.empty
    (audited.fallback? false "IAdmin").map name = some "DBProxy" ∧
      (audited.fallback? true "IAdmin").map name = none := by
  decide

end RoleStack.HandleClass

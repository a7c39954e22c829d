import RoleStack.Proofs.Restacking

/-!
# The base below the layers

An operation that succeeds leads to a class over the same base, whatever it adds, drops or stacks
again and whatever generator it has. The base gives a class its layout and its extended state, so
these last too.
-/

namespace RoleStack

namespace HandleClass

variable {handleClass other : HandleClass}

theorem getLast?_levels (handleClass : HandleClass) :
    handleClass.levels.getLast? = some handleClass.root := by
  induction handleClass with
  | base => rfl
  | roleLayer name parent contract key forwarders ih =>
      rw [levels, List.getLast?_cons, ih]
      rfl
  | markerLayer name parent marker ih =>
      rw [levels, List.getLast?_cons, ih]
      rfl

theorem root_eq_of_levels {above : List HandleClass}
    (h : handleClass.levels = above ++ other.levels) : handleClass.root = other.root := by
  have hlast := handleClass.getLast?_levels
  rw [h, List.getLast?_append, getLast?_levels, Option.some_or] at hlast
  exact (Option.some.inj hlast).symm

theorem Split.Cuts.root_eq {split : Split} {declares : HandleClass → Bool}
    (h : split.Cuts declares handleClass) : handleClass.root = split.base.root := by
  have hlevels : handleClass.levels =
      (split.retained.reverse ++ [split.removed]) ++ split.base.levels := by
    rw [h.levels, List.append_assoc, List.singleton_append]
  exact root_eq_of_levels hlevels

theorem root_of_nearestWithout? {contract : String} {ancestor : HandleClass}
    (h : handleClass.nearestWithout? contract = some ancestor) :
    ancestor.root = handleClass.root := by
  induction handleClass with
  | base =>
      rw [nearestWithout?] at h
      split at h
      · cases h
      · rw [← Option.some.inj h]
  | roleLayer name parent declared key forwarders ih =>
      rw [nearestWithout?] at h
      split at h
      · exact ih h
      · rw [← Option.some.inj h]
  | markerLayer name parent marker ih =>
      rw [nearestWithout?] at h
      split at h
      · exact ih h
      · rw [← Option.some.inj h]

theorem root_of_parent? {parent : HandleClass} (h : handleClass.parent? = some parent) :
    parent.root = handleClass.root := by
  cases handleClass with
  | base => cases h
  | roleLayer => rw [← Option.some.inj h, root]
  | markerLayer => rw [← Option.some.inj h, root]

theorem root_of_fallback? {strict : Bool} {contract : String} {ancestor : HandleClass}
    (h : handleClass.fallback? strict contract = some ancestor) :
    ancestor.root = handleClass.root := by
  unfold fallback? at h
  split at h
  · obtain ⟨parent, hparent, hancestor⟩ := Option.bind_eq_some_iff.mp h
    exact (root_of_nearestWithout? hancestor).trans (root_of_parent? hparent)
  · split at h
    · exact root_of_nearestWithout? h
    · cases h

theorem root_of_isBase (h : handleClass.isBase = true) : handleClass.root = handleClass := by
  cases handleClass with
  | base => rfl
  | roleLayer => cases h
  | markerLayer => cases h

theorem layers_of_isBase (h : handleClass.isBase = true) : handleClass.layers = [] := by
  cases handleClass with
  | base => rfl
  | roleLayer => cases h
  | markerLayer => cases h

@[simp]
theorem layout_root (handleClass : HandleClass) : handleClass.root.layout = handleClass.layout := by
  induction handleClass with
  | base => rfl
  | roleLayer name parent contract key forwarders ih => exact ih
  | markerLayer name parent marker ih => exact ih

theorem extension?_eq_of_root (h : handleClass.root = other.root) :
    handleClass.extension? = other.extension? := by
  rw [← extension?_root, h, extension?_root]

end HandleClass

namespace Operation

variable {operation : Operation} {reservation : Reservation} {current : HandleClass} {plan : Plan}

theorem root_of_planWithout {declares : HandleClass → Bool} {target : String}
    (h : operation.planWithout reservation current declares target = .ok plan) :
    plan.handleClass.root = current.root := by
  obtain ⟨split, made, hcuts, -, hlevels⟩ := exists_of_planWithout h
  rw [HandleClass.root_eq_of_levels hlevels, hcuts.root_eq]

theorem root_of_plan {strict : Bool} (h : operation.plan strict reservation current = .ok plan) :
    plan.handleClass.root = current.root := by
  unfold Operation.plan at h
  split at h
  · obtain ⟨contract, -, h⟩ := exists_of_bind_eq_ok h
    split at h
    · cases h
    · obtain ⟨stacking, hstacking, hplan⟩ := exists_of_bind_eq_ok h
      obtain ⟨forwarders, generator, -, rfl⟩ := Stacking.exists_of_stackRole hstacking
      obtain rfl := Except.ok.inj hplan
      rfl
  · obtain ⟨contract, -, h⟩ := exists_of_bind_eq_ok h
    split at h
    · exact root_of_planWithout h
    · split at h
      · rename_i ancestor hancestor
        obtain rfl := Except.ok.inj h
        exact HandleClass.root_of_fallback? hancestor
      · cases h
  · obtain ⟨marker, -, h⟩ := exists_of_bind_eq_ok h
    split at h
    · cases h
    · obtain rfl := Except.ok.inj h
      rfl
  · obtain ⟨marker, -, h⟩ := exists_of_bind_eq_ok h
    exact root_of_planWithout h

end Operation

theorem Engine.root_of_compose_ok {engine : Engine} {registry : Registry} {sequence : Sequence}
    {read : SharedHandle → Handle} {agent : AgentId} {operation : Operation} {next : Handle}
    (h : (engine.compose registry sequence read agent operation).result = .ok next) :
    next.handleClass.root = (read operation.target).handleClass.root := by
  obtain ⟨plan, hcomposes⟩ := exists_of_compose_ok h
  rw [hcomposes.handleClass]
  exact Operation.root_of_plan hcomposes.planned

end RoleStack

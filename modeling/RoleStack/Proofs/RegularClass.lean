import RoleStack.Proofs.Stacking

/-!
# Regular classes

A class is regular when each of its layers was new to what lies below it and has the key and the
forwarders of its contract. Base classes are regular, and the changes of a regular class follow
those of its stack.
-/

namespace RoleStack

namespace HandleClass

inductive Regular : HandleClass → Prop where
  | base (name : String) (layout : Table String Json) (contracts : List String)
      (extension : Option Extension) : Regular (.base name layout contracts extension)
  | roleLayer (name : String) {parent : HandleClass} {contract : Contract}
      (regular : parent.Regular) (absent : parent.implements contract.name = false)
      (distinct : contract.operationNames.Nodup) :
      Regular (.roleLayer name parent contract (.ofContract contract.name)
        (contract.forwarders (.ofContract contract.name)))
  | markerLayer (name : String) {parent : HandleClass} {marker : Marker}
      (regular : parent.Regular) (absent : parent.hasMarker marker.name = false) :
      Regular (.markerLayer name parent marker)

variable {handleClass other : HandleClass}

theorem implements_eq_false_of_sublist (hroot : other.root = handleClass.root)
    (hlayers : other.layers.Sublist handleClass.layers) {contract : String}
    (h : handleClass.implements contract = false) : other.implements contract = false := by
  rw [implements_eq_stack, stack, LayerStack.implements, Bool.or_eq_false_iff] at h ⊢
  rw [hroot]
  refine ⟨h.1, ?_⟩
  rw [List.any_eq_false] at h ⊢
  exact fun layer hmem => h.2 layer (hlayers.subset hmem)

theorem hasMarker_eq_false_of_sublist (hlayers : other.layers.Sublist handleClass.layers)
    {marker : String} (h : handleClass.hasMarker marker = false) :
    other.hasMarker marker = false := by
  rw [hasMarker_eq_stack, stack, LayerStack.hasMarker, List.any_eq_false] at h ⊢
  exact fun layer hmem => h layer (hlayers.subset hmem)

theorem any_layers_of_implements_eq_false {contract : String}
    (h : handleClass.implements contract = false) :
    handleClass.layers.any (Layer.declaresContract contract) = false := by
  rw [implements_eq_stack, LayerStack.implements, Bool.or_eq_false_iff] at h
  exact h.2

theorem any_layers_of_hasMarker_eq_false {marker : String}
    (h : handleClass.hasMarker marker = false) :
    handleClass.layers.any (Layer.declaresMarker marker) = false := by
  rw [hasMarker_eq_stack] at h
  exact h

/-! ### Each interface occurs once -/

theorem countP_concat_le_one {layers : List Layer} {layer : Layer} {matching : Layer → Bool}
    (hlayers : layers.countP matching ≤ 1)
    (hnew : matching layer = true → layers.any matching = false) :
    (layers ++ [layer]).countP matching ≤ 1 := by
  rw [List.countP_append, List.countP_singleton]
  split
  · rename_i hmatching
    have hzero : layers.countP matching = 0 := by
      rw [List.countP_eq_zero]
      exact List.any_eq_false.mp (hnew hmatching)
    omega
  · omega

theorem Regular.countP_declaresContract_le_one (h : handleClass.Regular) (contract : String) :
    handleClass.layers.countP (Layer.declaresContract contract) ≤ 1 := by
  induction h with
  | base => simp [layers]
  | roleLayer name regular absent distinct ih =>
      apply countP_concat_le_one ih
      intro hsame
      rw [Layer.declaresContract, decide_eq_true_eq] at hsame
      rw [← hsame]
      exact any_layers_of_implements_eq_false absent
  | markerLayer name regular absent ih =>
      exact countP_concat_le_one ih fun hsame => by cases hsame

theorem Regular.countP_declaresMarker_le_one (h : handleClass.Regular) (marker : String) :
    handleClass.layers.countP (Layer.declaresMarker marker) ≤ 1 := by
  induction h with
  | base => simp [layers]
  | roleLayer name regular absent distinct ih =>
      exact countP_concat_le_one ih fun hsame => by cases hsame
  | markerLayer name regular absent ih =>
      apply countP_concat_le_one ih
      intro hsame
      rw [Layer.declaresMarker, decide_eq_true_eq] at hsame
      rw [← hsame]
      exact any_layers_of_hasMarker_eq_false absent

end HandleClass

/-! ### Stacking onto a regular class -/

/-- The class under construction is regular and has these layers over this root. -/
structure Stacking.Rebuilds (stacking : Stacking) (root : HandleClass) (layers : List Layer) :
    Prop where
  regular : stacking.top.Regular
  root : stacking.top.root = root
  layers : stacking.top.layers = layers
  style : stacking.generator.style = .delegating

namespace Stacking

variable {stacking : Stacking} {root : HandleClass} {layers : List Layer}

theorem Rebuilds.start {base : HandleClass} (regular : base.Regular) (generator : Generator)
    (hstyle : generator.style = .delegating) (reservation : Reservation) :
    (Stacking.start base generator reservation).Rebuilds base.root base.layers :=
  ⟨regular, rfl, rfl, hstyle⟩

theorem Rebuilds.stackRole (h : stacking.Rebuilds root layers) {contract : Contract}
    (absent : stacking.top.implements contract.name = false)
    (distinct : contract.operationNames.Nodup) :
    ∃ next, stacking.stackRole contract (.ofContract contract.name) = .ok next ∧
      next.Rebuilds root (layers ++ [.role contract]) := by
  have hgenerate := Generator.generate_of_nodup contract (.ofContract contract.name)
    stacking.generator h.style distinct
  refine ⟨_, by rw [Stacking.stackRole, hgenerate], ?_⟩
  exact ⟨.roleLayer _ h.regular absent distinct, h.root, by rw [← h.layers]; rfl, rfl⟩

theorem Rebuilds.stackMarker (h : stacking.Rebuilds root layers) {marker : Marker}
    (absent : stacking.top.hasMarker marker.name = false) :
    (stacking.stackMarker marker).Rebuilds root (layers ++ [.marker marker]) :=
  ⟨.markerLayer _ h.regular absent, h.root, by rw [← h.layers]; rfl, h.style⟩

end Stacking

end RoleStack

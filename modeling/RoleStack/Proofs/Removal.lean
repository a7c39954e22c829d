import RoleStack.Proofs.RegularClass
import Mathlib.Data.List.TakeWhile

/-!
# Removals on regular classes

Cutting a regular class at a layer and stacking the rest again erases that layer, and falling back
for a contract keeps what lies below its layer.
-/

namespace RoleStack

namespace HandleClass

/-- A test of levels that sees only the layer. What it says of base classes does not matter. -/
structure Tests (declares : HandleClass → Bool) (matching : Layer → Bool) : Prop where
  role : ∀ name parent contract key forwarders,
    declares (.roleLayer name parent contract key forwarders) = matching (.role contract)
  marker : ∀ name parent marker,
    declares (.markerLayer name parent marker) = matching (.marker marker)

theorem tests_declaresContract (contract : String) :
    Tests (declaresContract contract) (Layer.declaresContract contract) :=
  ⟨fun _ _ _ _ _ => rfl, fun _ _ _ => rfl⟩

theorem tests_declaresMarker (marker : String) :
    Tests (declaresMarker marker) (Layer.declaresMarker marker) :=
  ⟨fun _ _ _ _ _ => rfl, fun _ _ _ => rfl⟩

variable {declares : HandleClass → Bool} {matching : Layer → Bool} {handleClass : HandleClass}

theorem splitAt?_eq_none_iff (tests : Tests declares matching) (handleClass : HandleClass) :
    handleClass.splitAt? declares = none ↔ handleClass.layers.any matching = false := by
  induction handleClass with
  | base => simp [splitAt?, layers]
  | roleLayer name parent contract key forwarders ih =>
      simp only [splitAt?, tests.role, layers, List.any_append, List.any_cons,
        List.any_nil, Bool.or_false, Bool.or_eq_false_iff]
      split
      · simp_all
      · simp_all
  | markerLayer name parent marker ih =>
      simp only [splitAt?, tests.marker, layers, List.any_append, List.any_cons,
        List.any_nil, Bool.or_false, Bool.or_eq_false_iff]
      split
      · simp_all
      · simp_all

theorem any_layers_of_splitAt? (tests : Tests declares matching) {split : Split}
    (h : handleClass.splitAt? declares = some split) : handleClass.layers.any matching = true := by
  cases hany : handleClass.layers.any matching with
  | true => rfl
  | false =>
      rw [← splitAt?_eq_none_iff tests, h] at hany
      cases hany

/-! ### Erasing the top layer, or one below it -/

theorem eraseP_concat_of_top {layers : List Layer} {layer : Layer}
    (honce : (layers ++ [layer]).countP matching ≤ 1) (htop : matching layer = true) :
    (layers ++ [layer]).eraseP matching = layers := by
  rw [List.countP_append, List.countP_singleton, if_pos htop] at honce
  have hnone : layers.countP matching = 0 := by omega
  rw [List.countP_eq_zero] at hnone
  rw [List.eraseP_append_right [layer] hnone, List.eraseP_cons_of_pos htop, List.append_nil]

theorem eraseP_concat_of_below {layers : List Layer} (layer : Layer)
    (hbelow : layers.any matching = true) :
    (layers ++ [layer]).eraseP matching = layers.eraseP matching ++ [layer] := by
  obtain ⟨found, hmem, hfound⟩ := List.any_eq_true.mp hbelow
  exact List.eraseP_append_left hfound [layer] hmem

theorem countP_le_one_of_concat {layers : List Layer} {layer : Layer}
    (honce : (layers ++ [layer]).countP matching ≤ 1) : layers.countP matching ≤ 1 := by
  rw [List.countP_append] at honce
  omega

theorem Regular.exists_restackAll (tests : Tests declares matching)
    (regular : handleClass.Regular) (honce : handleClass.layers.countP matching ≤ 1) {split : Split}
    (hsplit : handleClass.splitAt? declares = some split) (generator : Generator)
    (hstyle : generator.style = .delegating) (reservation : Reservation) :
    ∃ stacking,
      (Stacking.start split.base generator reservation).restackAll split.retained = .ok stacking ∧
        stacking.Rebuilds handleClass.root (handleClass.layers.eraseP matching) := by
  -- What the induction rebuilds has no interface that the class below did not have, so the layer
  -- over it is still new and can be stacked again.
  induction regular generalizing split with
  | base => cases hsplit
  | @roleLayer name parent contract regular absent distinct ih =>
      simp only [splitAt?, tests.role] at hsplit
      split at hsplit
      · rename_i htop
        obtain rfl := Option.some.inj hsplit
        refine ⟨_, rfl, ?_⟩
        rw [layers, eraseP_concat_of_top honce htop]
        exact .start regular generator hstyle reservation
      · obtain ⟨below, hbelow, rfl⟩ := Option.map_eq_some_iff.mp hsplit
        obtain ⟨lower, hlower, hrebuilds⟩ := ih (countP_le_one_of_concat honce) hbelow
        have hfree : lower.top.implements contract.name = false :=
          implements_eq_false_of_sublist hrebuilds.root
            (hrebuilds.layers ▸ List.eraseP_sublist) absent
        obtain ⟨next, hnext, hrole⟩ := hrebuilds.stackRole hfree distinct
        refine ⟨next, ?_, ?_⟩
        · rw [Stacking.restackAll_append, hlower]
          simp only [bind, Except.bind, Stacking.restackAll, Stacking.restack, hnext]
        · rw [layers, eraseP_concat_of_below _ (any_layers_of_splitAt? tests hbelow)]
          exact hrole
  | @markerLayer name parent marker regular absent ih =>
      simp only [splitAt?, tests.marker] at hsplit
      split at hsplit
      · rename_i htop
        obtain rfl := Option.some.inj hsplit
        refine ⟨_, rfl, ?_⟩
        rw [layers, eraseP_concat_of_top honce htop]
        exact .start regular generator hstyle reservation
      · obtain ⟨below, hbelow, rfl⟩ := Option.map_eq_some_iff.mp hsplit
        obtain ⟨lower, hlower, hrebuilds⟩ := ih (countP_le_one_of_concat honce) hbelow
        have hfree : lower.top.hasMarker marker.name = false :=
          hasMarker_eq_false_of_sublist (hrebuilds.layers ▸ List.eraseP_sublist) absent
        refine ⟨lower.stackMarker marker, ?_, ?_⟩
        · rw [Stacking.restackAll_append, hlower]
          simp only [bind, Except.bind, Stacking.restackAll, Stacking.restack]
        · rw [layers, eraseP_concat_of_below _ (any_layers_of_splitAt? tests hbelow)]
          exact hrebuilds.stackMarker hfree

/-! ### Falling back -/

variable {contract : String}

theorem implements_of_root_declares
    (h : handleClass.root.declaredInterfaces.contains contract = true) :
    handleClass.implements contract = true := by
  rw [implements_eq_stack, LayerStack.implements, stack, h, Bool.true_or]

theorem nearestWithout?_eq_none (h : handleClass.root.declaredInterfaces.contains contract = true) :
    handleClass.nearestWithout? contract = none := by
  induction handleClass with
  | base => rw [nearestWithout?, if_pos (implements_of_root_declares h)]
  | roleLayer name parent declared key forwarders ih =>
      rw [nearestWithout?, if_pos (implements_of_root_declares h)]
      exact ih h
  | markerLayer name parent marker ih =>
      rw [nearestWithout?, if_pos (implements_of_root_declares h)]
      exact ih h

/-- Keeping what lies below a match sees nothing above it. -/
theorem takeWhile_concat {layers : List Layer} {layer : Layer} {keep : Layer → Bool}
    (hstop : (layers ++ [layer]).any (fun layer => !keep layer) = true) :
    (layers ++ [layer]).takeWhile keep = layers.takeWhile keep := by
  induction layers with
  | nil =>
      have hlayer : keep layer = false := by simpa using hstop
      simp [hlayer]
  | cons first rest ih =>
      simp only [List.cons_append, List.takeWhile_cons]
      cases hfirst : keep first with
      | false => rfl
      | true =>
          rw [List.cons_append, List.any_cons, hfirst, Bool.not_true, Bool.false_or] at hstop
          simp [ih hstop]

theorem takeWhile_eq_self {layers : List Layer} {keep : Layer → Bool}
    (h : layers.any (fun layer => !keep layer) = false) : layers.takeWhile keep = layers := by
  rw [List.takeWhile_eq_self_iff]
  rw [List.any_eq_false] at h
  intro layer hmem
  simpa using h layer hmem

theorem any_layers_eq_implements
    (h : handleClass.root.declaredInterfaces.contains contract = false) :
    handleClass.layers.any (Layer.declaresContract contract) = handleClass.implements contract := by
  rw [implements_eq_stack, LayerStack.implements, stack, h, Bool.false_or]

/-- The layers below that of the contract, or all of them. -/
def layersBelow (handleClass : HandleClass) (contract : String) : List Layer :=
  handleClass.layers.takeWhile fun layer => !layer.declaresContract contract

theorem layersBelow_of_implements_eq_false (h : handleClass.implements contract = false) :
    handleClass.layersBelow contract = handleClass.layers := by
  apply takeWhile_eq_self
  simpa using any_layers_of_implements_eq_false h

theorem layersBelow_eq_parent {parent : HandleClass} {layer : Layer}
    (hlayers : handleClass.layers = parent.layers ++ [layer])
    (hany : handleClass.layers.any (Layer.declaresContract contract) = true) :
    handleClass.layersBelow contract = parent.layersBelow contract := by
  rw [layersBelow, hlayers, takeWhile_concat, layersBelow]
  rw [← hlayers]
  simpa only [Bool.not_not] using hany

/-- The class is one layer over a regular class. -/
structure Over (handleClass parent : HandleClass) (layer : Layer) : Prop where
  regular : parent.Regular
  parent? : handleClass.parent? = some parent
  single : handleClass.declaredInterfaces.length = 1
  root : parent.root = handleClass.root
  layers : handleClass.layers = parent.layers ++ [layer]

theorem Regular.exists_over (regular : handleClass.Regular) (h : handleClass.layers ≠ []) :
    ∃ parent layer, handleClass.Over parent layer := by
  cases regular with
  | base => exact absurd rfl h
  | roleLayer name regular => exact ⟨_, _, regular, rfl, rfl, rfl, rfl⟩
  | markerLayer name regular => exact ⟨_, _, regular, rfl, rfl, rfl, rfl⟩

namespace Over

variable {parent : HandleClass} {layer : Layer}

theorem nearestWithout?_eq (above : handleClass.Over parent layer) (contract : String) :
    handleClass.nearestWithout? contract =
      if handleClass.implements contract then parent.nearestWithout? contract
      else some handleClass := by
  have hparent := above.parent?
  cases handleClass with
  | base => cases hparent
  | roleLayer name lower declared key forwarders =>
      obtain rfl := Option.some.inj hparent
      rw [nearestWithout?]
  | markerLayer name lower marker =>
      obtain rfl := Option.some.inj hparent
      rw [nearestWithout?]

theorem exists_nearestWithout? (above : handleClass.Over parent layer)
    (regular : handleClass.Regular)
    (h : handleClass.root.declaredInterfaces.contains contract = false)
    (hparent : ∃ ancestor, parent.nearestWithout? contract = some ancestor ∧ ancestor.Regular ∧
      ancestor.root = parent.root ∧ ancestor.layers = parent.layersBelow contract) :
    ∃ ancestor, handleClass.nearestWithout? contract = some ancestor ∧ ancestor.Regular ∧
      ancestor.root = handleClass.root ∧ ancestor.layers = handleClass.layersBelow contract := by
  rw [above.nearestWithout?_eq]
  split
  · rename_i himplements
    obtain ⟨ancestor, hancestor, hregular, hroot, hlayers⟩ := hparent
    have hbelow := layersBelow_eq_parent above.layers
      ((any_layers_eq_implements h).trans himplements)
    exact ⟨ancestor, hancestor, hregular, hroot.trans above.root, hlayers.trans hbelow.symm⟩
  · rename_i hfree
    rw [Bool.not_eq_true] at hfree
    exact ⟨handleClass, rfl, regular, rfl, (layersBelow_of_implements_eq_false hfree).symm⟩

end Over

theorem Regular.exists_nearestWithout? (regular : handleClass.Regular)
    (h : handleClass.root.declaredInterfaces.contains contract = false) :
    ∃ ancestor, handleClass.nearestWithout? contract = some ancestor ∧ ancestor.Regular ∧
      ancestor.root = handleClass.root ∧ ancestor.layers = handleClass.layersBelow contract := by
  induction regular with
  | base name layout contracts extension =>
      have hfree : (HandleClass.base name layout contracts extension).implements contract = false := by
        rw [implements_base]
        exact h
      refine ⟨_, ?_, .base name layout contracts extension, rfl, rfl⟩
      rw [nearestWithout?, hfree]
      rfl
  | roleLayer name regular absent distinct ih =>
      exact Over.exists_nearestWithout? ⟨regular, rfl, rfl, rfl, rfl⟩
        (.roleLayer name regular absent distinct) h (ih h)
  | markerLayer name regular absent ih =>
      exact Over.exists_nearestWithout? ⟨regular, rfl, rfl, rfl, rfl⟩
        (.markerLayer name regular absent) h (ih h)

namespace Over

variable {parent : HandleClass} {layer : Layer}

theorem layersBelow_of_any (above : handleClass.Over parent layer)
    (hany : handleClass.layers.any (Layer.declaresContract contract) = true) :
    parent.layersBelow contract = handleClass.layersBelow contract :=
  (layersBelow_eq_parent above.layers hany).symm

theorem layersBelow_of_not_any (above : handleClass.Over parent layer)
    (hnone : handleClass.layers.any (Layer.declaresContract contract) = false) :
    parent.layersBelow contract = handleClass.layers.dropLast := by
  rw [above.layers, List.any_append, Bool.or_eq_false_iff] at hnone
  rw [above.layers, List.dropLast_concat, layersBelow, takeWhile_eq_self]
  simpa only [Bool.not_not] using hnone.1

theorem fallback?_lenient (above : handleClass.Over parent layer) (contract : String) :
    handleClass.fallback? false contract = parent.nearestWithout? contract := by
  rw [fallback?, if_pos (by simp [above.single]), above.parent?]
  rfl

theorem exists_fallback? (above : handleClass.Over parent layer)
    (hroot : handleClass.root.declaredInterfaces.contains contract = false) :
    ∃ ancestor, handleClass.fallback? false contract = some ancestor ∧ ancestor.Regular ∧
      ancestor.root = handleClass.root ∧ ancestor.layers = parent.layersBelow contract := by
  rw [← above.root] at hroot ⊢
  rw [above.fallback?_lenient]
  exact above.regular.exists_nearestWithout? hroot

end Over

/-- A base class has nothing to fall back to, with or without the contract. -/
theorem fallback?_eq_none_of_layers_eq_nil (h : handleClass.layers = []) (strict : Bool)
    (contract : String) : handleClass.fallback? strict contract = none := by
  cases handleClass with
  | base name layout contracts extension =>
      unfold fallback?
      split
      · rfl
      · split
        · rename_i himplements
          rw [nearestWithout?, if_pos himplements]
        · rfl
  | roleLayer => simp [layers] at h
  | markerLayer => simp [layers] at h

theorem fallback?_strict (handleClass : HandleClass) (contract : String) :
    handleClass.fallback? true contract =
      if handleClass.implements contract then handleClass.nearestWithout? contract else none := by
  rw [fallback?, if_neg (by simp)]

theorem Regular.exists_fallback? (regular : handleClass.Regular) {strict : Bool}
    {next : LayerStack} (h : handleClass.stack.fallBack strict contract = .ok next) :
    ∃ ancestor, handleClass.fallback? strict contract = some ancestor ∧ ancestor.Regular ∧
      ancestor.root = handleClass.root ∧ ancestor.stack = next := by
  unfold LayerStack.fallBack at h
  split at h
  · cases h
  rename_i hroot
  rw [Bool.not_eq_true] at hroot
  split at h
  · rename_i hany
    obtain rfl := Except.ok.inj h
    have himplements := (any_layers_eq_implements hroot).symm.trans hany
    cases strict with
    | true =>
        obtain ⟨ancestor, hancestor, hregular, hsame, hlayers⟩ :=
          regular.exists_nearestWithout? hroot
        refine ⟨ancestor, ?_, hregular, hsame, ?_⟩
        · rw [fallback?_strict, if_pos himplements, hancestor]
        · rw [stack, hsame, hlayers]
          rfl
    | false =>
        obtain ⟨parent, layer, above⟩ := regular.exists_over (by rintro hnil; simp [stack, hnil] at hany)
        obtain ⟨ancestor, hancestor, hregular, hsame, hlayers⟩ := above.exists_fallback? hroot
        refine ⟨ancestor, hancestor, hregular, hsame, ?_⟩
        rw [stack, hsame, hlayers, above.layersBelow_of_any hany]
        rfl
  · rename_i hnone
    rw [Bool.not_eq_true] at hnone
    split at h
    · cases h
    · rename_i hlenient
      obtain rfl := Except.ok.inj h
      simp only [Bool.or_eq_true, not_or, Bool.not_eq_true, List.isEmpty_eq_false_iff] at hlenient
      obtain ⟨rfl, hlayers⟩ := hlenient
      obtain ⟨parent, layer, above⟩ := regular.exists_over hlayers
      obtain ⟨ancestor, hancestor, hregular, hsame, hlayers⟩ := above.exists_fallback? hroot
      refine ⟨ancestor, hancestor, hregular, hsame, ?_⟩
      rw [stack, hsame, hlayers, above.layersBelow_of_not_any hnone]
      rfl

theorem Regular.fallback?_eq_none (regular : handleClass.Regular) {strict : Bool}
    {refusal : Refusal} (h : handleClass.stack.fallBack strict contract = .error refusal) :
    refusal = .ancestryNotFound ∧ handleClass.fallback? strict contract = none := by
  unfold LayerStack.fallBack at h
  split at h
  · rename_i hroot
    refine ⟨(Except.error.inj h).symm, ?_⟩
    cases strict with
    | true => rw [fallback?_strict, nearestWithout?_eq_none hroot, ite_self]
    | false =>
        by_cases hlayers : handleClass.layers = []
        · exact fallback?_eq_none_of_layers_eq_nil hlayers false contract
        · obtain ⟨parent, layer, above⟩ := regular.exists_over hlayers
          rw [above.fallback?_lenient]
          exact nearestWithout?_eq_none (above.root ▸ hroot)
  · rename_i hroot
    rw [Bool.not_eq_true] at hroot
    split at h
    · cases h
    · rename_i hnone
      rw [Bool.not_eq_true] at hnone
      have hfree := (any_layers_eq_implements hroot).symm.trans hnone
      split at h
      · rename_i hrefused
        refine ⟨(Except.error.inj h).symm, ?_⟩
        cases strict with
        | true => rw [fallback?_strict, if_neg (by simp [hfree])]
        | false =>
            simp only [Bool.false_or, List.isEmpty_iff] at hrefused
            exact fallback?_eq_none_of_layers_eq_nil hrefused false contract
      · cases h

end HandleClass

end RoleStack

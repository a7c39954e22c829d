import RoleStack.Proofs.Answering
import RoleStack.Proofs.Undoing

/-!
# Layers by their labels

In a regular class no two layers have one contract or one marker, so each layer is known by the name of
it. Additions that succeed put their layers on top in turn, and they would succeed in every other
order. Removals filter the layers by their labels, and so their order does not matter either.
-/

namespace RoleStack

/-- What a layer is known by. -/
inductive Label where
  | contract (name : String)
  | marker (name : String)
deriving DecidableEq

namespace Layer

def label : Layer → Label
  | .role declared => .contract declared.name
  | .marker declared => .marker declared.name

theorem declaresContract_eq (contract : String) :
    declaresContract contract = fun layer => decide (layer.label = .contract contract) := by
  funext layer
  cases layer <;> simp [declaresContract, label]

theorem declaresMarker_eq (marker : String) :
    declaresMarker marker = fun layer => decide (layer.label = .marker marker) := by
  funext layer
  cases layer <;> simp [declaresMarker, label]

end Layer

namespace ChangeKind

/-- What the change adds or takes away. -/
def label? (kind : ChangeKind) (role : RoleRef) : Option Label :=
  match kind with
  | .assume | .release | .releaseUntil => role.contract.map fun contract => .contract contract.name
  | .showMarker | .hideMarker => role.marker.map fun marker => .marker marker.name

/-- The layer that the change puts on top. -/
def layer? (kind : ChangeKind) (role : RoleRef) : Option Layer :=
  match kind with
  | .assume => role.contract.map .role
  | .showMarker => role.marker.map .marker
  | .release | .releaseUntil | .hideMarker => none

/-- The kind of change takes one layer out and stacks those over it again. -/
def Drops (kind : ChangeKind) : Prop :=
  kind = .release ∨ kind = .hideMarker

/-- The removal of what the addition brings. -/
def undo : ChangeKind → ChangeKind
  | .assume => .release
  | .showMarker => .hideMarker
  | kind => kind

variable {kind : ChangeKind} {role : RoleRef} {layer : Layer}

theorem label?_eq_of_layer? (h : kind.layer? role = some layer) :
    kind.label? role = some layer.label := by
  cases kind with
  | assume =>
      obtain ⟨contract, hcontract, rfl⟩ := Option.map_eq_some_iff.mp h
      rw [label?, hcontract]
      rfl
  | showMarker =>
      obtain ⟨marker, hmarker, rfl⟩ := Option.map_eq_some_iff.mp h
      rw [label?, hmarker]
      rfl
  | release | releaseUntil | hideMarker => cases h

theorem introduces_eq_some_iff {contract : Contract} :
    kind.introduces role = some contract ↔ kind.layer? role = some (.role contract) := by
  cases kind with
  | assume => simp [introduces, layer?, Option.map_eq_some_iff]
  | showMarker => simp [introduces, layer?]
  | release | releaseUntil | hideMarker => simp [introduces, layer?]

theorem Adds.drops_undo (h : kind.Adds) : kind.undo.Drops := by
  rcases h with rfl | rfl
  · exact .inl rfl
  · exact .inr rfl

theorem Adds.label?_undo (h : kind.Adds) (role : RoleRef) :
    kind.undo.label? role = kind.label? role := by
  rcases h with rfl | rfl <;> rfl

end ChangeKind

/-! ### Changes of stacks -/

namespace LayerStack

/-- The stack can be built in this order, and so in every order. -/
structure Buildable (stack : LayerStack) : Prop where
  distinct : (stack.layers.map Layer.label).Nodup
  admitted : ∀ contract, .role contract ∈ stack.layers →
    stack.declared.contains contract.name = false ∧ contract.operationNames.Nodup

variable {stack next : LayerStack} {layers other : List Layer} {declared : List String}
  {kind : ChangeKind} {role : RoleRef} {layer : Layer}

theorem Buildable.perm (h : (LayerStack.mk declared layers).Buildable) (hperm : other.Perm layers) :
    (LayerStack.mk declared other).Buildable where
  distinct := (hperm.map Layer.label).nodup_iff.mpr h.distinct
  admitted := fun contract hcontract => h.admitted contract (hperm.subset hcontract)

theorem any_label_eq_false_iff (label : Label) :
    (stack.layers.any fun layer => decide (layer.label = label)) = false ↔
      label ∉ stack.layers.map Layer.label := by
  simp

/-- An addition that the stack admits puts its layer on top. -/
theorem exists_of_change_adds (hadds : kind.Adds) (h : stack.change false kind role = .ok next) :
    ∃ layer, kind.layer? role = some layer ∧ next = stack.push layer := by
  rcases hadds with rfl | rfl
  · obtain ⟨contract, hcontract, -, -, rfl⟩ := exists_of_change_assume h
    exact ⟨.role contract, by rw [ChangeKind.layer?, hcontract]; rfl, rfl⟩
  · obtain ⟨marker, hmarker, rfl⟩ := exists_of_change_showMarker h
    exact ⟨.marker marker, by rw [ChangeKind.layer?, hmarker]; rfl, rfl⟩

/-- A stack admits a layer if the stack with it on top can be built. -/
theorem change_of_buildable (hlayer : kind.layer? role = some layer)
    (h : (stack.push layer).Buildable) : stack.change false kind role = .ok (stack.push layer) := by
  have hnew : layer.label ∉ stack.layers.map Layer.label := by
    have hdistinct := h.distinct
    rw [push, List.map_append, List.map_singleton, ← List.concat_eq_append, List.nodup_concat]
      at hdistinct
    exact hdistinct.1
  cases kind with
  | assume =>
      obtain ⟨contract, hcontract, rfl⟩ := Option.map_eq_some_iff.mp hlayer
      obtain ⟨hdeclared, hoperations⟩ := h.admitted contract
        (List.mem_append_right _ (List.mem_singleton_self _))
      have habsent : stack.implements contract.name = false := by
        rw [implements, Bool.or_eq_false_iff, Layer.declaresContract_eq, any_label_eq_false_iff]
        exact ⟨hdeclared, hnew⟩
      rw [change, RoleRef.offeredContract_eq_ok_iff.mpr hcontract]
      change stack.addContract contract = _
      rw [addContract, if_neg (by simp [habsent]), if_pos hoperations]
  | showMarker =>
      obtain ⟨marker, hmarker, rfl⟩ := Option.map_eq_some_iff.mp hlayer
      have habsent : stack.hasMarker marker.name = false := by
        rw [hasMarker, Layer.declaresMarker_eq, any_label_eq_false_iff]
        exact hnew
      rw [change, RoleRef.shownMarker_eq_ok_iff.mpr hmarker]
      change stack.addMarker marker = _
      rw [addMarker, if_neg (by simp [habsent])]
  | release | releaseUntil | hideMarker => cases hlayer

/-- A removal erases the layer with its label. -/
theorem change_drops (hdrops : kind.Drops) {label : Label} (hlabel : kind.label? role = some label) :
    stack.change false kind role = stack.erase fun layer => decide (layer.label = label) := by
  rcases hdrops with rfl | rfl
  · obtain ⟨contract, hcontract, rfl⟩ := Option.map_eq_some_iff.mp hlabel
    rw [change, RoleRef.offeredContract_eq_ok_iff.mpr hcontract, ← Layer.declaresContract_eq]
    rfl
  · obtain ⟨marker, hmarker, rfl⟩ := Option.map_eq_some_iff.mp hlabel
    rw [change, RoleRef.shownMarker_eq_ok_iff.mpr hmarker, ← Layer.declaresMarker_eq]
    rfl

theorem exists_label_of_change_drops (hdrops : kind.Drops)
    (h : stack.change false kind role = .ok next) : ∃ label, kind.label? role = some label := by
  rcases hdrops with rfl | rfl
  · obtain ⟨contract, hoffered, -⟩ := exists_of_bind_eq_ok h
    exact ⟨.contract contract.name, by
      rw [ChangeKind.label?, RoleRef.offeredContract_eq_ok_iff.mp hoffered]; rfl⟩
  · obtain ⟨marker, hshown, -⟩ := exists_of_bind_eq_ok h
    exact ⟨.marker marker.name, by
      rw [ChangeKind.label?, RoleRef.shownMarker_eq_ok_iff.mp hshown]; rfl⟩

theorem eraseP_label {layers : List Layer} (distinct : (layers.map Layer.label).Nodup)
    (label : Label) :
    (layers.eraseP fun layer => decide (layer.label = label)) =
      layers.filter fun layer => decide (layer.label ≠ label) := by
  induction layers with
  | nil => rfl
  | cons layer rest ih =>
      obtain ⟨hnew, distinct⟩ := List.nodup_cons.mp distinct
      by_cases hlayer : layer.label = label
      · rw [List.eraseP_cons_of_pos (by simp [hlayer]), List.filter_cons_of_neg (by simp [hlayer])]
        refine (List.filter_eq_self.mpr fun other hother => ?_).symm
        rw [decide_eq_true_eq]
        rintro rfl
        exact hnew (hlayer ▸ List.mem_map_of_mem hother)
      · rw [List.eraseP_cons_of_neg (by simp [hlayer]), List.filter_cons_of_pos (by simp [hlayer]),
          ih distinct]

/-! ### One change after the other -/

/-- Makes changes that are the same in both modes. -/
def changeAll (stack : LayerStack) : List (ChangeKind × RoleRef) → Except Refusal LayerStack
  | [] => .ok stack
  | (kind, role) :: rest => do
      let next ← stack.change false kind role
      next.changeAll rest

end LayerStack

namespace ChangeKind

def labels (changes : List (ChangeKind × RoleRef)) : List (Option Label) :=
  changes.map fun change => change.1.label? change.2

/-- The layers that the changes put on top, in turn. -/
def layersOf (changes : List (ChangeKind × RoleRef)) : List Layer :=
  changes.filterMap fun change => change.1.layer? change.2

theorem labels_eq_map {additions : List (ChangeKind × RoleRef)}
    (hoffers : ∀ addition ∈ additions, (addition.1.layer? addition.2).isSome) :
    labels additions = (layersOf additions).map fun layer => some layer.label := by
  induction additions with
  | nil => rfl
  | cons addition rest ih =>
      obtain ⟨layer, hlayer⟩ := Option.isSome_iff_exists.mp (hoffers addition List.mem_cons_self)
      have hrest := ih fun later hlater => hoffers later (List.mem_cons_of_mem _ hlater)
      have hlayers : layersOf (addition :: rest) = layer :: layersOf rest :=
        List.filterMap_cons_some hlayer
      rw [labels, List.map_cons, label?_eq_of_layer? hlayer, hlayers, List.map_cons]
      exact congrArg _ hrest

end ChangeKind

namespace LayerStack

open ChangeKind

variable {stack last : LayerStack} {additions removals : List (ChangeKind × RoleRef)}

theorem Buildable.of_append {declared : List String} {layers above : List Layer}
    (h : (LayerStack.mk declared (layers ++ above)).Buildable) :
    (LayerStack.mk declared layers).Buildable where
  distinct := by
    have hdistinct := h.distinct
    rw [List.map_append] at hdistinct
    exact hdistinct.of_append_left
  admitted := fun contract hcontract => h.admitted contract (List.mem_append_left _ hcontract)

theorem eq_of_changeAll_adds (hadds : ∀ addition ∈ additions, addition.1.Adds)
    (h : stack.changeAll additions = .ok last) :
    last = ⟨stack.declared, stack.layers ++ layersOf additions⟩ ∧
      ∀ addition ∈ additions, (addition.1.layer? addition.2).isSome := by
  induction additions generalizing stack with
  | nil =>
      obtain rfl := Except.ok.inj h
      refine ⟨?_, by simp⟩
      rw [layersOf, List.filterMap_nil, List.append_nil]
  | cons addition rest ih =>
      obtain ⟨kind, role⟩ := addition
      obtain ⟨next, hnext, hrest⟩ := exists_of_bind_eq_ok h
      obtain ⟨layer, hlayer, rfl⟩ := exists_of_change_adds (hadds _ List.mem_cons_self) hnext
      obtain ⟨hlast, hoffers⟩ :=
        ih (fun later hlater => hadds later (List.mem_cons_of_mem _ hlater)) hrest
      have hlayers : layersOf ((kind, role) :: rest) = layer :: layersOf rest :=
        List.filterMap_cons_some hlayer
      refine ⟨?_, List.forall_mem_cons.mpr ⟨?_, hoffers⟩⟩
      · rw [hlast, hlayers, push, List.append_assoc, List.singleton_append]
      · rw [hlayer]
        rfl

theorem changeAll_of_buildable
    (hoffers : ∀ addition ∈ additions, (addition.1.layer? addition.2).isSome)
    (h : (LayerStack.mk stack.declared (stack.layers ++ layersOf additions)).Buildable) :
    stack.changeAll additions = .ok ⟨stack.declared, stack.layers ++ layersOf additions⟩ := by
  induction additions generalizing stack with
  | nil =>
      rw [layersOf, List.filterMap_nil, List.append_nil]
      rfl
  | cons addition rest ih =>
      obtain ⟨kind, role⟩ := addition
      obtain ⟨layer, hlayer⟩ := Option.isSome_iff_exists.mp (hoffers _ List.mem_cons_self)
      have hlayers : stack.layers ++ layersOf ((kind, role) :: rest) =
          (stack.push layer).layers ++ layersOf rest := by
        rw [show layersOf ((kind, role) :: rest) = layer :: layersOf rest from
          List.filterMap_cons_some hlayer, push, List.append_assoc, List.singleton_append]
      rw [hlayers] at h ⊢
      rw [changeAll, change_of_buildable hlayer h.of_append]
      exact ih (fun later hlater => hoffers later (List.mem_cons_of_mem _ hlater)) h

/-- Taking layers out one by one leaves those with other labels, in their order. -/
theorem eq_of_changeAll_drops (hdrops : ∀ removal ∈ removals, removal.1.Drops)
    (distinct : (stack.layers.map Layer.label).Nodup) (h : stack.changeAll removals = .ok last) :
    last = ⟨stack.declared,
      stack.layers.filter fun layer => decide (some layer.label ∉ labels removals)⟩ := by
  induction removals generalizing stack with
  | nil =>
      obtain rfl := Except.ok.inj h
      simp [labels]
  | cons removal rest ih =>
      obtain ⟨kind, role⟩ := removal
      have hkind : kind.Drops := hdrops _ List.mem_cons_self
      obtain ⟨next, hnext, hrest⟩ := exists_of_bind_eq_ok h
      obtain ⟨label, hlabel⟩ := exists_label_of_change_drops hkind hnext
      rw [change_drops hkind hlabel] at hnext
      unfold erase at hnext
      split at hnext
      · obtain rfl := Except.ok.inj hnext
        rw [eraseP_label distinct] at hrest
        have hkept := ih (fun later hlater => hdrops later (List.mem_cons_of_mem _ hlater))
          (distinct.sublist (List.filter_sublist.map Layer.label)) hrest
        have hlabels : labels ((kind, role) :: rest) = some label :: labels rest := by
          rw [labels, List.map_cons, hlabel]
          rfl
        rw [hkept, LayerStack.mk.injEq, List.filter_filter, hlabels]
        refine ⟨rfl, List.filter_congr fun layer _ => ?_⟩
        simp [Bool.and_comm]
      · cases hnext

/-- Layers that are there can be taken out in every order. -/
theorem exists_changeAll_drops (hdrops : ∀ removal ∈ removals, removal.1.Drops)
    (distinct : (stack.layers.map Layer.label).Nodup) (hnodup : (labels removals).Nodup)
    (hpresent : ∀ label ∈ labels removals, ∃ layer ∈ stack.layers, label = some layer.label) :
    ∃ last, stack.changeAll removals = .ok last := by
  induction removals generalizing stack with
  | nil => exact ⟨stack, rfl⟩
  | cons removal rest ih =>
      obtain ⟨kind, role⟩ := removal
      have hkind : kind.Drops := hdrops _ List.mem_cons_self
      obtain ⟨hnew, hnodup⟩ := List.nodup_cons.mp hnodup
      obtain ⟨layer, hlayer, hlabel⟩ := hpresent _ List.mem_cons_self
      have hany : (stack.layers.any fun other => decide (other.label = layer.label)) = true :=
        List.any_eq_true.mpr ⟨layer, hlayer, decide_eq_true rfl⟩
      rw [changeAll, change_drops hkind hlabel, erase, if_pos hany, eraseP_label distinct]
      apply ih (fun later hlater => hdrops later (List.mem_cons_of_mem _ hlater))
        (distinct.sublist (List.filter_sublist.map Layer.label)) hnodup
      intro label hmem
      obtain ⟨other, hother, rfl⟩ := hpresent label (List.mem_cons_of_mem _ hmem)
      refine ⟨other, List.mem_filter.mpr ⟨hother, ?_⟩, rfl⟩
      rw [decide_eq_true_eq]
      intro hsame
      rw [hsame, ← hlabel] at hmem
      exact hnew hmem

end LayerStack

/-! ### Classes -/

/-- A layer with the key and the forwarders that calls go by. -/
structure Fitting where
  layer : Layer
  key : Option Key
  forwarders : ForwarderTable

/-- The key and the forwarders that a contract's layer gets by default. -/
def Layer.fitting : Layer → Fitting
  | .role declared =>
      ⟨.role declared, some (.ofContract declared.name),
        declared.forwarders (.ofContract declared.name)⟩
  | .marker declared => ⟨.marker declared, none, Table.empty⟩

@[simp]
theorem Layer.fitting_layer (layer : Layer) : layer.fitting.layer = layer := by
  cases layer <;> rfl

namespace HandleClass

/-- The layers from the bottom up, with what each has. -/
def fittings : HandleClass → List Fitting
  | .base .. => []
  | .roleLayer _ parent contract key forwarders =>
      parent.fittings ++ [⟨.role contract, some key, forwarders⟩]
  | .markerLayer _ parent marker => parent.fittings ++ [⟨.marker marker, none, Table.empty⟩]

variable {handleClass : HandleClass}

theorem Regular.fittings_eq (h : handleClass.Regular) :
    handleClass.fittings = handleClass.layers.map Layer.fitting := by
  induction h with
  | base => rfl
  | roleLayer name regular absent distinct ih =>
      rw [fittings, ih, layers, List.map_append]
      rfl
  | markerLayer name regular absent ih =>
      rw [fittings, ih, layers, List.map_append]
      rfl

theorem nodup_labels_concat {layers : List Layer} {layer : Layer}
    (distinct : (layers.map Layer.label).Nodup)
    (hnew : (layers.any fun other => decide (other.label = layer.label)) = false) :
    ((layers ++ [layer]).map Layer.label).Nodup := by
  rw [List.map_append, List.map_singleton, ← List.concat_eq_append, List.nodup_concat]
  exact ⟨by simpa using hnew, distinct⟩

theorem Regular.buildable (h : handleClass.Regular) : handleClass.stack.Buildable := by
  induction h with
  | base name layout contracts extension =>
      exact ⟨List.nodup_nil, fun contract hcontract => by cases hcontract⟩
  | @roleLayer name parent contract regular absent distinct ih =>
      have hnew := any_layers_of_implements_eq_false absent
      rw [Layer.declaresContract_eq] at hnew
      refine ⟨nodup_labels_concat ih.distinct hnew, ?_⟩
      intro other hother
      rcases List.mem_append.mp hother with hbelow | htop
      · exact ih.admitted other hbelow
      · obtain rfl := Layer.role.inj (List.mem_singleton.mp htop)
        rw [implements_eq_stack, LayerStack.implements, Bool.or_eq_false_iff] at absent
        exact ⟨absent.1, distinct⟩
  | @markerLayer name parent marker regular absent ih =>
      have hnew := any_layers_of_hasMarker_eq_false absent
      rw [Layer.declaresMarker_eq] at hnew
      refine ⟨nodup_labels_concat ih.distinct hnew, ?_⟩
      intro other hother
      rcases List.mem_append.mp hother with hbelow | htop
      · exact ih.admitted other hbelow
      · cases List.mem_singleton.mp htop

end HandleClass

end RoleStack

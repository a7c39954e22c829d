import RoleStack.Proofs.Succession
import Mathlib.Data.List.Perm.Subperm

/-!
# Additions and removals in any order

Additions to a fresh handle commute: whatever their order, the handle that they lead to has the same
interfaces, bindings and fields, and answers all calls alike. Removals from such a handle commute too,
and what they leave are the other layers with the keys and forwarders that they had.
-/

namespace RoleStack

/-! ### Lookups in any order -/

theorem findSome?_eq_of_perm {Value Result : Type} {first second : List Value}
    {find : Value → Option Result} (hperm : first.Perm second)
    (hunique : ∀ x ∈ first, ∀ y ∈ first, ∀ a b, find x = some a → find y = some b → a = b) :
    first.findSome? find = second.findSome? find := by
  cases hsecond : second.findSome? find with
  | none =>
      rw [List.findSome?_eq_none_iff] at hsecond ⊢
      exact fun x hx => hsecond x (hperm.subset hx)
  | some b =>
      obtain ⟨y, hy, hfind⟩ := List.exists_of_findSome?_eq_some hsecond
      cases hfirst : first.findSome? find with
      | none =>
          rw [List.findSome?_eq_none_iff.mp hfirst y (hperm.symm.subset hy)] at hfind
          cases hfind
      | some a =>
          obtain ⟨x, hx, hfound⟩ := List.exists_of_findSome?_eq_some hfirst
          rw [hunique x hx y (hperm.symm.subset hy) a b hfound hfind]

theorem introducer_eq_findSome? (contract : String) (changes : List (ChangeKind × RoleRef)) :
    introducer contract changes = changes.findSome? fun change =>
      if (change.1.introduces change.2).map Contract.name = some contract then some change.2
      else none := by
  induction changes with
  | nil => rfl
  | cons change earlier ih =>
      rw [introducer, List.findSome?_cons, ih]
      split
      · rfl
      · rfl

namespace ChangeKind

variable {kind : ChangeKind} {role : RoleRef} {changes more : List (ChangeKind × RoleRef)}

theorem label?_of_introduces {contract : Contract} (h : kind.introduces role = some contract) :
    kind.label? role = some (.contract contract.name) :=
  label?_eq_of_layer? (introduces_eq_some_iff.mp h)

/-- Which role brought a contract in does not depend on the order, if only one did. -/
theorem introducer_eq_of_perm (hperm : changes.Perm more) (distinct : (labels changes).Nodup)
    (contract : String) : introducer contract changes = introducer contract more := by
  rw [introducer_eq_findSome?, introducer_eq_findSome?]
  apply findSome?_eq_of_perm hperm
  intro change hchange other hother role role' hrole hrole'
  have hlabel : ∀ (found : ChangeKind × RoleRef) (role : RoleRef),
      (if (found.1.introduces found.2).map Contract.name = some contract then some found.2
        else none) = some role →
        found.1.label? found.2 = some (.contract contract) ∧ found.2 = role := by
    intro found role hfound
    split at hfound
    · rename_i hname
      obtain ⟨declared, hdeclared, rfl⟩ := Option.map_eq_some_iff.mp hname
      exact ⟨label?_of_introduces hdeclared, Option.some.inj hfound⟩
    · cases hfound
  obtain ⟨hlabel₁, rfl⟩ := hlabel change role hrole
  obtain ⟨hlabel₂, rfl⟩ := hlabel other role' hrole'
  rw [List.inj_on_of_nodup_map distinct hchange hother (hlabel₁.trans hlabel₂.symm)]

theorem introducer_append (h : ∀ change ∈ more, change.1.introduces change.2 = none)
    (contract : String) : introducer contract (more ++ changes) = introducer contract changes := by
  induction more with
  | nil => rfl
  | cons change earlier ih =>
      rw [List.cons_append, introducer_of_introduces_eq_none (h change List.mem_cons_self)]
      exact ih fun other hother => h other (List.mem_cons_of_mem _ hother)

/-- No operation is named by two of the contracts that are brought in. -/
def SharesNoOperation (additions : List (ChangeKind × RoleRef)) : Prop :=
  ∀ first ∈ additions, ∀ second ∈ additions, ∀ contract other,
    first.1.introduces first.2 = some contract → second.1.introduces second.2 = some other →
      contract.name ≠ other.name → contract.operationNames.Disjoint other.operationNames

end ChangeKind

theorem Contract.mem_operationNames_of_find? {contract : Contract} {operation : String}
    {signature : Signature} (h : contract.find? operation = some signature) :
    operation ∈ contract.operationNames := by
  obtain rfl := Contract.name_of_find? h
  exact List.mem_map_of_mem (List.mem_of_find?_eq_some h)

theorem topOffer?_eq_of_perm {layers above : List Layer} (hperm : layers.Perm above)
    (distinct : (layers.map Layer.label).Nodup)
    (hdisjoint : ∀ contract other, .role contract ∈ layers → .role other ∈ layers →
      contract.name ≠ other.name → contract.operationNames.Disjoint other.operationNames)
    (operation : String) : topOffer? operation layers = topOffer? operation above := by
  have hreverse : layers.reverse.Perm above.reverse :=
    (layers.reverse_perm.trans hperm).trans above.reverse_perm.symm
  apply findSome?_eq_of_perm hreverse
  intro layer hlayer other hother offer offer' hoffer hoffer'
  obtain ⟨rfl, hfind⟩ := Layer.offer?_eq_some_iff.mp hoffer
  obtain ⟨rfl, hfind'⟩ := Layer.offer?_eq_some_iff.mp hoffer'
  rw [List.mem_reverse] at hlayer hother
  have hname : offer.1.name = offer'.1.name := by
    by_contra hne
    exact hdisjoint _ _ hlayer hother hne (Contract.mem_operationNames_of_find? hfind)
      (Contract.mem_operationNames_of_find? hfind')
  have hsame : Layer.role offer.1 = Layer.role offer'.1 :=
    List.inj_on_of_nodup_map distinct hlayer hother (congrArg Label.contract hname)
  rw [← hsame, hoffer] at hoffer'
  exact Option.some.inj hoffer'

/-! ### All additions in some order -/

namespace Handle

open ChangeKind

/-- The handle has what the additions bring to a fresh instance of the base, and nothing else. -/
structure Carries (handle : Handle) (base : HandleClass) (additions : List (ChangeKind × RoleRef)) :
    Prop where
  stems : handle.StemsFrom base additions.reverse
  layers : handle.handleClass.layers = layersOf additions
  fields : ∀ field, handle.fields.get? field = base.layout.get? field
  offers : ∀ addition ∈ additions, (addition.1.layer? addition.2).isSome

/-- The two cannot be told apart by what they show, hold and answer. -/
structure Agrees (handle other : Handle) : Prop where
  implements : ∀ contract,
    handle.handleClass.implements contract = other.handleClass.implements contract
  hasMarker : ∀ marker, handle.handleClass.hasMarker marker = other.handleClass.hasMarker marker
  bindings : ∀ key, handle.bindings.get? key = other.bindings.get? key
  fieldNames : handle.fields.keys = other.fields.keys
  fields : ∀ field, handle.fields.get? field = other.fields.get? field
  answers : ∀ operation, handle.AnswersAs other operation

namespace Carries

variable {handle other : Handle} {base : HandleClass}
  {additions additions' chosen removals : List (ChangeKind × RoleRef)}

theorem distinct (h : handle.Carries base additions) :
    ((layersOf additions).map Layer.label).Nodup := by
  rw [← h.layers]
  exact h.stems.accounted.regular.buildable.distinct

theorem nodup_labels (h : handle.Carries base additions) : (labels additions).Nodup := by
  have hsome : Function.Injective (some : Label → Option Label) := fun _ _ => Option.some.inj
  have hlabels := h.distinct.map hsome
  rw [List.map_map] at hlabels
  rw [labels_eq_map h.offers]
  exact hlabels

theorem role_mem_iff {contract : Contract} :
    .role contract ∈ layersOf additions ↔
      ∃ addition ∈ additions, addition.1.introduces addition.2 = some contract := by
  rw [layersOf, List.mem_filterMap]
  simp only [introduces_eq_some_iff]

theorem stack_eq (h : handle.Carries base additions) :
    handle.handleClass.stack = ⟨base.declaredInterfaces, layersOf additions⟩ := by
  rw [HandleClass.stack, h.stems.keeps.root, h.layers]

theorem agrees (h : handle.Carries base additions) (h' : other.Carries base additions')
    (hperm : additions'.Perm additions) (hdisjoint : SharesNoOperation additions) :
    handle.Agrees other := by
  have hlayers : (layersOf additions).Perm (layersOf additions') := hperm.symm.filterMap _
  have hroles : ∀ contract,
      introducer contract additions'.reverse = introducer contract additions.reverse := by
    apply introducer_eq_of_perm
    · exact (additions'.reverse_perm.trans hperm).trans additions.reverse_perm.symm
    · exact (additions'.reverse_perm.map _).nodup_iff.mpr h'.nodup_labels
  have hkept : ∀ contract, .role contract ∈ other.handleClass.layers ↔
      .role contract ∈ handle.handleClass.layers ∧ Key.ofContract contract.name ∉ [] := by
    intro contract
    rw [h.layers, h'.layers, hlayers.mem_iff]
    simp
  constructor
  · intro contract
    rw [HandleClass.implements_eq_stack, HandleClass.implements_eq_stack, h.stack_eq, h'.stack_eq,
      LayerStack.implements, LayerStack.implements, hlayers.any_eq]
  · intro marker
    rw [HandleClass.hasMarker_eq_stack, HandleClass.hasMarker_eq_stack, h.stack_eq, h'.stack_eq,
      LayerStack.hasMarker, LayerStack.hasMarker, hlayers.any_eq]
  · intro key
    have hbindings := h.stems.accounted.get?_bindings_of_kept h'.stems.accounted hkept hroles key
    rw [if_neg List.not_mem_nil] at hbindings
    exact hbindings.symm
  · rw [h.stems.keeps.fields, h'.stems.keeps.fields]
  · intro field
    rw [h.fields, h'.fields]
  · intro operation
    refine h.stems.accounted.answersAs h'.stems.accounted ?_ fun contract _ => hroles _
    rw [h.layers, h'.layers]
    refine (topOffer?_eq_of_perm hlayers h.distinct ?_ operation).symm
    intro contract other hcontract hother
    obtain ⟨first, hfirst, hintroduced⟩ := role_mem_iff.mp hcontract
    obtain ⟨second, hsecond, hintroduced'⟩ := role_mem_iff.mp hother
    exact hdisjoint first hfirst second hsecond contract other hintroduced hintroduced'

end Carries

end Handle

/-! ### Taking some of them away -/

namespace ChangeKind

variable {kind : ChangeKind} {additions : List (ChangeKind × RoleRef)}

/-- The removals of what the additions bring, one for each. -/
def undoAll (additions : List (ChangeKind × RoleRef)) : List (ChangeKind × RoleRef) :=
  additions.map fun addition => (addition.1.undo, addition.2)

/-- The keys under which the additions bind their roles. -/
def keysOf (additions : List (ChangeKind × RoleRef)) : List Key :=
  additions.filterMap fun addition =>
    (addition.1.introduces addition.2).map fun contract => .ofContract contract.name

theorem Adds.ne_releaseUntil (h : kind.Adds) : kind ≠ .releaseUntil := by
  rcases h with rfl | rfl <;> decide

theorem Drops.ne_releaseUntil (h : kind.Drops) : kind ≠ .releaseUntil := by
  rcases h with rfl | rfl <;> decide

theorem Drops.introduces_eq_none (h : kind.Drops) (role : RoleRef) :
    kind.introduces role = none := by
  rcases h with rfl | rfl <;> rfl

theorem drops_of_mem_undoAll (hadds : ∀ addition ∈ additions, addition.1.Adds) :
    ∀ removal ∈ undoAll additions, removal.1.Drops := by
  intro removal hremoval
  obtain ⟨addition, haddition, rfl⟩ := List.mem_map.mp hremoval
  exact (hadds addition haddition).drops_undo

theorem labels_undoAll (hadds : ∀ addition ∈ additions, addition.1.Adds) :
    labels (undoAll additions) = labels additions := by
  rw [labels, undoAll, List.map_map]
  refine List.map_congr_left fun addition haddition => ?_
  exact (hadds addition haddition).label?_undo addition.2

theorem mem_keysOf_iff (hadds : ∀ addition ∈ additions, addition.1.Adds) (contract : String) :
    .ofContract contract ∈ keysOf additions ↔ some (.contract contract) ∈ labels additions := by
  simp only [keysOf, List.mem_filterMap, labels, List.mem_map, Option.map_eq_some_iff]
  constructor
  · rintro ⟨addition, haddition, declared, hdeclared, hkey⟩
    refine ⟨addition, haddition, ?_⟩
    rw [label?_of_introduces hdeclared, Key.ofContract_injective hkey]
  · rintro ⟨⟨kind, role⟩, haddition, hlabel⟩
    rcases hadds _ haddition with rfl | rfl
    · obtain ⟨declared, hdeclared, hname⟩ := Option.map_eq_some_iff.mp hlabel
      exact ⟨_, haddition, declared, hdeclared, congrArg Key.ofContract (Label.contract.inj hname)⟩
    · obtain ⟨marker, -, hname⟩ := Option.map_eq_some_iff.mp hlabel
      cases hname

end ChangeKind

namespace Handle

open ChangeKind

/-- What is left of a handle without what was chosen: the other layers in their order, with their keys
and forwarders, and the other bindings. -/
structure Remains (rest full : Handle) (chosen : List (ChangeKind × RoleRef)) : Prop where
  fittings : rest.handleClass.fittings = full.handleClass.fittings.filter fun fitting =>
    decide (some fitting.layer.label ∉ labels chosen)
  bindings : ∀ key,
    rest.bindings.get? key = if key ∈ keysOf chosen then none else full.bindings.get? key

namespace Carries

variable {rest full : Handle} {base : HandleClass}
  {additions chosen removals : List (ChangeKind × RoleRef)}

theorem layers_of_removals (h : full.Carries base additions)
    (hadds : ∀ addition ∈ removals, addition.1.Adds) (hperm : removals.Perm chosen)
    (hstack : full.handleClass.stack.changeAll (undoAll removals) = .ok rest.handleClass.stack) :
    rest.handleClass.layers = full.handleClass.layers.filter fun layer =>
      decide (some layer.label ∉ labels chosen) := by
  have hlabels : ∀ label, label ∈ labels (undoAll removals) ↔ label ∈ labels chosen := by
    intro label
    rw [labels_undoAll hadds]
    exact (hperm.map _).mem_iff
  have hreached := LayerStack.eq_of_changeAll_drops (drops_of_mem_undoAll hadds)
    h.stems.accounted.regular.buildable.distinct hstack
  simp only [hlabels] at hreached
  exact congrArg LayerStack.layers hreached

theorem remains (h : full.Carries base additions) (hadds : ∀ addition ∈ removals, addition.1.Adds)
    (hperm : removals.Perm chosen)
    (hstems : rest.StemsFrom base ((undoAll removals).reverse ++ additions.reverse))
    (hstack : full.handleClass.stack.changeAll (undoAll removals) = .ok rest.handleClass.stack) :
    rest.Remains full chosen := by
  have hlayers := h.layers_of_removals hadds hperm hstack
  constructor
  · rw [hstems.accounted.regular.fittings_eq, h.stems.accounted.regular.fittings_eq, hlayers,
      List.filter_map]
    refine congrArg _ (List.filter_congr fun layer _ => ?_)
    simp
  · apply h.stems.accounted.get?_bindings_of_kept hstems.accounted
    · intro contract
      rw [hlayers, List.mem_filter, decide_eq_true_eq,
        mem_keysOf_iff fun addition haddition => hadds addition (hperm.symm.subset haddition)]
      rfl
    · apply introducer_append
      intro removal hremoval
      exact (drops_of_mem_undoAll hadds removal (List.mem_reverse.mp hremoval)).introduces_eq_none _

/-- The additions succeed in every other order. -/
theorem changeAll_of_perm (h : full.Carries base additions) {additions' : List (ChangeKind × RoleRef)}
    (hbase : base.isBase = true) (hperm : additions'.Perm additions) :
    base.stack.changeAll additions' = .ok ⟨base.declaredInterfaces, layersOf additions'⟩ := by
  have hbuildable : (LayerStack.mk base.declaredInterfaces (layersOf additions')).Buildable := by
    have hown := h.stems.accounted.regular.buildable
    rw [h.stack_eq] at hown
    exact hown.perm (hperm.filterMap _)
  rw [HandleClass.stack, HandleClass.root_of_isBase hbase, HandleClass.layers_of_isBase hbase]
  refine LayerStack.changeAll_of_buildable ?_ hbuildable
  exact fun addition haddition => h.offers addition (hperm.subset haddition)

/-- Each of the layers can be taken away once, in any order. -/
theorem exists_changeAll_undoAll (h : full.Carries base additions)
    (hadds : ∀ addition ∈ removals, addition.1.Adds) (hremovals : removals.Subperm additions) :
    ∃ stack, full.handleClass.stack.changeAll (undoAll removals) = .ok stack := by
  obtain ⟨sub, hperm, hsub⟩ := hremovals
  apply LayerStack.exists_changeAll_drops (drops_of_mem_undoAll hadds)
    h.stems.accounted.regular.buildable.distinct
  · rw [labels_undoAll hadds]
    exact (hperm.map _).nodup_iff.mp (h.nodup_labels.sublist (hsub.map _))
  · intro label hlabel
    rw [labels_undoAll hadds] at hlabel
    have hmem : label ∈ labels additions := (hsub.map _).subset ((hperm.map _).mem_iff.mpr hlabel)
    rw [labels_eq_map h.offers, ← h.layers] at hmem
    obtain ⟨layer, hlayer, rfl⟩ := List.mem_map.mp hmem
    exact ⟨layer, hlayer, rfl⟩

end Carries

end Handle

/-! ### Runs in a session -/

namespace Session

open ChangeKind

variable {session : Session} {workshop : Ref Workshop} {agent : AgentId} {shared last : SharedHandle}
  {base : HandleClass} {identity : Identity} {additions removals : List (ChangeKind × RoleRef)}

theorem exists_carries (hbase : base.isBase = true)
    (hblank : session.handles.get? shared.cell = some (Handle.blank identity base))
    (hadds : ∀ addition ∈ additions, addition.1.Adds)
    (h : (session.changeAll workshop agent shared additions).1 = .ok last) :
    ∃ full,
      (session.changeAll workshop agent shared additions).2.handles.get? last.cell = some full ∧
        full.Carries base additions ∧
        (Handle.blank identity base).CopyableFor additions.length ∧
        (base.CopiesSteadily → additions ≠ [] → full.Copyable) := by
  obtain ⟨full, hfull, hstems, hstack, hcontinues, hcopies, hcopyable⟩ :=
    exists_of_changeAll_ok hblank (Handle.stemsFrom_blank hbase identity)
      (fun change hchange => (hadds change hchange).ne_releaseUntil) h
  obtain ⟨hreached, hoffers⟩ := LayerStack.eq_of_changeAll_adds hadds hstack
  refine ⟨full, hfull, ⟨?_, ?_, ?_, hoffers⟩, hcopies,
    fun hsteady hsome => hcopyable hsteady (.inl hsome)⟩
  · rwa [List.append_nil] at hstems
  · have hlayers : full.handleClass.layers = base.layers ++ layersOf additions :=
      congrArg LayerStack.layers hreached
    rwa [HandleClass.layers_of_isBase hbase] at hlayers
  · intro field
    exact hcontinues.fields field

/-- Additions to a fresh handle, made in two orders in any two sessions, lead to handles that cannot be
told apart. From such a handle any of the additions can be taken back in any order, as long as its
extended state goes on being copied, and what remains does not depend on the order. -/
theorem additions_commute {first second : Session} {workshop workshop' : Ref Workshop}
    {agent agent' : AgentId} {shared shared' full : SharedHandle} (hbase : base.isBase = true)
    (hblank : first.handles.get? shared.cell = some (Handle.blank identity base))
    (hblank' : second.handles.get? shared'.cell = some (Handle.blank identity base))
    {additions' : List (ChangeKind × RoleRef)} (hperm : additions'.Perm additions)
    (hadds : ∀ addition ∈ additions, addition.1.Adds) (hdisjoint : SharesNoOperation additions)
    (hfull : (first.changeAll workshop agent shared additions).1 = .ok full) :
    let carrying := (first.changeAll workshop agent shared additions).2
    (∀ other, (second.changeAll workshop' agent' shared' additions').1 = .ok other →
      (carrying.read full).Agrees
        ((second.changeAll workshop' agent' shared' additions').2.read other)) ∧
    (second.Ready workshop' →
      ∃ other, (second.changeAll workshop' agent' shared' additions').1 = .ok other) ∧
    ∀ chosen, chosen.Subperm additions → ∀ removals, removals.Perm chosen → ∀ remover agent'',
      let removed := carrying.changeAll remover agent'' full (undoAll removals)
      (∀ rest, removed.1 = .ok rest →
        (removed.2.read rest).Remains (carrying.read full) chosen) ∧
      (carrying.Ready remover →
        base.CopiesSteadily ∨ (carrying.read full).CopyableFor removals.length →
          ∃ rest, removed.1 = .ok rest) := by
  intro carrying
  obtain ⟨handle, hhandle, hcarries, hcopies, hcopyable⟩ := exists_carries hbase hblank hadds hfull
  have hread : carrying.read full = handle := read_of_get? hhandle
  have hadds' : ∀ addition ∈ additions', addition.1.Adds :=
    fun addition haddition => hadds addition (hperm.subset haddition)
  rw [hread]
  refine ⟨?_, ?_, ?_⟩
  · intro other hother
    obtain ⟨handle', hhandle', hcarries', -⟩ := exists_carries hbase hblank' hadds' hother
    rw [read_of_get? hhandle']
    exact hcarries.agrees hcarries' hperm hdisjoint
  · intro hready
    have hstems := Handle.stemsFrom_blank hbase identity
    refine exists_changeAll hready hblank' hstems.accounted.regular ?_
      (fun change hchange => (hadds' change hchange).ne_releaseUntil)
      (hcarries.changeAll_of_perm hbase hperm) agent'
    rw [hperm.length_eq]
    exact hcopies
  · intro chosen hchosen removals hremovals remover agent'' removed
    have hsub : removals.Subperm additions := hremovals.subperm.trans hchosen
    have haddsRemovals : ∀ addition ∈ removals, addition.1.Adds := fun addition haddition =>
      hadds addition (hsub.subset haddition)
    have hmodeless : ∀ removal ∈ undoAll removals, removal.1 ≠ .releaseUntil :=
      fun removal hremoval => (drops_of_mem_undoAll haddsRemovals removal hremoval).ne_releaseUntil
    refine ⟨?_, ?_⟩
    · intro rest hrest
      obtain ⟨left, hleft, hstems, hstack, -⟩ :=
        exists_of_changeAll_ok hhandle hcarries.stems hmodeless hrest
      rw [read_of_get? hleft]
      exact hcarries.remains haddsRemovals hremovals hstems hstack
    · intro hready hcopying
      obtain ⟨stack, hstack⟩ := hcarries.exists_changeAll_undoAll haddsRemovals hsub
      refine exists_changeAll hready hhandle hcarries.stems.accounted.regular ?_ hmodeless hstack agent''
      rw [undoAll, List.length_map]
      rcases hcopying with hsteady | hcopyable'
      · by_cases hnone : additions = []
        · subst hnone
          rw [List.subperm_nil.mp hsub]
          exact fun _ _ => trivial
        · exact hcopyable hsteady hnone _
      · exact hcopyable'

section Team

/-- One engine and a fresh handle. -/
def counted : Session :=
  (Run.fresh (Session.start.addWorkshop ⟨none, true⟩ none none).2 .metered).session

def assumeAdmin : ChangeKind × RoleRef := (.assume, (Role.administrator true []).reference ⟨0⟩)

def assumeAuditor : ChangeKind × RoleRef := (.assume, (Role.auditor []).reference ⟨1⟩)

def showReady : ChangeKind × RoleRef := (.showMarker, (Role.announcer ⟨"Ready"⟩).reference ⟨2⟩)

theorem sharesNoOperation_team :
    SharesNoOperation [assumeAdmin, showReady, assumeAuditor] := by
  have hcontract : ∀ addition ∈ [assumeAdmin, showReady, assumeAuditor], ∀ contract,
      addition.1.introduces addition.2 = some contract →
        contract = Role.administration ∨ contract = Role.auditing := by
    intro addition haddition contract hintroduced
    simp only [List.mem_cons, List.not_mem_nil, or_false] at haddition
    rcases haddition with rfl | rfl | rfl
    · exact .inl (Option.some.inj hintroduced).symm
    · cases hintroduced
    · exact .inr (Option.some.inj hintroduced).symm
  have hdisjoint : Role.administration.operationNames.Disjoint Role.auditing.operationNames :=
    List.disjoint_left.mpr (by decide)
  intro first hfirst second hsecond contract other hintroduced hintroduced' hne
  rcases hcontract first hfirst contract hintroduced with rfl | rfl <;>
    rcases hcontract second hsecond other hintroduced' with rfl | rfl
  · exact absurd rfl hne
  · exact hdisjoint
  · exact fun operation h h' => hdisjoint h' h
  · exact absurd rfl hne

theorem additions_commute_team :
    let shared : SharedHandle := ⟨⟨0⟩, ⟨1⟩⟩
    let run := counted.changeAll ⟨0⟩ .zero shared [assumeAdmin, showReady, assumeAuditor]
    run.1 = .ok ⟨⟨3⟩, ⟨1⟩⟩ ∧
      (∃ other, (counted.changeAll ⟨0⟩ .zero shared
          [assumeAuditor, assumeAdmin, showReady]).1 = .ok other ∧
        (run.2.read ⟨⟨3⟩, ⟨1⟩⟩).Agrees ((counted.changeAll ⟨0⟩ .zero shared
          [assumeAuditor, assumeAdmin, showReady]).2.read other)) ∧
      ∃ rest, (run.2.changeAll ⟨0⟩ .zero ⟨⟨3⟩, ⟨1⟩⟩ (undoAll [assumeAuditor, assumeAdmin])).1 =
          .ok rest ∧
        ((run.2.changeAll ⟨0⟩ .zero ⟨⟨3⟩, ⟨1⟩⟩
          (undoAll [assumeAuditor, assumeAdmin])).2.read rest).Remains
            (run.2.read ⟨⟨3⟩, ⟨1⟩⟩) [assumeAdmin, assumeAuditor] := by
  intro shared run
  have hblank : counted.handles.get? shared.cell = some (Handle.blank ⟨1⟩ .metered) := rfl
  have hfull : run.1 = .ok ⟨⟨3⟩, ⟨1⟩⟩ := by decide +kernel
  have hready : counted.Ready ⟨0⟩ := ⟨_, rfl, Namer.aheadOf_empty _⟩
  have hadds : ∀ addition ∈ [assumeAdmin, showReady, assumeAuditor], addition.1.Adds := by
    intro addition haddition
    simp only [List.mem_cons, List.not_mem_nil, or_false] at haddition
    rcases haddition with rfl | rfl | rfl
    · exact .inl rfl
    · exact .inr rfl
    · exact .inl rfl
  have hperm : [assumeAuditor, assumeAdmin, showReady].Perm
      [assumeAdmin, showReady, assumeAuditor] := by
    decide
  have hchosen : [assumeAdmin, assumeAuditor].Subperm [assumeAdmin, showReady, assumeAuditor] :=
    ((List.Sublist.refl [assumeAuditor]).cons showReady).cons_cons assumeAdmin |>.subperm
  have hremovals : [assumeAuditor, assumeAdmin].Perm [assumeAdmin, assumeAuditor] := .swap _ _ []
  obtain ⟨hagrees, hsucceeds, hremains⟩ :=
    additions_commute rfl hblank hblank hperm hadds sharesNoOperation_team hfull
  obtain ⟨other, hother⟩ := hsucceeds hready
  obtain ⟨hleft, hremoved⟩ := hremains _ hchosen _ hremovals ⟨0⟩ .zero
  obtain ⟨rest, hrest⟩ := hremoved (hready.changeAll .zero shared _)
    (.inl HandleClass.copiesFaithfully_metered.copiesSteadily)
  exact ⟨hfull, ⟨other, hother, hagrees other hother⟩, rest, hrest, hleft rest hrest⟩

end Team

end Session

end RoleStack

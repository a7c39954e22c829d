import RoleStack.HandleClass.Samples
import RoleStack.Proofs.Composing

/-!
# Bindings along a lineage

A handle that compositions led to from a fresh one has bindings under exactly the keys that its class
refers to, each to the role that brought the layer in, however often that layer was stacked again. So
every operation that the handle forwards finds its role.
-/

namespace RoleStack

theorem Key.ofContract_injective : Function.Injective Key.ofContract := by
  intro first second h
  have htext : "role." ++ first = "role." ++ second := congrArg Key.text h
  have hchars := congrArg String.toList htext
  rw [String.toList_append, String.toList_append] at hchars
  exact String.toList_inj.mp (List.append_cancel_left hchars)

/-- The contract that a change puts on top. -/
def ChangeKind.introduces (kind : ChangeKind) (role : RoleRef) : Option Contract :=
  match kind with
  | .assume => role.contract
  | _ => none

/-- The role of the latest change that brought the contract in, the newest change first. -/
def introducer (contract : String) : List (ChangeKind × RoleRef) → Option RoleRef
  | [] => none
  | (kind, role) :: earlier =>
      if (kind.introduces role).map Contract.name = some contract then some role
      else introducer contract earlier

theorem Table.mem_values_of_get? {Key Value : Type} [DecidableEq Key] {table : Table Key Value}
    {key : Key} {value : Value} (h : table.get? key = some value) : value ∈ table.values := by
  obtain ⟨entries⟩ := table
  simp only [get?] at h
  rw [values]
  induction entries with
  | nil => cases h
  | cons entry rest ih =>
      obtain ⟨other, present⟩ := entry
      rw [lookupEntry] at h
      rw [List.map_cons, List.mem_cons]
      split at h
      · exact .inl (Option.some.inj h).symm
      · exact .inr (ih h)

theorem Contract.key_of_mem_forwarders {contract : Contract} {key : Key} {forwarder : Forwarder}
    (h : forwarder ∈ (contract.forwarders key).values) : forwarder.key = key := by
  unfold forwarders Table.values at h
  rw [List.map_map, List.mem_map] at h
  obtain ⟨signature, -, rfl⟩ := h
  rfl

/-! ### Keys and forwarders of regular classes -/

namespace HandleClass

section Levels

variable (name : String) (parent : HandleClass) (contract : Contract) (own key : Key)
  (forwarders : ForwarderTable) (marker : Marker)

@[simp]
theorem notMem_referencedKeys_base (layout : Table String Json) (contracts : List String)
    (extension : Option Extension) :
    key ∉ (base name layout contracts extension).referencedKeys := by
  simp [referencedKeys, levels, ownKey?]

@[simp]
theorem mem_referencedKeys_roleLayer :
    key ∈ (roleLayer name parent contract own forwarders).referencedKeys ↔
      own = key ∨ key ∈ parent.referencedKeys := by
  simp [referencedKeys, levels, ownKey?, eq_comm]

@[simp]
theorem mem_referencedKeys_markerLayer :
    key ∈ (markerLayer name parent marker).referencedKeys ↔ key ∈ parent.referencedKeys := by
  simp [referencedKeys, levels, ownKey?]

end Levels

variable {handleClass : HandleClass}

theorem Regular.mem_referencedKeys_iff (h : handleClass.Regular) (key : Key) :
    key ∈ handleClass.referencedKeys ↔
      ∃ contract, .role contract ∈ handleClass.layers ∧ Key.ofContract contract.name = key := by
  induction h with
  | base => simp [layers]
  | @roleLayer name parent contract regular absent distinct ih =>
      rw [mem_referencedKeys_roleLayer, ih]
      simp only [layers, List.mem_append, List.mem_singleton, Layer.role.injEq]
      constructor
      · rintro (hown | ⟨lower, hlower, hkey⟩)
        · exact ⟨contract, .inr rfl, hown⟩
        · exact ⟨lower, .inl hlower, hkey⟩
      · rintro ⟨lower, hlower | rfl, hkey⟩
        · exact .inr ⟨lower, hlower, hkey⟩
        · exact .inl hkey
  | markerLayer name regular absent ih =>
      rw [mem_referencedKeys_markerLayer, ih]
      simp [layers]

/-- Forwarders of a level look roles up under the key of that level. -/
theorem Regular.key_mem_referencedKeys (h : handleClass.Regular) {level : HandleClass}
    (hlevel : level ∈ handleClass.levels) {forwarder : Forwarder}
    (hforwarder : forwarder ∈ level.ownForwarders.values) :
    forwarder.key ∈ handleClass.referencedKeys := by
  induction h with
  | base =>
      obtain rfl := List.mem_singleton.mp hlevel
      cases hforwarder
  | @roleLayer name parent contract regular absent distinct ih =>
      rw [mem_referencedKeys_roleLayer]
      rcases List.mem_cons.mp hlevel with rfl | hparent
      · exact .inl (Contract.key_of_mem_forwarders hforwarder).symm
      · exact .inr (ih hparent)
  | markerLayer name regular absent ih =>
      rw [mem_referencedKeys_markerLayer]
      rcases List.mem_cons.mp hlevel with rfl | hparent
      · cases hforwarder
      · exact ih hparent

end HandleClass

/-! ### The layers and keys that a change leaves -/

namespace LayerStack

variable {stack next : LayerStack}

theorem layers_sublist_of_erase {matching : Layer → Bool} (h : stack.erase matching = .ok next) :
    next.layers.Sublist stack.layers := by
  unfold erase at h
  split at h
  · obtain rfl := Except.ok.inj h
    exact List.eraseP_sublist
  · cases h

theorem layers_sublist_of_fallBack {strict : Bool} {contract : String}
    (h : stack.fallBack strict contract = .ok next) : next.layers.Sublist stack.layers := by
  unfold fallBack at h
  split at h
  · cases h
  split at h
  · obtain rfl := Except.ok.inj h
    exact List.takeWhile_sublist _
  split at h
  · cases h
  · obtain rfl := Except.ok.inj h
    exact List.dropLast_sublist _

variable {strict : Bool} {kind : ChangeKind} {role : RoleRef}

theorem exists_of_change_assume (h : stack.change strict .assume role = .ok next) :
    ∃ contract, role.contract = some contract ∧ stack.implements contract.name = false ∧
      contract.operationNames.Nodup ∧ next = stack.push (.role contract) := by
  obtain ⟨contract, hoffered, hadd⟩ := exists_of_bind_eq_ok h
  have hcontract := RoleRef.offeredContract_eq_ok_iff.mp hoffered
  unfold addContract at hadd
  split at hadd
  · cases hadd
  rename_i habsent
  split at hadd
  · rename_i hdistinct
    obtain rfl := Except.ok.inj hadd
    exact ⟨contract, hcontract, Bool.not_eq_true _ ▸ habsent, hdistinct, rfl⟩
  · cases hadd

theorem exists_of_change_showMarker (h : stack.change strict .showMarker role = .ok next) :
    ∃ marker, role.marker = some marker ∧ next = stack.push (.marker marker) := by
  obtain ⟨marker, hshown, hadd⟩ := exists_of_bind_eq_ok h
  unfold addMarker at hadd
  split at hadd
  · cases hadd
  · obtain rfl := Except.ok.inj hadd
    exact ⟨marker, RoleRef.shownMarker_eq_ok_iff.mp hshown, rfl⟩

theorem layers_sublist_of_change (h : stack.change strict kind role = .ok next)
    (hassume : kind ≠ .assume) (hshow : kind ≠ .showMarker) :
    next.layers.Sublist stack.layers := by
  cases kind with
  | assume => exact absurd rfl hassume
  | showMarker => exact absurd rfl hshow
  | release | hideMarker =>
      obtain ⟨_, -, herase⟩ := exists_of_bind_eq_ok h
      exact layers_sublist_of_erase herase
  | releaseUntil =>
      obtain ⟨_, -, hfallBack⟩ := exists_of_bind_eq_ok h
      exact layers_sublist_of_fallBack hfallBack

theorem role_mem_of_change_hideMarker (h : stack.change strict .hideMarker role = .ok next)
    {contract : Contract} (hmem : .role contract ∈ stack.layers) :
    .role contract ∈ next.layers := by
  obtain ⟨marker, -, herase⟩ := exists_of_bind_eq_ok h
  unfold erase at herase
  split at herase
  · obtain rfl := Except.ok.inj herase
    exact (List.mem_eraseP_of_neg (by simp [Layer.declaresMarker])).mpr hmem
  · cases herase

/-- A role layer is there after a change because the change brought it in, or because it was there
and the change brought in no layer of that contract. -/
theorem role_mem_of_change (h : stack.change strict kind role = .ok next) {contract : Contract}
    (hmem : .role contract ∈ next.layers) :
    kind.introduces role = some contract ∨
      .role contract ∈ stack.layers ∧
        (kind.introduces role).map Contract.name ≠ some contract.name := by
  cases kind with
  | assume =>
      obtain ⟨added, hadded, habsent, -, rfl⟩ := exists_of_change_assume h
      rcases List.mem_append.mp hmem with hold | hnew
      · refine .inr ⟨hold, ?_⟩
        simp only [ChangeKind.introduces, hadded, Option.map_some, ne_eq, Option.some.injEq]
        intro hname
        rw [implements, Bool.or_eq_false_iff, List.any_eq_false] at habsent
        exact habsent.2 _ hold (by simp [Layer.declaresContract, hname])
      · obtain rfl := Layer.role.inj (List.mem_singleton.mp hnew)
        exact .inl hadded
  | showMarker =>
      obtain ⟨marker, -, rfl⟩ := exists_of_change_showMarker h
      refine .inr ⟨?_, by simp [ChangeKind.introduces]⟩
      simpa [push] using hmem
  | release | releaseUntil | hideMarker =>
      have hkept := layers_sublist_of_change h (by decide) (by decide)
      exact .inr ⟨hkept.subset hmem, by simp [ChangeKind.introduces]⟩

theorem mem_of_introduces (h : stack.change strict kind role = .ok next) {contract : Contract}
    (hadded : kind.introduces role = some contract) : .role contract ∈ next.layers := by
  cases kind with
  | assume =>
      obtain ⟨added, hadded', -, -, rfl⟩ := exists_of_change_assume h
      obtain rfl : contract = added := Option.some.inj (hadded.symm.trans hadded')
      exact List.mem_append_right _ (List.mem_singleton_self _)
  | release | releaseUntil | showMarker | hideMarker => cases hadded

end LayerStack

/-- A new instance has the introduced role under its key, and no other role. -/
theorem ChangeKind.get?_bindings_blankDestination (kind : ChangeKind) (target : SharedHandle)
    (role : RoleRef) (identity : Identity) (handleClass : HandleClass) (key : Key) :
    ((kind.operation target role).blankDestination identity handleClass).bindings.get? key =
      match kind.introduces role with
      | some contract => if Key.ofContract contract.name = key then some role else none
      | none => none := by
  cases kind with
  | assume =>
      obtain ⟨cell, name, offered, marker⟩ := role
      cases offered with
      | none => rfl
      | some contract => exact Table.get?_insert _ _ _ _
  | release | releaseUntil | showMarker | hideMarker => rfl

/-! ### Along a lineage -/

namespace Handle

/-- The handle came from a fresh one through these changes, the newest first. Engines and registries
may differ from change to change, and operations may be prepared in any way that leaves them the
default generator. -/
inductive Lineage : Handle → List (ChangeKind × RoleRef) → Prop where
  | fresh (identity : Identity) (name : String) (layout : Table String Json)
      (contracts : List String) (extension : Option Extension) :
      Lineage (blank identity (.base name layout contracts extension)) []
  | change {handle next : Handle} {changes : List (ChangeKind × RoleRef)}
      (lineage : Lineage handle changes) (engine : Engine) (registry : Registry)
      (sequence : Sequence) (read : SharedHandle → Handle) (agent : AgentId) (operation : Operation)
      (htarget : read operation.target = handle)
      (hgenerator : operation.generator = Generator.default)
      (hresult : (engine.compose registry sequence read agent operation).result = .ok next) :
      Lineage next ((operation.kind, operation.role) :: changes)

/-- The bindings that the changes account for. -/
structure Accounted (handle : Handle) (changes : List (ChangeKind × RoleRef)) : Prop where
  regular : handle.handleClass.Regular
  referenced : ∀ key, handle.bindings.contains key = true → key ∈ handle.handleClass.referencedKeys
  introduced : ∀ contract, .role contract ∈ handle.handleClass.layers →
    ∃ role, introducer contract.name changes = some role ∧
      handle.bindings.get? (.ofContract contract.name) = some role

variable {handle next : Handle} {changes : List (ChangeKind × RoleRef)}

theorem accounted_blank (identity : Identity) (name : String) (layout : Table String Json)
    (contracts : List String) (extension : Option Extension) :
    (blank identity (.base name layout contracts extension)).Accounted [] where
  regular := .base name layout contracts extension
  referenced := by
    intro key hkey
    cases hkey
  introduced := by
    intro contract hcontract
    cases hcontract

theorem Accounted.change (h : handle.Accounted changes) {engine : Engine} {registry : Registry}
    {sequence : Sequence} {read : SharedHandle → Handle} {agent : AgentId} {kind : ChangeKind}
    {target : SharedHandle} {role : RoleRef} (htarget : read target = handle)
    (hresult : (engine.compose registry sequence read agent (kind.operation target role)).result =
      .ok next) : next.Accounted ((kind, role) :: changes) := by
  subst htarget
  obtain ⟨stack, hchange, hregular, hroot, hstack, habsorb⟩ :=
    Engine.exists_change_of_compose_ok h.regular hresult
  have hlayers : next.handleClass.layers = stack.layers := congrArg LayerStack.layers hstack
  have hbindings := get?_bindings_of_absorb habsorb
  simp only [ChangeKind.get?_bindings_blankDestination, Operation.blankDestination_handleClass,
    List.contains_iff_mem] at hbindings
  have hintroduced : ∀ contract, .role contract ∈ next.handleClass.layers →
      ∃ role', introducer contract.name ((kind, role) :: changes) = some role' ∧
        next.bindings.get? (.ofContract contract.name) = some role' := by
    intro contract hcontract
    have hkey : Key.ofContract contract.name ∈ next.handleClass.referencedKeys :=
      (hregular.mem_referencedKeys_iff _).mpr ⟨contract, hcontract, rfl⟩
    rw [hlayers] at hcontract
    rw [introducer, hbindings, if_pos hkey]
    rcases LayerStack.role_mem_of_change hchange hcontract with hnew | ⟨hold, hother⟩
    · exact ⟨role, by simp [hnew], by simp [hnew]⟩
    -- An older layer keeps its role: the new one, if any, is bound under another key.
    · obtain ⟨earlier, hearlier, hbound⟩ := h.introduced contract hold
      refine ⟨earlier, by rw [if_neg hother, hearlier], ?_⟩
      cases hadded : kind.introduces role with
      | none => exact hbound
      | some added =>
          have hdifferent : Key.ofContract added.name ≠ Key.ofContract contract.name := by
            intro hsame
            apply hother
            rw [hadded, Option.map_some, Key.ofContract_injective hsame]
          simp only [if_neg hdifferent, Option.none_or]
          exact hbound
  refine ⟨hregular, ?_, hintroduced⟩
  intro key hkey
  rw [Table.contains, hbindings, Option.isSome_or, Bool.or_eq_true] at hkey
  rcases hkey with hown | hinherited
  · split at hown
    · rename_i contract hadded
      split at hown
      · rename_i hsame
        refine (hregular.mem_referencedKeys_iff key).mpr ⟨contract, ?_, hsame⟩
        rw [hlayers]
        exact LayerStack.mem_of_introduces hchange hadded
      · cases hown
    · cases hown
  · split at hinherited
    · assumption
    · cases hinherited

theorem Lineage.accounted (h : handle.Lineage changes) : handle.Accounted changes := by
  induction h with
  | fresh identity name layout contracts extension =>
      exact accounted_blank identity name layout contracts extension
  | change lineage engine registry sequence read agent operation htarget hgenerator hresult ih =>
      exact ih.change htarget (Engine.result_kind hgenerator hresult)

theorem Accounted.contains_iff (h : handle.Accounted changes) (key : Key) :
    handle.bindings.contains key = true ↔ key ∈ handle.handleClass.referencedKeys := by
  refine ⟨h.referenced key, ?_⟩
  intro hkey
  obtain ⟨contract, hcontract, rfl⟩ := (h.regular.mem_referencedKeys_iff key).mp hkey
  obtain ⟨role, -, hbound⟩ := h.introduced contract hcontract
  rw [Table.contains, hbound]
  rfl

theorem mem_of_findForwarder? {handleClass : HandleClass} {operation : String}
    {forwarder : Forwarder} (h : handleClass.findForwarder? operation = some forwarder) :
    ∃ level ∈ handleClass.levels, forwarder ∈ level.ownForwarders.values := by
  obtain ⟨level, hlevel, hfound⟩ := List.exists_of_findSome?_eq_some h
  exact ⟨level, hlevel, Table.mem_values_of_get? hfound⟩

theorem Accounted.dispatch_ne_unbound (h : handle.Accounted changes) (operation : String)
    (argumentCount : Nat) (identity : Identity) (key : Key) :
    handle.dispatch operation argumentCount ≠ .error (.unbound identity key) := by
  unfold dispatch
  split
  · simp
  rename_i forwarder hforwarder
  obtain ⟨level, hlevel, hmem⟩ := mem_of_findForwarder? hforwarder
  have hbound : handle.bindings.contains forwarder.key = true :=
    (h.contains_iff _).mpr (h.regular.key_mem_referencedKeys hlevel hmem)
  split
  · rename_i hnone
    rw [Table.contains, hnone] at hbound
    cases hbound
  · split <;> simp

theorem Accounted.invoke_ne_unbound (h : handle.Accounted changes)
    (call : RoleRef → String → List Json → Except RoleError Json) (operation : String)
    (arguments : List Json) (identity : Identity) (key : Key) :
    handle.invoke call operation arguments ≠ .error (.unbound identity key) := by
  have hdispatch := h.dispatch_ne_unbound operation arguments.length identity key
  unfold invoke
  split
  · rename_i error herror
    intro hsame
    exact hdispatch (herror.trans (congrArg Except.error (Except.error.inj hsame)))
  · split <;> simp

theorem kind_operation (kind : ChangeKind) (target : SharedHandle) (role : RoleRef) :
    (kind.operation target role).kind = kind := by
  cases kind <;> rfl

theorem Lineage.exists_compose (h : handle.Lineage changes) (copyable : handle.Copyable)
    {strict : Bool} {kind : ChangeKind} {role : RoleRef} {stack : LayerStack}
    (hchange : handle.handleClass.stack.change strict kind role = .ok stack) :
    ∃ (engine : Engine) (target : SharedHandle) (next : Handle),
      (engine.compose .empty .start (fun _ => handle) .zero (kind.operation target role)).result =
          .ok next ∧
        next.Lineage ((kind, role) :: changes) ∧ next.Copyable ∧
        next.handleClass.stack = stack := by
  have hregular := h.accounted.regular
  let engine := Engine.start ⟨1⟩ ⟨none, strict⟩
  let target : SharedHandle := ⟨⟨0⟩, handle.identity⟩
  obtain ⟨next, hresult⟩ : ∃ next, (engine.compose .empty .start (fun _ => handle) .zero
      (kind.operation target role)).result = .ok next :=
    Engine.exists_compose_of_change hregular (copyable 1) (Namer.aheadOf_empty _) hchange
  obtain ⟨reached, hreached, -, -, hstack, -⟩ :=
    Engine.exists_change_of_compose_ok hregular hresult
  obtain rfl : stack = reached := Except.ok.inj (hchange.symm.trans hreached)
  have hlineage := h.change engine .empty .start (fun _ => handle) .zero
    (kind.operation target role) rfl rfl hresult
  rw [kind_operation] at hlineage
  exact ⟨engine, target, next, hresult, hlineage,
    Engine.copyable_of_compose_ok hregular copyable hresult, hstack⟩

theorem Lineage.exists_change (h : handle.Lineage changes) (copyable : handle.Copyable)
    {strict : Bool} {kind : ChangeKind} {role : RoleRef} {stack : LayerStack}
    (hchange : handle.handleClass.stack.change strict kind role = .ok stack) :
    ∃ next : Handle, next.Lineage ((kind, role) :: changes) ∧ next.Copyable ∧
      next.handleClass.stack = stack := by
  obtain ⟨engine, target, next, -, hnext⟩ := h.exists_compose copyable hchange
  exact ⟨next, hnext⟩

/-- No handle has a dangling or a stray binding, and none forwards to a missing role. -/
theorem bindings_of_lineage (h : handle.Lineage changes) :
    (∀ key, handle.bindings.contains key = true ↔ key ∈ handle.handleClass.referencedKeys) ∧
      (∀ level ∈ handle.handleClass.levels, ∀ forwarder ∈ level.ownForwarders.values,
        forwarder.key ∈ handle.handleClass.referencedKeys) ∧
      (∀ contract, .role contract ∈ handle.handleClass.layers →
        ∃ role, introducer contract.name changes = some role ∧
          handle.bindings.get? (.ofContract contract.name) = some role) ∧
      ∀ call operation arguments identity key,
        handle.invoke call operation arguments ≠ .error (.unbound identity key) := by
  have haccounted := h.accounted
  refine ⟨haccounted.contains_iff, ?_, haccounted.introduced, haccounted.invoke_ne_unbound⟩
  intro level hlevel forwarder hforwarder
  exact haccounted.regular.key_mem_referencedKeys hlevel hforwarder

/-- The auditor is replaced by another while the administrator's layer is stacked again. -/
theorem bindings_of_lineage_replaced :
    let auditor := (Role.auditor []).reference ⟨0⟩
    let admin := (Role.administrator true []).reference ⟨1⟩
    let successor := (Role.auditor []).reference ⟨2⟩
    ∃ handle : Handle,
      handle.Lineage
          [(.assume, successor), (.release, auditor), (.assume, admin), (.assume, auditor)] ∧
        handle.handleClass.layers = [.role Role.administration, .role Role.auditing] ∧
        handle.bindings.get? (.ofContract "IAuditor") = some successor := by
  intro auditor admin successor
  have hfresh := Lineage.fresh ⟨1⟩ "DBProxy" Table.empty [] none
  have hcopyable : (blank ⟨1⟩ (.base "DBProxy" Table.empty [] none)).Copyable :=
    copyable_blank (HandleClass.copiesExtension_of_none rfl) _
  have hassume : LayerStack.change ⟨[], []⟩ false .assume auditor =
      .ok ⟨[], [.role Role.auditing]⟩ := by decide
  obtain ⟨first, hfirst, hcopyable, hstack⟩ := hfresh.exists_change hcopyable hassume
  have hassume : first.handleClass.stack.change false .assume admin =
      .ok ⟨[], [.role Role.auditing, .role Role.administration]⟩ := by
    rw [hstack]
    decide
  obtain ⟨second, hsecond, hcopyable, hstack⟩ := hfirst.exists_change hcopyable hassume
  have hrelease : second.handleClass.stack.change false .release auditor =
      .ok ⟨[], [.role Role.administration]⟩ := by
    rw [hstack]
    decide
  obtain ⟨third, hthird, hcopyable, hstack⟩ := hsecond.exists_change hcopyable hrelease
  have hassume : third.handleClass.stack.change false .assume successor =
      .ok ⟨[], [.role Role.administration, .role Role.auditing]⟩ := by
    rw [hstack]
    decide
  obtain ⟨last, hlast, -, hstack⟩ := hthird.exists_change hcopyable hassume
  have hlayers : last.handleClass.layers = [.role Role.administration, .role Role.auditing] :=
    congrArg LayerStack.layers hstack
  have hauditing : .role Role.auditing ∈ last.handleClass.layers := by
    rw [hlayers]
    exact List.mem_cons_of_mem _ (List.mem_singleton_self _)
  obtain ⟨role, hrole, hbound⟩ := (bindings_of_lineage hlast).2.2.1 Role.auditing hauditing
  obtain rfl : successor = role := Option.some.inj hrole
  exact ⟨last, hlast, hlayers, hbound⟩

end Handle

end RoleStack

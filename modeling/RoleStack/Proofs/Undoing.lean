import RoleStack.Proofs.Bindings
import RoleStack.Proofs.LastingState

/-!
# Taking back what was added

An addition puts one layer over the class of a handle. Taking the same contract or marker away cuts
right below that layer, whatever the mode, and so leads back to the class from before: no class is
made and no number is used up, and the new version has all that the handle had.
-/

namespace RoleStack

/-- The removal takes away the contract or the marker that the addition brings, with this role or with
another. -/
inductive ChangeKind.TakesBack : ChangeKind → RoleRef → ChangeKind → RoleRef → Prop where
  | release {other role : RoleRef}
      (h : other.contract.map Contract.name = role.contract.map Contract.name) :
      TakesBack .release other .assume role
  | releaseUntil {other role : RoleRef}
      (h : other.contract.map Contract.name = role.contract.map Contract.name) :
      TakesBack .releaseUntil other .assume role
  | hideMarker {other role : RoleRef}
      (h : other.marker.map Marker.name = role.marker.map Marker.name) :
      TakesBack .hideMarker other .showMarker role

/-! ### The plans -/

namespace HandleClass

variable {handleClass : HandleClass}

theorem nearestWithout?_of_implements_eq_false {contract : String}
    (h : handleClass.implements contract = false) :
    handleClass.nearestWithout? contract = some handleClass := by
  cases handleClass with
  | base => rw [nearestWithout?, h]; rfl
  | roleLayer => rw [nearestWithout?, h]; rfl
  | markerLayer => rw [nearestWithout?, h]; rfl

/-- In both modes the class below a new contract is the one to fall back to. -/
theorem fallback?_roleLayer {contract : Contract} (absent : handleClass.implements contract.name = false)
    (strict : Bool) (name : String) (key : Key) (forwarders : ForwarderTable) :
    (roleLayer name handleClass contract key forwarders).fallback? strict contract.name =
      some handleClass := by
  have hnearest := nearestWithout?_of_implements_eq_false absent
  have himplements :
      (roleLayer name handleClass contract key forwarders).implements contract.name = true := by
    rw [implements_roleLayer, decide_eq_true rfl, Bool.true_or]
  cases strict with
  | false => exact hnearest
  | true => rw [fallback?_strict, if_pos himplements, nearestWithout?, if_pos himplements, hnearest]

end HandleClass

theorem Operation.planWithout_of_splitAt? {operation : Operation} {reservation : Reservation}
    {current below layer : HandleClass} {declares : HandleClass → Bool}
    (h : current.splitAt? declares = some ⟨below, layer, []⟩) (target : String) :
    operation.planWithout reservation current declares target = .ok ⟨below, [], reservation⟩ := by
  rw [planWithout, h]
  rfl

theorem Operation.contract_of_requireContract {operation : Operation} {contract : Contract}
    (h : operation.requireContract = .ok contract) : operation.role.contract = some contract := by
  unfold requireContract at h
  split at h
  · rename_i found hfound
    rw [hfound, Except.ok.inj h]
  · cases h

theorem Operation.marker_of_requireMarker {operation : Operation} {marker : Marker}
    (h : operation.requireMarker = .ok marker) : operation.role.marker = some marker := by
  unfold requireMarker at h
  split at h
  · rename_i found hfound
    rw [hfound, Except.ok.inj h]
  · cases h

theorem Operation.exists_roleLayer_of_plan {operation : Operation} (hkind : operation.kind = .assume)
    {strict : Bool} {reservation : Reservation} {current : HandleClass} {plan : Plan}
    (h : operation.plan strict reservation current = .ok plan) :
    ∃ contract name forwarders, operation.role.contract = some contract ∧
      current.implements contract.name = false ∧
      plan.handleClass =
        .roleLayer name current contract (.ofContract contract.name) forwarders := by
  have hinjection : operation.injection = .addRole := by
    rw [← injection_kind, hkind]
    rfl
  unfold Operation.plan at h
  simp only [hinjection] at h
  obtain ⟨contract, hrequire, hplan⟩ := exists_of_bind_eq_ok h
  split at hplan
  · cases hplan
  · rename_i habsent
    obtain ⟨stacking, hstacking, hplan⟩ := exists_of_bind_eq_ok hplan
    obtain ⟨forwarders, generator, -, rfl⟩ := Stacking.exists_of_stackRole hstacking
    obtain rfl := Except.ok.inj hplan
    exact ⟨contract, _, forwarders, contract_of_requireContract hrequire,
      Bool.not_eq_true _ ▸ habsent, rfl⟩

namespace ChangeKind

variable {target next : SharedHandle} {role other : RoleRef} {strict strict' : Bool}
  {reservation reservation' : Reservation} {current : HandleClass} {plan : Plan}

theorem exists_of_plan_assume
    (h : (assume.operation target role).plan strict reservation current = .ok plan) :
    ∃ contract name forwarders, role.contract = some contract ∧
      current.implements contract.name = false ∧
      plan.handleClass =
        .roleLayer name current contract (.ofContract contract.name) forwarders :=
  Operation.exists_roleLayer_of_plan rfl h

theorem exists_of_plan_showMarker
    (h : (showMarker.operation target role).plan strict reservation current = .ok plan) :
    ∃ marker name, role.marker = some marker ∧
      plan.handleClass = .markerLayer name current marker := by
  have hbind : (showMarker.operation target role).requireMarker >>= _ = .ok plan := h
  obtain ⟨marker, hrequire, hplan⟩ := exists_of_bind_eq_ok hbind
  split at hplan
  · cases hplan
  · obtain rfl := Except.ok.inj hplan
    exact ⟨marker, _, Operation.marker_of_requireMarker hrequire, rfl⟩

/-- The removal plans to go back to the class from before, and to make none. -/
theorem TakesBack.plan_eq {addition removal : ChangeKind}
    (htakes : removal.TakesBack other addition role)
    (hadded : (addition.operation target role).plan strict reservation current = .ok plan) :
    (removal.operation next other).plan strict' reservation' plan.handleClass =
      .ok ⟨current, [], reservation'⟩ := by
  cases htakes with
  | release hsame =>
      obtain ⟨contract, name, forwarders, hcontract, -, hclass⟩ := exists_of_plan_assume hadded
      rw [hcontract, Option.map_some, Option.map_eq_some_iff] at hsame
      obtain ⟨offered, hoffered, hname⟩ := hsame
      rw [plan_release next reservation' (RoleRef.offeredContract_eq_ok_iff.mpr hoffered), hclass]
      apply Operation.planWithout_of_splitAt?
      exact if_pos (decide_eq_true hname.symm)
  | releaseUntil hsame =>
      obtain ⟨contract, name, forwarders, hcontract, habsent, hclass⟩ :=
        exists_of_plan_assume hadded
      rw [hcontract, Option.map_some, Option.map_eq_some_iff] at hsame
      obtain ⟨offered, hoffered, hname⟩ := hsame
      rw [plan_releaseUntil next reservation' (RoleRef.offeredContract_eq_ok_iff.mpr hoffered),
        hclass, hname, HandleClass.fallback?_roleLayer habsent]
  | hideMarker hsame =>
      obtain ⟨marker, name, hmarker, hclass⟩ := exists_of_plan_showMarker hadded
      rw [hmarker, Option.map_some, Option.map_eq_some_iff] at hsame
      obtain ⟨shown, hshown, hname⟩ := hsame
      rw [plan_hideMarker next reservation' (RoleRef.shownMarker_eq_ok_iff.mpr hshown), hclass]
      apply Operation.planWithout_of_splitAt?
      exact if_pos (decide_eq_true hname.symm)

/-- The kind of change puts a layer on top. -/
def Adds (kind : ChangeKind) : Prop :=
  kind = .assume ∨ kind = .showMarker

theorem TakesBack.adds {addition removal : ChangeKind}
    (htakes : removal.TakesBack other addition role) : addition.Adds := by
  cases htakes with
  | release => exact .inl rfl
  | releaseUntil => exact .inl rfl
  | hideMarker => exact .inr rfl

theorem Adds.of_plan {addition : ChangeKind} (hadds : addition.Adds)
    (h : (addition.operation target role).plan strict reservation current = .ok plan) :
    plan.handleClass.parent? = some current ∧
      ∀ contract, addition.introduces role = some contract →
        current.implements contract.name = false := by
  rcases hadds with rfl | rfl
  · obtain ⟨contract, name, forwarders, hcontract, habsent, hclass⟩ := exists_of_plan_assume h
    refine ⟨by rw [hclass]; rfl, ?_⟩
    intro introduced hintroduced
    obtain rfl : contract = introduced := Option.some.inj (hcontract.symm.trans hintroduced)
    exact habsent
  · obtain ⟨marker, name, -, hclass⟩ := exists_of_plan_showMarker h
    refine ⟨by rw [hclass]; rfl, ?_⟩
    intro introduced hintroduced
    cases hintroduced

end ChangeKind

/-! ### The state -/

namespace HandleClass

variable {handleClass parent : HandleClass}

theorem mem_referencedKeys_of_parent? (h : handleClass.parent? = some parent) {key : Key}
    (hkey : key ∈ parent.referencedKeys) : key ∈ handleClass.referencedKeys := by
  cases handleClass with
  | base => cases h
  | roleLayer =>
      obtain rfl := Option.some.inj h
      exact (mem_referencedKeys_roleLayer ..).mpr (.inr hkey)
  | markerLayer =>
      obtain rfl := Option.some.inj h
      exact (mem_referencedKeys_markerLayer ..).mpr hkey

theorem Regular.implements_of_mem_referencedKeys (regular : handleClass.Regular) {contract : String}
    (hkey : .ofContract contract ∈ handleClass.referencedKeys) :
    handleClass.implements contract = true := by
  obtain ⟨declared, hdeclared, hsame⟩ := (regular.mem_referencedKeys_iff _).mp hkey
  have hany : handleClass.layers.any (Layer.declaresContract contract) = true :=
    List.any_eq_true.mpr ⟨_, hdeclared, decide_eq_true (Key.ofContract_injective hsame)⟩
  rw [implements_eq_stack, LayerStack.implements, stack, hany, Bool.or_true]

end HandleClass

namespace Handle

/-- A later version with all that the handle has, and of the very same class. -/
structure Restores (restored handle : Handle) : Prop where
  handleClass : restored.handleClass = handle.handleClass
  identity : restored.identity = handle.identity
  fieldNames : restored.fields.keys = handle.fields.keys
  fields : ∀ field, restored.fields.get? field = handle.fields.get? field
  bindings : restored.bindings = handle.bindings
  extension : handle.handleClass.CopiesFaithfully → restored.extension = handle.extension

/-- Own roles that the class does not refer to are lost again, and the source's are kept. -/
theorem inheritedBindings_inheritedBindings {source own : Table Key RoleRef} {keys wider : List Key}
    (hsource : ∀ key, source.contains key = true → key ∈ keys) (hwider : ∀ key ∈ keys, key ∈ wider)
    (hown : ∀ key ∈ keys, own.contains key = false) :
    inheritedBindings ⟨own.entries ++ inheritedBindings source own wider⟩ Table.empty keys =
      source.entries := by
  have hmem : ∀ entry ∈ source.entries, entry.1 ∈ keys := by
    intro entry hentry
    exact hsource _ ((source.contains_iff_mem_keys _).mpr (List.mem_map_of_mem hentry))
  have hinherited : inheritedBindings source own wider = source.entries := by
    apply List.filter_eq_self.mpr
    intro entry hentry
    have hkey := hmem entry hentry
    rw [hown _ hkey, List.contains_iff_mem.mpr (hwider _ hkey)]
    rfl
  have hlost : own.entries.filter (fun entry => keys.contains entry.1) = [] := by
    apply List.filter_eq_nil_iff.mpr
    intro entry hentry hkey
    have hcontains := (own.contains_iff_mem_keys _).mpr (List.mem_map_of_mem hentry)
    rw [hown _ (List.contains_iff_mem.mp hkey)] at hcontains
    cases hcontains
  have hkept : source.entries.filter (fun entry => keys.contains entry.1) = source.entries := by
    apply List.filter_eq_self.mpr
    intro entry hentry
    exact List.contains_iff_mem.mpr (hmem entry hentry)
  calc inheritedBindings ⟨own.entries ++ inheritedBindings source own wider⟩ Table.empty keys
      = (own.entries ++ source.entries).filter fun entry => keys.contains entry.1 := by
        rw [hinherited, inheritedBindings]
        simp only [Table.contains, Table.get?_empty, Option.isSome_none, Bool.not_false, Bool.and_true]
    _ = source.entries := by rw [List.filter_append, hlost, hkept, List.nil_append]

theorem accounted_blank_of_isBase {base : HandleClass} (hbase : base.isBase = true)
    (identity : Identity) : (blank identity base).Accounted [] := by
  cases base with
  | base name layout contracts extension =>
      exact accounted_blank identity name layout contracts extension
  | roleLayer => cases hbase
  | markerLayer => cases hbase

end Handle

/-! ### The removal after the addition -/

theorem ChangeKind.TakesBack.bindings_blankDestination {removal addition : ChangeKind}
    {role other : RoleRef} (htakes : removal.TakesBack other addition role) (target : SharedHandle)
    (identity : Identity) (handleClass : HandleClass) :
    ((removal.operation target other).blankDestination identity handleClass).bindings =
      Table.empty := by
  cases htakes <;> rfl

namespace Engine

variable {engine engine' : Engine} {registry registry' : Registry} {sequence sequence' : Sequence}
  {read read' : SharedHandle → Handle} {agent agent' : AgentId} {addition removal : ChangeKind}
  {role other : RoleRef} {target next : SharedHandle} {added last : Handle} {base : HandleClass}
  {changes : List (ChangeKind × RoleRef)}

/-- A removal that makes no class leaves the engine and the registry as they were. -/
theorem compose_of_drop {operation : Operation} {handleClass : HandleClass}
    (hqueued : operation.status = .queued)
    (hplan : engine.planFor read operation = .ok ⟨handleClass, [], engine.namer.reserve⟩)
    (hpopulate : operation.populate read ⟨sequence.next⟩ handleClass = .ok last) :
    (engine.compose registry sequence read agent operation).result = .ok last ∧
      (engine.compose registry sequence read agent operation).engine = engine ∧
      (engine.compose registry sequence read agent operation).registry = registry := by
  have hcarried : engine.carryOut registry ⟨sequence.next⟩ read operation
      ⟨handleClass, [], engine.namer.reserve⟩ = .ok ⟨last, engine.namer, registry⟩ := by
    rw [carryOut, hpopulate]
    rfl
  rw [compose_of_plan_eq_ok hqueued hplan, hcarried]
  exact ⟨rfl, rfl, rfl⟩

theorem bindings_of_compose_ok {operation : Operation}
    (h : (engine.compose registry sequence read agent operation).result = .ok last) :
    last.bindings =
      let own := (operation.blankDestination ⟨sequence.next⟩ last.handleClass).bindings
      ⟨own.entries ++ Handle.inheritedBindings (read operation.target).bindings own
        last.handleClass.referencedKeys⟩ := by
  obtain ⟨extension, -, hlast⟩ := Handle.exists_of_absorb (absorb_of_compose_ok h)
  have hbindings := congrArg Handle.bindings hlast
  rwa [Operation.blankDestination_handleClass] at hbindings

theorem free_of_adds (haccounted : (read target).Accounted changes) (hadds : addition.Adds)
    (hadded : (engine.compose registry sequence read agent (addition.operation target role)).result =
      .ok added) (handleClass : HandleClass) :
    ∀ key ∈ (read target).handleClass.referencedKeys,
      ((addition.operation target role).blankDestination ⟨sequence.next⟩
        handleClass).bindings.contains key = false := by
  obtain ⟨plan, hcomposes⟩ := exists_of_compose_ok hadded
  obtain ⟨-, habsent⟩ := hadds.of_plan hcomposes.planned
  intro key hkey
  rw [Table.contains, ChangeKind.get?_bindings_blankDestination]
  cases hintroduced : addition.introduces role with
  | none => rfl
  | some contract =>
      have hother : Key.ofContract contract.name ≠ key := by
        rintro rfl
        have hfree : (read target).handleClass.implements contract.name = false :=
          habsent contract hintroduced
        rw [haccounted.regular.implements_of_mem_referencedKeys hkey] at hfree
        cases hfree
      simp only [if_neg hother, Option.isSome_none]

/-- Under the keys from before, the added handle has just the roles from before. -/
theorem inheritedBindings_of_adds (haccounted : (read target).Accounted changes)
    (hadds : addition.Adds)
    (hadded : (engine.compose registry sequence read agent (addition.operation target role)).result =
      .ok added) :
    Handle.inheritedBindings added.bindings Table.empty (read target).handleClass.referencedKeys =
      (read target).bindings.entries := by
  obtain ⟨plan, hcomposes⟩ := exists_of_compose_ok hadded
  obtain ⟨hparent, -⟩ := hadds.of_plan hcomposes.planned
  have hwider : ∀ key ∈ (read target).handleClass.referencedKeys,
      key ∈ added.handleClass.referencedKeys := by
    intro key hkey
    rw [hcomposes.handleClass]
    exact HandleClass.mem_referencedKeys_of_parent? hparent hkey
  rw [bindings_of_compose_ok hadded]
  exact Handle.inheritedBindings_inheritedBindings haccounted.referenced hwider
    (free_of_adds haccounted hadds hadded added.handleClass)

/-- Whatever engine takes back what another one added, the handle is as before. Only its extended state
has to be copied once more. -/
theorem restores_of_takesBack (haccounted : (read target).Accounted changes)
    (hkeeps : (read target).Keeps base) (hextended : (read target).Extended)
    (htakes : removal.TakesBack other addition role)
    (hadded : (engine.compose registry sequence read agent (addition.operation target role)).result =
      .ok added) (hread : read' next = added) (hcopyable : added.CopyableFor 1) :
    ∃ last,
      (engine'.compose registry' sequence' read' agent' (removal.operation next other)).result =
          .ok last ∧ last.Restores (read target) ∧
        (engine'.compose registry' sequence' read' agent' (removal.operation next other)).engine =
          engine' ∧
        (engine'.compose registry' sequence' read' agent' (removal.operation next other)).registry =
          registry' := by
  subst hread
  obtain ⟨plan, hcomposes⟩ := exists_of_compose_ok hadded
  have hplan : engine'.planFor read' (removal.operation next other) =
      .ok ⟨(read target).handleClass, [], engine'.namer.reserve⟩ := by
    rw [planFor, show (removal.operation next other).target = next from rfl, hcomposes.handleClass]
    exact htakes.plan_eq hcomposes.planned
  obtain ⟨last, hpopulate⟩ :=
    exists_populate hcopyable (root_of_compose_ok hadded).symm ⟨sequence'.next⟩
  obtain ⟨hresult, hengine, hregistry⟩ := compose_of_drop rfl hplan hpopulate
  refine ⟨last, hresult, ?_, hengine, hregistry⟩
  have hkeeps' : (read' next).Keeps base := keeps_of_compose_ok hkeeps hadded
  have hclass : last.handleClass = (read target).handleClass := by
    obtain ⟨-, habsorb⟩ := Operation.populate_eq_ok_iff.mp hpopulate
    obtain ⟨extension, -, rfl⟩ := Handle.exists_of_absorb habsorb
    exact Operation.blankDestination_handleClass ..
  constructor
  · exact hclass
  · exact (identity_of_compose_ok hresult).trans (identity_of_compose_ok hadded)
  · exact (keeps_of_compose_ok hkeeps' hresult).fields.trans hkeeps.fields.symm
  · intro field
    exact (get?_fields_of_compose_ok hkeeps' hresult field).trans
      (get?_fields_of_compose_ok hkeeps hadded field)
  · rw [bindings_of_compose_ok hresult, htakes.bindings_blankDestination, hclass]
    exact congrArg Table.mk (inheritedBindings_of_adds haccounted htakes.adds hadded)
  · intro hfaithful
    have hfaithful' : (read' next).handleClass.CopiesFaithfully :=
      hkeeps'.copiesFaithfully_iff.mpr (hkeeps.copiesFaithfully_iff.mp hfaithful)
    have hadding := copies_of_compose_ok hextended hadded
    have hremoving := copies_of_compose_ok (extended_of_compose_ok hextended hadded) hresult
    exact (hremoving.extension_eq hfaithful').trans (hadding.extension_eq hfaithful)

end Engine

namespace Session

variable {session : Session} {workshop : Ref Workshop} {found : Workshop} {agent : AgentId}
  {operation : Operation}

theorem exists_compose_of_result_ok (hworkshop : session.workshops.get? workshop = some found)
    {next : Handle} (hresult : (session.composition found agent operation).result = .ok next) :
    ∃ shared, (session.compose workshop agent operation).1 = .ok shared ∧
      (session.compose workshop agent operation).2.2.handles.get? shared.cell = some next := by
  obtain ⟨board, hcompose⟩ := compose_eq hworkshop agent operation
  rw [hcompose, hresult]
  exact ⟨⟨session.handles.next, next.identity⟩, rfl, Pool.get?_add_next _ _⟩

theorem compose_of_unchanged (hworkshop : session.workshops.get? workshop = some found)
    (hengine : (session.composition found agent operation).engine = found.engine)
    (hregistry : (session.composition found agent operation).registry =
      session.registry found.registry) :
    (session.compose workshop agent operation).2.2.workshops = session.workshops ∧
      (session.compose workshop agent operation).2.2.registries = session.registries := by
  obtain ⟨board, hcompose⟩ := compose_eq hworkshop agent operation
  rw [hcompose]
  simp only [leftBy, hengine, hregistry]
  exact ⟨Pool.set_of_get?_eq_some hworkshop, set_registry session found.registry⟩

end Session

namespace Run

theorem lasting_accounted :
    Handle.Lasting (fun handle => ∃ changes, handle.Accounted changes)
      fun generator => generator = Generator.default where
  setField := by
    rintro handle next field value previous ⟨changes, h⟩ hset
    obtain ⟨-, rfl⟩ := Handle.exists_of_setField hset
    exact ⟨changes, h.regular, h.referenced, h.introduced⟩
  recordUse := by
    rintro handle operation ⟨changes, h⟩
    exact ⟨changes, h.regular, h.referenced, h.introduced⟩
  compose := by
    rintro engine registry sequence read agent operation next hgenerator ⟨changes, h⟩ hresult
    exact ⟨_, h.change rfl (Engine.result_kind hgenerator hresult)⟩

theorem everywhere_accounted (session : Session) {base : HandleClass} (hbase : base.isBase = true)
    {deeds : List Deed} (hdeeds : ∀ deed ∈ deeds, deed.Generates fun generator =>
      generator = Generator.default) :
    ((fresh session base).performAll deeds).Everywhere fun handle =>
      ∃ changes, handle.Accounted changes := by
  have hfresh : (fresh session base).Everywhere fun handle => ∃ changes, handle.Accounted changes :=
    everywhere_fresh fun identity => ⟨[], Handle.accounted_blank_of_isBase hbase identity⟩
  exact hfresh.performAll lasting_accounted hdeeds

/-- In a run with the default generator an addition to any handle can be taken back, by any engine
and in either mode, if its extended state can be copied once more, as steady state can. The handle is
then as it was, of the very same class, no class was registered for that and no engine used up a
number. -/
theorem additions_taken_back (session : Session) {base : HandleClass} (hbase : base.isBase = true)
    {deeds : List Deed}
    (hdeeds : ∀ deed ∈ deeds, deed.Generates fun generator => generator = Generator.default) :
    let run := (fresh session base).performAll deeds
    ∀ source ∈ run.obtained, ∀ workshop agent (addition : ChangeKind) role added,
      (run.session.compose workshop agent (addition.operation source role)).1 = .ok added →
      let later := (run.session.compose workshop agent (addition.operation source role)).2.2
      ∀ (removal : ChangeKind) other workshop' agent', removal.TakesBack other addition role →
        (later.workshops.get? workshop').isSome →
        base.CopiesSteadily ∨ (later.read added).CopyableFor 1 →
        let removed := later.compose workshop' agent' (removal.operation added other)
        ∃ last, removed.1 = .ok last ∧
          (removed.2.2.read last).Restores (run.session.read source) ∧
          removed.2.2.workshops = later.workshops ∧ removed.2.2.registries = later.registries := by
  intro run source hsource workshop agent addition role added hadded later removal other workshop'
    agent' htakes hpresent hcopying removed
  obtain ⟨changes, haccounted⟩ := (everywhere_accounted session hbase hdeeds).read hsource
  obtain ⟨hkeeps, hextended⟩ := (everywhere_keeps session hbase deeds).read hsource
  obtain ⟨found, handle, -, hresult, hhandle⟩ := Session.exists_of_compose_eq_ok hadded
  have hread : later.read added = handle := Session.read_of_get? hhandle
  have hcopyable : handle.CopyableFor 1 := by
    rcases hcopying with hsteady | hcopyable
    · exact (Engine.copies_of_compose_ok hextended hresult).copyable
        (Engine.extension?_of_compose_ok hresult) (hkeeps.copiesSteadily hsteady) 1
    · rwa [hread] at hcopyable
  obtain ⟨found', hfound'⟩ := Option.isSome_iff_exists.mp hpresent
  obtain ⟨restored, hrestored, hrestores, hengine, hregistry⟩ :=
    Engine.restores_of_takesBack haccounted hkeeps hextended htakes hresult hread hcopyable
  obtain ⟨last, hlast, hremoved⟩ := Session.exists_compose_of_result_ok hfound' hrestored
  obtain ⟨hworkshops, hregistries⟩ := Session.compose_of_unchanged hfound' hengine hregistry
  refine ⟨last, hlast, ?_, hworkshops, hregistries⟩
  rw [Session.read_of_get? hremoved]
  exact hrestores

section TwoModes

def administering : List Deed :=
  [.compose ⟨0⟩ 0 .zero
      (ChangeKind.assume.operation ⟨⟨0⟩, ⟨1⟩⟩ ((Role.administrator true []).reference ⟨0⟩)),
    .setField 1 "calls" (.ofNat 8)]

/-- The first engine is lenient and the second is strict. -/
def administered : Run :=
  let session := (Session.start.addWorkshop ⟨none, false⟩ none none).2
  let session := (session.addWorkshop ⟨none, true⟩ none none).2
  (fresh session .metered).performAll administering

/-- The lenient engine adds the auditor, and the strict one is to take it away. -/
def audited : Except CompositionError SharedHandle × Operation × Session :=
  administered.session.compose ⟨0⟩ .zero
    (ChangeKind.assume.operation ⟨⟨1⟩, ⟨1⟩⟩ ((Role.auditor []).reference ⟨1⟩))

theorem additions_taken_back_administered :
    audited.1 = .ok ⟨⟨2⟩, ⟨1⟩⟩ ∧ (audited.2.2.workshops.get? ⟨1⟩).isSome ∧
      ∃ last,
        (audited.2.2.compose ⟨1⟩ .zero (ChangeKind.releaseUntil.operation ⟨⟨2⟩, ⟨1⟩⟩
          ((Role.auditor []).reference ⟨2⟩))).1 = .ok last ∧
        ((audited.2.2.compose ⟨1⟩ .zero (ChangeKind.releaseUntil.operation ⟨⟨2⟩, ⟨1⟩⟩
          ((Role.auditor []).reference ⟨2⟩))).2.2.read last).Restores
            (administered.session.read ⟨⟨1⟩, ⟨1⟩⟩) ∧
        (administered.session.read ⟨⟨1⟩, ⟨1⟩⟩).className = "MeteredProxy_roled_1_1" ∧
        (administered.session.read ⟨⟨1⟩, ⟨1⟩⟩).fields.get? "calls" = some (.ofNat 8) := by
  have hadded : audited.1 = .ok ⟨⟨2⟩, ⟨1⟩⟩ := by decide +kernel
  have hdeeds : ∀ deed ∈ administering,
      deed.Generates fun generator => generator = Generator.default := by
    intro deed hdeed
    simp only [administering, List.mem_cons, List.not_mem_nil, or_false] at hdeed
    rcases hdeed with rfl | rfl
    · rfl
    · trivial
  have hpresent : (audited.2.2.workshops.get? ⟨1⟩).isSome := by decide +kernel
  have hsource : (⟨⟨1⟩, ⟨1⟩⟩ : SharedHandle) ∈ administered.obtained := by decide +kernel
  have hname : (administered.session.read ⟨⟨1⟩, ⟨1⟩⟩).className = "MeteredProxy_roled_1_1" := by
    decide +kernel
  have hcalls : (administered.session.read ⟨⟨1⟩, ⟨1⟩⟩).fields.get? "calls" = some (.ofNat 8) := rfl
  obtain ⟨last, hlast, hrestores, -, -⟩ :=
    additions_taken_back _ rfl hdeeds ⟨⟨1⟩, ⟨1⟩⟩ hsource ⟨0⟩ .zero .assume
      ((Role.auditor []).reference ⟨1⟩) ⟨⟨2⟩, ⟨1⟩⟩ hadded .releaseUntil
      ((Role.auditor []).reference ⟨2⟩) ⟨1⟩ .zero (.releaseUntil rfl) hpresent
      (.inl HandleClass.copiesFaithfully_metered.copiesSteadily)
  exact ⟨hadded, hpresent, last, hlast, hrestores, hname, hcalls⟩

end TwoModes

end Run

end RoleStack

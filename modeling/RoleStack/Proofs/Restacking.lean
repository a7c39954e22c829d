import RoleStack.HandleClass.Samples
import RoleStack.Proofs.Composing

/-!
# Layers stacked again

A removal of one layer makes those over it anew on what lies below. Contracts, markers and keys are
kept in their order; forwarders are not, for each role layer gets those that the generator of the
removing operation gives in its turn.
-/

namespace RoleStack

/-- The forwarders that the default generator gives a level. -/
def HandleClass.delegatedForwarders : HandleClass → ForwarderTable
  | .roleLayer _ _ contract key _ => contract.forwarders key
  | .base .. | .markerLayer .. => Table.empty

/-- The layers made stand for the retained ones, the lowest first. The generator is handed on from
one role layer to the next. -/
inductive Restacked : Generator → List HandleClass → List HandleClass → Prop where
  | nil (generator : Generator) : Restacked generator [] []
  | role {generator next : Generator} {contract : Contract} {key : Key}
      {generated : ForwarderTable} {retained made : List HandleClass} (name madeName : String)
      (parent madeParent : HandleClass) (forwarders : ForwarderTable)
      (hgenerate : (generator.prepare contract key).generate = .ok (generated, next))
      (rest : Restacked next retained made) :
      Restacked generator (.roleLayer name parent contract key forwarders :: retained)
        (.roleLayer madeName madeParent contract key generated :: made)
  | marker {generator : Generator} {retained made : List HandleClass} (name madeName : String)
      (parent madeParent : HandleClass) (marker : Marker) (rest : Restacked generator retained made) :
      Restacked generator (.markerLayer name parent marker :: retained)
        (.markerLayer madeName madeParent marker :: made)

namespace Restacked

variable {generator : Generator} {retained made : List HandleClass}

theorem forwarders_of_delegating (h : Restacked generator retained made)
    (hstyle : generator.style = .delegating) :
    made.map HandleClass.ownForwarders = retained.map HandleClass.delegatedForwarders := by
  induction h with
  | nil => rfl
  | role name madeName parent madeParent forwarders hgenerate rest ih =>
      obtain ⟨rfl, hnext⟩ := Generator.forwarders_of_generate hstyle hgenerate
      rw [List.map_cons, List.map_cons, ih hnext]
      rfl
  | marker name madeName parent madeParent marker rest ih =>
      rw [List.map_cons, List.map_cons, ih hstyle]
      rfl

end Restacked

/-! ### What a removal keeps -/

namespace HandleClass

/-- The class consists of the layers retained, the one removed and the base of the cut. -/
structure Split.Cuts (split : Split) (declares : HandleClass → Bool) (handleClass : HandleClass) :
    Prop where
  levels : handleClass.levels = split.retained.reverse ++ split.removed :: split.base.levels
  removed : declares split.removed = true
  retained : ∀ layer ∈ split.retained, layer.isBase = false ∧ declares layer = false

theorem Split.Cuts.push {split : Split} {declares : HandleClass → Bool}
    {parent layer : HandleClass} (h : split.Cuts declares parent)
    (hlevels : layer.levels = layer :: parent.levels) (hbase : layer.isBase = false)
    (hkept : declares layer = false) :
    Split.Cuts { split with retained := split.retained ++ [layer] } declares layer where
  levels := by rw [hlevels, h.levels, List.reverse_append]; rfl
  removed := h.removed
  retained := by
    intro kept hkept'
    rcases List.mem_append.mp hkept' with hold | hnew
    · exact h.retained kept hold
    · rw [List.mem_singleton.mp hnew]
      exact ⟨hbase, hkept⟩

theorem cuts_of_splitAt? {declares : HandleClass → Bool} {handleClass : HandleClass}
    {split : Split} (h : handleClass.splitAt? declares = some split) :
    split.Cuts declares handleClass := by
  induction handleClass generalizing split with
  | base => cases h
  | roleLayer name parent contract key forwarders ih =>
      simp only [splitAt?] at h
      split at h
      · rename_i htop
        obtain rfl := Option.some.inj h
        exact ⟨rfl, htop, fun _ hmem => by cases hmem⟩
      · rename_i hkept
        obtain ⟨below, hbelow, rfl⟩ := Option.map_eq_some_iff.mp h
        exact (ih hbelow).push rfl rfl (Bool.not_eq_true _ ▸ hkept)
  | markerLayer name parent marker ih =>
      simp only [splitAt?] at h
      split at h
      · rename_i htop
        obtain rfl := Option.some.inj h
        exact ⟨rfl, htop, fun _ hmem => by cases hmem⟩
      · rename_i hkept
        obtain ⟨below, hbelow, rfl⟩ := Option.map_eq_some_iff.mp h
        exact (ih hbelow).push rfl rfl (Bool.not_eq_true _ ▸ hkept)

end HandleClass

namespace Stacking

variable {stacking last : Stacking}

theorem exists_of_stackRole {contract : Contract} {key : Key}
    (h : stacking.stackRole contract key = .ok last) :
    ∃ forwarders generator,
      (stacking.generator.prepare contract key).generate = .ok (forwarders, generator) ∧
        last = stacking.push
          (.roleLayer stacking.nextName stacking.top contract key forwarders) generator := by
  unfold stackRole at h
  split at h
  · cases h
  · rename_i forwarders generator hgenerate
    exact ⟨forwarders, generator, hgenerate, (Except.ok.inj h).symm⟩

theorem exists_of_restackAll {retained : List HandleClass}
    (hlayers : ∀ layer ∈ retained, layer.isBase = false)
    (h : stacking.restackAll retained = .ok last) :
    ∃ made, Restacked stacking.generator retained made ∧
      last.top.levels = made.reverse ++ stacking.top.levels := by
  induction retained generalizing stacking with
  | nil =>
      obtain rfl := Except.ok.inj h
      exact ⟨[], .nil _, rfl⟩
  | cons layer rest ih =>
      obtain ⟨middle, hmiddle, hrest⟩ := exists_of_bind_eq_ok h
      obtain ⟨made, hmade, hlevels⟩ :=
        ih (fun layer hmem => hlayers layer (List.mem_cons_of_mem _ hmem)) hrest
      cases layer with
      | base => cases hlayers _ List.mem_cons_self
      | roleLayer name parent contract key forwarders =>
          obtain ⟨generated, generator, hgenerate, rfl⟩ := exists_of_stackRole hmiddle
          refine ⟨_ :: made,
            .role name stacking.nextName parent stacking.top forwarders hgenerate hmade, ?_⟩
          rw [hlevels, List.reverse_cons, List.append_assoc]
          rfl
      | markerLayer name parent marker =>
          obtain rfl := Except.ok.inj hmiddle
          refine ⟨_ :: made, .marker name stacking.nextName parent stacking.top marker hmade, ?_⟩
          rw [hlevels, List.reverse_cons, List.append_assoc]
          rfl

end Stacking

namespace Operation

/-- The levels that the operation takes out. -/
def drops (operation : Operation) (level : HandleClass) : Bool :=
  match operation.injection with
  | .removeRole => operation.role.contract.any fun contract => level.declaresContract contract.name
  | .removeMarker => operation.role.marker.any fun marker => level.declaresMarker marker.name
  | .addRole | .addMarker => false

variable {operation : Operation} {reservation : Reservation} {current : HandleClass} {plan : Plan}

theorem exists_of_planWithout {declares : HandleClass → Bool} {target : String}
    (h : operation.planWithout reservation current declares target = .ok plan) :
    ∃ split made, HandleClass.Split.Cuts split declares current ∧
      Restacked operation.generator split.retained made ∧
      plan.handleClass.levels = made.reverse ++ split.base.levels := by
  unfold planWithout at h
  split at h
  · cases h
  · rename_i split hsplit
    have hcuts := HandleClass.cuts_of_splitAt? hsplit
    obtain ⟨stacking, hstacking, hplan⟩ := exists_of_bind_eq_ok h
    obtain rfl := Except.ok.inj hplan
    obtain ⟨made, hmade, hlevels⟩ :=
      Stacking.exists_of_restackAll (fun layer hmem => (hcuts.retained layer hmem).1) hstacking
    exact ⟨split, made, hcuts, hmade, hlevels⟩

theorem drops_eq_declaresContract (hinjection : operation.injection = .removeRole)
    {contract : Contract} (h : operation.requireContract = .ok contract) :
    operation.drops = HandleClass.declaresContract contract.name := by
  funext level
  unfold requireContract at h
  split at h
  · rename_i found hfound
    obtain rfl := Except.ok.inj h
    rw [drops, hinjection, hfound]
    rfl
  · cases h

theorem drops_eq_declaresMarker (hinjection : operation.injection = .removeMarker)
    {marker : Marker} (h : operation.requireMarker = .ok marker) :
    operation.drops = HandleClass.declaresMarker marker.name := by
  funext level
  unfold requireMarker at h
  split at h
  · rename_i found hfound
    obtain rfl := Except.ok.inj h
    rw [drops, hinjection, hfound]
    rfl
  · cases h

theorem exists_planWithout_of_kind (hkind : operation.kind = .release ∨ operation.kind = .hideMarker)
    {strict : Bool} (h : operation.plan strict reservation current = .ok plan) :
    ∃ target, operation.planWithout reservation current operation.drops target = .ok plan := by
  obtain ⟨injection, scope, target, role, generator, transfer, status, cause, resultClass⟩ :=
    operation
  cases injection with
  | removeRole =>
      cases scope with
      | layer =>
          obtain ⟨contract, hcontract, hplan⟩ := exists_of_bind_eq_ok h
          rw [drops_eq_declaresContract rfl hcontract]
          exact ⟨contract.name, hplan⟩
      | «until» => simp [kind] at hkind
  | removeMarker =>
      obtain ⟨marker, hmarker, hplan⟩ := exists_of_bind_eq_ok h
      rw [drops_eq_declaresMarker rfl hmarker]
      exact ⟨marker.name, hplan⟩
  | addRole | addMarker => simp [kind] at hkind

end Operation

namespace Engine

variable {engine : Engine} {registry : Registry} {sequence : Sequence}
  {read : SharedHandle → Handle} {agent : AgentId} {operation : Operation} {next : Handle}

/-- A removal keeps the contracts, markers and keys of the layers over the removed one, and gives
them the forwarders of its own generator. -/
theorem restacked_of_compose
    (hkind : operation.kind = .release ∨ operation.kind = .hideMarker)
    (hresult : (engine.compose registry sequence read agent operation).result = .ok next) :
    ∃ (base removed : HandleClass) (retained made : List HandleClass),
      (read operation.target).handleClass.levels = retained.reverse ++ removed :: base.levels ∧
      operation.drops removed = true ∧ (∀ layer ∈ retained, operation.drops layer = false) ∧
      next.handleClass.levels = made.reverse ++ base.levels ∧
      Restacked operation.generator retained made ∧
      (operation.generator.style = .delegating →
        made.map HandleClass.ownForwarders = retained.map HandleClass.delegatedForwarders) := by
  obtain ⟨plan, hcomposes⟩ := exists_of_compose_ok hresult
  obtain ⟨target, hplan⟩ := Operation.exists_planWithout_of_kind hkind hcomposes.planned
  obtain ⟨split, made, hcuts, hmade, hlevels⟩ := Operation.exists_of_planWithout hplan
  refine ⟨split.base, split.removed, split.retained, made, hcuts.levels, hcuts.removed,
    fun layer hmem => (hcuts.retained layer hmem).2, ?_, hmade, hmade.forwarders_of_delegating⟩
  rw [hcomposes.handleClass, hlevels]

section Relabelled

/-- An administrator's layer over an auditor's, with its operation under another name. -/
def relabelled : HandleClass :=
  let audited := HandleClass.roleLayer "Audited" .database Role.auditing (.ofContract "IAuditor")
    (Role.auditing.forwarders (.ofContract "IAuditor"))
  .roleLayer "Administered" audited Role.administration (.ofContract "IAdmin")
    ⟨[("make", ⟨"IAdmin", "createDatabase", 2, .ofContract "IAdmin"⟩)]⟩

def releaseAuditor : Operation :=
  ChangeKind.release.operation ⟨⟨0⟩, ⟨1⟩⟩ ((Role.auditor []).reference ⟨0⟩)

def releaseFrom (handleClass : HandleClass) : Composition :=
  (Engine.start ⟨1⟩ ⟨none, false⟩).compose .empty .start
    (fun _ => Handle.blank ⟨1⟩ handleClass) .zero releaseAuditor

theorem restacked_of_compose_relabelled :
    ∃ (next : Handle) (base removed : HandleClass) (retained made : List HandleClass),
      (releaseFrom relabelled).result = .ok next ∧ releaseAuditor.drops removed = true ∧
        relabelled.levels = retained.reverse ++ removed :: base.levels ∧
        next.handleClass.levels = made.reverse ++ base.levels ∧
        made.map HandleClass.ownForwarders = retained.map HandleClass.delegatedForwarders := by
  obtain ⟨next, hresult⟩ : ∃ next, (releaseFrom relabelled).result = .ok next := ⟨_, rfl⟩
  obtain ⟨base, removed, retained, made, hlevels, hremoved, -, hnext, -, hforwarders⟩ :=
    restacked_of_compose (.inl rfl) hresult
  exact ⟨next, base, removed, retained, made, hresult, hremoved, hlevels, hnext, hforwarders rfl⟩

/-- The relabelled operation is lost with the auditor's layer, though the administrator's is kept. -/
theorem forwarders_not_kept :
    ∃ next, (releaseFrom relabelled).result = .ok next ∧
      next.handleClass.layers = [.role Role.administration] ∧
      next.handleClass.ownForwarders ≠ relabelled.ownForwarders ∧
      relabelled.findForwarder? "make" =
        some ⟨"IAdmin", "createDatabase", 2, .ofContract "IAdmin"⟩ ∧
      next.handleClass.findForwarder? "make" = none := by
  refine ⟨_, rfl, rfl, ?_, rfl, ?_⟩
  · decide
  · rfl

end Relabelled

end Engine

end RoleStack

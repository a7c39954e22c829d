import RoleStack.HandleClass.Samples
import RoleStack.Proofs.Answering
import RoleStack.Proofs.SingleUse
import RoleStack.Proofs.Undoing

/-!
# Keys that forwarders use

A transfer keeps the roles under the keys of the role layers. Forwarders look roles up under keys of
their own, mostly that of their layer. One that a generator or a hand-made layer gave another key finds
its role after a transfer exactly if some layer has that key, or the destination had a role there.
-/

namespace RoleStack

namespace HandleClass

/-- A role layer of the class has the key. -/
def KeyedBy (handleClass : HandleClass) (key : Key) : Prop :=
  ∃ level ∈ handleClass.levels, level.ownKey? = some key

instance (handleClass : HandleClass) (key : Key) : Decidable (handleClass.KeyedBy key) :=
  inferInstanceAs (Decidable (∃ level ∈ handleClass.levels, level.ownKey? = some key))

theorem mem_referencedKeys_iff (handleClass : HandleClass) (key : Key) :
    key ∈ handleClass.referencedKeys ↔ handleClass.KeyedBy key := by
  simp [referencedKeys, KeyedBy]

theorem keyedBy_roleLayer (name : String) (parent : HandleClass) (contract : Contract) (key : Key)
    (forwarders : ForwarderTable) : (roleLayer name parent contract key forwarders).KeyedBy key :=
  ⟨_, mem_levels_self _, rfl⟩

end HandleClass

namespace Handle

variable {source destination merged handle : Handle} {operation : String} {forwarder : Forwarder}

theorem contains_bindings_of_absorb (h : absorb source destination = .ok merged) (key : Key) :
    merged.bindings.contains key = true ↔
      destination.bindings.contains key = true ∨
        destination.handleClass.KeyedBy key ∧ source.bindings.contains key = true := by
  rw [← HandleClass.mem_referencedKeys_iff, Table.contains, get?_bindings_of_absorb h,
    Option.isSome_or, Bool.or_eq_true]
  by_cases hkey : key ∈ destination.handleClass.referencedKeys
  · simp [hkey, Table.contains]
  · simp [hkey, Table.contains]

/-- A call fails for want of a role exactly where none is bound under the forwarder's key. -/
theorem invoke_eq_unbound_iff
    (hforwarder : handle.handleClass.findForwarder? operation = some forwarder)
    (call : RoleRef → String → List Json → Except RoleError Json) (arguments : List Json) :
    handle.invoke call operation arguments = .error (.unbound handle.identity forwarder.key) ↔
      handle.bindings.contains forwarder.key = false := by
  unfold invoke dispatch
  rw [hforwarder, Table.contains]
  simp only
  cases handle.bindings.get? forwarder.key with
  | none => simp
  | some role =>
      by_cases hcount : arguments.length = forwarder.arity
      · simp only [if_pos hcount]
        cases call role forwarder.operation arguments <;> simp
      · simp [if_neg hcount]

end Handle

namespace Engine

variable {engine : Engine} {registry : Registry} {sequence : Sequence}
  {read : SharedHandle → Handle} {agent : AgentId} {operation : Operation} {next : Handle}

theorem exists_roleLayer_of_compose (hkind : operation.kind = .assume)
    (hresult : (engine.compose registry sequence read agent operation).result = .ok next) :
    ∃ contract name forwarders, operation.role.contract = some contract ∧
      next.handleClass =
        .roleLayer name (read operation.target).handleClass contract (.ofContract contract.name)
          forwarders := by
  obtain ⟨plan, hcomposes⟩ := exists_of_compose_ok hresult
  obtain ⟨contract, name, forwarders, hcontract, -, hclass⟩ :=
    Operation.exists_roleLayer_of_plan hkind hcomposes.planned
  rw [hcomposes.handleClass]
  exact ⟨contract, name, forwarders, hcontract, hclass⟩

theorem keyedBy_of_contains_blankDestination (hkind : operation.kind = .assume)
    (hresult : (engine.compose registry sequence read agent operation).result = .ok next)
    {identity : Identity} {key : Key}
    (hown : (operation.blankDestination identity next.handleClass).bindings.contains key = true) :
    next.handleClass.KeyedBy key := by
  obtain ⟨contract, name, forwarders, hcontract, hclass⟩ :=
    exists_roleLayer_of_compose hkind hresult
  rw [← Operation.blankDestination_kind, Table.contains,
    ChangeKind.get?_bindings_blankDestination, hkind, ChangeKind.introduces, hcontract] at hown
  simp only at hown
  split at hown
  · rename_i hkey
    rw [hclass, ← hkey]
    exact HandleClass.keyedBy_roleLayer ..
  · cases hown

/-- The new role is under the key of its own layer, so what was bound stays bound exactly under the keys
of the layers. -/
theorem contains_bindings_of_assume (hkind : operation.kind = .assume)
    (hresult : (engine.compose registry sequence read agent operation).result = .ok next)
    {key : Key} (hbound : (read operation.target).bindings.contains key = true) :
    next.bindings.contains key = true ↔ next.handleClass.KeyedBy key := by
  have habsorb := absorb_of_compose_ok hresult
  have hcontains := Handle.contains_bindings_of_absorb habsorb key
  rw [Operation.blankDestination_handleClass] at hcontains
  rw [hcontains]
  constructor
  · rintro (hown | ⟨hkeyed, -⟩)
    · exact keyedBy_of_contains_blankDestination hkind hresult hown
    · exact hkeyed
  · intro hkeyed
    exact .inr ⟨hkeyed, hbound⟩

/-- What another layer than the new one answers is for want of a role no longer answered exactly where no
layer has the forwarder's key. -/
theorem invoke_of_assume (hkind : operation.kind = .assume)
    (hresult : (engine.compose registry sequence read agent operation).result = .ok next)
    {name : String} {forwarder : Forwarder}
    (hforwarder : (read operation.target).handleClass.findForwarder? name = some forwarder)
    (hbound : (read operation.target).bindings.contains forwarder.key = true)
    (hother : next.handleClass.ownForwarders.get? name = none)
    (call : RoleRef → String → List Json → Except RoleError Json) (arguments : List Json) :
    next.invoke call name arguments = .error (.unbound next.identity forwarder.key) ↔
      ¬next.handleClass.KeyedBy forwarder.key := by
  obtain ⟨contract, className, forwarders, -, hclass⟩ := exists_roleLayer_of_compose hkind hresult
  have hsame : next.handleClass.findForwarder? name = some forwarder := by
    rw [hclass, HandleClass.ownForwarders] at hother
    rw [hclass, HandleClass.findForwarder?_roleLayer, hother, Option.none_or, hforwarder]
  rw [Handle.invoke_eq_unbound_iff hsame, ← contains_bindings_of_assume hkind hresult hbound,
    Bool.not_eq_true]

/-- The role that a forwarder found is still found after a transfer exactly if a layer has the
forwarder's key or the destination had a role under it. So an addition cuts off those operations of other
layers whose key no layer has, and no others. -/
theorem forwarded_keys_kept_by_layers (read : SharedHandle → Handle) :
    (∀ transfer after : Transfer, transfer.perform read = .ok after →
      ∃ source destination merged, transfer.source = some source ∧
        transfer.destination = some destination ∧ after.destination = some merged ∧
        ∀ level ∈ destination.handleClass.levels, ∀ forwarder ∈ level.ownForwarders.values,
          (read source).bindings.contains forwarder.key = true →
            (merged.bindings.contains forwarder.key = true ↔
              destination.bindings.contains forwarder.key = true ∨
                destination.handleClass.KeyedBy forwarder.key)) ∧
    ∀ (engine : Engine) (registry : Registry) (sequence : Sequence) (agent : AgentId)
      (operation : Operation) (next : Handle), operation.kind = .assume →
      (engine.compose registry sequence read agent operation).result = .ok next →
      ∀ name forwarder, (read operation.target).handleClass.findForwarder? name = some forwarder →
        (read operation.target).bindings.contains forwarder.key = true →
        next.handleClass.ownForwarders.get? name = none →
        ∀ call arguments,
          next.invoke call name arguments = .error (.unbound next.identity forwarder.key) ↔
            ¬next.handleClass.KeyedBy forwarder.key := by
  constructor
  · intro transfer after hperform
    obtain ⟨-, source, destination, merged, hsource, hdestination, habsorb, rfl⟩ :=
      Transfer.perform_eq_ok_iff.mp hperform
    refine ⟨source, destination, merged, hsource, hdestination, rfl, ?_⟩
    intro level hlevel forwarder hforwarder hbound
    rw [Handle.contains_bindings_of_absorb habsorb, and_iff_left hbound]
  · intro engine registry sequence agent operation next hkind hresult name forwarder hforwarder
      hbound hother call arguments
    exact invoke_of_assume hkind hresult hforwarder hbound hother call arguments

section Rekeyed

/-- One of two forwarders looks its role up under a key that no layer has. -/
def halfRekeyed : Handle :=
  let admin := (Role.administrator true []).reference ⟨0⟩
  let forwarderUnder (contract : String) : Forwarder :=
    ⟨"IAdmin", "createDatabase", 1, .ofContract contract⟩
  let administered : HandleClass :=
    .roleLayer "Administered" .database Role.administration (.ofContract "IAdmin")
      ⟨[("createDatabase", forwarderUnder "IAdmin"), ("make", forwarderUnder "IOperations")]⟩
  ((Handle.blank ⟨1⟩ administered).bind (.ofContract "IAdmin") admin).bind
    (.ofContract "IOperations") admin

def assumeAuditor : Composition :=
  (Engine.start ⟨1⟩ ⟨none, false⟩).compose .empty .start (fun _ => halfRekeyed) .zero
    (ChangeKind.assume.operation ⟨⟨0⟩, ⟨1⟩⟩ ((Role.auditor []).reference ⟨1⟩))

theorem forwarded_keys_kept_by_layers_rekeyed :
    ∃ next, assumeAuditor.result = .ok next ∧
      ∀ call arguments,
        next.invoke call "createDatabase" arguments ≠
            .error (.unbound next.identity (.ofContract "IAdmin")) ∧
          next.invoke call "make" arguments =
            .error (.unbound next.identity (.ofContract "IOperations")) := by
  obtain ⟨next, hresult, hown, hother, hkeyed, hfree⟩ :
      ∃ next, assumeAuditor.result = .ok next ∧
        next.handleClass.ownForwarders.get? "createDatabase" = none ∧
        next.handleClass.ownForwarders.get? "make" = none ∧
        next.handleClass.KeyedBy (.ofContract "IAdmin") ∧
        ¬next.handleClass.KeyedBy (.ofContract "IOperations") :=
    ⟨_, rfl, rfl, rfl, by decide, by decide⟩
  have hassume := (forwarded_keys_kept_by_layers _).2 _ _ _ _ _ next rfl hresult
  refine ⟨next, hresult, fun call arguments => ⟨?_, ?_⟩⟩
  · intro hunbound
    exact (hassume "createDatabase" _ rfl rfl hown call arguments).mp hunbound hkeyed
  · exact (hassume "make" _ rfl rfl hother call arguments).mpr hfree

/-- The operation worked before the auditor came. -/
theorem rekeyed_operation_cut_off :
    halfRekeyed.dispatch "make" 1 =
        .ok ((Role.administrator true []).reference ⟨0⟩, "createDatabase") ∧
      ∃ next, assumeAuditor.result = .ok next ∧
        next.dispatch "make" 1 = .error (.unbound ⟨1⟩ (.ofContract "IOperations")) :=
  ⟨rfl, _, rfl, rfl⟩

end Rekeyed

end Engine

end RoleStack

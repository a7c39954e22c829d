import RoleStack.Proofs.Planning
import RoleStack.Proofs.Transferring

/-!
# Compositions

What a composition comes to: a plan, a new version with the state of the target, and the classes of
the plan registered under their counters. A failed one leaves the engine and the registry alone, and
on an engine that is ahead of its registry a change of a regular handle fails only where the change
of its stack does.
-/

namespace RoleStack

theorem Attempting.run_register {registry filled : Registry} {made : List HandleClass}
    {result : Except String Unit} (h : registry.takeIn made = (result, filled)) (namer : Namer)
    (sequence : Sequence) :
    (register made).run.run ⟨namer, registry, sequence⟩ =
      (result.mapError .nameCollision, ⟨namer, filled, sequence⟩) := by
  have hrun : (register made).run.run ⟨namer, registry, sequence⟩ =
      (ofExcept ((registry.takeIn made).1.mapError .nameCollision) : Attempting Unit).run.run
        ⟨namer, (registry.takeIn made).2, sequence⟩ := rfl
  rw [hrun, h]
  cases result with
  | error name => rfl
  | ok => rfl

namespace Engine

section Outcomes

variable (engine : Engine) (registry : Registry) (sequence : Sequence)
  (read : SharedHandle → Handle) (agent : AgentId) {operation : Operation}

/-- The plan for the target's present class. The operation's status plays no part in it. -/
def planFor (operation : Operation) : Except CompositionCause Plan :=
  operation.plan engine.config.strictRemoveUntil engine.namer.reserve
    (read operation.target).handleClass

variable {engine registry sequence read agent}

theorem compose_of_not_queued (h : operation.status ≠ .queued) :
    engine.compose registry sequence read agent operation =
      ⟨engine, registry, sequence, operation, .error (.operation (.notQueued operation.status)),
        none⟩ := by
  unfold compose Operation.start
  rw [if_neg h]

def failed (engine : Engine) (registry : Registry) (sequence : Sequence) (agent : AgentId)
    (operation : Operation) (cause : CompositionCause) : Composition :=
  let failed := operation.fail cause
  { engine := engine
    registry := registry
    sequence := sequence
    operation := failed
    result := .error
      (.failed operation.target.identity operation.injection operation.role.name cause)
    event := some (eventOf agent failed) }

/-- What comes of a plan that is carried out. -/
structure Carried where
  handle : Handle
  namer : Namer
  registry : Registry

def carryOut (engine : Engine) (registry : Registry) (identity : Identity)
    (read : SharedHandle → Handle) (operation : Operation) (plan : Plan) :
    Except CompositionCause Carried :=
  match operation.populate read identity plan.handleClass with
  | .error error => .error (.transfer error)
  | .ok handle =>
      match registry.registerAll plan.made with
      | .error name => .error (.nameCollision name)
      | .ok registry => .ok ⟨handle, engine.namer.commit plan.reservation, registry⟩

/-- A plan that cannot be carried out leaves the names and the registry as they were: the registry
refuses a batch as a whole, and the names are used up after that. The number of the blank handle is
gone. -/
theorem run_realize (engine : Engine) (registry : Registry) (sequence : Sequence)
    (read : SharedHandle → Handle) (operation : Operation) (plan : Plan) :
    (operation.realize read plan).run.run ⟨engine.namer, registry, sequence⟩ =
      match engine.carryOut registry ⟨sequence.next⟩ read operation plan with
      | .error cause => (.error cause, ⟨engine.namer, registry, sequence.advance⟩)
      | .ok carried =>
          (.ok carried.handle, ⟨carried.namer, carried.registry, sequence.advance⟩) := by
  have hrun : (operation.realize read plan).run.run ⟨engine.namer, registry, sequence⟩ =
      (match operation.populate read ⟨sequence.next⟩ plan.handleClass with
        | .error error => throw (.transfer error)
        | .ok handle => do
            Attempting.register plan.made
            Attempting.commit plan.reservation
            return handle : Attempting Handle).run.run
              ⟨engine.namer, registry, sequence.advance⟩ := rfl
  rw [hrun, carryOut]
  cases operation.populate read ⟨sequence.next⟩ plan.handleClass with
  | error error => rfl
  | ok handle =>
      simp only
      rw [ExceptT.run_bind, StateT.run_bind]
      have htaken := registry.takeIn_eq plan.made
      cases hregistered : registry.registerAll plan.made with
      | error name =>
          rw [hregistered] at htaken
          rw [Attempting.run_register htaken]
          rfl
      | ok filled =>
          rw [hregistered] at htaken
          rw [Attempting.run_register htaken]
          rfl

theorem run_attempt (engine : Engine) (registry : Registry) (sequence : Sequence)
    (read : SharedHandle → Handle) (operation : Operation) :
    (operation.attempt engine.config.strictRemoveUntil read).run.run
        ⟨engine.namer, registry, sequence⟩ =
      match engine.planFor read operation with
      | .error cause => (.error cause, ⟨engine.namer, registry, sequence⟩)
      | .ok plan =>
          (operation.realize read plan).run.run ⟨engine.namer, registry, sequence⟩ := by
  have hrun : (operation.attempt engine.config.strictRemoveUntil read).run.run
        ⟨engine.namer, registry, sequence⟩ =
      (match engine.planFor read operation with
        | .error cause => throw cause
        | .ok plan => operation.realize read plan : Attempting Handle).run.run
          ⟨engine.namer, registry, sequence⟩ := rfl
  rw [hrun]
  cases engine.planFor read operation with
  | error cause => rfl
  | ok plan => rfl

theorem compose_of_plan_eq_error (hqueued : operation.status = .queued) {cause : CompositionCause}
    (hplan : engine.planFor read operation = .error cause) :
    engine.compose registry sequence read agent operation =
      failed engine registry sequence agent { operation with status := .started } cause := by
  have hstarted : engine.planFor read { operation with status := .started } = .error cause := hplan
  unfold compose Operation.start
  rw [if_pos hqueued]
  simp only
  rw [run_attempt, hstarted]
  rfl

theorem compose_of_plan_eq_ok (hqueued : operation.status = .queued) {plan : Plan}
    (hplan : engine.planFor read operation = .ok plan) :
    engine.compose registry sequence read agent operation =
      match engine.carryOut registry ⟨sequence.next⟩ read operation plan with
      | .error cause =>
          failed engine registry sequence.advance agent { operation with status := .started } cause
      | .ok carried =>
          let succeeded := operation.succeed carried.handle.className
          { engine := { engine with namer := carried.namer }
            registry := carried.registry
            sequence := sequence.advance
            operation := succeeded
            result := .ok carried.handle
            event := some (eventOf agent succeeded) } := by
  have hstarted : engine.planFor read { operation with status := .started } = .ok plan := hplan
  have hcarried :
      engine.carryOut registry ⟨sequence.next⟩ read { operation with status := .started } plan =
        engine.carryOut registry ⟨sequence.next⟩ read operation plan := rfl
  unfold compose Operation.start
  rw [if_pos hqueued]
  simp only
  rw [run_attempt, hstarted]
  simp only
  rw [run_realize, hcarried]
  cases engine.carryOut registry ⟨sequence.next⟩ read operation plan with
  | error cause => rfl
  | ok carried => rfl

theorem exists_of_carryOut {identity : Identity} {plan : Plan} {carried : Carried}
    (h : engine.carryOut registry identity read operation plan = .ok carried) :
    operation.populate read identity plan.handleClass = .ok carried.handle ∧
      registry.registerAll plan.made = .ok carried.registry ∧
      carried.namer = engine.namer.commit plan.reservation := by
  unfold carryOut at h
  split at h
  · cases h
  · rename_i handle hpopulate
    split at h
    · cases h
    · rename_i filled hfilled
      obtain rfl := Except.ok.inj h
      exact ⟨hpopulate, hfilled, rfl⟩

structure Composes (engine : Engine) (registry : Registry) (sequence : Sequence)
    (read : SharedHandle → Handle) (operation : Operation) (composition : Composition)
    (handle : Handle) (plan : Plan) : Prop where
  queued : operation.status = .queued
  planned : engine.planFor read operation = .ok plan
  populated : operation.populate read ⟨sequence.next⟩ plan.handleClass = .ok handle
  registered : registry.registerAll plan.made = .ok composition.registry
  engine : composition.engine = { engine with namer := engine.namer.commit plan.reservation }
  sequence : composition.sequence = sequence.advance

theorem exists_of_compose_ok {handle : Handle}
    (h : (engine.compose registry sequence read agent operation).result = .ok handle) :
    ∃ plan, Composes engine registry sequence read operation
      (engine.compose registry sequence read agent operation) handle plan := by
  by_cases hqueued : operation.status = .queued
  · cases hplan : engine.planFor read operation with
    | error cause =>
        rw [compose_of_plan_eq_error hqueued hplan] at h
        cases h
    | ok plan =>
        rw [compose_of_plan_eq_ok hqueued hplan] at h ⊢
        cases hcarried : engine.carryOut registry ⟨sequence.next⟩ read operation plan with
        | error cause =>
            rw [hcarried] at h
            cases h
        | ok carried =>
            rw [hcarried] at h
            obtain rfl := Except.ok.inj h
            obtain ⟨hpopulate, hfilled, hnamer⟩ := exists_of_carryOut hcarried
            exact ⟨plan, hqueued, hplan, hpopulate, hfilled, by simp only [hnamer], rfl⟩
  · rw [compose_of_not_queued hqueued] at h
    cases h

theorem compose_of_eq_error {error : CompositionError}
    (h : (engine.compose registry sequence read agent operation).result = .error error) :
    (engine.compose registry sequence read agent operation).engine = engine ∧
      (engine.compose registry sequence read agent operation).registry = registry := by
  by_cases hqueued : operation.status = .queued
  · cases hplan : engine.planFor read operation with
    | error cause =>
        rw [compose_of_plan_eq_error hqueued hplan]
        exact ⟨rfl, rfl⟩
    | ok plan =>
        rw [compose_of_plan_eq_ok hqueued hplan] at h ⊢
        cases hcarried : engine.carryOut registry ⟨sequence.next⟩ read operation plan with
        | error cause => exact ⟨rfl, rfl⟩
        | ok carried =>
            rw [hcarried] at h
            cases h
  · rw [compose_of_not_queued hqueued]
    exact ⟨rfl, rfl⟩

theorem Composes.handleClass {composition : Composition} {handle : Handle} {plan : Plan}
    (h : Composes engine registry sequence read operation composition handle plan) :
    handle.handleClass = plan.handleClass := by
  obtain ⟨extension, -, rfl⟩ :=
    Handle.exists_of_absorb (Operation.populate_eq_ok_iff.mp h.populated).2
  exact Operation.blankDestination_handleClass ..

/-- Whatever is composed, an engine stays ahead of its registry. -/
theorem aheadOf_compose (hahead : engine.namer.AheadOf registry) :
    (engine.compose registry sequence read agent operation).engine.namer.AheadOf
      (engine.compose registry sequence read agent operation).registry := by
  cases hresult : (engine.compose registry sequence read agent operation).result with
  | error error =>
      obtain ⟨hengine, hregistry⟩ := compose_of_eq_error hresult
      rw [hengine, hregistry]
      exact hahead
  | ok handle =>
      obtain ⟨plan, hcomposes⟩ := exists_of_compose_ok hresult
      rw [hcomposes.engine]
      exact (Operation.numbered_plan hcomposes.planned).aheadOf_commit hahead hcomposes.registered

theorem config_compose :
    (engine.compose registry sequence read agent operation).engine.config = engine.config := by
  cases hresult : (engine.compose registry sequence read agent operation).result with
  | error error => rw [(compose_of_eq_error hresult).1]
  | ok handle =>
      obtain ⟨plan, hcomposes⟩ := exists_of_compose_ok hresult
      rw [hcomposes.engine]

theorem identity_of_compose_ok {handle : Handle}
    (h : (engine.compose registry sequence read agent operation).result = .ok handle) :
    handle.identity = (read operation.target).identity := by
  obtain ⟨plan, hcomposes⟩ := exists_of_compose_ok h
  obtain ⟨extension, -, rfl⟩ :=
    Handle.exists_of_absorb (Operation.populate_eq_ok_iff.mp hcomposes.populated).2
  rfl

/-- The registry is the engine's own: it holds what the engine itself registered, and no more. -/
inductive Owns : Engine → Registry → Prop where
  | start (id : EngineId) (config : EngineConfig) : Owns (Engine.start id config) Registry.empty
  | compose {engine : Engine} {registry : Registry} (owns : Owns engine registry)
      (sequence : Sequence) (read : SharedHandle → Handle) (agent : AgentId)
      (operation : Operation) :
      Owns (engine.compose registry sequence read agent operation).engine
        (engine.compose registry sequence read agent operation).registry

theorem Owns.aheadOf (h : engine.Owns registry) : engine.namer.AheadOf registry := by
  induction h with
  | start id config => exact Namer.aheadOf_empty _
  | compose owns sequence read agent operation ih => exact aheadOf_compose ih

end Outcomes

/-! ### Operations with the default generator -/

end Engine

def Operation.kind (operation : Operation) : ChangeKind :=
  match operation.injection, operation.scope with
  | .addRole, _ => .assume
  | .removeRole, .layer => .release
  | .removeRole, .until => .releaseUntil
  | .addMarker, _ => .showMarker
  | .removeMarker, _ => .hideMarker

namespace Operation

variable {operation : Operation}

theorem injection_kind (operation : Operation) : operation.kind.injection = operation.injection := by
  obtain ⟨injection, scope, target, role, generator, transfer, status, cause, resultClass⟩ := operation
  cases injection <;> cases scope <;> rfl

theorem plan_kind (h : operation.generator = Generator.default) (strict : Bool)
    (reservation : Reservation) (current : HandleClass) :
    (operation.kind.operation operation.target operation.role).plan strict reservation current =
      operation.plan strict reservation current := by
  obtain ⟨injection, scope, target, role, generator, transfer, status, cause, resultClass⟩ := operation
  obtain rfl : generator = Generator.default := h
  cases injection <;> cases scope <;> rfl

theorem blankDestination_kind (operation : Operation) (identity : Identity)
    (handleClass : HandleClass) :
    (operation.kind.operation operation.target operation.role).blankDestination identity handleClass =
      operation.blankDestination identity handleClass := by
  obtain ⟨injection, scope, target, role, generator, transfer, status, cause, resultClass⟩ := operation
  cases injection <;> cases scope <;> rfl

theorem populate_kind {read : SharedHandle → Handle} {identity : Identity}
    {handleClass : HandleClass} {handle : Handle}
    (h : operation.populate read identity handleClass = .ok handle) :
    (operation.kind.operation operation.target operation.role).populate read identity handleClass =
      .ok handle := by
  rw [populate_eq_ok_iff] at h ⊢
  rw [blankDestination_kind]
  exact ⟨Transfer.unused_fresh, h.2⟩

end Operation

namespace Engine

/-- Whatever else was set on an operation, what it makes is what its kind of change makes. -/
theorem result_kind {engine : Engine} {registry : Registry} {sequence : Sequence}
    {read : SharedHandle → Handle} {agent : AgentId} {operation : Operation} {handle : Handle}
    (hgenerator : operation.generator = Generator.default)
    (h : (engine.compose registry sequence read agent operation).result = .ok handle) :
    (engine.compose registry sequence read agent
      (operation.kind.operation operation.target operation.role)).result = .ok handle := by
  obtain ⟨plan, hcomposes⟩ := exists_of_compose_ok h
  have hplan : engine.planFor read (operation.kind.operation operation.target operation.role) =
      .ok plan := (Operation.plan_kind hgenerator _ _ _).trans hcomposes.planned
  rw [compose_of_plan_eq_ok rfl hplan, carryOut, Operation.populate_kind hcomposes.populated]
  simp only [hcomposes.registered]

/-! ### Changes of regular handles -/

section Changes

variable {engine : Engine} {registry : Registry} {sequence : Sequence}
  {read : SharedHandle → Handle} {agent : AgentId} {kind : ChangeKind} {target : SharedHandle}
  {role : RoleRef} {next : LayerStack} {refusal : Refusal}

theorem exists_populate (copyable : (read target).CopyableFor 1) {handleClass : HandleClass}
    (hroot : handleClass.root = (read target).handleClass.root) (identity : Identity) :
    ∃ handle, (kind.operation target role).populate read identity handleClass = .ok handle := by
  have hsame : handleClass.extension? = (read target).handleClass.extension? := by
    rw [← HandleClass.extension?_root, hroot, HandleClass.extension?_root]
  obtain ⟨handle, hhandle⟩ := Handle.exists_absorb copyable
    (((kind.operation target role).blankDestination_handleClass identity handleClass).symm ▸ hsame)
  exact ⟨handle, Operation.populate_eq_ok_iff.mpr ⟨Transfer.unused_fresh, hhandle⟩⟩

/-- A successful change gives a regular handle with the changed stack, over the same base. -/
theorem exists_change_of_compose_ok {handle : Handle} (regular : (read target).handleClass.Regular)
    (h : (engine.compose registry sequence read agent (kind.operation target role)).result =
      .ok handle) :
    ∃ next,
      (read target).handleClass.stack.change engine.config.strictRemoveUntil kind role = .ok next ∧
        handle.handleClass.Regular ∧
        handle.handleClass.root = (read target).handleClass.root ∧
        handle.handleClass.stack = next ∧
        Handle.absorb (read target)
          ((kind.operation target role).blankDestination ⟨sequence.next⟩ handle.handleClass) =
            .ok handle := by
  obtain ⟨plan, hcomposes⟩ := exists_of_compose_ok h
  have habsorb : Handle.absorb (read target) _ = .ok handle :=
    (Operation.populate_eq_ok_iff.mp hcomposes.populated).2
  have hplanned : (kind.operation target role).plan engine.config.strictRemoveUntil
      engine.namer.reserve (read target).handleClass = .ok plan := hcomposes.planned
  cases hchange :
      (read target).handleClass.stack.change engine.config.strictRemoveUntil kind role with
  | error refusal =>
      obtain ⟨cause, hcause, -⟩ := ChangeKind.plan_eq_error regular hchange target
        engine.namer.reserve
      rw [hplanned] at hcause
      cases hcause
  | ok next =>
      obtain ⟨found, hfound, hreaches⟩ := ChangeKind.exists_plan regular hchange target
        engine.namer.reserve
      obtain rfl : plan = found := Except.ok.inj (hplanned.symm.trans hfound)
      rw [hcomposes.handleClass]
      exact ⟨next, rfl, hreaches.regular, hreaches.root, hreaches.stack, habsorb⟩

theorem exists_compose_of_change (regular : (read target).handleClass.Regular)
    (copyable : (read target).CopyableFor 1) (ahead : engine.namer.AheadOf registry)
    (h : (read target).handleClass.stack.change engine.config.strictRemoveUntil kind role =
      .ok next) :
    ∃ handle,
      (engine.compose registry sequence read agent (kind.operation target role)).result =
        .ok handle := by
  obtain ⟨plan, hplan, hreaches⟩ := ChangeKind.exists_plan regular h target engine.namer.reserve
  obtain ⟨handle, hpopulate⟩ := exists_populate copyable hreaches.root ⟨sequence.next⟩
  obtain ⟨filled, hfilled⟩ := (Operation.numbered_plan hplan).exists_registerAll ahead
  refine ⟨handle, ?_⟩
  rw [compose_of_plan_eq_ok rfl hplan, carryOut, hpopulate]
  simp only [hfilled]

theorem compose_eq_error_of_change (regular : (read target).handleClass.Regular)
    (h : (read target).handleClass.stack.change engine.config.strictRemoveUntil kind role =
      .error refusal) :
    ∃ error cause,
      (engine.compose registry sequence read agent (kind.operation target role)).result =
        .error error ∧ error.cause? = some cause ∧ cause.refusal? = some refusal := by
  obtain ⟨cause, hplan, hrefusal⟩ := ChangeKind.plan_eq_error regular h target engine.namer.reserve
  refine ⟨.failed target.identity kind.injection role.name cause, cause, ?_, rfl, hrefusal⟩
  rw [compose_of_plan_eq_error rfl hplan]
  rfl

theorem copyableFor_of_compose_ok {handle : Handle} {times : Nat}
    (regular : (read target).handleClass.Regular)
    (copyable : (read target).CopyableFor (times + 1))
    (h : (engine.compose registry sequence read agent (kind.operation target role)).result =
      .ok handle) : handle.CopyableFor times := by
  obtain ⟨next, -, -, hroot, -, habsorb⟩ := exists_change_of_compose_ok regular h
  have hsame : handle.handleClass.extension? = (read target).handleClass.extension? := by
    rw [← HandleClass.extension?_root, hroot, HandleClass.extension?_root]
  exact copyable.of_absorb (by simpa using hsame) (by simp) habsorb

theorem copyable_of_compose_ok {handle : Handle} (regular : (read target).handleClass.Regular)
    (copyable : (read target).Copyable)
    (h : (engine.compose registry sequence read agent (kind.operation target role)).result =
      .ok handle) : handle.Copyable :=
  fun times => copyableFor_of_compose_ok regular (copyable (times + 1)) h

end Changes

end Engine

end RoleStack

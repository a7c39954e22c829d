import RoleStack.Proofs.Bindings
import RoleStack.Proofs.FallingBack
import RoleStack.Proofs.Restacking

/-!
# What a removal leaves declared

The removal of a layer takes one declaration of a contract or a marker away and leaves the others. So it
really removes what is declared once, as everything is that compositions stacked. Falling back goes below
the last declaration, or fails.
-/

namespace RoleStack

namespace HandleClass

/-- How many levels declare the contract. -/
def declarations (handleClass : HandleClass) (contract : String) : Nat :=
  handleClass.levels.countP (declaresContract contract)

/-- How many levels carry the marker. -/
def markings (handleClass : HandleClass) (marker : String) : Nat :=
  handleClass.levels.countP (declaresMarker marker)

variable {handleClass : HandleClass}

theorem implements_eq_false_iff (handleClass : HandleClass) (contract : String) :
    handleClass.implements contract = false ↔ handleClass.declarations contract = 0 := by
  rw [implements, declarations, List.any_eq_false, List.countP_eq_zero]

theorem hasMarker_eq_false_iff (handleClass : HandleClass) (marker : String) :
    handleClass.hasMarker marker = false ↔ handleClass.markings marker = 0 := by
  rw [hasMarker, markings, List.any_eq_false, List.countP_eq_zero]

/-! ### What regular classes declare -/

theorem countP_cons_le_one {levels : List HandleClass} {level : HandleClass}
    {declares : HandleClass → Bool} (hlevels : levels.countP declares ≤ 1)
    (hnew : declares level = true → levels.countP declares = 0) :
    (level :: levels).countP declares ≤ 1 := by
  by_cases hlevel : declares level = true
  · rw [List.countP_cons_of_pos hlevel, hnew hlevel]
  · rw [List.countP_cons_of_neg hlevel]
    exact hlevels

theorem Regular.declarations_le_one (h : handleClass.Regular) (contract : String) :
    handleClass.declarations contract ≤ 1 := by
  induction h with
  | base => exact List.countP_le_length
  | roleLayer name regular absent distinct ih =>
      apply countP_cons_le_one ih
      intro hsame
      rw [declaresContract, decide_eq_true_eq] at hsame
      rw [← hsame]
      exact (implements_eq_false_iff _ _).mp absent
  | markerLayer name regular absent ih =>
      exact countP_cons_le_one ih fun hsame => by cases hsame

theorem Regular.markings_le_one (h : handleClass.Regular) (marker : String) :
    handleClass.markings marker ≤ 1 := by
  induction h with
  | base => exact List.countP_le_length
  | roleLayer name regular absent distinct ih =>
      exact countP_cons_le_one ih fun hsame => by cases hsame
  | markerLayer name regular absent ih =>
      apply countP_cons_le_one ih
      intro hsame
      rw [declaresMarker, decide_eq_true_eq] at hsame
      rw [← hsame]
      exact (hasMarker_eq_false_iff _ _).mp absent

theorem implements_of_fallback? {ancestor : HandleClass} {strict : Bool} {contract : String}
    (h : handleClass.fallback? strict contract = some ancestor) :
    ancestor.implements contract = false := by
  have hlenient := fallback?_false_of_fallback? h
  rw [fallback?_false_eq_find?, find?_ancestors_eq_some_iff] at hlenient
  exact hlenient.free

end HandleClass

/-- The layers made match as many times as those retained, for a test that sees only the layer. -/
theorem Restacked.countP_eq {generator : Generator} {retained made : List HandleClass}
    {declares : HandleClass → Bool} {matching : Layer → Bool}
    (tests : HandleClass.Tests declares matching) (h : Restacked generator retained made) :
    made.countP declares = retained.countP declares := by
  induction h with
  | nil => rfl
  | role name madeName parent madeParent forwarders hgenerate rest ih =>
      rw [List.countP_cons, List.countP_cons, ih, tests.role, tests.role]
  | marker name madeName parent madeParent marker rest ih =>
      rw [List.countP_cons, List.countP_cons, ih, tests.marker, tests.marker]

namespace Operation

variable {operation : Operation} {reservation : Reservation} {current : HandleClass} {plan : Plan}

theorem countP_of_planWithout {declares : HandleClass → Bool} {matching : Layer → Bool}
    (tests : HandleClass.Tests declares matching) {target : String}
    (h : operation.planWithout reservation current declares target = .ok plan) :
    plan.handleClass.levels.countP declares + 1 = current.levels.countP declares := by
  obtain ⟨split, made, hcuts, hmade, hlevels⟩ := exists_of_planWithout h
  have hretained : split.retained.countP declares = 0 := by
    rw [List.countP_eq_zero]
    intro layer hmem
    simp [(hcuts.retained layer hmem).2]
  have hmadeNone : made.countP declares = 0 := (hmade.countP_eq tests).trans hretained
  calc plan.handleClass.levels.countP declares + 1
      = split.base.levels.countP declares + 1 := by
        rw [hlevels, List.countP_append, List.countP_reverse, hmadeNone, Nat.zero_add]
    _ = (split.removed :: split.base.levels).countP declares :=
        (List.countP_cons_of_pos hcuts.removed).symm
    _ = current.levels.countP declares := by
        rw [hcuts.levels, List.countP_append, List.countP_reverse, hretained, Nat.zero_add]

theorem drops_of_release (hkind : operation.kind = .release) {contract : Contract}
    (hcontract : operation.role.contract = some contract) :
    operation.drops = HandleClass.declaresContract contract.name := by
  refine drops_eq_declaresContract ?_ (by rw [requireContract, hcontract])
  rw [← injection_kind, hkind]
  rfl

theorem drops_of_hideMarker (hkind : operation.kind = .hideMarker) {marker : Marker}
    (hmarker : operation.role.marker = some marker) :
    operation.drops = HandleClass.declaresMarker marker.name := by
  refine drops_eq_declaresMarker ?_ (by rw [requireMarker, hmarker])
  rw [← injection_kind, hkind]
  rfl

theorem fallback?_of_releaseUntil (hkind : operation.kind = .releaseUntil) {contract : Contract}
    (hcontract : operation.role.contract = some contract) {strict : Bool}
    (h : operation.plan strict reservation current = .ok plan) :
    current.fallback? strict contract.name = some plan.handleClass := by
  obtain ⟨injection, scope, target, role, generator, transfer, status, cause, resultClass⟩ :=
    operation
  cases injection with
  | removeRole =>
      cases scope with
      | layer => cases hkind
      | «until» =>
          obtain ⟨offered, hoffered, hplan⟩ := exists_of_bind_eq_ok h
          rw [requireContract, hcontract] at hoffered
          obtain rfl := Except.ok.inj hoffered
          simp only at hplan
          split at hplan
          · rename_i ancestor hancestor
            obtain rfl := Except.ok.inj hplan
            exact hancestor
          · cases hplan
  | addRole | addMarker | removeMarker => cases hkind

end Operation

namespace Engine

variable {engine : Engine} {registry : Registry} {sequence : Sequence}
  {read : SharedHandle → Handle} {agent : AgentId} {operation : Operation} {next : Handle}

theorem countP_of_compose (hkind : operation.kind = .release ∨ operation.kind = .hideMarker)
    {declares : HandleClass → Bool} {matching : Layer → Bool} (hdrops : operation.drops = declares)
    (tests : HandleClass.Tests declares matching)
    (hresult : (engine.compose registry sequence read agent operation).result = .ok next) :
    next.handleClass.levels.countP declares + 1 =
      (read operation.target).handleClass.levels.countP declares := by
  obtain ⟨plan, hcomposes⟩ := exists_of_compose_ok hresult
  obtain ⟨target, hplan⟩ := Operation.exists_planWithout_of_kind hkind hcomposes.planned
  rw [hdrops] at hplan
  rw [hcomposes.handleClass]
  exact Operation.countP_of_planWithout tests hplan

theorem declarations_of_release (hkind : operation.kind = .release) {contract : Contract}
    (hcontract : operation.role.contract = some contract)
    (hresult : (engine.compose registry sequence read agent operation).result = .ok next) :
    next.handleClass.declarations contract.name + 1 =
      (read operation.target).handleClass.declarations contract.name :=
  countP_of_compose (.inl hkind) (Operation.drops_of_release hkind hcontract)
    (HandleClass.tests_declaresContract _) hresult

theorem markings_of_hideMarker (hkind : operation.kind = .hideMarker) {marker : Marker}
    (hmarker : operation.role.marker = some marker)
    (hresult : (engine.compose registry sequence read agent operation).result = .ok next) :
    next.handleClass.markings marker.name + 1 =
      (read operation.target).handleClass.markings marker.name :=
  countP_of_compose (.inr hkind) (Operation.drops_of_hideMarker hkind hmarker)
    (HandleClass.tests_declaresMarker _) hresult

theorem implements_of_releaseUntil (hkind : operation.kind = .releaseUntil) {contract : Contract}
    (hcontract : operation.role.contract = some contract)
    (hresult : (engine.compose registry sequence read agent operation).result = .ok next) :
    next.handleClass.implements contract.name = false := by
  obtain ⟨plan, hcomposes⟩ := exists_of_compose_ok hresult
  rw [hcomposes.handleClass]
  exact HandleClass.implements_of_fallback?
    (Operation.fallback?_of_releaseUntil hkind hcontract hcomposes.planned)

/-- A removal leaves one declaration less. So what was declared once, as it is after compositions alone, is
gone, and what was declared more often is still there; falling back leaves no declaration. -/
theorem one_declaration_less_of_compose
    (hresult : (engine.compose registry sequence read agent operation).result = .ok next) :
    (∀ contract, operation.kind = .release → operation.role.contract = some contract →
      next.handleClass.declarations contract.name + 1 =
          (read operation.target).handleClass.declarations contract.name ∧
        (next.handleClass.implements contract.name = false ↔
          (read operation.target).handleClass.declarations contract.name = 1) ∧
        ∀ changes, (read operation.target).Lineage changes →
          next.handleClass.implements contract.name = false) ∧
    (∀ marker, operation.kind = .hideMarker → operation.role.marker = some marker →
      next.handleClass.markings marker.name + 1 =
          (read operation.target).handleClass.markings marker.name ∧
        (next.handleClass.hasMarker marker.name = false ↔
          (read operation.target).handleClass.markings marker.name = 1) ∧
        ∀ changes, (read operation.target).Lineage changes →
          next.handleClass.hasMarker marker.name = false) ∧
    ∀ contract, operation.kind = .releaseUntil → operation.role.contract = some contract →
      next.handleClass.implements contract.name = false := by
  refine ⟨?_, ?_, fun contract hkind hcontract =>
    implements_of_releaseUntil hkind hcontract hresult⟩
  · intro contract hkind hcontract
    have hless := declarations_of_release hkind hcontract hresult
    rw [HandleClass.implements_eq_false_iff]
    refine ⟨hless, by omega, ?_⟩
    intro changes hlineage
    have honce := hlineage.accounted.regular.declarations_le_one contract.name
    omega
  · intro marker hkind hmarker
    have hless := markings_of_hideMarker hkind hmarker hresult
    rw [HandleClass.hasMarker_eq_false_iff]
    refine ⟨hless, by omega, ?_⟩
    intro changes hlineage
    have honce := hlineage.accounted.regular.markings_le_one marker.name
    omega

section Repeated

/-- The base declares the contract of the layer over it too, and the marker stands twice on top. -/
def repeating : HandleClass :=
  let conforming := HandleClass.base "Conforming" Table.empty ["IAdmin"] none
  let administered := HandleClass.roleLayer "Administered" conforming Role.administration
    (.ofContract "IAdmin") (Role.administration.forwarders (.ofContract "IAdmin"))
  .markerLayer "Twice" (.markerLayer "Once" administered ⟨"Audited"⟩) ⟨"Audited"⟩

def changeRepeating (kind : ChangeKind) (role : Role) : Composition :=
  (Engine.start ⟨1⟩ ⟨none, false⟩).compose .empty .start
    (fun _ => Handle.blank ⟨1⟩ repeating) .zero
    (kind.operation ⟨⟨0⟩, ⟨1⟩⟩ (role.reference ⟨0⟩))

theorem one_declaration_less_of_compose_repeating :
    ∃ next, (changeRepeating .release (.administrator true [])).result = .ok next ∧
      repeating.declarations "IAdmin" = 2 ∧ next.handleClass.declarations "IAdmin" = 1 ∧
      next.handleClass.implements "IAdmin" ≠ false := by
  obtain ⟨next, hresult⟩ :
      ∃ next, (changeRepeating .release (.administrator true [])).result = .ok next := ⟨_, rfl⟩
  obtain ⟨hless, honce, -⟩ :=
    (one_declaration_less_of_compose hresult).1 Role.administration rfl rfl
  have htwice : repeating.declarations "IAdmin" = 2 := by decide
  refine ⟨next, hresult, htwice, Nat.succ.inj (hless.trans htwice), ?_⟩
  intro hfree
  have hone : repeating.declarations "IAdmin" = 1 := honce.mp hfree
  omega

/-- The removals of the contract and of the marker succeed and leave them there, where falling back for
the contract finds no ancestor. -/
theorem repeated_declarations_left :
    (∃ next, (changeRepeating .release (.administrator true [])).result = .ok next ∧
      next.handleClass.implements "IAdmin" = true) ∧
    (∃ next, (changeRepeating .hideMarker (.announcer ⟨"Audited"⟩)).result = .ok next ∧
      next.handleClass.hasMarker "Audited" = true) ∧
    ∃ error, (changeRepeating .releaseUntil (.administrator true [])).result = .error error ∧
      error.isAncestryNotFound = true :=
  ⟨⟨_, rfl, by decide⟩, ⟨_, rfl, by decide⟩, ⟨_, rfl, rfl⟩⟩

end Repeated

end Engine

end RoleStack

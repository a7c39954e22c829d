import RoleStack.Proofs.Removal

/-!
# Plans for regular classes

A plan from a regular class stands exactly when the change of its stack does. It leads to a regular
class over the same base with the changed stack, and a refused plan has a cause of the same kind.
-/

namespace RoleStack

/-- The plan leads to a regular class with this stack, over the same base. -/
structure Plan.Reaches (plan : Plan) (current : HandleClass) (next : LayerStack) : Prop where
  regular : plan.handleClass.Regular
  root : plan.handleClass.root = current.root
  stack : plan.handleClass.stack = next

theorem Stacking.Rebuilds.reaches {stacking : Stacking} {current : HandleClass}
    {layers : List Layer} (h : stacking.Rebuilds current.root layers) :
    stacking.plan.Reaches current { current.stack with layers := layers } := by
  refine ⟨h.regular, h.root, ?_⟩
  change HandleClass.stack stacking.top = _
  rw [HandleClass.stack, h.root, h.layers]
  rfl

namespace Operation

variable {operation : Operation} {current : HandleClass} {reservation : Reservation}
  {next : LayerStack} {refusal : Refusal}

theorem exists_planWithout {declares : HandleClass → Bool} {matching : Layer → Bool}
    (tests : HandleClass.Tests declares matching) (regular : current.Regular)
    (honce : current.layers.countP matching ≤ 1) (hstyle : operation.generator.style = .delegating)
    (target : String) (h : current.stack.erase matching = .ok next) :
    ∃ plan, operation.planWithout reservation current declares target = .ok plan ∧
      plan.Reaches current next := by
  unfold LayerStack.erase at h
  split at h
  · rename_i hany
    obtain rfl := Except.ok.inj h
    obtain ⟨split, hsplit⟩ : ∃ split, current.splitAt? declares = some split := by
      rw [← Option.isSome_iff_exists, Option.isSome_iff_ne_none, ne_eq,
        HandleClass.splitAt?_eq_none_iff tests, Bool.not_eq_false]
      exact hany
    obtain ⟨stacking, hstacking, hrebuilds⟩ :=
      regular.exists_restackAll tests honce hsplit operation.generator hstyle reservation
    refine ⟨stacking.plan, ?_, hrebuilds.reaches⟩
    rw [planWithout, hsplit]
    simp only [hstacking, bind, Except.bind, pure, Except.pure]
  · cases h

theorem planWithout_eq_error {declares : HandleClass → Bool} {matching : Layer → Bool}
    (tests : HandleClass.Tests declares matching) (target : String)
    (h : current.stack.erase matching = .error refusal) :
    ∃ cause, operation.planWithout reservation current declares target = .error cause ∧
      cause.refusal? = some refusal := by
  unfold LayerStack.erase at h
  split at h
  · cases h
  · rename_i hnone
    obtain rfl := Except.error.inj h
    rw [Bool.not_eq_true] at hnone
    refine ⟨.ancestryNotFound current.name target, ?_, rfl⟩
    rw [planWithout, (HandleClass.splitAt?_eq_none_iff tests current).mpr hnone]

theorem requireContract_eq (operation : Operation) :
    operation.requireContract =
      operation.role.offeredContract.mapError fun _ => .missingContract operation.role.name := by
  unfold requireContract RoleRef.offeredContract
  cases operation.role.contract <;> rfl

theorem requireMarker_eq (operation : Operation) :
    operation.requireMarker =
      operation.role.shownMarker.mapError fun _ => .missingMarker operation.role.name := by
  unfold requireMarker RoleRef.shownMarker
  cases operation.role.marker <;> rfl

end Operation

theorem RoleRef.eq_missingContract {role : RoleRef} {refusal : Refusal}
    (h : role.offeredContract = .error refusal) : refusal = .missingContract := by
  unfold offeredContract at h
  split at h
  · cases h
  · exact (Except.error.inj h).symm

theorem RoleRef.eq_missingMarker {role : RoleRef} {refusal : Refusal}
    (h : role.shownMarker = .error refusal) : refusal = .missingMarker := by
  unfold shownMarker at h
  split at h
  · cases h
  · exact (Except.error.inj h).symm

theorem cases_of_bind_eq_error {Error First Second : Type} {first : Except Error First}
    {next : First → Except Error Second} {error : Error} (h : (first >>= next) = .error error) :
    first = .error error ∨ ∃ value, first = .ok value ∧ next value = .error error := by
  cases first with
  | error found =>
      obtain rfl := Except.error.inj h
      exact .inl rfl
  | ok value => exact .inr ⟨value, rfl, h⟩

namespace ChangeKind

variable {current : HandleClass} {strict : Bool} {role : RoleRef} {next : LayerStack}
  {refusal : Refusal}

/-! ### What each kind of change plans -/

section Kinds

variable {kind : ChangeKind} (target : SharedHandle) (reservation : Reservation)

theorem requireContract_of_offered {contract : Contract}
    (h : role.offeredContract = .ok contract) :
    (kind.operation target role).requireContract = .ok contract := by
  rw [Operation.requireContract_eq]
  exact congrArg _ h

theorem requireMarker_of_shown {marker : Marker} (h : role.shownMarker = .ok marker) :
    (kind.operation target role).requireMarker = .ok marker := by
  rw [Operation.requireMarker_eq]
  exact congrArg _ h

theorem plan_assume {contract : Contract} (h : role.offeredContract = .ok contract) :
    (assume.operation target role).plan strict reservation current =
      if current.implements contract.name then
        .error (.contractPresent current.name contract.name)
      else
        ((Stacking.start current Generator.default reservation).stackRole contract
          (Key.ofContract contract.name)).map Stacking.plan := by
  change (assume.operation target role).requireContract >>= _ = _
  rw [requireContract_of_offered target h]
  rfl

theorem plan_release {contract : Contract} (h : role.offeredContract = .ok contract) :
    (release.operation target role).plan strict reservation current =
      (release.operation target role).planWithout reservation current
        (HandleClass.declaresContract contract.name) contract.name := by
  change (release.operation target role).requireContract >>= _ = _
  rw [requireContract_of_offered target h]
  rfl

theorem plan_releaseUntil {contract : Contract} (h : role.offeredContract = .ok contract) :
    (releaseUntil.operation target role).plan strict reservation current =
      match current.fallback? strict contract.name with
      | some ancestor => .ok ⟨ancestor, [], reservation⟩
      | none => .error (.ancestryNotFound current.name contract.name) := by
  change (releaseUntil.operation target role).requireContract >>= _ = _
  rw [requireContract_of_offered target h]
  rfl

theorem plan_showMarker {marker : Marker} (h : role.shownMarker = .ok marker) :
    (showMarker.operation target role).plan strict reservation current =
      if current.hasMarker marker.name then .error (.markerPresent current.name marker.name)
      else .ok ((Stacking.start current Generator.default reservation).stackMarker marker).plan := by
  change (showMarker.operation target role).requireMarker >>= _ = _
  rw [requireMarker_of_shown target h]
  rfl

theorem plan_hideMarker {marker : Marker} (h : role.shownMarker = .ok marker) :
    (hideMarker.operation target role).plan strict reservation current =
      (hideMarker.operation target role).planWithout reservation current
        (HandleClass.declaresMarker marker.name) marker.name := by
  change (hideMarker.operation target role).requireMarker >>= _ = _
  rw [requireMarker_of_shown target h]
  rfl

theorem plan_of_not_offered (hkind : kind.injection.concernsMarker = false)
    (h : role.offeredContract = .error refusal) :
    ∃ cause, (kind.operation target role).plan strict reservation current = .error cause ∧
      cause.refusal? = some refusal := by
  obtain rfl := RoleRef.eq_missingContract h
  have hrequire : (kind.operation target role).requireContract =
      .error (.missingContract role.name) := by
    rw [Operation.requireContract_eq]
    exact congrArg _ h
  refine ⟨.missingContract role.name, ?_, rfl⟩
  cases kind with
  | assume | release | releaseUntil =>
      change Operation.requireContract _ >>= _ = _
      rw [hrequire]
      rfl
  | showMarker | hideMarker => cases hkind

theorem plan_of_not_shown (hkind : kind.injection.concernsMarker = true)
    (h : role.shownMarker = .error refusal) :
    ∃ cause, (kind.operation target role).plan strict reservation current = .error cause ∧
      cause.refusal? = some refusal := by
  obtain rfl := RoleRef.eq_missingMarker h
  have hrequire : (kind.operation target role).requireMarker =
      .error (.missingMarker role.name) := by
    rw [Operation.requireMarker_eq]
    exact congrArg _ h
  refine ⟨.missingMarker role.name, ?_, rfl⟩
  cases kind with
  | assume | release | releaseUntil => cases hkind
  | showMarker | hideMarker =>
      change Operation.requireMarker _ >>= _ = _
      rw [hrequire]
      rfl

end Kinds

/-! ### The plan and the stack -/

theorem exists_plan {kind : ChangeKind} (regular : current.Regular)
    (h : current.stack.change strict kind role = .ok next) (target : SharedHandle)
    (reservation : Reservation) :
    ∃ plan, (kind.operation target role).plan strict reservation current = .ok plan ∧
      plan.Reaches current next := by
  have hstart := Stacking.Rebuilds.start regular Generator.default rfl reservation
  cases kind with
  | assume =>
      obtain ⟨contract, hoffered, hadd⟩ := exists_of_bind_eq_ok h
      rw [plan_assume target reservation hoffered]
      unfold LayerStack.addContract at hadd
      rw [← HandleClass.implements_eq_stack] at hadd
      split at hadd
      · cases hadd
      rename_i habsent
      rw [if_neg habsent]
      rw [Bool.not_eq_true] at habsent
      split at hadd
      · rename_i hdistinct
        obtain rfl := Except.ok.inj hadd
        obtain ⟨stacking, hstacking, hrebuilds⟩ := hstart.stackRole habsent hdistinct
        exact ⟨stacking.plan, by rw [hstacking]; rfl, hrebuilds.reaches⟩
      · cases hadd
  | release =>
      obtain ⟨contract, hoffered, herase⟩ := exists_of_bind_eq_ok h
      rw [plan_release target reservation hoffered]
      exact Operation.exists_planWithout (HandleClass.tests_declaresContract contract.name) regular
        (regular.countP_declaresContract_le_one contract.name) rfl contract.name herase
  | releaseUntil =>
      obtain ⟨contract, hoffered, hfallBack⟩ := exists_of_bind_eq_ok h
      rw [plan_releaseUntil target reservation hoffered]
      obtain ⟨ancestor, hancestor, hregular, hroot, hstack⟩ := regular.exists_fallback? hfallBack
      exact ⟨⟨ancestor, [], reservation⟩, by rw [hancestor], hregular, hroot, hstack⟩
  | showMarker =>
      obtain ⟨marker, hshown, hadd⟩ := exists_of_bind_eq_ok h
      rw [plan_showMarker target reservation hshown]
      unfold LayerStack.addMarker at hadd
      rw [← HandleClass.hasMarker_eq_stack] at hadd
      split at hadd
      · cases hadd
      · rename_i habsent
        rw [if_neg habsent]
        rw [Bool.not_eq_true] at habsent
        obtain rfl := Except.ok.inj hadd
        exact ⟨_, rfl, (hstart.stackMarker habsent).reaches⟩
  | hideMarker =>
      obtain ⟨marker, hshown, herase⟩ := exists_of_bind_eq_ok h
      rw [plan_hideMarker target reservation hshown]
      exact Operation.exists_planWithout (HandleClass.tests_declaresMarker marker.name) regular
        (regular.countP_declaresMarker_le_one marker.name) rfl marker.name herase

theorem plan_eq_error {kind : ChangeKind} (regular : current.Regular)
    (h : current.stack.change strict kind role = .error refusal) (target : SharedHandle)
    (reservation : Reservation) :
    ∃ cause, (kind.operation target role).plan strict reservation current = .error cause ∧
      cause.refusal? = some refusal := by
  cases kind with
  | assume =>
      rcases cases_of_bind_eq_error h with hoffered | ⟨contract, hoffered, hadd⟩
      · exact plan_of_not_offered target reservation rfl hoffered
      rw [plan_assume target reservation hoffered]
      unfold LayerStack.addContract at hadd
      rw [← HandleClass.implements_eq_stack] at hadd
      split at hadd
      · rename_i hpresent
        obtain rfl := Except.error.inj hadd
        exact ⟨_, if_pos hpresent, rfl⟩
      rename_i habsent
      rw [if_neg habsent]
      split at hadd
      · cases hadd
      · rename_i hrepeated
        obtain rfl := Except.error.inj hadd
        obtain ⟨-, repeated, -, -, -, -, hgenerate⟩ := Generator.generate_of_not_nodup contract
          (.ofContract contract.name) Generator.default rfl hrepeated
        refine ⟨.duplicateOperation contract.name repeated.name, ?_, rfl⟩
        rw [Stacking.stackRole, Stacking.start, hgenerate]
        rfl
  | release =>
      rcases cases_of_bind_eq_error h with hoffered | ⟨contract, hoffered, herase⟩
      · exact plan_of_not_offered target reservation rfl hoffered
      · rw [plan_release target reservation hoffered]
        exact Operation.planWithout_eq_error (HandleClass.tests_declaresContract contract.name)
          contract.name herase
  | releaseUntil =>
      rcases cases_of_bind_eq_error h with hoffered | ⟨contract, hoffered, hfallBack⟩
      · exact plan_of_not_offered target reservation rfl hoffered
      · rw [plan_releaseUntil target reservation hoffered]
        obtain ⟨rfl, hnone⟩ := regular.fallback?_eq_none hfallBack
        exact ⟨.ancestryNotFound current.name contract.name, by rw [hnone], rfl⟩
  | showMarker =>
      rcases cases_of_bind_eq_error h with hshown | ⟨marker, hshown, hadd⟩
      · exact plan_of_not_shown target reservation rfl hshown
      rw [plan_showMarker target reservation hshown]
      unfold LayerStack.addMarker at hadd
      rw [← HandleClass.hasMarker_eq_stack] at hadd
      split at hadd
      · rename_i hpresent
        obtain rfl := Except.error.inj hadd
        exact ⟨_, if_pos hpresent, rfl⟩
      · cases hadd
  | hideMarker =>
      rcases cases_of_bind_eq_error h with hshown | ⟨marker, hshown, herase⟩
      · exact plan_of_not_shown target reservation rfl hshown
      · rw [plan_hideMarker target reservation hshown]
        exact Operation.planWithout_eq_error (HandleClass.tests_declaresMarker marker.name)
          marker.name herase

end ChangeKind

end RoleStack

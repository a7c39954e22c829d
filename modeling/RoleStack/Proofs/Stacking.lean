import RoleStack.Proofs.Forwarders
import RoleStack.Proofs.Layers
import RoleStack.Proofs.Naming

/-!
# Stacking layers again

Whatever the generator, a plan numbers the classes it makes in turn. With the default generator a
class made of fresh layers stays so under every change, and taking out one layer and stacking those
over it again erases that layer from the stack and nothing else.
-/

namespace RoleStack

theorem exists_of_bind_eq_ok {Error First Second : Type} {first : Except Error First}
    {next : First → Except Error Second} {result : Second} (h : (first >>= next) = .ok result) :
    ∃ value, first = .ok value ∧ next value = .ok result := by
  cases first with
  | error error => cases h
  | ok value => exact ⟨value, rfl, h⟩

/-! ### Numbering -/

namespace Stacking

variable {namer : Namer} {stacking next : Stacking}

theorem numbered_stackRole (hnumbered : Numbered namer stacking.made stacking.reservation)
    {contract : Contract} {key : Key} (h : stacking.stackRole contract key = .ok next) :
    Numbered namer next.made next.reservation := by
  unfold stackRole at h
  split at h
  · cases h
  · obtain rfl := Except.ok.inj h
    exact hnumbered.append rfl rfl

theorem numbered_restack (hnumbered : Numbered namer stacking.made stacking.reservation)
    {layer : HandleClass} (h : stacking.restack layer = .ok next) :
    Numbered namer next.made next.reservation := by
  cases layer with
  | base =>
      obtain rfl := Except.ok.inj h
      exact hnumbered
  | roleLayer => exact numbered_stackRole hnumbered h
  | markerLayer =>
      obtain rfl := Except.ok.inj h
      exact hnumbered.append rfl rfl

theorem numbered_restackAll (hnumbered : Numbered namer stacking.made stacking.reservation)
    {layers : List HandleClass} (h : stacking.restackAll layers = .ok next) :
    Numbered namer next.made next.reservation := by
  induction layers generalizing stacking with
  | nil =>
      obtain rfl := Except.ok.inj h
      exact hnumbered
  | cons layer rest ih =>
      obtain ⟨middle, hmiddle, hrest⟩ := exists_of_bind_eq_ok h
      exact ih (numbered_restack hnumbered hmiddle) hrest

theorem restackAll_append (stacking : Stacking) (first second : List HandleClass) :
    stacking.restackAll (first ++ second) =
      stacking.restackAll first >>= fun next => next.restackAll second := by
  induction first generalizing stacking with
  | nil => rfl
  | cons layer rest ih =>
      simp only [List.cons_append, restackAll]
      cases stacking.restack layer with
      | error error => rfl
      | ok next => exact ih next

end Stacking

namespace Operation

variable {operation : Operation} {reservation : Reservation} {current : HandleClass} {plan : Plan}

theorem exists_restackAll_of_planWithout {declares : HandleClass → Bool} {target : String}
    (h : operation.planWithout reservation current declares target = .ok plan) :
    ∃ base layers stacking,
      (Stacking.start base operation.generator reservation).restackAll layers = .ok stacking ∧
        plan = stacking.plan := by
  unfold planWithout at h
  split at h
  · cases h
  · rename_i split hsplit
    obtain ⟨stacking, hstacking, hplan⟩ := exists_of_bind_eq_ok h
    exact ⟨split.base, split.retained, stacking, hstacking, (Except.ok.inj hplan).symm⟩

/-- Every plan stacks some layers over a class that was there, be they none, a new one or those
that were retained. -/
theorem exists_restackAll_of_plan {strict : Bool}
    (h : operation.plan strict reservation current = .ok plan) :
    ∃ base layers stacking,
      (Stacking.start base operation.generator reservation).restackAll layers = .ok stacking ∧
        plan = stacking.plan := by
  unfold Operation.plan at h
  split at h
  · obtain ⟨contract, -, h⟩ := exists_of_bind_eq_ok h
    split at h
    · cases h
    · obtain ⟨stacking, hstacking, hplan⟩ := exists_of_bind_eq_ok h
      refine ⟨current, [.roleLayer "" current contract (.ofContract contract.name) Table.empty],
        stacking, ?_, (Except.ok.inj hplan).symm⟩
      rw [Stacking.restackAll, Stacking.restack, hstacking]
      rfl
  · obtain ⟨contract, -, h⟩ := exists_of_bind_eq_ok h
    split at h
    · exact exists_restackAll_of_planWithout h
    · split at h
      · rename_i ancestor hancestor
        exact ⟨ancestor, [], _, rfl, (Except.ok.inj h).symm⟩
      · cases h
  · obtain ⟨marker, -, h⟩ := exists_of_bind_eq_ok h
    split at h
    · cases h
    · exact ⟨current, [.markerLayer "" current marker], _, rfl, (Except.ok.inj h).symm⟩
  · obtain ⟨marker, -, h⟩ := exists_of_bind_eq_ok h
    exact exists_restackAll_of_planWithout h

theorem numbered_plan {namer : Namer} {strict : Bool}
    (h : operation.plan strict namer.reserve current = .ok plan) :
    Numbered namer plan.made plan.reservation := by
  obtain ⟨base, layers, stacking, hstacking, rfl⟩ := exists_restackAll_of_plan h
  exact Stacking.numbered_restackAll (.nil namer) hstacking

end Operation

end RoleStack

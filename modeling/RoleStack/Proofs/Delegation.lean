import RoleStack.Proofs.Answering
import RoleStack.Proofs.Restacking

/-!
# Delegation to a contract

However often the default generator is prepared, it delegates to the contract that it was prepared for
last, and to all of that. So every role layer that an engine makes with it answers an operation of
its contract just as the contract describes it.
-/

namespace RoleStack

/-! ### Prepared several times -/

namespace Generator

def prepareAll (generator : Generator) (calls : List (Contract × Key)) : Generator :=
  calls.foldl (fun generator call => generator.prepare call.1 call.2) generator

theorem prepareAll_of_delegating (prepared : Option (Contract × Key))
    (calls : List (Contract × Key)) :
    (Generator.mk .delegating prepared).prepareAll calls =
      ⟨.delegating, calls.getLast?.or prepared⟩ := by
  induction calls generalizing prepared with
  | nil => rfl
  | cons call rest ih =>
      rw [prepareAll, List.foldl_cons]
      refine (ih (some call)).trans ?_
      rw [List.getLast?_cons]
      cases rest.getLast? <;> rfl

theorem prepareAll_default (calls : List (Contract × Key)) :
    default.prepareAll calls = ⟨.delegating, calls.getLast?⟩ := by
  rw [default, ofStyle, prepareAll_of_delegating, Option.or_none]

end Generator

/-! ### Layers made with the default generator -/

namespace Stacking

/-- Every level made has the forwarders of its contract, and so will those that are still to come. -/
structure Delegated (stacking : Stacking) : Prop where
  style : stacking.generator.style = .delegating
  made : ∀ level ∈ stacking.made, level.ownForwarders = level.delegatedForwarders

namespace Delegated

variable {stacking next : Stacking}

theorem start (base : HandleClass) {generator : Generator} (hstyle : generator.style = .delegating)
    (reservation : Reservation) : (Stacking.start base generator reservation).Delegated :=
  ⟨hstyle, fun _ hmem => nomatch hmem⟩

theorem push (h : stacking.Delegated) {level : HandleClass} {generator : Generator}
    (hlevel : level.ownForwarders = level.delegatedForwarders)
    (hstyle : generator.style = .delegating) : (stacking.push level generator).Delegated := by
  refine ⟨hstyle, fun other hmem => ?_⟩
  rcases List.mem_append.mp hmem with hold | hnew
  · exact h.made other hold
  · rw [List.mem_singleton.mp hnew]
    exact hlevel

theorem restack (h : stacking.Delegated) {layer : HandleClass}
    (hnext : stacking.restack layer = .ok next) : next.Delegated := by
  cases layer with
  | base =>
      obtain rfl := Except.ok.inj hnext
      exact h
  | roleLayer name parent contract key forwarders =>
      obtain ⟨generated, generator, hgenerate, rfl⟩ := exists_of_stackRole hnext
      obtain ⟨hforwarders, hstyle⟩ := Generator.forwarders_of_generate h.style hgenerate
      exact h.push hforwarders hstyle
  | markerLayer =>
      obtain rfl := Except.ok.inj hnext
      exact h.push rfl h.style

theorem restackAll (h : stacking.Delegated) {layers : List HandleClass}
    (hnext : stacking.restackAll layers = .ok next) : next.Delegated := by
  induction layers generalizing stacking with
  | nil =>
      obtain rfl := Except.ok.inj hnext
      exact h
  | cons layer rest ih =>
      obtain ⟨middle, hmiddle, hrest⟩ := exists_of_bind_eq_ok hnext
      exact ih (h.restack hmiddle) hrest

end Delegated

end Stacking

theorem Operation.delegated_of_plan {operation : Operation} {strict : Bool}
    {reservation : Reservation} {current : HandleClass} {plan : Plan}
    (hstyle : operation.generator.style = .delegating)
    (h : operation.plan strict reservation current = .ok plan) {level : HandleClass}
    (hmade : level ∈ plan.made) : level.ownForwarders = level.delegatedForwarders := by
  obtain ⟨base, layers, stacking, hstacking, rfl⟩ := exists_restackAll_of_plan h
  exact ((Stacking.Delegated.start base hstyle reservation).restackAll hstacking).made level hmade

theorem HandleClass.findForwarder?_of_delegated (name : String) (parent : HandleClass)
    {contract : Contract} {key : Key} {forwarders : ForwarderTable}
    (h : forwarders = contract.forwarders key) {operation : String}
    (hlisted : operation ∈ contract.operationNames) :
    ∃ signature, contract.find? operation = some signature ∧
      (roleLayer name parent contract key forwarders).findForwarder? operation =
        some (Generator.forwarderOf contract key signature) := by
  obtain ⟨signature, hmem, rfl⟩ := List.mem_map.mp hlisted
  obtain ⟨found, hfound⟩ : ∃ found, contract.find? signature.name = some found := by
    rw [← Option.isSome_iff_exists, Contract.find?, List.find?_isSome]
    exact ⟨signature, hmem, decide_eq_true rfl⟩
  refine ⟨found, hfound, ?_⟩
  rw [findForwarder?_roleLayer, h, Contract.get?_forwarders, hfound]
  rfl

/-- The default generator stands by what it was prepared for last. It has one forwarder for each
operation of the contract, in order, or refuses the first operation whose name came before, and an
engine's role layer made with it forwards what its contract lists as the contract has it. -/
theorem default_forwarders_follow_contract :
    Generator.default.generate = .error .notPrepared ∧
    (∀ (calls : List (Contract × Key)) (contract : Contract) (key : Key),
      calls.getLast? = some (contract, key) →
      let generator := Generator.default.prepareAll calls
      ((∃ table next, generator.generate = .ok (table, next)) ↔ contract.operationNames.Nodup) ∧
      (contract.operationNames.Nodup → generator.generate =
        .ok (⟨contract.operations.map fun signature => (signature.name,
          { contract := contract.name
            operation := signature.name
            arity := signature.parameters.length
            key := key })⟩, generator)) ∧
      (¬contract.operationNames.Nodup → ∃ front signature rest,
        contract.operations = front ++ signature :: rest ∧ (front.map Signature.name).Nodup ∧
          signature.name ∈ front.map Signature.name ∧
          generator.generate = .error (.duplicateOperation contract.name signature.name))) ∧
    (∀ (operation : Operation) (strict : Bool) (reservation : Reservation) (current : HandleClass)
      (plan : Plan), operation.generator.style = .delegating →
      operation.plan strict reservation current = .ok plan →
      ∀ name parent contract key forwarders,
        .roleLayer name parent contract key forwarders ∈ plan.made →
        ∀ wanted ∈ contract.operationNames, ∃ signature, contract.find? wanted = some signature ∧
          (HandleClass.roleLayer name parent contract key forwarders).findForwarder? wanted =
            some { contract := contract.name
                   operation := wanted
                   arity := signature.parameters.length
                   key := key }) := by
  refine ⟨rfl, ?_, ?_⟩
  · intro calls contract key hlast generator
    have hprepared : generator = Generator.default.prepare contract key := by
      simp only [generator, Generator.prepareAll_default, hlast]
      rfl
    have hdistinct := Generator.generate_of_nodup contract key Generator.default rfl
    have hrepeated := Generator.generate_of_not_nodup contract key Generator.default rfl
    rw [hprepared]
    refine ⟨⟨?_, fun hnodup => ⟨_, _, hdistinct hnodup⟩⟩, hdistinct, hrepeated⟩
    rintro ⟨table, next, hgenerate⟩
    by_contra hnodup
    obtain ⟨front, signature, rest, -, -, -, herror⟩ := hrepeated hnodup
    rw [hgenerate] at herror
    cases herror
  · intro operation strict reservation current plan hstyle hplan name parent contract key forwarders
      hmade wanted hlisted
    have hforwarders : forwarders = contract.forwarders key :=
      Operation.delegated_of_plan hstyle hplan hmade
    obtain ⟨signature, hfind, hforwarder⟩ :=
      HandleClass.findForwarder?_of_delegated name parent hforwarders hlisted
    refine ⟨signature, hfind, hforwarder.trans ?_⟩
    rw [← Contract.name_of_find? hfind]
    rfl

section Repeats

/-- A contract that lists one operation twice, with another in between. -/
def echoing : Contract :=
  ⟨"IEcho", [⟨"echo", [], .null⟩, ⟨"shout", [], .null⟩, ⟨"echo", [⟨"text", .string⟩], .null⟩]⟩

/-- Prepared for an auditor last, and for the repeating contract last; and an administrator's layer
that the removal of an auditor's makes anew. -/
theorem default_forwarders_follow_contract_restacked :
    (∃ table next, (Generator.default.prepareAll
        [(echoing, .ofContract "IEcho"), (Role.auditing, .ofContract "IAuditor")]).generate =
          .ok (table, next) ∧ table.keys = ["record", "auditCount"]) ∧
    (∃ front signature rest, echoing.operations = front ++ signature :: rest ∧
      signature.name ∈ front.map Signature.name ∧
      (Generator.default.prepareAll
        [(Role.auditing, .ofContract "IAuditor"), (echoing, .ofContract "IEcho")]).generate =
          .error (.duplicateOperation "IEcho" signature.name)) ∧
    ∃ plan name parent forwarders,
      Engine.releaseAuditor.plan false (Namer.start ⟨1⟩).reserve Engine.relabelled = .ok plan ∧
      .roleLayer name parent Role.administration (.ofContract "IAdmin") forwarders ∈ plan.made ∧
      (HandleClass.roleLayer name parent Role.administration (.ofContract "IAdmin")
        forwarders).findForwarder? "createDatabase" =
          some ⟨"IAdmin", "createDatabase", 1, .ofContract "IAdmin"⟩ := by
  obtain ⟨-, hcalls, hlayers⟩ := default_forwarders_follow_contract
  refine ⟨?_, ?_, ?_⟩
  · obtain ⟨-, hdistinct, -⟩ := hcalls
      [(echoing, .ofContract "IEcho"), (Role.auditing, .ofContract "IAuditor")] _ _ rfl
    exact ⟨_, _, hdistinct (by decide), rfl⟩
  · obtain ⟨-, -, hrepeated⟩ := hcalls
      [(Role.auditing, .ofContract "IAuditor"), (echoing, .ofContract "IEcho")] _ _ rfl
    obtain ⟨front, signature, rest, hoperations, -, hrepeat, hgenerate⟩ := hrepeated (by decide)
    exact ⟨front, signature, rest, hoperations, hrepeat, hgenerate⟩
  · obtain ⟨plan, hplan, name, parent, forwarders, hmade⟩ : ∃ plan,
        Engine.releaseAuditor.plan false (Namer.start ⟨1⟩).reserve Engine.relabelled = .ok plan ∧
          ∃ name parent forwarders, .roleLayer name parent Role.administration
            (.ofContract "IAdmin") forwarders ∈ plan.made := ⟨_, rfl, _, _, _, List.mem_cons_self⟩
    obtain ⟨signature, hfind, hforwarder⟩ := hlayers Engine.releaseAuditor false _ _ plan rfl hplan
      name parent _ _ forwarders hmade "createDatabase" (by decide)
    obtain rfl : _ = signature := Option.some.inj hfind
    exact ⟨plan, name, parent, forwarders, hplan, hmade, hforwarder⟩

end Repeats

end RoleStack

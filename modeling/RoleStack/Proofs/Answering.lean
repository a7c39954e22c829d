import RoleStack.Proofs.Bindings
import RoleStack.Session.Basic
import Mathlib.Data.List.Nodup

/-!
# Which role answers

On a handle that compositions led to, an operation is answered by the role of the topmost layer
whose contract lists it. So a new layer answers for what its contract lists and for nothing else,
markers make no difference, and after a removal the layers that are left answer as they would have
before.
-/

namespace RoleStack

/-! ### The layer that answers -/

/-- The contract of the layer, with what it says of the operation. -/
def Layer.offer? (operation : String) : Layer → Option (Contract × Signature)
  | .role contract => (contract.find? operation).map fun signature => (contract, signature)
  | .marker _ => none

/-- The offer of the topmost layer that has one. -/
def topOffer? (operation : String) (layers : List Layer) : Option (Contract × Signature) :=
  layers.reverse.findSome? (Layer.offer? operation)

section Offers

variable {operation : String} {layers : List Layer} {contract : Contract} {signature : Signature}

theorem topOffer?_concat (layer : Layer) :
    topOffer? operation (layers ++ [layer]) =
      (layer.offer? operation).or (topOffer? operation layers) := by
  rw [topOffer?, List.reverse_append, List.reverse_singleton, List.singleton_append,
    List.findSome?_cons]
  cases layer.offer? operation with
  | none => rfl
  | some offer => rfl

theorem Layer.offer?_eq_some_iff {layer : Layer} :
    layer.offer? operation = some (contract, signature) ↔
      layer = .role contract ∧ contract.find? operation = some signature := by
  cases layer with
  | role offered =>
      simp only [offer?, Option.map_eq_some_iff, Prod.mk.injEq, role.injEq]
      constructor
      · rintro ⟨_, hfind, rfl, rfl⟩
        exact ⟨rfl, hfind⟩
      · rintro ⟨rfl, hfind⟩
        exact ⟨_, hfind, rfl, rfl⟩
  | marker => simp [offer?]

theorem mem_of_topOffer? (h : topOffer? operation layers = some (contract, signature)) :
    .role contract ∈ layers ∧ contract.find? operation = some signature := by
  obtain ⟨layer, hmem, hoffer⟩ := List.exists_of_findSome?_eq_some h
  obtain ⟨rfl, hfind⟩ := Layer.offer?_eq_some_iff.mp hoffer
  exact ⟨List.mem_reverse.mp hmem, hfind⟩

theorem Contract.name_of_find? (h : contract.find? operation = some signature) :
    signature.name = operation := by
  simpa using List.find?_some h

theorem Contract.find?_of_mem (distinct : contract.operationNames.Nodup)
    (h : signature ∈ contract.operations) : contract.find? signature.name = some signature :=
  Table.find?_of_nodup_map distinct h

theorem Contract.find?_of_notMem (h : operation ∉ contract.operationNames) :
    contract.find? operation = none := by
  refine List.find?_eq_none.mpr fun signature hmem => ?_
  rw [decide_eq_true_eq]
  rintro rfl
  exact h (List.mem_map_of_mem hmem)

/-- Leaving other layers out does not change which one answers. -/
theorem findSome?_offer?_of_sublist {kept : List Layer} (hkept : kept.Sublist layers)
    (distinct : layers.Nodup) (hmem : .role contract ∈ kept)
    (h : layers.findSome? (Layer.offer? operation) = some (contract, signature)) :
    kept.findSome? (Layer.offer? operation) = some (contract, signature) := by
  have hoffered : (Layer.role contract).offer? operation = some (contract, signature) := by
    obtain ⟨layer, -, hoffer⟩ := List.exists_of_findSome?_eq_some h
    exact Layer.offer?_eq_some_iff.mpr ⟨rfl, (Layer.offer?_eq_some_iff.mp hoffer).2⟩
  induction hkept with
  | slnil => cases hmem
  | @cons kept rest layer hkept ih =>
      obtain ⟨hnew, distinct⟩ := List.nodup_cons.mp distinct
      rw [List.findSome?_cons] at h
      split at h
      -- The layer that answered is the one left out, so it cannot be kept elsewhere.
      · rename_i hoffer
        obtain rfl := Option.some.inj h
        obtain ⟨rfl, -⟩ := Layer.offer?_eq_some_iff.mp hoffer
        exact absurd (hkept.subset hmem) hnew
      · exact ih distinct hmem h
  | @cons_cons kept rest layer hkept ih =>
      obtain ⟨-, distinct⟩ := List.nodup_cons.mp distinct
      rw [List.findSome?_cons] at h ⊢
      split at h
      · exact h
      · rename_i hoffer
        rcases List.mem_cons.mp hmem with rfl | hmem
        · rw [hoffered] at hoffer
          cases hoffer
        · exact ih distinct hmem h

theorem topOffer?_of_sublist {kept : List Layer} (hkept : kept.Sublist layers)
    (distinct : layers.Nodup) (hmem : .role contract ∈ kept)
    (h : topOffer? operation layers = some (contract, signature)) :
    topOffer? operation kept = some (contract, signature) :=
  findSome?_offer?_of_sublist hkept.reverse (List.nodup_reverse.mpr distinct)
    (List.mem_reverse.mpr hmem) h

theorem topOffer?_eq_none_of_sublist {kept : List Layer} (hkept : kept.Sublist layers)
    (h : topOffer? operation layers = none) : topOffer? operation kept = none := by
  rw [topOffer?, List.findSome?_eq_none_iff] at h ⊢
  exact fun layer hmem => h layer (hkept.reverse.subset hmem)

end Offers

theorem Contract.get?_forwarders (contract : Contract) (key : Key) (operation : String) :
    (contract.forwarders key).get? operation =
      (contract.find? operation).map (Generator.forwarderOf contract key) :=
  Table.lookupEntry_map_eq_find? Signature.name _ contract.operations operation

namespace HandleClass

variable {handleClass : HandleClass}

theorem findForwarder?_roleLayer (name : String) (parent : HandleClass) (contract : Contract)
    (key : Key) (forwarders : ForwarderTable) (operation : String) :
    (roleLayer name parent contract key forwarders).findForwarder? operation =
      (forwarders.get? operation).or (parent.findForwarder? operation) := by
  rw [findForwarder?, levels, List.findSome?_cons, ownForwarders]
  cases forwarders.get? operation with
  | none => rfl
  | some forwarder => rfl

theorem nodup_layers_concat {layers : List Layer} {layer : Layer} {matching : Layer → Bool}
    (distinct : layers.Nodup) (hlayer : matching layer = true)
    (hnew : layers.any matching = false) : (layers ++ [layer]).Nodup := by
  rw [← List.concat_eq_append, List.nodup_concat]
  exact ⟨fun hmem => List.any_eq_false.mp hnew layer hmem hlayer, distinct⟩

theorem Regular.nodup_layers (h : handleClass.Regular) : handleClass.layers.Nodup := by
  induction h with
  | base => exact List.nodup_nil
  | roleLayer name regular absent distinct ih =>
      exact nodup_layers_concat ih (decide_eq_true rfl) (any_layers_of_implements_eq_false absent)
  | markerLayer name regular absent ih =>
      exact nodup_layers_concat ih (decide_eq_true rfl) (any_layers_of_hasMarker_eq_false absent)

theorem Regular.findForwarder?_eq (h : handleClass.Regular) (operation : String) :
    handleClass.findForwarder? operation =
      (topOffer? operation handleClass.layers).map fun offer =>
        Generator.forwarderOf offer.1 (.ofContract offer.1.name) offer.2 := by
  induction h with
  | base => rfl
  | @roleLayer name parent contract regular absent distinct ih =>
      rw [findForwarder?_roleLayer, Contract.get?_forwarders, ih, layers, topOffer?_concat,
        Layer.offer?]
      cases contract.find? operation with
      | none => rfl
      | some signature => rfl
  | @markerLayer name parent marker regular absent ih =>
      rw [layers, topOffer?_concat, Layer.offer?, Option.none_or, ← ih]
      rfl

end HandleClass

/-! ### Calls on a handle -/

namespace Handle

/-- Calls of the operation go to the role, once the arguments are as many as the signature says. -/
def Forwards (handle : Handle) (signature : Signature) (role : RoleRef) : Prop :=
  ∀ (session : Session) (shared : SharedHandle) (arguments : List Json),
    session.read shared = handle →
      session.invoke shared signature.name arguments =
        if arguments.length = signature.arity then
          let (answer, session) := session.callRole role signature.name arguments
          (answer.mapError HandleError.role, session)
        else
          (.error (.arityMismatch signature.name signature.arity arguments.length), session)

/-- Calls of the operation reach no role. -/
def Lacks (handle : Handle) (operation : String) : Prop :=
  ∀ (session : Session) (shared : SharedHandle) (arguments : List Json),
    session.read shared = handle →
      session.invoke shared operation arguments =
        (.error (.unknownOperation handle.className operation), session)

/-- Calls of the operation come to the same on both, but for the class that an unknown operation
names. -/
def AnswersAs (handle other : Handle) (operation : String) : Prop :=
  (handle.Lacks operation ∧ other.Lacks operation) ∨
    ∃ signature role, signature.name = operation ∧ handle.Forwards signature role ∧
      other.Forwards signature role

variable {handle next : Handle} {changes : List (ChangeKind × RoleRef)} {operation : String}
  {contract : Contract} {signature : Signature}

theorem Accounted.lacks (h : handle.Accounted changes)
    (hoffer : topOffer? operation handle.handleClass.layers = none) : handle.Lacks operation := by
  rintro session shared arguments rfl
  rw [Session.invoke, dispatch, h.regular.findForwarder?_eq, hoffer]
  rfl

theorem Accounted.dispatch_of_topOffer? (h : handle.Accounted changes)
    (hoffer : topOffer? operation handle.handleClass.layers = some (contract, signature))
    {role : RoleRef} (hrole : introducer contract.name changes = some role) (argumentCount : Nat) :
    handle.dispatch operation argumentCount =
      if argumentCount = signature.arity then .ok (role, signature.name)
      else .error (.arityMismatch signature.name signature.arity argumentCount) := by
  obtain ⟨bound, hbound, hget⟩ := h.introduced contract (mem_of_topOffer? hoffer).1
  obtain rfl : role = bound := Option.some.inj (hrole.symm.trans hbound)
  rw [dispatch, h.regular.findForwarder?_eq, hoffer]
  simp only [Option.map_some, Generator.forwarderOf, hget]

theorem Accounted.forwards (h : handle.Accounted changes)
    (hoffer : topOffer? operation handle.handleClass.layers = some (contract, signature))
    {role : RoleRef} (hrole : introducer contract.name changes = some role) :
    handle.Forwards signature role := by
  rintro session shared arguments rfl
  obtain rfl := Contract.name_of_find? (mem_of_topOffer? hoffer).2
  rw [Session.invoke, h.dispatch_of_topOffer? hoffer hrole]
  by_cases hcount : arguments.length = signature.arity
  · rw [if_pos hcount, if_pos hcount]
  · rw [if_neg hcount, if_neg hcount]

theorem Accounted.exists_introducer (h : handle.Accounted changes)
    (hoffer : topOffer? operation handle.handleClass.layers = some (contract, signature)) :
    ∃ role, introducer contract.name changes = some role := by
  obtain ⟨role, hrole, -⟩ := h.introduced contract (mem_of_topOffer? hoffer).1
  exact ⟨role, hrole⟩

/-- Calls come to the same where the same layer answers and still has its role. -/
theorem Accounted.answersAs {later : List (ChangeKind × RoleRef)} (h : handle.Accounted changes)
    (hnext : next.Accounted later)
    (hoffer : topOffer? operation next.handleClass.layers =
      topOffer? operation handle.handleClass.layers)
    (hrole : ∀ contract, .role contract ∈ handle.handleClass.layers →
      introducer contract.name later = introducer contract.name changes) :
    handle.AnswersAs next operation := by
  cases htop : topOffer? operation handle.handleClass.layers with
  | none => exact .inl ⟨h.lacks htop, hnext.lacks (hoffer.trans htop)⟩
  | some offer =>
      obtain ⟨contract, signature⟩ := offer
      obtain ⟨hmem, hfind⟩ := mem_of_topOffer? htop
      obtain ⟨role, hintroduced⟩ := h.exists_introducer htop
      exact .inr ⟨signature, role, Contract.name_of_find? hfind, h.forwards htop hintroduced,
        hnext.forwards (hoffer.trans htop) ((hrole contract hmem).trans hintroduced)⟩

end Handle

/-! ### What a change does to the answers -/

section Changes

variable {handle next : Handle} {changes : List (ChangeKind × RoleRef)} {strict : Bool}
  {kind : ChangeKind} {role : RoleRef}

theorem introducer_of_introduces_eq_none (h : kind.introduces role = none) (contract : String) :
    introducer contract ((kind, role) :: changes) = introducer contract changes := by
  rw [introducer, h, if_neg (by simp)]

namespace Handle.Accounted

theorem answers_assumed (h : handle.Accounted changes)
    (hnext : next.Accounted ((.assume, role) :: changes))
    (hchange : handle.handleClass.stack.change strict .assume role =
      .ok next.handleClass.stack) :
    ∃ contract, role.contract = some contract ∧
      (∀ signature ∈ contract.operations, next.Forwards signature role) ∧
      ∀ name ∉ contract.operationNames, handle.AnswersAs next name := by
  obtain ⟨contract, hcontract, habsent, hdistinct, hstack⟩ :=
    LayerStack.exists_of_change_assume hchange
  have hlayers : next.handleClass.layers = handle.handleClass.layers ++ [.role contract] :=
    congrArg LayerStack.layers hstack
  refine ⟨contract, hcontract, ?_, ?_⟩
  · intro signature hsignature
    have htop : topOffer? signature.name next.handleClass.layers = some (contract, signature) := by
      rw [hlayers, topOffer?_concat, Layer.offer?, Contract.find?_of_mem hdistinct hsignature]
      rfl
    refine hnext.forwards htop ?_
    rw [introducer, if_pos (by simp [ChangeKind.introduces, hcontract])]
  · intro name hname
    have htop : topOffer? name next.handleClass.layers =
        topOffer? name handle.handleClass.layers := by
      rw [hlayers, topOffer?_concat, Layer.offer?, Contract.find?_of_notMem hname]
      rfl
    refine h.answersAs hnext htop fun lower hlower => ?_
    have hother : contract.name ≠ lower.name := by
      intro hsame
      rw [LayerStack.implements, Bool.or_eq_false_iff, List.any_eq_false] at habsent
      exact habsent.2 _ hlower (decide_eq_true hsame.symm)
    rw [introducer, if_neg (by simp [ChangeKind.introduces, hcontract, hother])]

theorem answersAs_shown (h : handle.Accounted changes)
    (hnext : next.Accounted ((.showMarker, role) :: changes))
    (hchange : handle.handleClass.stack.change strict .showMarker role =
      .ok next.handleClass.stack) (name : String) : handle.AnswersAs next name := by
  obtain ⟨marker, -, hstack⟩ := LayerStack.exists_of_change_showMarker hchange
  have hlayers : next.handleClass.layers = handle.handleClass.layers ++ [.marker marker] :=
    congrArg LayerStack.layers hstack
  refine h.answersAs hnext ?_ fun contract _ => introducer_of_introduces_eq_none rfl contract.name
  rw [hlayers, topOffer?_concat]
  rfl

/-- Where the layer that answered is kept, it still answers. -/
theorem answersAs_kept (h : handle.Accounted changes)
    (hnext : next.Accounted ((kind, role) :: changes)) (hintroduces : kind.introduces role = none)
    (hkept : next.handleClass.layers.Sublist handle.handleClass.layers) {name : String}
    (hsurvives : ∀ contract signature,
      topOffer? name handle.handleClass.layers = some (contract, signature) →
        .role contract ∈ next.handleClass.layers) : handle.AnswersAs next name := by
  refine h.answersAs hnext ?_ fun contract _ =>
    introducer_of_introduces_eq_none hintroduces contract.name
  cases htop : topOffer? name handle.handleClass.layers with
  | none => exact topOffer?_eq_none_of_sublist hkept htop
  | some offer =>
      exact topOffer?_of_sublist hkept h.regular.nodup_layers (hsurvives _ _ htop) htop

theorem answersAs_hidden (h : handle.Accounted changes)
    (hnext : next.Accounted ((.hideMarker, role) :: changes))
    (hchange : handle.handleClass.stack.change strict .hideMarker role =
      .ok next.handleClass.stack) (name : String) : handle.AnswersAs next name := by
  have hkept : next.handleClass.layers.Sublist handle.handleClass.layers :=
    LayerStack.layers_sublist_of_change hchange (by decide) (by decide)
  refine h.answersAs_kept hnext rfl hkept fun contract signature htop => ?_
  exact LayerStack.role_mem_of_change_hideMarker hchange (mem_of_topOffer? htop).1

end Handle.Accounted

end Changes

namespace Handle

/-- What a change does to the answers of a handle. A role that is assumed answers for its contract
and for nothing else, markers change no answer, and after a removal the topmost layer that is left
answers, as before if it answered before. -/
theorem forwarding_of_compose {handle next : Handle} {changes : List (ChangeKind × RoleRef)}
    (lineage : handle.Lineage changes) {engine : Engine} {registry : Registry}
    {sequence : Sequence} {read : SharedHandle → Handle} {agent : AgentId} {operation : Operation}
    (htarget : read operation.target = handle)
    (hgenerator : operation.generator = Generator.default)
    (hresult : (engine.compose registry sequence read agent operation).result = .ok next) :
    (operation.kind = .assume → ∃ contract, operation.role.contract = some contract ∧
      (∀ signature ∈ contract.operations, next.Forwards signature operation.role) ∧
      ∀ name ∉ contract.operationNames, handle.AnswersAs next name) ∧
    (operation.kind = .showMarker ∨ operation.kind = .hideMarker →
      ∀ name, handle.AnswersAs next name) ∧
    (operation.kind = .release ∨ operation.kind = .releaseUntil →
      handle.handleClass.stack.change engine.config.strictRemoveUntil operation.kind
          operation.role = .ok next.handleClass.stack ∧
      next.handleClass.layers.Sublist handle.handleClass.layers ∧
      (∀ name, topOffer? name next.handleClass.layers = none → next.Lacks name) ∧
      (∀ name contract signature,
        topOffer? name next.handleClass.layers = some (contract, signature) →
          ∃ role, introducer contract.name changes = some role ∧ next.Forwards signature role) ∧
      ∀ name contract signature,
        topOffer? name handle.handleClass.layers = some (contract, signature) →
          .role contract ∈ next.handleClass.layers → handle.AnswersAs next name) := by
  have h := lineage.accounted
  have hnext := (lineage.change engine registry sequence read agent operation htarget hgenerator
    hresult).accounted
  have hchange : handle.handleClass.stack.change engine.config.strictRemoveUntil operation.kind
      operation.role = .ok next.handleClass.stack := by
    subst htarget
    obtain ⟨stack, hchange, -, -, hstack, -⟩ :=
      Engine.exists_change_of_compose_ok h.regular (Engine.result_kind hgenerator hresult)
    rw [hstack, hchange]
  refine ⟨?_, ?_, ?_⟩
  · intro hkind
    rw [hkind] at hnext hchange
    exact h.answers_assumed hnext hchange
  · rintro (hkind | hkind) name
    · rw [hkind] at hnext hchange
      exact h.answersAs_shown hnext hchange name
    · rw [hkind] at hnext hchange
      exact h.answersAs_hidden hnext hchange name
  · intro hkind
    have hintroduces : operation.kind.introduces operation.role = none := by
      rcases hkind with hkind | hkind <;> rw [hkind] <;> rfl
    have hkept : next.handleClass.layers.Sublist handle.handleClass.layers :=
      LayerStack.layers_sublist_of_change hchange (by rintro heq; simp [heq] at hkind)
        (by rintro heq; simp [heq] at hkind)
    refine ⟨hchange, hkept, fun name => hnext.lacks, ?_, ?_⟩
    · intro name contract signature htop
      obtain ⟨role, hrole⟩ := hnext.exists_introducer htop
      refine ⟨role, ?_, hnext.forwards htop hrole⟩
      rw [← hrole, introducer_of_introduces_eq_none hintroduces]
    · intro name contract signature htop hmem
      refine h.answersAs_kept hnext hintroduces hkept fun other otherSignature hother => ?_
      obtain ⟨rfl, rfl⟩ := Prod.mk.inj (Option.some.inj (htop.symm.trans hother))
      exact hmem

/-- A second role takes an operation over from the first, and gives it back when it is released. -/
theorem forwarding_of_compose_unshadowed :
    let auditor := (Role.auditor []).reference ⟨0⟩
    let journal : Contract := ⟨"IJournal", [⟨"record", [], .null⟩]⟩
    let journalist : RoleRef := ⟨⟨1⟩, "journalist", some journal, none⟩
    ∃ first second third : Handle,
      first.Lineage [(.assume, auditor)] ∧
        second.Lineage [(.assume, journalist), (.assume, auditor)] ∧
        third.Lineage [(.release, journalist), (.assume, journalist), (.assume, auditor)] ∧
        first.AnswersAs second "auditCount" ∧
        second.Forwards ⟨"record", [], .null⟩ journalist ∧
        third.Forwards ⟨"record", [⟨"entry", .string⟩], .integer⟩ auditor := by
  intro auditor journal journalist
  have hfresh := Lineage.fresh ⟨1⟩ "DBProxy" Table.empty [] none
  have hcopyable : (blank ⟨1⟩ (.base "DBProxy" Table.empty [] none)).Copyable :=
    copyable_blank (HandleClass.copiesExtension_of_none rfl) _
  have hassume : LayerStack.change ⟨[], []⟩ false .assume auditor =
      .ok ⟨[], [.role Role.auditing]⟩ := by decide
  obtain ⟨first, hfirst, hcopyable, hstack⟩ := hfresh.exists_change hcopyable hassume
  have hassume : first.handleClass.stack.change false .assume journalist =
      .ok ⟨[], [.role Role.auditing, .role journal]⟩ := by
    rw [hstack]
    decide
  obtain ⟨engine, target, second, hresult, hsecond, hcopyable, hstack⟩ :=
    hfirst.exists_compose hcopyable hassume
  obtain ⟨_, hoffered, hrecord, hothers⟩ :=
    (forwarding_of_compose hfirst rfl rfl hresult).1 rfl
  obtain rfl := Option.some.inj hoffered
  have hrelease : second.handleClass.stack.change false .release journalist =
      .ok ⟨[], [.role Role.auditing]⟩ := by
    rw [hstack]
    decide
  obtain ⟨engine, target, third, hresult, hthird, -, hstack⟩ :=
    hsecond.exists_compose hcopyable hrelease
  obtain ⟨-, -, -, hanswers, -⟩ :=
    (forwarding_of_compose hsecond rfl rfl hresult).2.2 (.inl rfl)
  have hlayers : third.handleClass.layers = [.role Role.auditing] :=
    congrArg LayerStack.layers hstack
  obtain ⟨role, hrole, hforwards⟩ := hanswers "record" Role.auditing
    ⟨"record", [⟨"entry", .string⟩], .integer⟩ (by rw [hlayers]; decide)
  obtain rfl : auditor = role := Option.some.inj hrole
  exact ⟨first, second, third, hfirst, hsecond, hthird,
    hothers "auditCount" (by decide), hrecord _ (List.mem_singleton_self _), hforwards⟩

end Handle

end RoleStack

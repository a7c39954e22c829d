import RoleStack.HandleClass.Samples
import RoleStack.Proofs.SessionComposing

/-!
# Handles as stacks of layers

A run makes fresh handles of one base class and changes handles that it obtained before. Served by a
workshop, it answers as a list of stacks does on which the same changes are made: an attempt fails
where the change of the stack is refused, for the same kind of cause, and else gives a handle with the
changed stack.
-/

namespace RoleStack

inductive Request where
  | fresh
  /-- A change of the handle that was obtained in this place of the run. -/
  | change (kind : ChangeKind) (place : Nat) (role : RoleRef) (agent : AgentId)

/-- The stack that a request ended with, or the kind of cause that it failed for. -/
abbrev StackAnswer := Except (Option Refusal) LayerStack

/-! ### Runs over stacks -/

namespace LayerStack

/-- A change of a stack that was not obtained is not answered. -/
def serve (strict : Bool) (contracts : List String) (shown : List LayerStack) :
    Request → Option StackAnswer × List LayerStack
  | .fresh => (some (.ok ⟨contracts, []⟩), shown ++ [⟨contracts, []⟩])
  | .change kind place role _ =>
      match shown[place]? with
      | none => (none, shown)
      | some stack =>
          match stack.change strict kind role with
          | .error refusal => (some (.error (some refusal)), shown)
          | .ok next => (some (.ok next), shown ++ [next])

def serveAll (strict : Bool) (contracts : List String) (shown : List LayerStack) :
    List Request → List (Option StackAnswer) × List LayerStack
  | [] => ([], shown)
  | request :: rest =>
      let (answer, shown) := serve strict contracts shown request
      let (answers, shown) := serveAll strict contracts shown rest
      (answer :: answers, shown)

end LayerStack

/-! ### Runs over handles -/

def Request.order (workshop : Ref Workshop) (base : HandleClass) : Request → Order
  | .fresh => .instantiate base
  | .change kind place role agent =>
      .compose workshop place agent (kind.operation ⟨⟨0⟩, ⟨0⟩⟩ role)

namespace Run

def stackOf (session : Session) (shared : SharedHandle) : LayerStack :=
  (session.read shared).handleClass.stack

def answer (session : Session) : Except CompositionError SharedHandle → StackAnswer
  | .error error => .error (error.cause?.bind CompositionCause.refusal?)
  | .ok shared => .ok (stackOf session shared)

def serve (workshop : Ref Workshop) (base : HandleClass) (run : Run) (request : Request) :
    Option StackAnswer × Run :=
  let (result, run) := run.fulfil (request.order workshop base)
  (result.map (answer run.session), run)

def serveAll (workshop : Ref Workshop) (base : HandleClass) (run : Run) :
    List Request → List (Option StackAnswer) × Run
  | [] => ([], run)
  | request :: rest =>
      let (answer, run) := run.serve workshop base request
      let (answers, run) := run.serveAll workshop base rest
      (answer :: answers, run)

/-- The handle can be changed like its stack. -/
structure Shows (session : Session) (shared : SharedHandle) (stack : LayerStack) : Prop where
  regular : (session.read shared).handleClass.Regular
  copyable : (session.read shared).Copyable
  stack : stackOf session shared = stack
  present : (session.handles.get? shared.cell).isSome

/-- The workshop can serve the run, whose handles show these stacks in turn. -/
structure Follows (run : Run) (workshop : Ref Workshop) (strict : Bool)
    (shown : List LayerStack) : Prop where
  ahead : ∃ found, run.session.workshops.get? workshop = some found ∧
    found.engine.config.strictRemoveUntil = strict ∧
    found.engine.namer.AheadOf (run.session.registry found.registry)
  shows : List.Forall₂ (Shows run.session) run.obtained shown

section Steps

variable {session later : Session} {shared : SharedHandle} {stack : LayerStack}

theorem shows_of_get? {handle : Handle} (h : session.handles.get? shared.cell = some handle)
    (regular : handle.handleClass.Regular) (copyable : handle.Copyable)
    (hstack : handle.handleClass.stack = stack) : Shows session shared stack := by
  have hread := Session.read_of_get? h
  refine ⟨?_, ?_, ?_, ?_⟩
  · rw [hread]
    exact regular
  · rw [hread]
    exact copyable
  · rw [stackOf, hread]
    exact hstack
  · rw [h]
    rfl

theorem Shows.mono (h : Shows session shared stack)
    (hkept : ∀ cell handle, session.handles.get? cell = some handle →
      later.handles.get? cell = some handle) : Shows later shared stack := by
  obtain ⟨handle, hhandle⟩ := Option.isSome_iff_exists.mp h.present
  have hread := Session.read_of_get? hhandle
  apply shows_of_get? (hkept _ _ hhandle)
  · rw [← hread]
    exact h.regular
  · rw [← hread]
    exact h.copyable
  · rw [← hread]
    exact h.stack

theorem shows_instantiate (session : Session) (name : String) (layout : Table String Json)
    (contracts : List String) (extension : Option Extension)
    (hcopies : (HandleClass.base name layout contracts extension).CopiesExtension) :
    let instantiated := session.instantiate (.base name layout contracts extension)
    let made := instantiated.2.share instantiated.1
    Shows made.2 made.1 ⟨contracts, []⟩ :=
  shows_of_get? (Pool.get?_add_next _ _) (.base name layout contracts extension)
    (Handle.copyable_blank hcopies _) rfl

variable {workshop : Ref Workshop} {found : Workshop} {kind : ChangeKind} {role : RoleRef}
  {next : LayerStack} {refusal : Refusal}

/-- An admitted change gives a new handle that shows the changed stack. -/
theorem exists_compose_of_change (hworkshop : session.workshops.get? workshop = some found)
    (hahead : found.engine.namer.AheadOf (session.registry found.registry))
    (hshows : Shows session shared stack)
    (hchange : stack.change found.engine.config.strictRemoveUntil kind role = .ok next)
    (agent : AgentId) :
    ∃ made, (session.compose workshop agent (kind.operation shared role)).1 = .ok made ∧
      Shows (session.compose workshop agent (kind.operation shared role)).2.2 made next := by
  have hstack : (session.read shared).handleClass.stack = stack := hshows.stack
  rw [← hstack] at hchange
  obtain ⟨handle, hresult⟩ : ∃ handle,
      (session.composition found agent (kind.operation shared role)).result = .ok handle :=
    Engine.exists_compose_of_change hshows.regular (hshows.copyable 1) hahead hchange
  obtain ⟨reached, hreached, hregular, -, hnext, -⟩ :=
    Engine.exists_change_of_compose_ok hshows.regular hresult
  obtain rfl : next = reached := Except.ok.inj (hchange.symm.trans hreached)
  have hcopyable := Engine.copyable_of_compose_ok hshows.regular hshows.copyable hresult
  obtain ⟨board, hcompose⟩ := Session.compose_eq hworkshop agent (kind.operation shared role)
  rw [hcompose, hresult]
  exact ⟨_, rfl, shows_of_get? (Pool.get?_add_next _ _) hregular hcopyable hnext⟩

theorem compose_eq_error_of_change (hworkshop : session.workshops.get? workshop = some found)
    (hshows : Shows session shared stack)
    (hchange : stack.change found.engine.config.strictRemoveUntil kind role = .error refusal)
    (agent : AgentId) :
    ∃ error, (session.compose workshop agent (kind.operation shared role)).1 = .error error ∧
      error.cause?.bind CompositionCause.refusal? = some refusal := by
  have hstack : (session.read shared).handleClass.stack = stack := hshows.stack
  rw [← hstack] at hchange
  obtain ⟨error, cause, hresult, hcause, hrefusal⟩ :
      ∃ error cause,
        (session.composition found agent (kind.operation shared role)).result = .error error ∧
          error.cause? = some cause ∧ cause.refusal? = some refusal :=
    Engine.compose_eq_error_of_change hshows.regular hchange
  obtain ⟨board, hcompose⟩ := Session.compose_eq hworkshop agent (kind.operation shared role)
  rw [hcompose, hresult]
  exact ⟨error, rfl, by rw [hcause]; exact hrefusal⟩

end Steps

/-! ### The run and the stacks -/

section Following

variable {run : Run} {workshop : Ref Workshop} {strict : Bool} {contracts : List String}
  {shown : List LayerStack} (name : String) (layout : Table String Json)
  {extension : Option Extension}

theorem serve_change {base : HandleClass} {place : Nat} {target : SharedHandle}
    (h : run.obtained[place]? = some target) {kind : ChangeKind} {role : RoleRef}
    {agent : AgentId} :
    run.serve workshop base (.change kind place role agent) =
      let composed := run.session.compose workshop agent (kind.operation target role)
      (some (answer composed.2.2 composed.1),
        ⟨composed.2.2, run.obtained ++ composed.1.toOption.toList⟩) := by
  rw [Run.serve, Request.order, fulfil_compose h]
  rfl

/-- One request is answered as on the stacks, and the run goes on to follow them. -/
theorem Follows.serve (h : run.Follows workshop strict shown)
    (hcopies : (HandleClass.base name layout contracts extension).CopiesExtension)
    (request : Request) :
    (run.serve workshop (.base name layout contracts extension) request).1 =
        (LayerStack.serve strict contracts shown request).1 ∧
      (run.serve workshop (.base name layout contracts extension) request).2.Follows workshop strict
        (LayerStack.serve strict contracts shown request).2 := by
  obtain ⟨found, hworkshop, rfl, hahead⟩ := h.ahead
  cases request with
  | fresh =>
      have hshows := shows_instantiate run.session name layout contracts extension hcopies
      refine ⟨congrArg (some ∘ Except.ok) hshows.stack, ⟨found, hworkshop, rfl, hahead⟩, ?_⟩
      refine List.rel_append ?_ (List.Forall₂.cons hshows List.Forall₂.nil)
      apply h.shows.imp
      intro shared stack hold
      apply hold.mono
      intro cell handle hhandle
      exact Pool.get?_add_of_get? _ _ _ _ hhandle
  | change kind place role agent =>
      rcases forall₂_getElem? h.shows place with ⟨hobtained, hstacks⟩ | hboth
      · rw [Run.serve, Request.order, fulfil, LayerStack.serve, hobtained, hstacks]
        exact ⟨rfl, h⟩
      obtain ⟨target, stack, hobtained, hstacks, hshows⟩ := hboth
      obtain ⟨later, hlater, hconfig, hahead'⟩ := Session.exists_workshop_compose hworkshop hahead
        agent (kind.operation target role)
      have hkept : List.Forall₂
          (Shows (run.session.compose workshop agent (kind.operation target role)).2.2)
          run.obtained shown := by
        apply h.shows.imp
        intro shared stack hold
        apply hold.mono
        intro cell handle hhandle
        exact Session.get?_handles_compose hhandle workshop agent (kind.operation target role)
      rw [serve_change hobtained]
      cases hchange : stack.change found.engine.config.strictRemoveUntil kind role with
      | error refusal =>
          obtain ⟨error, hresult, hrefusal⟩ :=
            compose_eq_error_of_change hworkshop hshows hchange agent
          rw [LayerStack.serve, hstacks]
          simp only [hchange, hresult, Except.toOption, Option.toList, List.append_nil]
          exact ⟨congrArg (some ∘ Except.error) hrefusal, ⟨later, hlater, by rw [hconfig], hahead'⟩,
            hkept⟩
      | ok next =>
          obtain ⟨made, hresult, hmade⟩ :=
            exists_compose_of_change hworkshop hahead hshows hchange agent
          rw [LayerStack.serve, hstacks]
          simp only [hchange, hresult, Except.toOption, Option.toList]
          exact ⟨congrArg (some ∘ Except.ok) hmade.stack, ⟨later, hlater, by rw [hconfig], hahead'⟩,
            List.rel_append hkept (List.Forall₂.cons hmade List.Forall₂.nil)⟩

theorem Follows.serveAll (h : run.Follows workshop strict shown)
    (hcopies : (HandleClass.base name layout contracts extension).CopiesExtension)
    (requests : List Request) :
    (run.serveAll workshop (.base name layout contracts extension) requests).1 =
        (LayerStack.serveAll strict contracts shown requests).1 ∧
      (run.serveAll workshop (.base name layout contracts extension) requests).2.Follows workshop
        strict (LayerStack.serveAll strict contracts shown requests).2 := by
  -- `Follows` is the invariant; the run and the stacks that it follows go on together.
  induction requests generalizing run shown with
  | nil => exact ⟨rfl, h⟩
  | cons request rest ih =>
      obtain ⟨hanswer, hnext⟩ := h.serve name layout hcopies request
      obtain ⟨hanswers, hlast⟩ := ih hnext
      refine ⟨?_, hlast⟩
      rw [Run.serveAll, LayerStack.serveAll]
      simp only
      rw [hanswer, hanswers]

end Following

/-- A workshop whose registry is its own serves every run as the changes of stacks say: the same
requests succeed, the others fail for the same kinds of causes, and at the end every handle of the run
still shows its stack. -/
theorem serveAll_refines_stacks {session : Session} {workshop : Ref Workshop} {found : Workshop}
    (hworkshop : session.workshops.get? workshop = some found)
    (howns : found.engine.Owns (session.registry found.registry))
    (name : String) (layout : Table String Json) {contracts : List String}
    {extension : Option Extension}
    (hcopies : (HandleClass.base name layout contracts extension).CopiesExtension)
    (requests : List Request) :
    let served := (Run.mk session []).serveAll workshop (.base name layout contracts extension)
      requests
    let stacked := LayerStack.serveAll found.engine.config.strictRemoveUntil contracts [] requests
    served.1 = stacked.1 ∧ served.2.obtained.map (stackOf served.2.session) = stacked.2 := by
  intro served stacked
  have hstart : (Run.mk session []).Follows workshop found.engine.config.strictRemoveUntil [] :=
    ⟨⟨found, hworkshop, rfl, howns.aheadOf⟩, List.Forall₂.nil⟩
  obtain ⟨hanswers, hfollows⟩ := hstart.serveAll name layout hcopies requests
  refine ⟨hanswers, ?_⟩
  have hequal : List.Forall₂ (fun shared stack => stackOf served.2.session shared = stack)
      served.2.obtained stacked.2 := by
    apply hfollows.shows.imp
    intro shared stack hshows
    exact hshows.stack
  exact List.forall₂_eq_eq_eq ▸ List.forall₂_map_left_iff.mpr hequal

/-- The layer below is released, and a second release finds nothing to take away. -/
theorem serveAll_refines_stacks_metered :
    let session := (Session.start.addWorkshop ⟨none, true⟩ none none).2
    let admin := (Role.administrator true []).reference ⟨0⟩
    let auditor := (Role.auditor []).reference ⟨1⟩
    let requests : List Request :=
      [.fresh, .change .assume 0 admin .zero, .change .assume 1 auditor .zero,
        .change .release 2 admin .zero, .change .releaseUntil 3 admin .zero,
        .change .assume 3 auditor .zero]
    session.workshops.get? ⟨0⟩ = some ⟨Engine.start ⟨1⟩ ⟨none, true⟩, ⟨0⟩, none⟩ ∧
      (Engine.start ⟨1⟩ ⟨none, true⟩).Owns (session.registry ⟨0⟩) ∧
      HandleClass.metered.CopiesExtension ∧
      ((Run.mk session []).serveAll ⟨0⟩ .metered requests).1 =
        [some (.ok ⟨[], []⟩), some (.ok ⟨[], [.role Role.administration]⟩),
          some (.ok ⟨[], [.role Role.administration, .role Role.auditing]⟩),
          some (.ok ⟨[], [.role Role.auditing]⟩), some (.error (some .ancestryNotFound)),
          some (.error (some .contractPresent))] := by
  intro session admin auditor requests
  have hworkshop : session.workshops.get? ⟨0⟩ =
      some ⟨Engine.start ⟨1⟩ ⟨none, true⟩, ⟨0⟩, none⟩ := rfl
  have howns : (Engine.start ⟨1⟩ ⟨none, true⟩).Owns (session.registry ⟨0⟩) := .start ⟨1⟩ _
  have hcopies : HandleClass.metered.CopiesExtension := by
    intro fresh hfresh times
    obtain rfl := Option.some.inj hfresh
    exact (Extension.faithful_usage _).steady.copiesFor_self rfl times
  refine ⟨hworkshop, howns, hcopies, ?_⟩
  refine (serveAll_refines_stacks hworkshop howns "MeteredProxy" _ hcopies requests).1.trans ?_
  decide

end Run

end RoleStack

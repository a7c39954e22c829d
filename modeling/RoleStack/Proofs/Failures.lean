import RoleStack.HandleClass.Samples
import RoleStack.Proofs.SessionComposing

/-!
# Failed compositions

A composition that fails leaves engines, registries and handles as they were. So a run from which all
failed orders are deleted comes to the same engines, the same registries and the same handles; only a
number that a failed composition took is gone, and handles instantiated later have other identities.
-/

namespace RoleStack

/-! ### Handles without their identities -/

namespace Handle

def anonymous (handle : Handle) : Handle := { handle with identity := ⟨0⟩ }

theorem absorb_anonymous (source destination : Handle) :
    absorb source.anonymous destination.anonymous = (absorb source destination).map anonymous := by
  have hcopied : copiedExtension source.anonymous destination.anonymous =
      copiedExtension source destination := rfl
  unfold absorb
  rw [hcopied]
  cases copiedExtension source destination with
  | error error => rfl
  | ok extension => rfl

theorem exists_absorb_of_anonymous {source source' destination destination' merged : Handle}
    (hsource : source.anonymous = source'.anonymous)
    (hdestination : destination.anonymous = destination'.anonymous)
    (h : absorb source destination = .ok merged) :
    ∃ merged', absorb source' destination' = .ok merged' ∧ merged.anonymous = merged'.anonymous := by
  have hmerged := absorb_anonymous source destination
  rw [h, hsource, hdestination, absorb_anonymous] at hmerged
  cases habsorb : absorb source' destination' with
  | error error =>
      rw [habsorb] at hmerged
      cases hmerged
  | ok merged' =>
      rw [habsorb] at hmerged
      exact ⟨merged', rfl, (Except.ok.inj hmerged).symm⟩

end Handle

namespace Operation

variable {operation : Operation} {read read' : SharedHandle → Handle}
  {target target' : SharedHandle} {handleClass : HandleClass} {handle : Handle}

theorem plan_aimedAt (operation : Operation) (target : SharedHandle) :
    (operation.aimedAt target).plan = operation.plan := rfl

theorem anonymous_blankDestination (operation : Operation) (target target' : SharedHandle)
    (identity identity' : Identity) (handleClass : HandleClass) :
    ((operation.aimedAt target).blankDestination identity handleClass).anonymous =
      ((operation.aimedAt target').blankDestination identity' handleClass).anonymous := by
  unfold blankDestination aimedAt
  cases operation.injection <;> cases operation.role.contract <;> rfl

theorem exists_populate_of_anonymous
    (hsource : (read target).anonymous = (read' target').anonymous) {identity : Identity}
    (h : (operation.aimedAt target).populate read identity handleClass = .ok handle)
    (identity' : Identity) :
    ∃ handle', (operation.aimedAt target').populate read' identity' handleClass = .ok handle' ∧
      handle.anonymous = handle'.anonymous := by
  obtain ⟨hunused, habsorb⟩ := populate_eq_ok_iff.mp h
  obtain ⟨handle', habsorb', hhandle⟩ := Handle.exists_absorb_of_anonymous hsource
    (anonymous_blankDestination operation target target' identity identity' handleClass) habsorb
  exact ⟨handle', populate_eq_ok_iff.mpr ⟨hunused, habsorb'⟩, hhandle⟩

end Operation

/-! ### One composition -/

namespace Engine

variable {engine : Engine} {registry : Registry} {sequence : Sequence}
  {read : SharedHandle → Handle} {agent : AgentId} {operation : Operation} {handle : Handle}

theorem sequence_compose :
    (engine.compose registry sequence read agent operation).sequence = sequence ∨
      (engine.compose registry sequence read agent operation).sequence = sequence.advance := by
  by_cases hqueued : operation.status = .queued
  · cases hplan : engine.planFor read operation with
    | error cause =>
        rw [compose_of_plan_eq_error hqueued hplan]
        exact .inl rfl
    | ok plan =>
        rw [compose_of_plan_eq_ok hqueued hplan]
        cases engine.carryOut registry ⟨sequence.next⟩ read operation plan with
        | error cause => exact .inr rfl
        | ok carried => exact .inr rfl
  · rw [compose_of_not_queued hqueued]
    exact .inl rfl

/-- What a composition makes and leaves does not depend on identities. -/
theorem exists_compose_of_anonymous {read' : SharedHandle → Handle} {target target' : SharedHandle}
    (hsource : (read target).anonymous = (read' target').anonymous)
    (h : (engine.compose registry sequence read agent (operation.aimedAt target)).result =
      .ok handle) (sequence' : Sequence) :
    ∃ handle',
      (engine.compose registry sequence' read' agent (operation.aimedAt target')).result =
          .ok handle' ∧
        handle.anonymous = handle'.anonymous ∧
        (engine.compose registry sequence read agent (operation.aimedAt target)).engine =
          (engine.compose registry sequence' read' agent (operation.aimedAt target')).engine ∧
        (engine.compose registry sequence read agent (operation.aimedAt target)).registry =
          (engine.compose registry sequence' read' agent (operation.aimedAt target')).registry := by
  obtain ⟨plan, hcomposes⟩ := exists_of_compose_ok h
  have hclass : (read target).handleClass = (read' target').handleClass := by
    simpa [Handle.anonymous] using congrArg Handle.handleClass hsource
  have hplan : engine.planFor read' (operation.aimedAt target') = .ok plan := by
    rw [← hcomposes.planned]
    change Operation.plan _ _ _ (read' target').handleClass =
      Operation.plan _ _ _ (read target).handleClass
    rw [Operation.plan_aimedAt, Operation.plan_aimedAt, hclass]
  obtain ⟨handle', hpopulate, hhandle⟩ :=
    Operation.exists_populate_of_anonymous hsource hcomposes.populated ⟨sequence'.next⟩
  have hresult :
      (engine.compose registry sequence' read' agent (operation.aimedAt target')).result =
        .ok handle' := by
    have hqueued : (operation.aimedAt target').status = .queued := hcomposes.queued
    rw [compose_of_plan_eq_ok hqueued hplan, carryOut, hpopulate]
    simp only [hcomposes.registered]
  obtain ⟨plan', hcomposes'⟩ := exists_of_compose_ok hresult
  obtain rfl : plan = plan' := Except.ok.inj (hplan.symm.trans hcomposes'.planned)
  refine ⟨handle', hresult, hhandle, ?_, ?_⟩
  · rw [hcomposes.engine, hcomposes'.engine]
  · exact Except.ok.inj (hcomposes.registered.symm.trans hcomposes'.registered)

end Engine

namespace Session

theorem exists_composition_of_anonymous {session session' : Session} {found : Workshop}
    {agent : AgentId} {operation : Operation} {target target' : SharedHandle} {handle : Handle}
    (hregistries : session.registries = session'.registries)
    (hsource : (session.read target).anonymous = (session'.read target').anonymous)
    (h : (session.composition found agent (operation.aimedAt target)).result = .ok handle) :
    ∃ handle', (session'.composition found agent (operation.aimedAt target')).result = .ok handle' ∧
      handle.anonymous = handle'.anonymous ∧
      (session.composition found agent (operation.aimedAt target)).engine =
        (session'.composition found agent (operation.aimedAt target')).engine ∧
      (session.composition found agent (operation.aimedAt target)).registry =
        (session'.composition found agent (operation.aimedAt target')).registry := by
  have hregistry : session.registry found.registry = session'.registry found.registry := by
    unfold registry
    rw [hregistries]
  unfold composition at h ⊢
  rw [hregistry] at h ⊢
  exact Engine.exists_compose_of_anonymous hsource h session'.identities

/-- A failed composition leaves every engine, every registry and every handle as it was. -/
theorem compose_of_eq_error {session : Session} {workshop : Ref Workshop} {agent : AgentId}
    {operation : Operation} {error : CompositionError}
    (h : (session.compose workshop agent operation).1 = .error error) :
    (session.compose workshop agent operation).2.2.workshops = session.workshops ∧
      (session.compose workshop agent operation).2.2.registries = session.registries ∧
      (session.compose workshop agent operation).2.2.handles = session.handles := by
  cases hworkshop : session.workshops.get? workshop with
  | none =>
      rw [compose_of_get?_eq_none hworkshop]
      exact ⟨rfl, rfl, rfl⟩
  | some found =>
      obtain ⟨board, hcompose⟩ := compose_eq hworkshop agent operation
      rw [hcompose] at h ⊢
      cases hresult : (session.composition found agent operation).result with
      | ok handle =>
          rw [hresult] at h
          cases h
      | error failure =>
          obtain ⟨hengine, hregistry⟩ := Engine.compose_of_eq_error hresult
          have hengine : (session.composition found agent operation).engine = found.engine := hengine
          have hregistry : (session.composition found agent operation).registry =
            session.registry found.registry := hregistry
          refine ⟨?_, ?_, rfl⟩
          · simp only [leftBy, hengine]
            exact Pool.set_of_get?_eq_some hworkshop
          · simp only [leftBy, hregistry]
            exact set_registry session found.registry

end Session

/-! ### Handles alike -/

namespace Sequence

/-- The identity was handed out within so many turns. -/
def HandsOut (start : Sequence) (turns : Nat) (identity : Identity) : Prop :=
  ∃ turn < turns, identity.value = start.next + UInt64.ofNat turn

def Reaches (start : Sequence) (turns : Nat) (later : Sequence) : Prop :=
  ∃ turn ≤ turns, later.next = start.next + UInt64.ofNat turn

/-- Only identities that were handed out lately may differ. -/
def Agree (start : Sequence) (turns : Nat) (first second : Identity) : Prop :=
  first = second ∨ start.HandsOut turns first ∧ start.HandsOut turns second

variable {start later : Sequence} {turns : Nat}

theorem HandsOut.succ {identity : Identity} (h : start.HandsOut turns identity) :
    start.HandsOut (turns + 1) identity := by
  obtain ⟨turn, hturn, hvalue⟩ := h
  exact ⟨turn, by omega, hvalue⟩

theorem Agree.succ {first second : Identity} (h : start.Agree turns first second) :
    start.Agree (turns + 1) first second := by
  rcases h with hsame | ⟨hfirst, hsecond⟩
  · exact .inl hsame
  · exact .inr ⟨hfirst.succ, hsecond.succ⟩

theorem Reaches.refl (start : Sequence) : start.Reaches 0 start :=
  ⟨0, Nat.le_refl _, by simp⟩

theorem Reaches.succ (h : start.Reaches turns later) : start.Reaches (turns + 1) later := by
  obtain ⟨turn, hturn, hnext⟩ := h
  exact ⟨turn, by omega, hnext⟩

theorem Reaches.advance (h : start.Reaches turns later) :
    start.Reaches (turns + 1) later.advance := by
  obtain ⟨turn, hturn, hnext⟩ := h
  refine ⟨turn + 1, by omega, ?_⟩
  change later.next + 1 = _
  rw [hnext, UInt64.ofNat_add, UInt64.add_assoc]
  rfl

theorem Reaches.handsOut (h : start.Reaches turns later) :
    start.HandsOut (turns + 1) ⟨later.next⟩ := by
  obtain ⟨turn, hturn, hnext⟩ := h
  exact ⟨turn, by omega, hnext⟩

end Sequence

namespace Session

variable {start : Sequence} {turns : Nat} {session : Session}

theorem reaches_composition (h : start.Reaches turns session.identities) (found : Workshop)
    (agent : AgentId) (operation : Operation) :
    start.Reaches (turns + 1) (session.composition found agent operation).sequence := by
  unfold composition
  rcases Engine.sequence_compose with hsame | hadvanced
  · rw [hsame]
    exact h.succ
  · rw [hadvanced]
    exact h.advance

theorem reaches_compose (h : start.Reaches turns session.identities) (workshop : Ref Workshop)
    (agent : AgentId) (operation : Operation) :
    start.Reaches (turns + 1) (session.compose workshop agent operation).2.2.identities := by
  cases hworkshop : session.workshops.get? workshop with
  | none =>
      rw [compose_of_get?_eq_none hworkshop]
      exact h.succ
  | some found =>
      obtain ⟨board, hcompose⟩ := compose_eq hworkshop agent operation
      rw [hcompose]
      exact reaches_composition h found agent operation

end Session

structure Handle.Alike (start : Sequence) (turns : Nat) (first second : Handle) : Prop where
  anonymous : first.anonymous = second.anonymous
  identity : start.Agree turns first.identity second.identity

structure SharedHandle.Alike (start : Sequence) (turns : Nat) (first second : SharedHandle) :
    Prop where
  cell : first.cell = second.cell
  identity : start.Agree turns first.identity second.identity

/-! ### Runs alike -/

namespace Run

/-- The runs hold the same engines, registries and handles, but for identities handed out lately. -/
structure Alike (start : Sequence) (turns : Nat) (first second : Run) : Prop where
  workshops : first.session.workshops = second.session.workshops
  registries : first.session.registries = second.session.registries
  handles : List.Forall₂ (Handle.Alike start turns) first.session.handles.objects.toList
    second.session.handles.objects.toList
  obtained : List.Forall₂ (SharedHandle.Alike start turns) first.obtained second.obtained
  firstReaches : start.Reaches turns first.session.identities
  secondReaches : start.Reaches turns second.session.identities

section Steps

variable {start : Sequence} {turns : Nat} {first second : Run}

theorem Alike.refl (run : Run) : run.Alike run.session.identities 0 run where
  workshops := rfl
  registries := rfl
  handles := List.forall₂_same.mpr fun _ _ => ⟨rfl, .inl rfl⟩
  obtained := List.forall₂_same.mpr fun _ _ => ⟨rfl, .inl rfl⟩
  firstReaches := .refl _
  secondReaches := .refl _

theorem Alike.get? (h : first.Alike start turns second) (cell : Ref Handle) :
    first.session.handles.get? cell = none ∧ second.session.handles.get? cell = none ∨
      ∃ handle handle', first.session.handles.get? cell = some handle ∧
        second.session.handles.get? cell = some handle' ∧ handle.Alike start turns handle' := by
  have hplace := forall₂_getElem? h.handles cell.index
  rw [Array.getElem?_toList, Array.getElem?_toList] at hplace
  exact hplace

theorem Alike.next_eq (h : first.Alike start turns second) :
    first.session.handles.next = second.session.handles.next := by
  have hlength := h.handles.length_eq
  rw [Array.length_toList, Array.length_toList] at hlength
  exact congrArg Ref.mk hlength

theorem Alike.read (h : first.Alike start turns second) {target target' : SharedHandle}
    (htarget : target.Alike start turns target') :
    (first.session.read target).Alike start turns (second.session.read target') := by
  unfold Session.read
  rw [← htarget.cell]
  rcases h.get? target.cell with ⟨hfirst, hsecond⟩ | ⟨handle, handle', hfirst, hsecond, halike⟩
  · rw [hfirst, hsecond]
    exact ⟨rfl, htarget.identity⟩
  · rw [hfirst, hsecond]
    exact halike

theorem Alike.succ (h : first.Alike start turns second) : first.Alike start (turns + 1) second where
  workshops := h.workshops
  registries := h.registries
  handles := h.handles.imp fun _ _ halike => ⟨halike.anonymous, halike.identity.succ⟩
  obtained := h.obtained.imp fun _ _ halike => ⟨halike.cell, halike.identity.succ⟩
  firstReaches := h.firstReaches.succ
  secondReaches := h.secondReaches.succ

theorem Alike.share (h : first.Alike start turns second) {handle handle' : Handle}
    (hhandle : handle.Alike start turns handle') :
    (Run.mk { first.session with handles := first.session.handles.add handle }
      (first.obtained ++ [⟨first.session.handles.next, handle.identity⟩])).Alike start turns
      (Run.mk { second.session with handles := second.session.handles.add handle' }
        (second.obtained ++ [⟨second.session.handles.next, handle'.identity⟩])) where
  workshops := h.workshops
  registries := h.registries
  handles := by
    simp only [Pool.add, Array.toList_push]
    exact List.rel_append h.handles (.cons hhandle .nil)
  obtained := List.rel_append h.obtained (.cons ⟨h.next_eq, hhandle.identity⟩ .nil)
  firstReaches := h.firstReaches
  secondReaches := h.secondReaches

theorem Alike.instantiate (h : first.Alike start turns second) (handleClass : HandleClass) :
    (first.fulfil (.instantiate handleClass)).2.Alike start (turns + 1)
      (second.fulfil (.instantiate handleClass)).2 := by
  have hadvanced : (Run.mk { first.session with identities := first.session.identities.advance }
      first.obtained).Alike start (turns + 1)
      (Run.mk { second.session with identities := second.session.identities.advance }
        second.obtained) :=
    { h.succ with
      firstReaches := h.firstReaches.advance
      secondReaches := h.secondReaches.advance }
  have hblank : (Handle.blank ⟨first.session.identities.next⟩ handleClass).Alike start (turns + 1)
      (Handle.blank ⟨second.session.identities.next⟩ handleClass) :=
    ⟨rfl, .inr ⟨h.firstReaches.handsOut, h.secondReaches.handsOut⟩⟩
  exact hadvanced.share hblank

theorem Alike.leftBy (h : first.Alike start turns second) (workshop : Ref Workshop)
    (found : Workshop) {composition composition' : Composition} (board board' : NoticeBoard)
    (hengine : composition.engine = composition'.engine)
    (hfilled : composition.registry = composition'.registry)
    (hreaches : start.Reaches (turns + 1) composition.sequence)
    (hreaches' : start.Reaches (turns + 1) composition'.sequence) :
    (Run.mk (first.session.leftBy workshop found composition board) first.obtained).Alike start
      (turns + 1)
      (Run.mk (second.session.leftBy workshop found composition' board') second.obtained) where
  workshops := by
    simp only [Session.leftBy]
    rw [h.workshops, hengine]
  registries := by
    simp only [Session.leftBy]
    rw [h.registries, hfilled]
  handles := h.succ.handles
  obtained := h.succ.obtained
  firstReaches := hreaches
  secondReaches := hreaches'

/-- An order that fails changes nothing but the sequence of identities. -/
theorem Alike.fulfil_of_not_ok (h : first.Alike start turns second) {order : Order}
    (hfailed : ∀ shared, (first.fulfil order).1 ≠ some (.ok shared)) :
    (first.fulfil order).2.Alike start (turns + 1) second := by
  cases order with
  | instantiate handleClass => exact absurd rfl (hfailed _)
  | compose workshop place agent operation =>
      cases hplace : first.obtained[place]? with
      | none =>
          rw [fulfil, hplace]
          exact h.succ
      | some target =>
          rw [fulfil_compose hplace] at hfailed ⊢
          cases hresult : (first.session.compose workshop agent (operation.aimedAt target)).1 with
          | ok shared => exact absurd (congrArg some hresult) (hfailed shared)
          | error error =>
              obtain ⟨hworkshops, hregistries, hhandles⟩ := Session.compose_of_eq_error hresult
              have hreaches := Session.reaches_compose h.firstReaches workshop agent
                (operation.aimedAt target)
              exact
                { workshops := hworkshops.trans h.workshops
                  registries := hregistries.trans h.registries
                  handles := by
                    simp only [hhandles]
                    exact h.succ.handles
                  obtained := by
                    simp only [hresult, Except.toOption, Option.toList, List.append_nil]
                    exact h.succ.obtained
                  firstReaches := hreaches
                  secondReaches := h.secondReaches.succ }

/-- An order that gives a handle gives a like one in a run alike. -/
theorem Alike.exists_fulfil_of_ok (h : first.Alike start turns second) {order : Order}
    {shared : SharedHandle} (hgiven : (first.fulfil order).1 = some (.ok shared)) :
    (∃ shared', (second.fulfil order).1 = some (.ok shared')) ∧
      (first.fulfil order).2.Alike start (turns + 1) (second.fulfil order).2 := by
  cases order with
  | instantiate handleClass => exact ⟨⟨_, rfl⟩, h.instantiate handleClass⟩
  | compose workshop place agent operation =>
      rcases forall₂_getElem? h.obtained place with ⟨hplace, -⟩ | hboth
      · rw [fulfil, hplace] at hgiven
        cases hgiven
      obtain ⟨target, target', hplace, hplace', htarget⟩ := hboth
      rw [fulfil_compose hplace] at hgiven ⊢
      rw [fulfil_compose hplace']
      obtain ⟨found, handle, hworkshop, hresult, -⟩ :=
        Session.exists_of_compose_ok (Option.some.inj hgiven)
      have hworkshop' : second.session.workshops.get? workshop = some found := by
        rw [← h.workshops, hworkshop]
      obtain ⟨handle', hresult', hanonymous, hengine, hfilled⟩ :=
        Session.exists_composition_of_anonymous h.registries (h.read htarget).anonymous hresult
      have hidentity : start.Agree turns handle.identity handle'.identity := by
        rw [Engine.identity_of_compose_ok hresult, Engine.identity_of_compose_ok hresult']
        exact (h.read htarget).identity
      obtain ⟨board, hcompose⟩ := Session.compose_eq hworkshop agent (operation.aimedAt target)
      obtain ⟨board', hcompose'⟩ := Session.compose_eq hworkshop' agent (operation.aimedAt target')
      rw [hcompose, hcompose', hresult, hresult']
      -- What was shared before is alike, and the new versions come last in both runs.
      have hbase := h.leftBy workshop found board board' hengine hfilled
        (Session.reaches_composition h.firstReaches found agent (operation.aimedAt target))
        (Session.reaches_composition h.secondReaches found agent (operation.aimedAt target'))
      exact ⟨⟨_, rfl⟩, hbase.share ⟨hanonymous, hidentity.succ⟩⟩

end Steps

/-! ### Whole runs -/

def fulfilAll (run : Run) : List Order → Run
  | [] => run
  | order :: rest => (run.fulfil order).2.fulfilAll rest

/-- The orders that give a handle when all are fulfilled in turn. -/
def successful (run : Run) : List Order → List Order
  | [] => []
  | order :: rest =>
      match run.fulfil order with
      | (some (.ok _), next) => order :: next.successful rest
      | (_, next) => next.successful rest

theorem successful_cons_of_ok {run : Run} {order : Order} {shared : SharedHandle}
    (h : (run.fulfil order).1 = some (.ok shared)) (rest : List Order) :
    run.successful (order :: rest) = order :: (run.fulfil order).2.successful rest := by
  rw [successful]
  split
  · rename_i hnext
    rw [hnext]
  · rename_i hnot hnext
    rw [hnext] at h
    exact absurd h (hnot shared)

theorem successful_cons_of_not_ok {run : Run} {order : Order}
    (h : ∀ shared, (run.fulfil order).1 ≠ some (.ok shared)) (rest : List Order) :
    run.successful (order :: rest) = (run.fulfil order).2.successful rest := by
  rw [successful]
  split
  · rename_i shared next hnext
    rw [hnext] at h
    exact absurd rfl (h shared)
  · rename_i hnext
    rw [hnext]

/-- Two runs alike stay alike when only the first is given the orders that fail. -/
theorem Alike.fulfilAll_successful {start : Sequence} {turns : Nat} {first second : Run}
    (h : first.Alike start turns second) (orders : List Order) :
    second.successful (first.successful orders) = first.successful orders ∧
      (first.fulfilAll orders).Alike start (turns + orders.length)
        (second.fulfilAll (first.successful orders)) := by
  -- Both runs move on, the second only where the first succeeds, so both are general.
  induction orders generalizing turns first second with
  | nil => exact ⟨rfl, h⟩
  | cons order rest ih =>
      rw [fulfilAll, List.length_cons, ← Nat.add_assoc, Nat.add_right_comm]
      by_cases hgiven : ∃ shared, (first.fulfil order).1 = some (.ok shared)
      · obtain ⟨shared, hshared⟩ := hgiven
        obtain ⟨⟨shared', hshared'⟩, halike⟩ := h.exists_fulfil_of_ok hshared
        obtain ⟨hagain, hlast⟩ := ih halike
        rw [successful_cons_of_ok hshared, successful_cons_of_ok hshared', hagain]
        exact ⟨rfl, hlast⟩
      · rw [not_exists] at hgiven
        rw [successful_cons_of_not_ok hgiven]
        exact ih (h.fulfil_of_not_ok hgiven)

/-- A failed composition leaves no trace: engines, registries and handles stay as they were, and a run
without its failed orders comes to the same ones, but for identities handed out in the run. -/
theorem failed_compositions_leave_no_trace :
    (∀ (session : Session) (workshop : Ref Workshop) (agent : AgentId) (operation : Operation)
        (error : CompositionError),
      (session.compose workshop agent operation).1 = .error error →
        (session.compose workshop agent operation).2.2.workshops = session.workshops ∧
          (session.compose workshop agent operation).2.2.registries = session.registries ∧
          (session.compose workshop agent operation).2.2.handles = session.handles) ∧
      ∀ (run : Run) (orders : List Order),
        let full := run.fulfilAll orders
        let kept := run.fulfilAll (run.successful orders)
        run.successful (run.successful orders) = run.successful orders ∧
          full.session.workshops = kept.session.workshops ∧
          full.session.registries = kept.session.registries ∧
          List.Forall₂
            (fun shared shared' => (full.session.read shared).Alike run.session.identities
              orders.length (kept.session.read shared'))
            full.obtained kept.obtained := by
  refine ⟨fun session workshop agent operation error h => Session.compose_of_eq_error h, ?_⟩
  intro run orders full kept
  obtain ⟨hagain, halike⟩ := (Alike.refl run).fulfilAll_successful orders
  rw [Nat.zero_add] at halike
  refine ⟨hagain, halike.workshops, halike.registries, ?_⟩
  apply halike.obtained.imp
  intro shared shared' hshared
  exact halike.read hshared

/-- A transfer with a source fails after an identity was taken for the new version. -/
theorem failed_compositions_leave_no_trace_stale_transfer :
    let session := (Session.start.addWorkshop ⟨none, false⟩ none none).2
    let run := ((Run.mk session []).fulfil (.instantiate .database)).2
    let admin := (Role.administrator true []).reference ⟨0⟩
    let fresh := ChangeKind.assume.operation ⟨⟨0⟩, ⟨1⟩⟩ admin
    let stale := { fresh with
      transfer := { Transfer.fresh with source := some ⟨⟨0⟩, ⟨1⟩⟩, sourceSet := true } }
    let orders : List Order :=
      [.compose ⟨0⟩ 0 .zero stale, .instantiate .metered, .compose ⟨0⟩ 1 .zero fresh]
    (run.session.compose ⟨0⟩ .zero stale).1 =
        .error (.failed ⟨1⟩ .addRole "admin" (.transfer .sourceSetTwice)) ∧
      (run.session.compose ⟨0⟩ .zero stale).2.2.handles = run.session.handles ∧
      (run.fulfilAll orders).session.registries =
        (run.fulfilAll [.instantiate .metered, .compose ⟨0⟩ 1 .zero fresh]).session.registries := by
  intro session run admin fresh stale orders
  have hfailed : (run.session.compose ⟨0⟩ .zero stale).1 =
      .error (.failed ⟨1⟩ .addRole "admin" (.transfer .sourceSetTwice)) := by decide +kernel
  have hkept : run.successful orders = [.instantiate .metered, .compose ⟨0⟩ 1 .zero fresh] := by
    have hstale : (run.fulfil (.compose ⟨0⟩ 0 .zero stale)).1 =
        some (.error (.failed ⟨1⟩ .addRole "admin" (.transfer .sourceSetTwice))) := by decide +kernel
    have hmade : (((run.fulfil (.compose ⟨0⟩ 0 .zero stale)).2.fulfil (.instantiate .metered)).2.fulfil
        (.compose ⟨0⟩ 1 .zero fresh)).1 = some (.ok ⟨⟨2⟩, ⟨3⟩⟩) := by decide +kernel
    rw [successful_cons_of_not_ok (fun shared hok => nomatch hstale.symm.trans hok),
      successful_cons_of_ok rfl, successful_cons_of_ok hmade, successful]
  have hrun := (failed_compositions_leave_no_trace.2 run orders).2.2.1
  rw [hkept] at hrun
  exact ⟨hfailed, (failed_compositions_leave_no_trace.1 _ _ _ _ _ hfailed).2.2, hrun⟩

end Run

end RoleStack

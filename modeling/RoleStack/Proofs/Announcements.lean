import RoleStack.Proofs.Lifecycle

/-!
# What a recorder is told

A recorder keeps all that it is told, whoever else is told something in between. An engine tells it of
each composition that it begins, once the operation has ended, and of nothing else. What it tells is
taken from the operation, so it is the truth about the composition as long as the operation had no
cause and no class before.
-/

namespace RoleStack

/-! ### Telling a recorder -/

namespace NoticeBoard

variable {board : NoticeBoard} {recorder dispatcher : Ref Dispatcher} {notices : List Notice}

/-- The dispatcher is a recorder, and these are its notices. -/
def Recorded (board : NoticeBoard) (recorder : Ref Dispatcher) (notices : List Notice) : Prop :=
  board.dispatchers.get? recorder = some (.recording notices)

theorem Recorded.addSubscription (h : board.Recorded recorder notices) (dispatcher : Ref Dispatcher)
    (subscription : Subscription) :
    (board.addSubscription dispatcher subscription).Recorded recorder notices := by
  unfold Recorded at h ⊢
  unfold NoticeBoard.addSubscription
  cases hfound : board.dispatchers.get? dispatcher with
  | none => exact h
  | some found =>
      by_cases hsame : dispatcher = recorder
      · subst hsame
        obtain rfl := Option.some.inj (hfound.symm.trans h)
        exact Pool.get?_set_of_get? h _
      · exact (Pool.get?_set ..).trans ((if_neg hsame).trans h)

theorem Recorded.addSubscriptions (h : board.Recorded recorder notices)
    (made : List (Ref Dispatcher × Subscription)) :
    (board.addSubscriptions made).Recorded recorder notices := by
  induction made generalizing board with
  | nil => exact h
  | cons entry rest ih => exact ih (h.addSubscription entry.1 entry.2)

theorem Recorded.tell (h : board.Recorded recorder notices) (notice : Notice) (name : String) :
    (board.tell notice name).Recorded recorder notices := by
  apply Recorded.addSubscriptions
  exact h

theorem Recorded.tellAll (h : board.Recorded recorder notices) (notice : Notice)
    (targets : List Subscription) :
    (targets.foldl (fun board target => board.tell notice target.listener) board).Recorded recorder
      notices := by
  induction targets generalizing board with
  | nil => exact h
  | cons target rest ih => exact ih (h.tell notice target.listener)

theorem Recorded.fire (h : board.Recorded recorder notices) (identity : Identity) (notice : Notice) :
    (board.fire recorder identity notice).2.Recorded recorder (notices ++ [notice]) := by
  have hfound : board.dispatchers.get? recorder = some (.recording notices) := h
  unfold NoticeBoard.fire
  rw [hfound]
  exact Pool.get?_set_of_get? h _

theorem Recorded.fire_of_ne (h : board.Recorded recorder notices) (hne : dispatcher ≠ recorder)
    (identity : Identity) (notice : Notice) :
    (board.fire dispatcher identity notice).2.Recorded recorder notices := by
  unfold NoticeBoard.fire
  cases board.dispatchers.get? dispatcher with
  | none => exact h
  | some found =>
      cases found with
      | recording others => exact (Pool.get?_set ..).trans ((if_neg hne).trans h)
      | passing subscriptions => exact h.tellAll notice _

end NoticeBoard

/-! ### Telling of one composition -/

namespace Session

variable {session : Session} {workshop : Ref Workshop} {found : Workshop} {agent : AgentId}
  {operation : Operation} {recorder : Ref Dispatcher} {notices : List Notice}

def dispatcherOf (session : Session) (workshop : Ref Workshop) : Option (Ref Dispatcher) :=
  (session.workshops.get? workshop).bind Workshop.dispatcher

theorem dispatcherOf_compose (session : Session) (workshop : Ref Workshop) (agent : AgentId)
    (operation : Operation) (other : Ref Workshop) :
    (session.compose workshop agent operation).2.2.dispatcherOf other =
      session.dispatcherOf other := by
  cases hworkshop : session.workshops.get? workshop with
  | none => rw [compose_of_get?_eq_none hworkshop]
  | some found =>
      obtain ⟨board, hcompose⟩ := compose_eq hworkshop agent operation
      rw [hcompose]
      simp only [dispatcherOf, leftBy, Pool.get?_set]
      split
      · rename_i hsame
        rw [← hsame, hworkshop]
        rfl
      · rfl

theorem board_announce (session : Session) (dispatcher : Ref Dispatcher) (event : RoleEvent) :
    (session.announce (some dispatcher) event).board =
      (session.board.fire dispatcher event.identity ⟨event.kind, event⟩).2 := rfl

theorem board_shareResult (session : Session) (result : Except CompositionError Handle) :
    (session.shareResult result).2.board = session.board := by
  cases result <;> rfl

theorem recorded_announce (h : session.board.Recorded recorder notices)
    (dispatcher : Option (Ref Dispatcher)) (event : RoleEvent) :
    (session.announce dispatcher event).board.Recorded recorder
      (if dispatcher = some recorder then notices ++ [⟨event.kind, event⟩] else notices) := by
  cases dispatcher with
  | none => exact h
  | some dispatcher =>
      rw [board_announce]
      by_cases hsame : dispatcher = recorder
      · rw [if_pos (congrArg some hsame), hsame]
        exact h.fire event.identity _
      · rw [if_neg fun heq => hsame (Option.some.inj heq)]
        exact h.fire_of_ne hsame event.identity _

/-- What the dispatcher of the engine is told of a composition. -/
theorem recorded_compose (h : session.board.Recorded recorder notices)
    (hworkshop : session.workshops.get? workshop = some found) {event : RoleEvent}
    (hevent : (session.composition found agent operation).event = some event) :
    (session.compose workshop agent operation).2.2.board.Recorded recorder
      (if session.dispatcherOf workshop = some recorder then notices ++ [⟨event.kind, event⟩]
        else notices) := by
  have hdispatcher : session.dispatcherOf workshop = found.dispatcher := by
    rw [dispatcherOf, hworkshop, Option.bind_some]
  unfold composition at hevent
  unfold compose
  rw [hworkshop]
  simp only [hevent, hdispatcher]
  apply recorded_announce
  rw [board_shareResult]
  exact h

end Session

/-! ### What there is to tell -/

namespace Engine

variable {operation : Operation}

theorem eventOf_succeed (hcause : operation.cause = none) (agent : AgentId) (name : String) :
    eventOf agent (operation.succeed name) =
      { identity := operation.target.identity
        agent := agent
        injection := operation.injection
        role := operation.role.name
        outcome := .success
        className := some name } := by
  simp [eventOf, Operation.succeed, Operation.outcome, hcause]

theorem eventOf_fail (hclass : operation.resultClass = none) (agent : AgentId)
    (cause : CompositionCause) :
    eventOf agent (operation.fail cause) =
      { identity := operation.target.identity
        agent := agent
        injection := operation.injection
        role := operation.role.name
        outcome := .failure cause.message
        className := none } := by
  simp [eventOf, Operation.fail, Operation.outcome, hclass]

end Engine

/-- A call to compose: the operation as it was then, and what came of it. -/
structure Commission where
  workshop : Ref Workshop
  agent : AgentId
  operation : Operation
  answer : Except CompositionError Handle

namespace Commission

/-- The notice tells of the composition as its caller saw it. -/
inductive Tells (commission : Commission) : Notice → Prop where
  | success (handle : Handle) (hanswer : commission.answer = .ok handle) :
      commission.Tells
        { kind := if commission.operation.injection.isAddition then .roleAssumed else .roleReleased
          event :=
            { identity := commission.operation.target.identity
              agent := commission.agent
              injection := commission.operation.injection
              role := commission.operation.role.name
              outcome := .success
              className := some handle.className } }
  | failure (error : CompositionError) (cause : CompositionCause)
      (hanswer : commission.answer = .error error) (hcause : error.cause? = some cause) :
      commission.Tells
        { kind := .compositionFailed
          event :=
            { identity := commission.operation.target.identity
              agent := commission.agent
              injection := commission.operation.injection
              role := commission.operation.role.name
              outcome := .failure cause.message
              className := none } }

/-- The engine began to compose, and its dispatcher is this one. -/
def ReportedTo (session : Session) (recorder : Ref Dispatcher) (commission : Commission) : Prop :=
  session.dispatcherOf commission.workshop = some recorder ∧ commission.operation.status = .queued

instance (session : Session) (recorder : Ref Dispatcher) (commission : Commission) :
    Decidable (commission.ReportedTo session recorder) :=
  inferInstanceAs (Decidable (_ ∧ _))

end Commission

namespace Session

variable {session : Session} {workshop : Ref Workshop} {found : Workshop} {agent : AgentId}
  {operation : Operation}

/-- A call to compose, with the new version as it is when the call returns. -/
def commission (session : Session) (workshop : Ref Workshop) (agent : AgentId)
    (operation : Operation) : Commission :=
  let composed := session.compose workshop agent operation
  ⟨workshop, agent, operation, composed.1.map composed.2.2.read⟩

/-- The operation tells the truth of a composition that began with no cause and no class set. -/
theorem exists_event_tells (hworkshop : session.workshops.get? workshop = some found)
    (hqueued : operation.status = .queued) (hconsistent : operation.Consistent) (agent : AgentId) :
    ∃ event, (session.composition found agent operation).event = some event ∧
      (session.commission workshop agent operation).Tells ⟨event.kind, event⟩ := by
  cases hanswer : (session.compose workshop agent operation).1 with
  | ok shared =>
      obtain ⟨found', handle, hworkshop', hresult, hnext⟩ := exists_of_compose_eq_ok hanswer
      obtain rfl := Option.some.inj (hworkshop.symm.trans hworkshop')
      obtain ⟨-, -, hevent⟩ := Engine.concludes_of_ok hresult
      rw [Engine.eventOf_succeed (hconsistent.cause_eq_none hqueued)] at hevent
      have hcommission : (session.commission workshop agent operation).answer = .ok handle := by
        simp only [commission, hanswer, Except.map, read_of_get? hnext]
      exact ⟨_, hevent, .success handle hcommission⟩
  | error error =>
      obtain ⟨cause, hcause, -, hevent⟩ :=
        Engine.concludes_of_error hqueued (result_of_compose_eq_error hworkshop hanswer)
      rw [Engine.eventOf_fail (hconsistent.resultClass_eq_none hqueued)] at hevent
      have hcommission : (session.commission workshop agent operation).answer = .error error := by
        simp only [commission, hanswer, Except.map]
      exact ⟨_, hevent, .failure error cause hcommission (by rw [hcause, CompositionError.cause?])⟩

end Session

/-! ### A sequence of calls -/

/-- A session with the operations that were made in it. -/
structure Desk where
  session : Session
  operations : List Operation

inductive Desk.Request where
  | queue (injection : Injection) (scope : RemovalScope) (target : SharedHandle) (role : RoleRef)
  | set (place : Nat) (setting : Operation.Setting)
  | compose (workshop : Ref Workshop) (place : Nat) (agent : AgentId)

namespace Desk

variable {desk : Desk} {recorder : Ref Dispatcher} {notices : List Notice}

/-- A request for an operation or an engine that was not made is passed over. -/
def take (desk : Desk) : Request → Option Commission × Desk
  | .queue injection scope target role =>
      (none, { desk with operations := desk.operations ++ [.queued injection scope target role] })
  | .set place setting =>
      match desk.operations[place]? with
      | none => (none, desk)
      | some operation =>
          let (_, next) := operation.respond (.set setting)
          (none, { desk with operations := desk.operations.set place next })
  | .compose workshop place agent =>
      match desk.operations[place]?, desk.session.workshops.get? workshop with
      | some operation, some _ =>
          let (_, next, later) := desk.session.compose workshop agent operation
          (some (desk.session.commission workshop agent operation),
            ⟨later, desk.operations.set place next⟩)
      | _, _ => (none, desk)

def takeAll (desk : Desk) : List Request → List Commission × Desk
  | [] => ([], desk)
  | request :: rest =>
      let (commission, next) := desk.take request
      let (log, last) := next.takeAll rest
      (commission.toList ++ log, last)

def Consistent (desk : Desk) : Prop :=
  ∀ operation ∈ desk.operations, operation.Consistent

theorem Consistent.set (h : desk.Consistent) {operation : Operation}
    (hconsistent : operation.Consistent) (session : Session) (place : Nat) :
    (Desk.mk session (desk.operations.set place operation)).Consistent := by
  intro other hmem
  rcases List.mem_or_eq_of_mem_set hmem with hold | rfl
  · exact h other hold
  · exact hconsistent

/-- All that a request does: only a composition changes the session, and it is the one in the log. -/
inductive Taken (desk : Desk) : Option Commission → Desk → Prop where
  | aside (operations : List Operation) (hconsistent : (Desk.mk desk.session operations).Consistent) :
      desk.Taken none ⟨desk.session, operations⟩
  | composed (workshop : Ref Workshop) (found : Workshop) (agent : AgentId) (operation : Operation)
      (operations : List Operation) (hworkshop : desk.session.workshops.get? workshop = some found)
      (hoperation : operation ∈ desk.operations)
      (hconsistent : (Desk.mk desk.session operations).Consistent) :
      desk.Taken (some (desk.session.commission workshop agent operation))
        ⟨(desk.session.compose workshop agent operation).2.2, operations⟩

theorem taken_take (h : desk.Consistent) (request : Request) :
    desk.Taken (desk.take request).1 (desk.take request).2 := by
  cases request with
  | queue injection scope target role =>
      refine .aside _ fun operation hmem => ?_
      rcases List.mem_append.mp hmem with hold | hnew
      · exact h operation hold
      · obtain rfl := List.mem_singleton.mp hnew
        exact Operation.consistent_queued injection scope target role
  | set place setting =>
      cases hplace : desk.operations[place]? with
      | none =>
          rw [take, hplace]
          exact .aside _ h
      | some operation =>
          have hconsistent := h operation (List.mem_of_getElem? hplace)
          rw [take, hplace]
          exact .aside _ (h.set (hconsistent.respond (.set setting)) _ _)
  | compose workshop place agent =>
      cases hplace : desk.operations[place]? with
      | none =>
          rw [take, hplace]
          exact .aside _ h
      | some operation =>
          have hmem := List.mem_of_getElem? hplace
          cases hworkshop : desk.session.workshops.get? workshop with
          | none =>
              simp only [take, hplace, hworkshop]
              exact .aside _ h
          | some found =>
              have hconsistent := (h operation hmem).respond
                (.compose desk.session workshop agent (Option.isSome_of_eq_some hworkshop))
              simp only [take, hplace, hworkshop]
              exact .composed workshop found agent operation _ hworkshop hmem
                (h.set hconsistent _ _)

namespace Taken

variable {next : Desk} {commission : Option Commission}

theorem consistent (h : desk.Taken commission next) : next.Consistent := by
  cases h with
  | aside operations hconsistent => exact hconsistent
  | composed workshop found agent operation operations hworkshop hmem hconsistent =>
      exact hconsistent

theorem dispatcherOf_eq (h : desk.Taken commission next) (workshop : Ref Workshop) :
    next.session.dispatcherOf workshop = desk.session.dispatcherOf workshop := by
  cases h with
  | aside => rfl
  | composed workshop' found agent operation =>
      exact Session.dispatcherOf_compose desk.session workshop' agent operation workshop

/-- One request tells the recorder of its commission, if it is one that is reported. -/
theorem exists_recorded (h : desk.Taken commission next) (hconsistent : desk.Consistent)
    (hrecorded : desk.session.board.Recorded recorder notices) :
    ∃ told, next.session.board.Recorded recorder (notices ++ told) ∧
      List.Forall₂ Commission.Tells
        (commission.toList.filter (Commission.ReportedTo desk.session recorder)) told := by
  cases h with
  | aside operations hconsistent =>
      exact ⟨[], by rwa [List.append_nil], .nil⟩
  | composed workshop found agent operation operations hworkshop hmem _ =>
      by_cases hqueued : operation.status = .queued
      · obtain ⟨event, hevent, htells⟩ :=
          Session.exists_event_tells hworkshop hqueued (hconsistent operation hmem) agent
        have hnext := Session.recorded_compose hrecorded hworkshop hevent
        by_cases hreported : desk.session.dispatcherOf workshop = some recorder
        · rw [if_pos hreported] at hnext
          refine ⟨[⟨event.kind, event⟩], hnext, ?_⟩
          rw [Option.toList_some, List.filter_cons_of_pos]
          · exact .cons htells .nil
          · exact decide_eq_true ⟨hreported, hqueued⟩
        · rw [if_neg hreported] at hnext
          refine ⟨[], by rwa [List.append_nil], ?_⟩
          rw [Option.toList_some, List.filter_cons_of_neg]
          · exact .nil
          · exact fun htrue => hreported (of_decide_eq_true htrue).1
      · refine ⟨[], ?_, ?_⟩
        · rw [Session.compose_of_not_queued hqueued, List.append_nil]
          exact hrecorded
        · rw [Option.toList_some, List.filter_cons_of_neg]
          · exact .nil
          · exact fun htrue => hqueued (of_decide_eq_true htrue).2

end Taken

theorem exists_recorded_takeAll (hconsistent : desk.Consistent)
    (hrecorded : desk.session.board.Recorded recorder notices) (requests : List Request) :
    ∃ told, (desk.takeAll requests).2.session.board.Recorded recorder (notices ++ told) ∧
      List.Forall₂ Commission.Tells
        ((desk.takeAll requests).1.filter (Commission.ReportedTo desk.session recorder)) told := by
  induction requests generalizing desk notices with
  | nil => exact ⟨[], by rwa [List.append_nil], .nil⟩
  | cons request rest ih =>
      have htaken := taken_take hconsistent request
      obtain ⟨first, hfirst, htells⟩ := htaken.exists_recorded hconsistent hrecorded
      obtain ⟨others, hothers, htells'⟩ := ih htaken.consistent hfirst
      have hsame : Commission.ReportedTo (desk.take request).2.session recorder =
          Commission.ReportedTo desk.session recorder := by
        funext commission
        rw [Commission.ReportedTo, htaken.dispatcherOf_eq, Commission.ReportedTo]
      refine ⟨first ++ others, ?_, ?_⟩
      · rwa [← List.append_assoc]
      · simp only [hsame] at htells'
        simp only [takeAll, List.filter_append]
        exact List.rel_append htells htells'

/-- A recorder is told of the calls on the engines that report to it: in order, once of each whose
operation was queued when it was called, with what its caller was told, and of no other. -/
theorem recorder_told (session : Session) (recorder : Ref Dispatcher) (notices : List Notice)
    (h : session.board.Recorded recorder notices) (requests : List Request) :
    let work := (Desk.mk session []).takeAll requests
    ∃ told, work.2.session.board.Recorded recorder (notices ++ told) ∧
      List.Forall₂ Commission.Tells
        (work.1.filter (Commission.ReportedTo session recorder)) told := by
  intro work
  have hconsistent : (Desk.mk session []).Consistent := fun _ hmem => absurd hmem List.not_mem_nil
  exact exists_recorded_takeAll hconsistent h requests

section Observed

/-- An engine that reports to a recorder, and a fresh handle. -/
def observed : Session :=
  (Run.fresh ((Session.start.addDispatcher (.recording [])).2.addWorkshop ⟨none, false⟩ none
    (some ⟨0⟩)).2 .database).session

/-- A role is assumed, and its operation composed once more. Then come an operation that was given up
before, and one for a marker that the role does not have. -/
def observedRequests : List Request :=
  let queue (injection : Injection) := Request.queue injection .layer ⟨⟨0⟩, ⟨1⟩⟩
    ((Role.administrator true []).reference ⟨0⟩)
  [queue .addRole, .compose ⟨0⟩ 0 .zero, .compose ⟨0⟩ 0 .zero,
    queue .addRole, .set 1 (.failure .forwardersNotPrepared), .compose ⟨0⟩ 1 .zero,
    queue .addMarker, .compose ⟨0⟩ 2 .zero]

theorem recorder_told_observed :
    let work := (Desk.mk observed []).takeAll observedRequests
    observed.board.Recorded ⟨0⟩ [] ∧ work.1.length = 4 ∧
      ∃ told, work.2.session.board.Recorded ⟨0⟩ told ∧
        told.map Notice.kind = [.roleAssumed, .compositionFailed] ∧
        List.Forall₂ Commission.Tells (work.1.filter (Commission.ReportedTo observed ⟨0⟩)) told := by
  intro work
  have hrecorded : observed.board.Recorded ⟨0⟩ [] := rfl
  have hcalls : work.1.length = 4 := by decide +kernel
  have hkinds : (work.2.session.board.dispatchers.get? ⟨0⟩).map
      (fun found => found.notices.map Notice.kind) = some [.roleAssumed, .compositionFailed] := by
    decide +kernel
  obtain ⟨told, htold, htells⟩ := recorder_told observed ⟨0⟩ [] hrecorded observedRequests
  rw [show work.2.session.board.dispatchers.get? ⟨0⟩ = some (.recording told) from htold] at hkinds
  exact ⟨hrecorded, hcalls, told, htold, Option.some.inj hkinds, htells⟩

end Observed

end Desk

end RoleStack

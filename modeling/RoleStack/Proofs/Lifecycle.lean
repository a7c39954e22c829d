import RoleStack.Proofs.LastingState

/-!
# The life of an operation

An operation is set up, given up or composed, by calls in any order and on any engines. Its status only
moves forward and comes to rest at one of two ends. The cause or the class that it has then is that of
the one call that ended it, and all later calls are turned away and change nothing.
-/

namespace RoleStack

/-! ### How a composition ends its operation -/

namespace Engine

variable {engine : Engine} {registry : Registry} {sequence : Sequence}
  {read : SharedHandle → Handle} {agent : AgentId} {operation : Operation} {handle : Handle}
  {error : CompositionError}

theorem concludes_of_ok
    (h : (engine.compose registry sequence read agent operation).result = .ok handle) :
    operation.status = .queued ∧
      (engine.compose registry sequence read agent operation).operation =
        operation.succeed handle.className ∧
      (engine.compose registry sequence read agent operation).event =
        some (eventOf agent (operation.succeed handle.className)) := by
  obtain ⟨plan, hcomposes⟩ := exists_of_compose_ok h
  rw [compose_of_plan_eq_ok hcomposes.queued hcomposes.planned] at h ⊢
  cases hcarried : engine.carryOut registry ⟨sequence.next⟩ read operation plan with
  | error cause =>
      rw [hcarried] at h
      cases h
  | ok carried =>
      rw [hcarried] at h
      obtain rfl := Except.ok.inj h
      exact ⟨hcomposes.queued, rfl, rfl⟩

theorem concludes_of_error (hqueued : operation.status = .queued)
    (h : (engine.compose registry sequence read agent operation).result = .error error) :
    ∃ cause,
      error = .failed operation.target.identity operation.injection operation.role.name cause ∧
        (engine.compose registry sequence read agent operation).operation = operation.fail cause ∧
        (engine.compose registry sequence read agent operation).event =
          some (eventOf agent (operation.fail cause)) := by
  cases hplan : engine.planFor read operation with
  | error cause =>
      rw [compose_of_plan_eq_error hqueued hplan] at h ⊢
      exact ⟨cause, (Except.error.inj h).symm, rfl, rfl⟩
  | ok plan =>
      rw [compose_of_plan_eq_ok hqueued hplan] at h ⊢
      cases hcarried : engine.carryOut registry ⟨sequence.next⟩ read operation plan with
      | error cause =>
          rw [hcarried] at h
          exact ⟨cause, (Except.error.inj h).symm, rfl, rfl⟩
      | ok carried =>
          rw [hcarried] at h
          cases h

end Engine

namespace Session

variable {session : Session} {workshop : Ref Workshop} {found : Workshop} {agent : AgentId}
  {operation : Operation}

/-- An operation that is not queued is turned away before anything happens. -/
theorem compose_of_not_queued (h : operation.status ≠ .queued) (session : Session)
    (workshop : Ref Workshop) (agent : AgentId) :
    session.compose workshop agent operation =
      (.error (.operation (.notQueued operation.status)), operation, session) := by
  cases hworkshop : session.workshops.get? workshop with
  | none => exact compose_of_get?_eq_none hworkshop agent operation
  | some found =>
      unfold compose
      rw [hworkshop]
      simp only [Engine.compose_of_not_queued h, shareResult, set_registry,
        Pool.set_of_get?_eq_some hworkshop]

theorem concludes_of_compose_ok {shared : SharedHandle}
    (h : (session.compose workshop agent operation).1 = .ok shared) :
    operation.status = .queued ∧
      (session.compose workshop agent operation).2.1 =
        operation.succeed ((session.compose workshop agent operation).2.2.read shared).className := by
  obtain ⟨found, next, hworkshop, hresult, hnext⟩ := exists_of_compose_eq_ok h
  obtain ⟨hqueued, hoperation, -⟩ := Engine.concludes_of_ok hresult
  obtain ⟨board, hcompose⟩ := compose_eq hworkshop agent operation
  rw [read_of_get? hnext, hcompose]
  exact ⟨hqueued, hoperation⟩

theorem result_of_compose_eq_error (hworkshop : session.workshops.get? workshop = some found)
    {error : CompositionError}
    (h : (session.compose workshop agent operation).1 = .error error) :
    (session.composition found agent operation).result = .error error := by
  obtain ⟨board, hcompose⟩ := compose_eq hworkshop agent operation
  rw [hcompose] at h
  cases hresult : (session.composition found agent operation).result with
  | ok handle =>
      rw [hresult] at h
      cases h
  | error failure =>
      rw [hresult] at h
      exact congrArg Except.error (Except.error.inj h)

theorem concludes_of_compose_error (hworkshop : session.workshops.get? workshop = some found)
    (hqueued : operation.status = .queued) {error : CompositionError}
    (h : (session.compose workshop agent operation).1 = .error error) :
    ∃ cause, error.cause? = some cause ∧
      (session.compose workshop agent operation).2.1 = operation.fail cause := by
  obtain ⟨cause, hcause, hoperation, -⟩ :=
    Engine.concludes_of_error hqueued (result_of_compose_eq_error hworkshop h)
  obtain ⟨board, hcompose⟩ := compose_eq hworkshop agent operation
  rw [hcompose, hcause]
  exact ⟨cause, rfl, hoperation⟩

end Session

/-! ### Calls with one operation -/

namespace Status

/-- How far an operation has come. -/
def rank : Status → Nat
  | .queued => 0
  | .started => 1
  | .completedSuccess | .completedFailure => 2

/-- The status is the same, or it has moved forward. -/
def Precedes (first second : Status) : Prop :=
  first = second ∨ first.rank < second.rank

variable {first second third : Status}

theorem Precedes.trans (h : first.Precedes second) (h' : second.Precedes third) :
    first.Precedes third := by
  rcases h with rfl | hless
  · exact h'
  rcases h' with rfl | hless'
  · exact .inr hless
  · exact .inr (hless.trans hless')

end Status

namespace Operation

/-- What can be set on an operation by itself. -/
inductive Setting where
  | generator (generator : Generator)
  | transfer (transfer : Transfer)
  | failure (cause : CompositionCause)

def set (operation : Operation) : Setting → Except OperationError Operation
  | .generator generator => operation.setGenerator generator
  | .transfer transfer => operation.setTransfer transfer
  | .failure cause => operation.setFailure cause

/-- Between two calls anything may happen elsewhere, so a composition finds any session that has its
engine. -/
inductive Call where
  | set (setting : Setting)
  | compose (session : Session) (workshop : Ref Workshop) (agent : AgentId)
      (present : (session.workshops.get? workshop).isSome)

inductive Reply where
  | set (answer : Except OperationError Unit)
  /-- What the composition gave back, and the session that it left. -/
  | composed (answer : Except CompositionError SharedHandle) (later : Session)

/-- A setter that is refused leaves the operation as it was. -/
def respond (operation : Operation) : Call → Reply × Operation
  | .set setting =>
      match operation.set setting with
      | .ok next => (.set (.ok ()), next)
      | .error error => (.set (.error error), operation)
  | .compose session workshop agent _ =>
      let (answer, next, later) := session.compose workshop agent operation
      (.composed answer later, next)

structure Exchange where
  call : Call
  reply : Reply

def respondAll (operation : Operation) : List Call → List Exchange × Operation
  | [] => ([], operation)
  | call :: rest =>
      let (reply, next) := operation.respond call
      let (log, last) := next.respondAll rest
      (⟨call, reply⟩ :: log, last)

/-- How a call is turned away that comes when the operation has ended. -/
def Call.refusal (status : Status) : Call → Reply
  | .set _ => .set (.error (.sealed status))
  | .compose session _ _ _ => .composed (.error (.operation (.notQueued status))) session

namespace Exchange

/-- The cause that was accepted, or that a composition failed for. -/
def cause? : Exchange → Option CompositionCause
  | ⟨.set (.failure cause), .set (.ok _)⟩ => some cause
  | ⟨.compose .., .composed (.error error) _⟩ => error.cause?
  | _ => none

/-- The class of the handle that was given back. -/
def className? : Exchange → Option String
  | ⟨.compose .., .composed (.ok shared) later⟩ => some (later.read shared).className
  | _ => none

@[simp]
theorem cause?_refusal (call : Call) (status : Status) :
    (Exchange.mk call (call.refusal status)).cause? = none := by
  cases call with
  | set setting => cases setting <;> rfl
  | compose session workshop agent present => rfl

@[simp]
theorem className?_refusal (call : Call) (status : Status) :
    (Exchange.mk call (call.refusal status)).className? = none := by
  cases call <;> rfl

end Exchange

section Calls

variable {operation next : Operation} {call : Call} {log : List Exchange}

/-- All that a call does to a queued operation: it stays queued, or the call ends it. -/
inductive Answered (operation : Operation) (exchange : Exchange) (next : Operation) : Prop where
  | kept (hstatus : next.status = operation.status) (hcause : next.cause = operation.cause)
      (hclass : next.resultClass = operation.resultClass) (hnone : exchange.cause? = none)
      (hmade : exchange.className? = none)
  | failed (cause : CompositionCause) (hnext : next = operation.fail cause)
      (hcause : exchange.cause? = some cause) (hmade : exchange.className? = none)
  | succeeded (name : String) (hnext : next = operation.succeed name)
      (hnone : exchange.cause? = none) (hmade : exchange.className? = some name)

theorem answered_of_queued (hqueued : operation.status = .queued) (call : Call) :
    operation.Answered ⟨call, (operation.respond call).1⟩ (operation.respond call).2 := by
  have hensured : operation.ensureQueued = .ok () := by
    rw [ensureQueued, hqueued]
  cases call with
  | set setting =>
      cases setting with
      | generator generator =>
          have hset : operation.set (.generator generator) =
              .ok { operation with generator := generator } := by
            rw [set, setGenerator, hensured]
            rfl
          rw [respond, hset]
          exact .kept rfl rfl rfl rfl rfl
      | transfer transfer =>
          have hset : operation.set (.transfer transfer) =
              .ok { operation with transfer := transfer } := by
            rw [set, setTransfer, hensured]
            rfl
          rw [respond, hset]
          exact .kept rfl rfl rfl rfl rfl
      | failure cause =>
          have hset : operation.set (.failure cause) = .ok (operation.fail cause) := by
            rw [set, setFailure, hqueued]
            rfl
          rw [respond, hset]
          exact .failed cause rfl rfl rfl
  | compose session workshop agent present =>
      obtain ⟨found, hworkshop⟩ := Option.isSome_iff_exists.mp present
      simp only [respond]
      cases hanswer : (session.compose workshop agent operation).1 with
      | ok shared =>
          obtain ⟨-, hoperation⟩ := Session.concludes_of_compose_ok hanswer
          exact .succeeded _ hoperation rfl rfl
      | error error =>
          obtain ⟨cause, hcause, hoperation⟩ :=
            Session.concludes_of_compose_error hworkshop hqueued hanswer
          exact .failed cause hoperation hcause rfl

theorem respond_of_ended (hended : operation.status.isTerminal = true) (call : Call) :
    operation.respond call = (call.refusal operation.status, operation) := by
  have hensured : operation.ensureQueued = .error (.sealed operation.status) := by
    cases hstatus : operation.status <;> simp_all [ensureQueued, Status.isTerminal]
  cases call with
  | set setting =>
      have hset : operation.set setting = .error (.sealed operation.status) := by
        cases setting with
        | generator generator => rw [set, setGenerator, hensured]; rfl
        | transfer transfer => rw [set, setTransfer, hensured]; rfl
        | failure cause => rw [set, setFailure, if_pos hended]
      rw [respond, hset]
      rfl
  | compose session workshop agent present =>
      have hstatus : operation.status ≠ .queued := by
        intro hqueued
        rw [hqueued] at hended
        cases hended
      simp only [respond, Session.compose_of_not_queued hstatus]
      rfl

/-! ### What the operation tells of its calls -/

/-- Cause and class say how the operation ended, if it did, and no call leaves it half done. -/
structure Consistent (operation : Operation) : Prop where
  settled : operation.status ≠ .started
  failed : operation.cause.isSome = true ↔ operation.status = .completedFailure
  succeeded : operation.resultClass.isSome = true ↔ operation.status = .completedSuccess

theorem consistent_queued (injection : Injection) (scope : RemovalScope) (target : SharedHandle)
    (role : RoleRef) : (queued injection scope target role).Consistent :=
  ⟨Status.noConfusion, by simp [queued], by simp [queued]⟩

namespace Consistent

variable (h : operation.Consistent)
include h

theorem queued_or_ended :
    operation.status = .queued ∨ operation.status.isTerminal = true := by
  have hsettled := h.settled
  cases hstatus : operation.status with
  | queued => exact .inl rfl
  | started => exact absurd hstatus hsettled
  | completedSuccess | completedFailure => exact .inr rfl

theorem cause_eq_none (hqueued : operation.status = .queued) : operation.cause = none := by
  have hfailed := h.failed
  rw [hqueued] at hfailed
  simpa using hfailed

theorem resultClass_eq_none (hqueued : operation.status = .queued) :
    operation.resultClass = none := by
  have hsucceeded := h.succeeded
  rw [hqueued] at hsucceeded
  simpa using hsucceeded

theorem answered {exchange : Exchange} (hqueued : operation.status = .queued)
    (hanswered : operation.Answered exchange next) : next.Consistent := by
  cases hanswered with
  | kept hstatus hcause hclass _ _ =>
      refine ⟨?_, ?_, ?_⟩
      · rw [hstatus]
        exact h.settled
      · rw [hcause, hstatus]
        exact h.failed
      · rw [hclass, hstatus]
        exact h.succeeded
  | failed cause hnext _ _ =>
      subst hnext
      exact ⟨Status.noConfusion, by simp [fail],
        by simp [fail, h.resultClass_eq_none hqueued]⟩
  | succeeded name hnext _ _ =>
      subst hnext
      exact ⟨Status.noConfusion, by simp [succeed, h.cause_eq_none hqueued], by simp [succeed]⟩

theorem respond (call : Call) : (operation.respond call).2.Consistent := by
  rcases h.queued_or_ended with hqueued | hended
  · exact h.answered hqueued (answered_of_queued hqueued call)
  · rw [respond_of_ended hended]
    exact h

theorem precedes_respond (call : Call) :
    operation.status.Precedes (operation.respond call).2.status := by
  rcases h.queued_or_ended with hqueued | hended
  · cases answered_of_queued hqueued call with
    | kept hstatus _ _ _ _ => exact .inl hstatus.symm
    | failed cause hnext _ _ => exact .inr (by rw [hnext, hqueued]; exact Nat.zero_lt_two)
    | succeeded name hnext _ _ => exact .inr (by rw [hnext, hqueued]; exact Nat.zero_lt_two)
  · rw [respond_of_ended hended]
    exact .inl rfl

theorem precedes_respondAll (calls : List Call) :
    operation.status.Precedes (operation.respondAll calls).2.status := by
  induction calls generalizing operation with
  | nil => exact .inl rfl
  | cons call rest ih => exact (h.precedes_respond call).trans (ih (h.respond call))

end Consistent

/-- The operation has the cause and the class of the calls in the log, of which there is at most one
that gave any. -/
structure Accounts (operation : Operation) (log : List Exchange) : Prop
    extends operation.Consistent where
  causes : log.filterMap Exchange.cause? = operation.cause.toList
  classes : log.filterMap Exchange.className? = operation.resultClass.toList

theorem Accounts.respond (h : operation.Accounts log) (call : Call) :
    (operation.respond call).2.Accounts (log ++ [⟨call, (operation.respond call).1⟩]) := by
  have hconsistent := h.toConsistent.respond call
  rcases h.queued_or_ended with hqueued | hended
  · -- No call of the log gave anything yet, so what this one gives is all there is.
    have hcause := h.cause_eq_none hqueued
    have hclass := h.resultClass_eq_none hqueued
    cases answered_of_queued hqueued call with
    | kept _ hsame hsame' hnone hmade =>
        exact ⟨hconsistent, by simp [h.causes, hnone, hsame], by simp [h.classes, hmade, hsame']⟩
    | failed cause hnext hgiven hmade =>
        exact ⟨hconsistent, by simp [h.causes, hcause, hgiven, hnext, fail],
          by simp [h.classes, hmade, hnext, fail]⟩
    | succeeded name hnext hnone hmade =>
        exact ⟨hconsistent, by simp [h.causes, hnone, hnext, succeed],
          by simp [h.classes, hclass, hmade, hnext, succeed]⟩
  · refine ⟨hconsistent, ?_, ?_⟩
    · rw [respond_of_ended hended, List.filterMap_append, h.causes]
      simp
    · rw [respond_of_ended hended, List.filterMap_append, h.classes]
      simp

theorem Accounts.respondAll (h : operation.Accounts log) (calls : List Call) :
    (operation.respondAll calls).2.Accounts (log ++ (operation.respondAll calls).1) := by
  induction calls generalizing operation log with
  | nil => rwa [Operation.respondAll, List.append_nil]
  | cons call rest ih =>
      have hrest := ih (h.respond call)
      rwa [List.append_assoc, List.singleton_append] at hrest

theorem accounts_queued (injection : Injection) (scope : RemovalScope) (target : SharedHandle)
    (role : RoleRef) : (queued injection scope target role).Accounts [] where
  toConsistent := consistent_queued injection scope target role
  causes := rfl
  classes := rfl

/-- However an operation is used, it goes forward and ends once, with the cause or the class that the
call gave which ended it. From then on every call is turned away, and changes neither the operation nor
the session. -/
theorem ends_once (injection : Injection) (scope : RemovalScope) (target : SharedHandle)
    (role : RoleRef) (calls : List Call) :
    let history := (queued injection scope target role).respondAll calls
    history.2.Accounts history.1 ∧
      (∀ more, history.2.status.Precedes (history.2.respondAll more).2.status) ∧
      (history.2.status.isTerminal = true →
        ∀ call, history.2.respond call = (call.refusal history.2.status, history.2)) := by
  intro history
  have haccounts := (accounts_queued injection scope target role).respondAll calls
  rw [List.nil_append] at haccounts
  exact ⟨haccounts, haccounts.precedes_respondAll, respond_of_ended⟩

end Calls

section Unprepared

/-- An engine and a fresh handle. -/
def workplace : Session :=
  (Run.fresh (Session.start.addWorkshop ⟨none, false⟩ none none).2 .database).session

/-- The generator that is set makes the first composition fail; giving up and composing come too late
then. -/
def unpreparedCalls : List Call :=
  [.set (.generator (.ofStyle .unprepared)), .compose workplace ⟨0⟩ .zero rfl,
    .set (.failure (.nameCollision "DBProxy")), .compose workplace ⟨0⟩ .zero rfl]

theorem ends_once_unprepared :
    let history := (queued .addRole .layer ⟨⟨0⟩, ⟨1⟩⟩
      ((Role.administrator true []).reference ⟨0⟩)).respondAll unpreparedCalls
    history.2.status.isTerminal = true ∧ history.2.cause = some .forwardersNotPrepared ∧
      history.1.filterMap Exchange.cause? = [.forwardersNotPrepared] ∧
      ∀ transfer, history.2.respond (.set (.transfer transfer)) =
        (.set (.error (.sealed .completedFailure)), history.2) := by
  intro history
  have hended : history.2.status.isTerminal = true := rfl
  have hcause : history.2.cause = some .forwardersNotPrepared := rfl
  obtain ⟨haccounts, -, hturned⟩ := ends_once .addRole .layer ⟨⟨0⟩, ⟨1⟩⟩
    ((Role.administrator true []).reference ⟨0⟩) unpreparedCalls
  have hcauses : history.1.filterMap Exchange.cause? = history.2.cause.toList := haccounts.causes
  rw [hcause] at hcauses
  exact ⟨hended, hcause, hcauses, fun transfer => hturned hended _⟩

end Unprepared

end Operation

end RoleStack

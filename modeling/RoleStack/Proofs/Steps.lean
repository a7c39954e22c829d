import RoleStack.Proofs.TurnSteps

/-!
# What a step does

A worker in a call or a change goes on in one of three ways: the call sees its coordinator, the change
sees its writer locks and its coordinator, or the change composes. Every step is one of these, and what
follows for the other workers is the same in all three: they do what they did, or were woken.
-/

namespace RoleStack

namespace Session

/-- The session after a step of a call. -/
def proceedCall (session : Session) (reference : Ref Coordinator) (worker : Worker)
    (call : Coordinator.Call) (timeout : Option UInt64) (progress : Coordinator.Progress) : Session :=
  (({ session with
      coordinators := session.coordinators.set reference progress.coordinator } :
    Session).setActivity worker (.calling reference call progress.stage timeout)).wake reference
      progress.wakes

/-- The session after a change composed. -/
def proceedComposing (session : Session) (director : Ref Director) (found : Director)
    (worker : Worker) (change : Change) (lock : Ref WriterLock) (current : SharedHandle) : Session :=
  (session.compose found.workshop change.agent
    (change.kind.operation current change.role)).2.2.setActivity worker
      (.changing director change (Change.composed lock (session.compose found.workshop change.agent
        (change.kind.operation current change.role)).1))

inductive Stepped (session : Session) (worker : Worker) : Session → Prop where
  | call (reference : Ref Coordinator) (call : Coordinator.Call) (stage : Coordinator.Stage)
      (timeout : Option UInt64) (coordinator : Coordinator) (progress : Coordinator.Progress)
      (hactivity : session.activities.get? worker = some (.calling reference call stage timeout))
      (hcoordinated : session.coordinators.get? reference = some coordinator)
      (hprogress : call.step? coordinator worker stage = some progress) :
      session.Stepped worker (session.proceedCall reference worker call timeout progress)
  | change (director : Ref Director) (change : Change) (stage : Change.Stage) (found : Director)
      (coordinator : Coordinator) (progress : Change.Progress)
      (hactivity : session.activities.get? worker = some (.changing director change stage))
      (hdirected : session.directors.get? director = some found)
      (hcoordinated : session.coordinators.get? found.coordinator = some coordinator)
      (hprogress : change.step? worker found.writers coordinator stage = some progress) :
      session.Stepped worker (session.proceed director found worker change progress)
  | compose (director : Ref Director) (change : Change) (lock : Ref WriterLock)
      (current : SharedHandle) (found : Director)
      (hactivity :
        session.activities.get? worker = some (.changing director change (.composing lock current)))
      (hdirected : session.directors.get? director = some found) :
      session.Stepped worker (session.proceedComposing director found worker change lock current)

section Steps

variable {session later : Session} {worker : Worker} {reference : Ref Coordinator}
  {call : Coordinator.Call} {stage : Coordinator.Stage} {timeout : Option UInt64}
  {coordinator : Coordinator} {director : Ref Director} {found : Director} {change : Change}

theorem step?_calling
    (hactivity : session.activities.get? worker = some (.calling reference call stage timeout))
    (hcoordinated : session.coordinators.get? reference = some coordinator) :
    session.step? worker =
      (call.step? coordinator worker stage).map
        (session.proceedCall reference worker call timeout) := by
  rw [step?, hactivity]
  simp only [stepCall?, hcoordinated, Option.bind_eq_bind, Option.bind_some]
  cases call.step? coordinator worker stage with
  | none => rfl
  | some progress => rfl

theorem step?_changing {stage : Change.Stage}
    (hactivity : session.activities.get? worker = some (.changing director change stage))
    (hdirected : session.directors.get? director = some found)
    (hcoordinated : session.coordinators.get? found.coordinator = some coordinator)
    (hstage : ∀ lock current, stage ≠ .composing lock current) :
    session.step? worker =
      (change.step? worker found.writers coordinator stage).map
        (session.proceed director found worker change) := by
  rw [step?, hactivity]
  simp only [stepChange?, hdirected, hcoordinated, Option.bind_eq_bind, Option.bind_some]
  cases change.step? worker found.writers coordinator stage with
  | none => rfl
  | some progress => rfl

theorem step?_composing {lock : Ref WriterLock} {current : SharedHandle}
    (hactivity :
      session.activities.get? worker = some (.changing director change (.composing lock current)))
    (hdirected : session.directors.get? director = some found) :
    session.step? worker =
      some (session.proceedComposing director found worker change lock current) := by
  rw [step?, hactivity]
  simp only [stepChange?, hdirected, Option.bind_eq_bind, Option.bind_some]
  rfl

theorem Stepped.of_step? (hstep : session.step? worker = some later) :
    session.Stepped worker later := by
  cases hactivity : session.activities.get? worker with
  | none =>
      rw [step?, hactivity] at hstep
      cases hstep
  | some activity =>
      cases activity with
      | calling reference call stage timeout =>
          cases hcoordinated : session.coordinators.get? reference with
          | none =>
              rw [step?, hactivity] at hstep
              simp [stepCall?, hcoordinated] at hstep
          | some coordinator =>
              rw [step?_calling hactivity hcoordinated, Option.map_eq_some_iff] at hstep
              obtain ⟨progress, hprogress, rfl⟩ := hstep
              exact .call reference call stage timeout coordinator progress hactivity hcoordinated
                hprogress
      | changing director change stage =>
          cases hdirected : session.directors.get? director with
          | none =>
              rw [step?, hactivity] at hstep
              simp [stepChange?, hdirected] at hstep
          | some found =>
              by_cases hcomposing : ∃ lock current, stage = .composing lock current
              · obtain ⟨lock, current, rfl⟩ := hcomposing
                rw [step?_composing hactivity hdirected] at hstep
                obtain rfl := Option.some.inj hstep
                exact .compose director change lock current found hactivity hdirected
              have hstage : ∀ lock current, stage ≠ .composing lock current :=
                fun lock current hsame => hcomposing ⟨lock, current, hsame⟩
              cases hcoordinated : session.coordinators.get? found.coordinator with
              | none =>
                  rw [step?, hactivity] at hstep
                  simp [stepChange?, hdirected, hcoordinated] at hstep
              | some coordinator =>
                  rw [step?_changing hactivity hdirected hcoordinated hstage,
                    Option.map_eq_some_iff] at hstep
                  obtain ⟨progress, hprogress, rfl⟩ := hstep
                  exact .change director change stage found coordinator progress hactivity
                    hdirected hcoordinated hprogress

/-! ### What stays -/

theorem proceedCall_frame (session : Session) (reference : Ref Coordinator) (worker : Worker)
    (call : Coordinator.Call) (timeout : Option UInt64) (progress : Coordinator.Progress) :
    (session.proceedCall reference worker call timeout progress).directors = session.directors ∧
      (session.proceedCall reference worker call timeout progress).coordinators =
        session.coordinators.set reference progress.coordinator ∧
      (session.proceedCall reference worker call timeout progress).handles = session.handles :=
  wake_frame _ _ _

theorem get?_proceedCall (session : Session) (reference : Ref Coordinator) (worker : Worker)
    (call : Coordinator.Call) (timeout : Option UInt64) (progress : Coordinator.Progress)
    (other : Worker) :
    (session.proceedCall reference worker call timeout progress).activities.get? other =
      ((session.setActivity worker
        (.calling reference call progress.stage timeout)).activities.get? other).map
          (Activity.wakeAt reference progress.wakes) :=
  get?_wake _ _ _ other

theorem proceed_frame (session : Session) (director : Ref Director) (found : Director)
    (worker : Worker) (change : Change) (progress : Change.Progress) :
    (session.proceed director found worker change progress).directors =
        session.directors.set director { found with writers := progress.writers } ∧
      (session.proceed director found worker change progress).coordinators =
        session.coordinators.set found.coordinator progress.coordinator ∧
      (session.proceed director found worker change progress).handles = session.handles :=
  wake_frame _ _ _

theorem proceedComposing_frame (session : Session) (director : Ref Director) (found : Director)
    (worker : Worker) (change : Change) (lock : Ref WriterLock) (current : SharedHandle) :
    (session.proceedComposing director found worker change lock current).directors =
        session.directors ∧
      (session.proceedComposing director found worker change lock current).coordinators =
        session.coordinators := by
  obtain ⟨hcoordinators, hdirectors, -⟩ := session.compose_frame found.workshop change.agent
    (change.kind.operation current change.role)
  exact ⟨hdirectors, hcoordinators⟩

theorem get?_proceedComposing (session : Session) (director : Ref Director) (found : Director)
    (worker : Worker) (change : Change) (lock : Ref WriterLock) (current : SharedHandle)
    (other : Worker) :
    (session.proceedComposing director found worker change lock current).activities.get? other =
      (session.setActivity worker (.changing director change (Change.composed lock
        (session.compose found.workshop change.agent
          (change.kind.operation current change.role)).1))).activities.get? other := by
  obtain ⟨-, -, hactivities⟩ := session.compose_frame found.workshop change.agent
    (change.kind.operation current change.role)
  rw [proceedComposing, get?_setActivity, get?_setActivity, hactivities]

theorem of_get?_setActivity {other : Worker} {activity present : Activity}
    (h : (session.setActivity worker activity).activities.get? other = some present) :
    (other = worker ∧ present = activity) ∨
      (other ≠ worker ∧ session.activities.get? other = some present) := by
  rw [get?_setActivity] at h
  by_cases hother : worker = other
  · rw [if_pos hother] at h
    exact Or.inl ⟨hother.symm, (Option.some.inj h).symm⟩
  · rw [if_neg hother] at h
    exact Or.inr ⟨Ne.symm hother, h⟩

/-- What is seen of a worker after a step is the activity that the step led to, if the step was its own,
and otherwise what the worker did before; in both it may have been woken. -/
theorem of_get?_step {other : Worker} {activity present : Activity} {woken : Ref Coordinator}
    {wakes : Option (Ref Entry)}
    (hactivities : ∀ other, later.activities.get? other =
      ((session.setActivity worker activity).activities.get? other).map
        (Activity.wakeAt woken wakes))
    (h : later.activities.get? other = some present) :
    (other = worker ∧ present = activity.wakeAt woken wakes) ∨
      (other ≠ worker ∧ ∃ before, session.activities.get? other = some before ∧
        present = before.wakeAt woken wakes) := by
  rw [hactivities, Option.map_eq_some_iff] at h
  obtain ⟨before, hbefore, rfl⟩ := h
  rcases of_get?_setActivity hbefore with ⟨hother, rfl⟩ | ⟨hother, hpresent⟩
  · exact Or.inl ⟨hother, rfl⟩
  · exact Or.inr ⟨hother, before, hpresent, rfl⟩

/-- Shared handles stay shared, whatever the worker does. -/
theorem Shares.step {identity : Identity} {version : SharedHandle}
    (h : session.Shares identity version) (hstep : session.step? worker = some later) :
    later.Shares identity version := by
  cases Stepped.of_step? hstep with
  | call reference call stage timeout coordinator progress hactivity hcoordinated hprogress =>
      rw [Shares, (session.proceedCall_frame reference worker call timeout progress).2.2]
      exact h
  | change director change stage found coordinator progress hactivity hdirected hcoordinated
      hprogress =>
      rw [Shares, (session.proceed_frame director found worker change progress).2.2]
      exact h
  | compose director change lock current found hactivity hdirected => exact h.compose _ _ _

end Steps

end Session

end RoleStack

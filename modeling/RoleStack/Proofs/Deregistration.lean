import RoleStack.Proofs.Retirement

/-!
# Deregistration

Workers change, register and deregister one identity in any order of their steps. A deregistration takes
no writer lock, so it may fall between any two steps of a change. It lasts until the identity is
registered again or a change that had its version by then takes its hold or stores.
-/

namespace RoleStack

/-! ### What the workers do -/

/-- A step around an identity of a director. To deregister is to forget the writer lock and then to
delete; other steps may come in between. -/
inductive Action where
  | start (worker : Worker) (change : Change)
  | step (worker : Worker)
  | collect (worker : Worker)
  | register (handle : SharedHandle)
  | forgetWriter
  | delete

namespace Session

def forgetWriter (session : Session) (director : Ref Director) (identity : Identity) : Session :=
  match session.directors.get? director with
  | none => session
  | some found =>
      { session with
        directors := session.directors.set director
          { found with writers := found.writers.forget identity } }

/-- Those who sleep on the entry wake up. -/
def delete (session : Session) (director : Ref Director) (identity : Identity) : Session :=
  match session.directors.get? director with
  | none => session
  | some found =>
      let coordinator := session.coordinator found.coordinator
      let session :=
        { session with
          coordinators :=
            session.coordinators.set found.coordinator (coordinator.delete identity).2 }
      session.wake found.coordinator (coordinator.find? identity)

/-- What an action leads to, if it can be taken. -/
def act? (session : Session) (director : Ref Director) (identity : Identity) :
    Action → Option Session
  | .start worker change =>
      if (session.activities.get? worker).isNone ∧ change.identity = identity then
        some (session.setActivity worker (.changing director change .begun))
      else none
  | .step worker => session.step? worker
  | .collect worker => some (session.collect worker).2
  | .register handle =>
      if handle.identity = identity then some (session.register director handle).2 else none
  | .forgetWriter => some (session.forgetWriter director identity)
  | .delete => some (session.delete director identity)

def actAll? (session : Session) (director : Ref Director) (identity : Identity) :
    List Action → Option Session
  | [] => some session
  | action :: rest =>
      (session.act? director identity action).bind fun next => next.actAll? director identity rest

theorem forget_eq_delete (session : Session) (director : Ref Director) (identity : Identity) :
    (session.forget director identity).2 =
      (session.forgetWriter director identity).delete director identity := by
  unfold forget forgetWriter
  cases hdirector : session.directors.get? director with
  | none => simp only [delete, hdirector]
  | some found =>
      simp only [delete, Pool.get?_set_of_get? hdirector]
      rfl

/-- A director that nobody uses. -/
structure Rests (session : Session) (director : Ref Director) (identity : Identity) : Prop where
  placed : ∃ found coordinator, session.directors.get? director = some found ∧
    session.coordinators.get? found.coordinator = some coordinator ∧ coordinator.Known identity
  idle : ∀ worker, session.activities.get? worker = none

/-- The worker is in a change that has read its version and may still have to store. -/
def HasRead (session : Session) (worker : Worker) : Prop :=
  ∃ director change stage, session.activities.get? worker = some (.changing director change stage) ∧
    stage.HasRead

/-- The next step of the worker takes a hold or stores. -/
def Retracks (session : Session) (worker : Worker) : Prop :=
  ∃ director change stage, session.activities.get? worker = some (.changing director change stage) ∧
    stage.Tracks

/-- The coordinator of the director does not have the identity, and gives no version of it. -/
def Untracks (session : Session) (director : Ref Director) (identity : Identity) : Prop :=
  ∃ found, session.directors.get? director = some found ∧
    (session.coordinator found.coordinator).contains identity = false ∧
    ∀ worker, (session.coordinator found.coordinator).current? worker identity = some none

end Session

/-! ### What every action preserves -/

/-- A change to the identity, and if it found an entry, that of the identity or a retired one. -/
def Activity.Concerns (director : Ref Director) (identity : Identity) (coordinator : Coordinator) :
    Activity → Prop
  | .calling .. => False
  | .changing other change stage => other = director ∧ change.identity = identity ∧
      ∀ lock cell, stage = .waiting lock cell → coordinator.Offers identity cell

/-- All workers are idle or change the identity through the director. -/
structure Session.Around (session : Session) (director : Ref Director) (identity : Identity)
    (found : Director) (coordinator : Coordinator) : Prop where
  directed : session.directors.get? director = some found
  coordinated : session.coordinators.get? found.coordinator = some coordinator
  known : coordinator.Known identity
  concerns : ∀ worker activity, session.activities.get? worker = some activity →
    activity.Concerns director identity coordinator

section Actions

variable {session later last : Session} {director : Ref Director} {identity : Identity}
  {found : Director} {coordinator next : Coordinator} {worker : Worker} {activity : Activity}
  {change : Change} {stage : Change.Stage} {action : Action} {late : Worker → Prop}

theorem Activity.Concerns.follow (h : activity.Concerns director identity coordinator)
    (hfollows : Coordinator.Follows identity coordinator next) :
    activity.Concerns director identity next := by
  cases activity with
  | calling reference call stage timeout => cases h
  | changing other change stage =>
      exact ⟨h.1, h.2.1, fun lock cell hstage => hfollows.offers cell (h.2.2 lock cell hstage)⟩

theorem Activity.Concerns.wakeAt (h : activity.Concerns director identity coordinator)
    (woken : Ref Coordinator) (cell : Option (Ref Entry)) : activity.wakeAt woken cell = activity := by
  cases activity with
  | calling reference call stage timeout => cases h
  | changing other change stage => exact Activity.wakeAt_changing woken cell other change stage

namespace Session

theorem Rests.around (h : session.Rests director identity) :
    ∃ found coordinator, session.Around director identity found coordinator := by
  obtain ⟨found, coordinator, hdirected, hcoordinated, hknown⟩ := h.placed
  refine ⟨found, coordinator, hdirected, hcoordinated, hknown, ?_⟩
  intro worker activity hactivity
  rw [h.idle] at hactivity
  cases hactivity

theorem Around.coordinator_eq (h : session.Around director identity found coordinator) :
    session.coordinator found.coordinator = coordinator := by
  rw [Session.coordinator, h.coordinated, Option.getD_some]

/-- Nobody sleeps in a call, so nobody wakes up. -/
theorem Around.get?_map_wakeAt (h : session.Around director identity found coordinator)
    (woken : Ref Coordinator) (cell : Option (Ref Entry)) (worker : Worker) :
    (session.activities.get? worker).map (Activity.wakeAt woken cell) =
      session.activities.get? worker := by
  cases hactivity : session.activities.get? worker with
  | none => rfl
  | some activity => rw [Option.map_some, (h.concerns worker activity hactivity).wakeAt woken cell]

theorem Around.follow (h : session.Around director identity found coordinator) {reached : Director}
    (hdirected : later.directors.get? director = some reached)
    (hcoordinated : later.coordinators.get? reached.coordinator = some next)
    (hfollows : Coordinator.Follows identity coordinator next)
    (hconcerns : ∀ worker activity, later.activities.get? worker = some activity →
      session.activities.get? worker = some activity ∨ activity.Concerns director identity next) :
    later.Around director identity reached next where
  directed := hdirected
  coordinated := hcoordinated
  known := hfollows.known h.known
  concerns := by
    intro worker activity hactivity
    rcases hconcerns worker activity hactivity with hbefore | hnew
    · exact (h.concerns worker activity hbefore).follow hfollows
    · exact hnew

/-- Only this worker's activity is another one afterwards. -/
def Moves (session later : Session) (director : Ref Director) (worker : Worker) (change : Change)
    (reached : Change.Stage) : Prop :=
  ∀ other, later.activities.get? other =
    if worker = other then some (.changing director change reached) else session.activities.get? other

theorem Around.moved {reached : Director} {stage : Change.Stage}
    (h : session.Around director identity found coordinator)
    (hdirected : later.directors.get? director = some reached)
    (hcoordinated : later.coordinators.get? reached.coordinator = some next)
    (hfollows : Coordinator.Follows identity coordinator next)
    (hmoves : session.Moves later director worker change stage) (hidentity : change.identity = identity)
    (hwaits : ∀ lock cell, stage = .waiting lock cell → next.find? identity = some cell) :
    later.Around director identity reached next := by
  refine h.follow hdirected hcoordinated hfollows ?_
  intro other activity hactivity
  rw [hmoves] at hactivity
  split at hactivity
  · obtain rfl := Option.some.inj hactivity
    exact Or.inr ⟨rfl, hidentity, fun lock cell hstage => Or.inl (hwaits lock cell hstage)⟩
  · exact Or.inl hactivity

theorem Around.composed (h : session.Around director identity found coordinator)
    (workshop : Ref Workshop) (agent : AgentId) (operation : Operation)
    (hidentity : change.identity = identity) {reached : Change.Stage}
    (hwaits : ∀ lock cell, reached = .waiting lock cell → coordinator.find? identity = some cell)
    (hcomposed : later = (session.compose workshop agent operation).2.2.setActivity worker
      (.changing director change reached)) :
    session.Moves later director worker change reached ∧
      later.Around director identity found coordinator := by
  subst hcomposed
  obtain ⟨hcoordinators, hdirectors, hactivities⟩ := session.compose_frame workshop agent operation
  have hmoves : session.Moves ((session.compose workshop agent operation).2.2.setActivity worker
      (.changing director change reached)) director worker change reached := by
    intro other
    rw [get?_setActivity, hactivities]
  refine ⟨hmoves, h.moved ?_ ?_ (.refl _ _) hmoves hidentity hwaits⟩
  · simp only [setActivity, hdirectors]
    exact h.directed
  · simp only [setActivity, hcoordinators]
    exact h.coordinated

theorem Around.stepChange (h : session.Around director identity found coordinator)
    (hidentity : change.identity = identity)
    (hstep : session.stepChange? worker director change stage = some later) :
    ∃ writers next reached, session.Moves later director worker change reached ∧
      change.Effect worker coordinator stage next reached ∧
      later.Around director identity { found with writers := writers } next := by
  by_cases hcomposing : ∃ lock current, stage = .composing lock current
  · obtain ⟨lock, current, rfl⟩ := hcomposing
    have heffect := change.effect_of_composed worker coordinator lock current
      (session.compose found.workshop change.agent (change.kind.operation current change.role)).1
    obtain ⟨hmoves, haround⟩ := h.composed _ _ _ hidentity (hidentity ▸ heffect.waits)
      (eq_of_stepChange?_composing h.directed hstep)
    exact ⟨found.writers, coordinator, _, hmoves, heffect, haround⟩
  obtain ⟨progress, hprogress, rfl⟩ := exists_of_stepChange? h.directed h.coordinated
    (fun lock current hsame => hcomposing ⟨lock, current, hsame⟩) hstep
  have heffect := Change.effect_of_step? hprogress
  have hmoves : session.Moves (session.proceed director found worker change progress) director worker
      change progress.stage := by
    intro other
    rw [get?_proceed, h.get?_map_wakeAt]
  exact ⟨progress.writers, progress.coordinator, progress.stage, hmoves, heffect,
    h.moved (proceed_directed h.directed worker change progress)
      (proceed_coordinated h.coordinated director worker change progress)
      (hidentity ▸ heffect.follows) hmoves hidentity (hidentity ▸ heffect.waits)⟩

/-- A worker that can take a step is in a change to the identity, and goes on with it. -/
theorem Around.step (h : session.Around director identity found coordinator)
    (hstep : session.step? worker = some later) :
    ∃ change stage writers next reached, change.identity = identity ∧
      session.activities.get? worker = some (.changing director change stage) ∧
      session.Moves later director worker change reached ∧
      change.Effect worker coordinator stage next reached ∧
      later.Around director identity { found with writers := writers } next := by
  rw [step?] at hstep
  cases hactivity : session.activities.get? worker with
  | none =>
      rw [hactivity] at hstep
      cases hstep
  | some activity =>
      rw [hactivity] at hstep
      have hconcerns := h.concerns worker activity hactivity
      cases activity with
      | calling reference call stage timeout => cases hconcerns
      | changing other change stage =>
          obtain ⟨rfl, hidentity, -⟩ := hconcerns
          obtain ⟨writers, next, reached, hmoved⟩ := h.stepChange hidentity hstep
          exact ⟨change, stage, writers, next, reached, hidentity, rfl, hmoved⟩

theorem Around.start (h : session.Around director identity found coordinator)
    (hidentity : change.identity = identity) (worker : Worker) :
    (session.setActivity worker (.changing director change .begun)).Around director identity found
      coordinator :=
  h.moved h.directed h.coordinated (.refl _ _)
    (fun other => get?_setActivity session worker other (.changing director change .begun)) hidentity
    (by rintro _ _ ⟨⟩)

theorem Around.collect (h : session.Around director identity found coordinator) (worker : Worker) :
    (session.collect worker).2.Around director identity found coordinator := by
  obtain ⟨hdirectors, hcoordinators, -⟩ := session.collect_frame worker
  refine h.follow ?_ ?_ (.refl _ _) fun _ _ hactivity => Or.inl (get?_of_collect hactivity)
  · rw [hdirectors]
    exact h.directed
  · rw [hcoordinators]
    exact h.coordinated

theorem Around.register (h : session.Around director identity found coordinator)
    (handle : SharedHandle) :
    (session.register director handle).2.Around director identity found
      (coordinator.store handle).2 := by
  rw [Session.register, h.directed]
  simp only [h.coordinator_eq]
  refine h.follow h.directed ?_ (Coordinator.follows_store identity coordinator handle) ?_
  · exact Pool.get?_set_of_get? h.coordinated _
  · exact fun _ _ hactivity => Or.inl hactivity

theorem Around.forgetWriter (h : session.Around director identity found coordinator) :
    (session.forgetWriter director identity).Around director identity
      { found with writers := found.writers.forget identity } coordinator := by
  rw [Session.forgetWriter, h.directed]
  exact h.follow (Pool.get?_set_of_get? h.directed _) h.coordinated (.refl _ _)
    fun _ _ hactivity => Or.inl hactivity

theorem Around.delete (h : session.Around director identity found coordinator) :
    (session.delete director identity).Around director identity found
      (coordinator.delete identity).2 := by
  rw [Session.delete, h.directed]
  simp only [h.coordinator_eq]
  refine h.follow ?_ ?_ (Coordinator.follows_delete h.known) ?_
  · rw [(wake_frame _ _ _).1]
    exact h.directed
  · rw [(wake_frame _ _ _).2.1]
    exact Pool.get?_set_of_get? h.coordinated _
  · intro worker activity hactivity
    rw [get?_wake, h.get?_map_wakeAt] at hactivity
    exact Or.inl hactivity

theorem Around.act (h : session.Around director identity found coordinator)
    (hact : session.act? director identity action = some later) :
    ∃ found coordinator, later.Around director identity found coordinator := by
  cases action with
  | start worker change =>
      rw [act?] at hact
      split at hact
      · rename_i hidle
        obtain rfl := Option.some.inj hact
        exact ⟨found, coordinator, h.start hidle.2 worker⟩
      · cases hact
  | step worker =>
      obtain ⟨-, -, writers, next, -, -, -, -, -, hafter⟩ := h.step hact
      exact ⟨{ found with writers := writers }, next, hafter⟩
  | collect worker =>
      obtain rfl := Option.some.inj hact
      exact ⟨found, coordinator, h.collect worker⟩
  | register handle =>
      rw [act?] at hact
      split at hact
      · obtain rfl := Option.some.inj hact
        exact ⟨found, _, h.register handle⟩
      · cases hact
  | forgetWriter =>
      obtain rfl := Option.some.inj hact
      exact ⟨_, coordinator, h.forgetWriter⟩
  | delete =>
      obtain rfl := Option.some.inj hact
      exact ⟨found, _, h.delete⟩

theorem Around.actAll {actions : List Action}
    (h : session.Around director identity found coordinator)
    (hactions : session.actAll? director identity actions = some last) :
    ∃ found coordinator, last.Around director identity found coordinator := by
  induction actions generalizing session found coordinator with
  | nil =>
      obtain rfl := Option.some.inj hactions
      exact ⟨found, coordinator, h⟩
  | cons action rest ih =>
      rw [actAll?, Option.bind_eq_some_iff] at hactions
      obtain ⟨later, hact, hrest⟩ := hactions
      obtain ⟨found, coordinator, hlater⟩ := h.act hact
      exact ih hlater hrest

/-! ### After a removal -/

/-- The identity is not tracked, and nobody but these workers has a version of it. -/
structure Removed (session : Session) (director : Ref Director) (identity : Identity)
    (late : Worker → Prop) : Prop where
  around : ∃ found coordinator, session.Around director identity found coordinator ∧
    coordinator.find? identity = none
  late : ∀ worker, session.HasRead worker → late worker

theorem Removed.untracks (h : session.Removed director identity late) :
    session.Untracks director identity := by
  obtain ⟨found, coordinator, haround, hremoved⟩ := h.around
  refine ⟨found, haround.directed, ?_, ?_⟩
  · rw [haround.coordinator_eq, Coordinator.contains, Table.contains,
      show coordinator.entries.get? identity = none from hremoved, Option.isSome_none]
  · intro worker
    rw [haround.coordinator_eq, Coordinator.current?, hremoved]

theorem Around.hasRead_delete (h : session.Around director identity found coordinator)
    (hread : (session.delete director identity).HasRead worker) : session.HasRead worker := by
  obtain ⟨other, change, stage, hactivity, hstage⟩ := hread
  rw [Session.delete, h.directed] at hactivity
  simp only [get?_wake] at hactivity
  rw [h.get?_map_wakeAt] at hactivity
  exact ⟨other, change, stage, hactivity, hstage⟩

theorem Around.removed (h : session.Around director identity found coordinator) :
    (session.delete director identity).Removed director identity session.HasRead where
  around := ⟨found, _, h.delete, coordinator.find?_delete identity⟩
  late _ := h.hasRead_delete

/-- A worker that goes on either has a version already and tracks the identity, or gets none. -/
theorem Removed.step (h : session.Removed director identity late)
    (hstep : session.step? worker = some later) :
    (late worker ∧ session.Retracks worker) ∨ later.Removed director identity late := by
  obtain ⟨found, coordinator, haround, hremoved⟩ := h.around
  obtain ⟨change, stage, writers, next, reached, rfl, hactivity, hmoves, heffect, hafter⟩ :=
    haround.step hstep
  by_cases hstage : stage.Tracks
  · exact Or.inl ⟨h.late worker ⟨director, change, stage, hactivity, hstage.hasRead⟩,
      director, change, stage, hactivity, hstage⟩
  obtain ⟨-, -, hoffered⟩ := haround.concerns worker _ hactivity
  obtain ⟨hstays, hreads⟩ := heffect.of_removed hremoved hoffered hstage
  refine Or.inr ⟨⟨_, next, hafter, hstays⟩, ?_⟩
  rintro other ⟨reference, present, stage', hpresent, hread⟩
  rw [hmoves] at hpresent
  split at hpresent
  · rename_i hsame
    subst hsame
    obtain ⟨rfl, rfl, rfl⟩ := Activity.changing.inj (Option.some.inj hpresent)
    exact h.late worker ⟨director, change, stage, hactivity, hreads hread⟩
  · exact h.late other ⟨reference, present, stage', hpresent, hread⟩

/-- A worker that starts anew has no version, whatever it had before. -/
theorem Removed.start (h : session.Removed director identity late)
    (hidentity : change.identity = identity) (worker : Worker) :
    (session.setActivity worker (.changing director change .begun)).Removed director identity
      fun other => late other ∧ other ≠ worker := by
  obtain ⟨found, coordinator, haround, hremoved⟩ := h.around
  refine ⟨⟨found, coordinator, haround.start hidentity worker, hremoved⟩, ?_⟩
  rintro other ⟨reference, present, stage, hpresent, hread⟩
  rw [get?_setActivity] at hpresent
  split at hpresent
  · obtain ⟨-, -, rfl⟩ := Activity.changing.inj (Option.some.inj hpresent)
    cases hread
  · rename_i hother
    exact ⟨h.late other ⟨reference, present, stage, hpresent, hread⟩, Ne.symm hother⟩

theorem Removed.collect (h : session.Removed director identity late) (worker : Worker) :
    (session.collect worker).2.Removed director identity late := by
  obtain ⟨found, coordinator, haround, hremoved⟩ := h.around
  refine ⟨⟨found, coordinator, haround.collect worker, hremoved⟩, ?_⟩
  rintro other ⟨reference, present, stage, hpresent, hread⟩
  exact h.late other ⟨reference, present, stage, get?_of_collect hpresent, hread⟩

theorem Removed.forgetWriter (h : session.Removed director identity late) :
    (session.forgetWriter director identity).Removed director identity late := by
  obtain ⟨found, coordinator, haround, hremoved⟩ := h.around
  refine ⟨⟨_, coordinator, haround.forgetWriter, hremoved⟩, ?_⟩
  rintro other ⟨reference, present, stage, hpresent, hread⟩
  rw [Session.forgetWriter, haround.directed] at hpresent
  exact h.late other ⟨reference, present, stage, hpresent, hread⟩

theorem Removed.delete (h : session.Removed director identity late) :
    (session.delete director identity).Removed director identity late := by
  obtain ⟨found, coordinator, haround, -⟩ := h.around
  exact ⟨haround.removed.around, fun other hread => h.late other (haround.hasRead_delete hread)⟩

/-- The workers of `late` that have not started another change by this action. -/
def Still (late : Worker → Prop) (action : Action) (worker : Worker) : Prop :=
  late worker ∧ ∀ change, action ≠ .start worker change

theorem Removed.still (h : session.Removed director identity late)
    (hother : ∀ worker change, action ≠ .start worker change) :
    session.Removed director identity (Still late action) :=
  ⟨h.around, fun worker hread => ⟨h.late worker hread, hother worker⟩⟩

theorem Removed.act (h : session.Removed director identity late)
    (hact : session.act? director identity action = some later) :
    (∃ handle, action = .register handle) ∨
      (∃ worker, action = .step worker ∧ late worker ∧ session.Retracks worker) ∨
      later.Removed director identity (Still late action) := by
  cases action with
  | start worker change =>
      rw [act?] at hact
      split at hact
      · rename_i hidle
        obtain rfl := Option.some.inj hact
        obtain ⟨haround, hlate⟩ := h.start hidle.2 worker
        refine Or.inr (Or.inr ⟨haround, fun other hread => ⟨(hlate other hread).1, ?_⟩⟩)
        rintro change' hsame
        exact (hlate other hread).2 (Action.start.inj hsame).1.symm
      · cases hact
  | step worker =>
      rcases h.step hact with hlate | hremoved
      · exact Or.inr (Or.inl ⟨worker, rfl, hlate⟩)
      · exact Or.inr (Or.inr (hremoved.still fun _ _ => Action.noConfusion))
  | collect worker =>
      obtain rfl := Option.some.inj hact
      exact Or.inr (Or.inr ((h.collect worker).still fun _ _ => Action.noConfusion))
  | register handle => exact Or.inl ⟨handle, rfl⟩
  | forgetWriter =>
      obtain rfl := Option.some.inj hact
      exact Or.inr (Or.inr (h.forgetWriter.still fun _ _ => Action.noConfusion))
  | delete =>
      obtain rfl := Option.some.inj hact
      exact Or.inr (Or.inr (h.delete.still fun _ _ => Action.noConfusion))

theorem Removed.actAll {actions : List Action} (h : session.Removed director identity late)
    (hactions : session.actAll? director identity actions = some last) :
    last.Untracks director identity ∨
      ∃ earlier action rest middle, actions = earlier ++ action :: rest ∧
        session.actAll? director identity earlier = some middle ∧
        ((∃ handle, action = .register handle) ∨
          ∃ worker, action = .step worker ∧ late worker ∧
            (∀ change, .start worker change ∉ earlier) ∧ middle.Retracks worker) := by
  induction actions generalizing session late with
  | nil =>
      obtain rfl := Option.some.inj hactions
      exact Or.inl h.untracks
  | cons action rest ih =>
      rw [actAll?, Option.bind_eq_some_iff] at hactions
      obtain ⟨later, hact, hrest⟩ := hactions
      rcases h.act hact with hregister | ⟨worker, hworker, hlate, hretracks⟩ | hremoved
      · exact Or.inr ⟨[], action, rest, session, rfl, rfl, Or.inl hregister⟩
      · refine Or.inr ⟨[], action, rest, session, rfl, rfl, Or.inr ⟨worker, hworker, hlate, ?_⟩⟩
        exact ⟨fun _ => List.not_mem_nil, hretracks⟩
      rcases ih hremoved hrest with huntracks | ⟨earlier, ending, others, middle, rfl, hmiddle, hends⟩
      · exact Or.inl huntracks
      refine Or.inr ⟨action :: earlier, ending, others, middle, rfl, ?_, ?_⟩
      · rw [actAll?, hact, Option.bind_some]
        exact hmiddle
      refine hends.imp id ?_
      rintro ⟨worker, hworker, ⟨hlate, hstill⟩, hearlier, hretracks⟩
      refine ⟨worker, hworker, hlate, fun change hstarts => ?_, hretracks⟩
      rcases List.mem_cons.mp hstarts with hsame | hmem
      · exact hstill change hsame.symm
      · exact hearlier change hmem

/-- Whatever the workers do after an identity was deleted, it stays untracked until it is registered
again or a worker that had read its version before the deletion takes its hold or stores, still in the
change that it was in. -/
theorem untracked_after_delete {start : Session} {before after : List Action}
    (hrests : start.Rests director identity)
    (hbefore : start.actAll? director identity before = some session)
    (hafter : (session.delete director identity).actAll? director identity after = some last) :
    last.Untracks director identity ∨
      ∃ earlier action rest middle, after = earlier ++ action :: rest ∧
        (session.delete director identity).actAll? director identity earlier = some middle ∧
        ((∃ handle, action = .register handle) ∨
          ∃ worker, action = .step worker ∧ session.HasRead worker ∧
            (∀ change, .start worker change ∉ earlier) ∧ middle.Retracks worker) := by
  obtain ⟨found, coordinator, hstart⟩ := hrests.around
  obtain ⟨found, coordinator, haround⟩ := hstart.actAll hbefore
  exact haround.removed.actAll hafter

/-! ### A registered identity and one change -/

/-- A director with one registered identity. -/
def oneRegistered : Session :=
  let opened := (((start.addWorkshop ⟨none, false⟩ none none).2.addCoordinator ⟨0⟩).2
    |>.addDirector ⟨0⟩ ⟨0⟩).2
  let (handle, made) := opened.instantiate .database
  let (shared, made) := made.share handle
  (made.register ⟨0⟩ shared).2

theorem rests_oneRegistered : oneRegistered.Rests ⟨0⟩ ⟨1⟩ := by
  refine ⟨⟨_, _, rfl, rfl, ?_⟩, fun _ => rfl⟩
  intro cell hcell
  obtain rfl := Option.some.inj hcell
  exact ⟨_, rfl⟩

theorem registers_oneRegistered : oneRegistered.Registers ⟨0⟩ ⟨⟨0⟩, ⟨1⟩⟩ := by
  refine ⟨⟨⟨⟨0⟩, ⟨0⟩, Writers.empty⟩, _, ⟨0⟩, rfl, rfl, ⟨rfl, _, rfl, rfl, rfl⟩, ?_⟩,
    ⟨rfl, _, rfl, rfl⟩, fun _ => rfl⟩
  intro lock hlock
  cases hlock

/-- A worker starts to assume a role, and takes some steps. -/
def assuming (steps : Nat) : List Action :=
  .start ⟨"first"⟩ ⟨.assume, ⟨1⟩, (Role.administrator true []).reference ⟨0⟩, .zero⟩ ::
    List.replicate steps (.step ⟨"first"⟩)

/-- The change has found the entry and not read its version when the identity is deregistered. It ends
there, and the next change does not find the identity any more. -/
theorem untracked_after_delete_waiting :
    ∃ session last, oneRegistered.Rests ⟨0⟩ ⟨1⟩ ∧
      oneRegistered.actAll? ⟨0⟩ ⟨1⟩ (assuming 3 ++ [.forgetWriter]) = some session ∧
      (session.delete ⟨0⟩ ⟨1⟩).actAll? ⟨0⟩ ⟨1⟩
        (List.replicate 2 (.step ⟨"first"⟩) ++ .collect ⟨"first"⟩ :: assuming 4) = some last ∧
      last.Untracks ⟨0⟩ ⟨1⟩ := by
  refine ⟨_, _, rests_oneRegistered, rfl, rfl, ?_⟩
  refine (@untracked_after_delete _ _ ⟨0⟩ ⟨1⟩ oneRegistered (assuming 3 ++ [.forgetWriter])
    (List.replicate 2 (.step ⟨"first"⟩) ++ .collect ⟨"first"⟩ :: assuming 4)
    rests_oneRegistered rfl rfl).resolve_right ?_
  rintro ⟨earlier, action, rest, middle, hactions, -, hends⟩
  have hmem : action ∈ List.replicate 2 (.step ⟨"first"⟩) ++ .collect ⟨"first"⟩ :: assuming 4 := by
    rw [hactions]
    exact List.mem_append_right _ List.mem_cons_self
  rcases hends with ⟨handle, rfl⟩ | ⟨worker, rfl, ⟨director, change, stage, hactivity, hread⟩, -⟩
  · simp [assuming] at hmem
  · obtain rfl : worker = ⟨"first"⟩ := by simpa [assuming] using hmem
    obtain ⟨-, -, rfl⟩ := Activity.changing.inj (Option.some.inj hactivity)
    cases hread

/-- The change is about to store when the identity is deregistered, and the store tracks it again. -/
theorem tracked_after_forget :
    ∃ session last, oneRegistered.Rests ⟨0⟩ ⟨1⟩ ∧
      oneRegistered.actAll? ⟨0⟩ ⟨1⟩ (assuming 6) = some session ∧
      (session.forget ⟨0⟩ ⟨1⟩).2.Untracks ⟨0⟩ ⟨1⟩ ∧
      (session.forget ⟨0⟩ ⟨1⟩).2.actAll? ⟨0⟩ ⟨1⟩ [.step ⟨"first"⟩] = some last ∧
      ¬ last.Untracks ⟨0⟩ ⟨1⟩ := by
  refine ⟨_, _, rests_oneRegistered, rfl, ⟨_, rfl, rfl, fun _ => rfl⟩, rfl, ?_⟩
  rintro ⟨found, hfound, hcontains, -⟩
  obtain rfl := Option.some.inj hfound
  cases hcontains

end Session

end Actions

end RoleStack

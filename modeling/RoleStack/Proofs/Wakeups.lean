import RoleStack.Proofs.Alerts
import RoleStack.Proofs.Deregistration
import RoleStack.Proofs.Steps
import Mathlib.Logic.Relation

/-!
# Sleepers wait for a reason

Workers call coordinators and directors in any order of their steps. Whoever sleeps and was not woken is
held up by the entry that it sleeps on, whatever the others did to this entry meanwhile.
-/

namespace RoleStack

namespace Session

/-- One step in a session: a worker that is idle starts a call or a change, a worker goes on in it,
wakes up by itself, or has its answer collected. -/
inductive Steps (session : Session) : Session → Prop where
  | call (worker : Worker) (coordinator : Ref Coordinator) (call : Coordinator.Call)
      (timeout : Option UInt64) (hidle : session.activities.get? worker = none) :
      session.Steps (session.setActivity worker (.calling coordinator call .begun timeout))
  | change (worker : Worker) (director : Ref Director) (change : Change)
      (hidle : session.activities.get? worker = none) :
      session.Steps (session.setActivity worker (.changing director change .begun))
  | step (worker : Worker) (later : Session) (hstep : session.step? worker = some later) :
      session.Steps later
  | expire (worker : Worker) (activity : Activity)
      (hactivity : session.activities.get? worker = some activity) :
      session.Steps (session.setActivity worker activity.expire)
  | collect (worker : Worker) : session.Steps (session.collect worker).2

end Session

/-- A sleeper is held up at its entry, and only calls that may have to sleep are woken up. -/
def Activity.AsleepHeldUp (coordinators : Pool Coordinator) (worker : Worker) : Activity → Prop
  | .calling reference call (.asleep cell) _ => ∃ coordinator entry,
      coordinators.get? reference = some coordinator ∧
        coordinator.cells.get? cell = some entry ∧ call.HeldUp worker entry
  | .calling _ call (.roused ..) _ => call.Waits
  | .calling _ _ .begun _ | .calling _ _ (.entering _) _ | .calling _ _ (.returned _) _
  | .changing .. => True

/-- What holds after every step. -/
def Session.Alert (session : Session) : Prop :=
  ∀ worker activity, session.activities.get? worker = some activity →
    activity.AsleepHeldUp session.coordinators worker

section Steps

variable {session later : Session} {worker other : Worker} {activity : Activity}
  {coordinators : Pool Coordinator} {reference : Ref Coordinator}
  {coordinator next : Coordinator} {wakes : Option (Ref Entry)}

theorem Activity.AsleepHeldUp.wake (h : activity.AsleepHeldUp coordinators worker)
    (woken : Ref Coordinator) (cell : Ref Entry) :
    (activity.wake woken cell).AsleepHeldUp coordinators worker := by
  cases activity with
  | changing director change stage => trivial
  | calling reference call stage timeout =>
      by_cases hwoken : reference = woken
      · cases stage with
        | asleep place =>
            by_cases hplace : place = cell
            · obtain ⟨coordinator, entry, -, -, hheld⟩ := h
              simp only [Activity.wake, if_pos hwoken, Coordinator.Stage.wake, if_pos hplace]
              exact hheld.waits
            · simp only [Activity.wake, if_pos hwoken, Coordinator.Stage.wake, if_neg hplace]
              exact h
        | begun | entering | roused | returned =>
            simp only [Activity.wake, if_pos hwoken, Coordinator.Stage.wake]
            exact h
      · simp only [Activity.wake, if_neg hwoken]
        exact h

theorem Activity.AsleepHeldUp.wakeAt (h : activity.AsleepHeldUp coordinators worker)
    (woken : Ref Coordinator) (cell : Option (Ref Entry)) :
    (activity.wakeAt woken cell).AsleepHeldUp coordinators worker := by
  cases cell with
  | none => exact h
  | some cell => exact h.wake woken cell

/-- Another worker's step leaves a sleeper held up, or wakes it. -/
theorem Activity.AsleepHeldUp.alerted (h : activity.AsleepHeldUp coordinators other)
    (hcoordinated : coordinators.get? reference = some coordinator)
    (halerts : coordinator.Alerts next worker wakes) (hother : other ≠ worker) :
    (activity.wakeAt reference wakes).AsleepHeldUp (coordinators.set reference next) other := by
  cases activity with
  | changing director change stage =>
      rw [Activity.wakeAt_changing]
      trivial
  | calling place call stage timeout =>
      cases stage with
      | begun | entering | returned | roused =>
          cases wakes with
          | none => exact h
          | some cell =>
              by_cases hplace : place = reference
              · simp only [Activity.wakeAt, Activity.wake, if_pos hplace, Coordinator.Stage.wake]
                exact h
              · simp only [Activity.wakeAt, Activity.wake, if_neg hplace]
                exact h
      | asleep cell =>
          obtain ⟨present, entry, hpresent, hentry, hheld⟩ := h
          by_cases hplace : place = reference
          · subst hplace
            obtain rfl : coordinator = present := Option.some.inj (hcoordinated.symm.trans hpresent)
            rcases halerts cell entry hentry hheld.blocksDrain with rfl | ⟨changed, hchanged⟩
            · simp only [Activity.wakeAt, Activity.wake, if_true, Coordinator.Stage.wake]
              exact hheld.waits
            · obtain ⟨hentry, hblocks, hfree⟩ := hchanged
              have hstill : (Activity.calling place call (.asleep cell) timeout).AsleepHeldUp
                  (coordinators.set place next) other :=
                ⟨next, changed, Pool.get?_set_of_get? hcoordinated next, hentry,
                  hheld.of_blocksDrain hblocks (hfree other hother)⟩
              exact hstill.wakeAt place wakes
          · have hkept : (coordinators.set reference next).get? place = some present := by
              rw [Pool.get?_set, if_neg (Ne.symm hplace)]
              exact hpresent
            have hstill : (Activity.calling place call (.asleep cell) timeout).AsleepHeldUp
                (coordinators.set reference next) other := ⟨present, entry, hkept, hentry, hheld⟩
            exact hstill.wakeAt reference wakes

namespace Session

theorem Alert.alerted (h : session.Alert)
    (hcoordinated : session.coordinators.get? reference = some coordinator)
    (halerts : coordinator.Alerts next worker wakes)
    (hactivity : activity.AsleepHeldUp (session.coordinators.set reference next) worker)
    (hcoordinators : later.coordinators = session.coordinators.set reference next)
    (hactivities : ∀ other, later.activities.get? other =
      ((session.setActivity worker activity).activities.get? other).map
        (Activity.wakeAt reference wakes)) : later.Alert := by
  intro other present hpresent
  rw [hcoordinators]
  rcases of_get?_step hactivities hpresent with ⟨rfl, rfl⟩ | ⟨hother, before, hbefore, rfl⟩
  · exact hactivity.wakeAt reference wakes
  · exact (h other before hbefore).alerted hcoordinated halerts hother

theorem Alert.setActivity (h : session.Alert)
    (hactivity : activity.AsleepHeldUp session.coordinators worker) :
    (session.setActivity worker activity).Alert := by
  intro other present hpresent
  rcases of_get?_setActivity hpresent with ⟨rfl, rfl⟩ | ⟨-, hbefore⟩
  · exact hactivity
  · exact h other present hbefore

theorem Alert.step (h : session.Alert) (hstep : session.step? worker = some later) :
    later.Alert := by
  cases Stepped.of_step? hstep with
  | call reference call stage timeout coordinator progress hactivity hcoordinated hprogress =>
      have hwaits : ∀ cell timedOut, stage = .roused cell timedOut → call.Waits := by
        rintro cell timedOut rfl
        exact h worker _ hactivity
      have hrests := Coordinator.Call.restsHeldUp_step? hprogress hwaits
      have hsettled : (Activity.calling reference call progress.stage timeout).AsleepHeldUp
          (session.coordinators.set reference progress.coordinator) worker := by
        cases hstage : progress.stage with
        | begun | entering | returned => trivial
        | roused cell timedOut => exact absurd hstage (hrests.roused cell timedOut)
        | asleep cell =>
            obtain ⟨entry, hentry, hheld⟩ := hrests.asleep cell hstage
            exact ⟨_, entry, Pool.get?_set_of_get? hcoordinated _, hentry, hheld⟩
      exact h.alerted hcoordinated (Coordinator.Call.alerts_step? hprogress) hsettled
        (proceedCall_frame _ _ _ _ _ _).2.1 (get?_proceedCall _ _ _ _ _ _)
  | change director change stage found coordinator progress hactivity hdirected hcoordinated
      hprogress =>
      have hsettled : (Activity.changing director change progress.stage).AsleepHeldUp
          (session.coordinators.set found.coordinator progress.coordinator) worker := trivial
      exact h.alerted hcoordinated (Change.alerts_step? hprogress) hsettled
        (proceed_frame _ _ _ _ _ _).2.1 (get?_wake _ _ _)
  | compose director change lock current found hactivity hdirected =>
      intro other present hpresent
      rw [(proceedComposing_frame _ _ _ _ _ _ _).2]
      rw [get?_proceedComposing] at hpresent
      rcases of_get?_setActivity hpresent with ⟨-, rfl⟩ | ⟨-, hbefore⟩
      · trivial
      · exact h other present hbefore

theorem Alert.expire (h : session.Alert)
    (hactivity : session.activities.get? worker = some activity) :
    (session.setActivity worker activity.expire).Alert := by
  have hsettled := h worker activity hactivity
  apply h.setActivity
  cases activity with
  | changing director change stage => trivial
  | calling reference call stage timeout =>
      cases stage with
      | begun | entering | returned => trivial
      | roused cell timedOut => exact hsettled
      | asleep cell =>
          obtain ⟨coordinator, entry, -, -, hheld⟩ := hsettled
          exact hheld.waits

theorem Alert.collect (h : session.Alert) (worker : Worker) :
    (session.collect worker).2.Alert := by
  intro other present hpresent
  rw [(session.collect_frame worker).2.1]
  exact h other present (get?_of_collect hpresent)

theorem Alert.steps (h : session.Alert) (hsteps : session.Steps later) : later.Alert := by
  cases hsteps with
  | call worker coordinator call timeout hidle => exact h.setActivity trivial
  | change worker director change hidle => exact h.setActivity trivial
  | step worker later hstep => exact h.step hstep
  | expire worker activity hactivity => exact h.expire hactivity
  | collect worker => exact h.collect worker

theorem alert_of_idle (h : ∀ worker, session.activities.get? worker = none) : session.Alert := by
  intro worker activity hactivity
  rw [h] at hactivity
  cases hactivity

theorem Alert.of_steps (h : session.Alert) (hrun : Relation.ReflTransGen Steps session later) :
    later.Alert := by
  induction hrun with
  | refl => exact h
  | tail _ hsteps ih => exact ih.steps hsteps

/-- No wake-up is lost: whoever sleeps in a call and was not woken sleeps on an entry that is locked and
not retired, and a reader among them has no hold there. -/
theorem held_up_while_asleep {call : Coordinator.Call} {cell : Ref Entry} {timeout : Option UInt64}
    (hidle : ∀ worker, session.activities.get? worker = none)
    (hrun : Relation.ReflTransGen Steps session later)
    (hasleep :
      later.activities.get? worker = some (.calling reference call (.asleep cell) timeout)) :
    ∃ coordinator entry, later.coordinators.get? reference = some coordinator ∧
      coordinator.cells.get? cell = some entry ∧ entry.isLocked = true ∧ entry.retired = false ∧
      ((∃ identity, call = .current identity ∧ entry.isHeldBy worker = false) ∨
        ∃ handle, call = .lock handle true) := by
  have halert := (alert_of_idle hidle).of_steps hrun
  obtain ⟨coordinator, entry, hcoordinator, hentry, hheld⟩ := halert worker _ hasleep
  have hblocks := hheld.blocksDrain
  simp only [Entry.blocksDrain, Bool.and_eq_true, Bool.not_eq_true'] at hblocks
  refine ⟨coordinator, entry, hcoordinator, hentry, hblocks.1, hblocks.2, ?_⟩
  cases call with
  | store | delete | unlock => cases hheld
  | lock handle waits =>
      obtain rfl : waits = true := hheld.1
      exact Or.inr ⟨handle, rfl⟩
  | current identity =>
      simp only [Coordinator.Call.HeldUp, Entry.blocksReader, Bool.and_eq_true,
        Bool.not_eq_true'] at hheld
      exact Or.inl ⟨identity, rfl, hheld.2⟩

/-- The reader sleeps on an entry that was looked up before the identity was removed, and that is not
retired yet. -/
theorem held_up_while_removed :
    ∃ later coordinator entry, (∀ worker, oneRegistered.activities.get? worker = none) ∧
      Relation.ReflTransGen Steps oneRegistered later ∧
      later.activities.get? ⟨"reader"⟩ =
        some (.calling ⟨0⟩ (.current ⟨1⟩) (.asleep ⟨0⟩) none) ∧
      later.coordinators.get? ⟨0⟩ = some coordinator ∧ coordinator.contains ⟨1⟩ = false ∧
      coordinator.cells.get? ⟨0⟩ = some entry ∧ entry.isLocked = true ∧ entry.retired = false ∧
      entry.isHeldBy ⟨"reader"⟩ = false := by
  have hlocked : Relation.ReflTransGen Steps oneRegistered _ :=
    (((Relation.ReflTransGen.refl.tail
      (.call ⟨"holder"⟩ ⟨0⟩ (.lock ⟨⟨0⟩, ⟨1⟩⟩ false) none rfl)).tail
      (.step ⟨"holder"⟩ _ rfl)).tail (.step ⟨"holder"⟩ _ rfl))
  have hread : Relation.ReflTransGen Steps oneRegistered _ :=
    ((hlocked.tail (.call ⟨"reader"⟩ ⟨0⟩ (.current ⟨1⟩) none rfl)).tail
      (.step ⟨"reader"⟩ _ rfl)).tail (.step ⟨"reader"⟩ _ rfl)
  have hremoved : Relation.ReflTransGen Steps oneRegistered _ :=
    (hread.tail (.call ⟨"remover"⟩ ⟨0⟩ (.delete ⟨1⟩) none rfl)).tail (.step ⟨"remover"⟩ _ rfl)
  have hidle : ∀ worker, oneRegistered.activities.get? worker = none := fun _ => rfl
  obtain ⟨coordinator, entry, hcoordinator, hentry, hlocked, hretired, hreader⟩ :=
    @held_up_while_asleep oneRegistered _ ⟨"reader"⟩ ⟨0⟩ (.current ⟨1⟩) ⟨0⟩ none hidle hremoved rfl
  refine ⟨_, coordinator, entry, hidle, hremoved, rfl, hcoordinator, ?_, hentry, hlocked, hretired, ?_⟩
  · obtain rfl := Option.some.inj hcoordinator
    rfl
  · obtain ⟨identity, -, hfree⟩ | ⟨handle, hcall⟩ := hreader
    · exact hfree
    · cases hcall

end Session

end Steps

end RoleStack

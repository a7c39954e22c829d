import RoleStack.Proofs.Interleaving

/-!
# The writer's turn

While a worker has the writer lock of the identity, the history is as far as that worker's change;
while nobody has it, everything made was stored and given back. Moves that are not steps of a change
with the lock keep this, since they leave the version of the identity alone.
-/

namespace RoleStack

/-- Everything made was stored and given back. -/
def History.Settled (history : History) : Prop :=
  history.made = history.stored ∧ history.stored = history.returned

/-- How far the history is while a change that has the writer lock is in this stage. -/
def History.Fits (history : History) (registered : SharedHandle) (cell : Ref Entry) :
    Change.Stage → Prop
  | .reading _ => history.Settled
  | .waiting _ other => history.Settled ∧ other = cell
  | .holding _ current | .composing _ current =>
      history.Settled ∧ current = history.stored.headD registered
  | .storing _ next => history.made = next :: history.stored ∧ history.stored = history.returned
  | .lettingGo _ (.ok next) | .leaving _ (.ok next) =>
      history.made = history.stored ∧ history.stored = next :: history.returned
  | .lettingGo _ (.error _) | .leaving _ (.error _) => history.Settled
  | .begun | .queued _ | .returned _ => True

/-- Nobody has the writer lock, and the history is settled; or one worker has it, and the history is as
far as that worker's change. -/
inductive Turn (director : Ref Director) (identity : Identity) (registered : SharedHandle)
    (cell : Ref Entry) (session : Session) (writers : Writers) (history : History) : Prop where
  | free
      (hfree : ∀ lock, writers.locks.get? identity = some lock →
        writers.cells.get? lock = some ⟨none⟩)
      (houtside : ∀ worker activity, session.activities.get? worker = some activity →
        activity.held? = none)
      (hsettled : history.Settled)
  | taken (worker : Worker) (lock : Ref WriterLock) (change : Change) (stage : Change.Stage)
      (hlock : writers.locks.get? identity = some lock)
      (hholder : writers.cells.get? lock = some ⟨some worker⟩)
      (hactivity : session.activities.get? worker = some (.changing director change stage))
      (hheld : stage.held? = some lock)
      (houtside : ∀ other activity, other ≠ worker →
        session.activities.get? other = some activity → activity.held? = none)
      (hfits : history.Fits registered cell stage)

def Activity.Belongs (director : Ref Director) (identity : Identity) (cell : Ref Entry)
    (found : Director) : Activity → Prop
  | .calling coordinator call stage _ =>
      coordinator = found.coordinator ∧ call.Spares identity ∧ stage.In cell
  | .changing other change stage =>
      other = director ∧ change.identity = identity ∧
        ∀ lock, stage = .queued lock → found.writers.locks.get? identity = some lock

/-- What holds after every move. -/
structure Orderly (director : Ref Director) (identity : Identity) (registered : SharedHandle)
    (cell : Ref Entry) (session : Session) (history : History) (found : Director)
    (coordinator : Coordinator) : Prop where
  directed : session.directors.get? director = some found
  coordinated : session.coordinators.get? found.coordinator = some coordinator
  tracks : coordinator.Tracks identity cell (history.stored.headD registered)
  shares : ∀ version ∈ registered :: history.made, session.Shares identity version
  belongs : ∀ worker activity, session.activities.get? worker = some activity →
    activity.Belongs director identity cell found
  linked : History.Linked registered history.composed
  turn : Turn director identity registered cell session found.writers history

section Moves

variable {director : Ref Director} {identity : Identity} {registered : SharedHandle}
  {cell : Ref Entry} {session later : Session} {history : History} {found : Director}
  {coordinator next : Coordinator} {worker : Worker} {activity : Activity}

/-! ### Moves outside the turn -/

theorem Turn.of_quiet {writers : Writers}
    (h : Turn director identity registered cell session writers history)
    (hquiet : Quiet session.activities later.activities) :
    Turn director identity registered cell later writers history := by
  cases h with
  | free hfree houtside hsettled =>
      have hlater : ∀ worker activity, later.activities.get? worker = some activity →
          activity.held? = none := by
        intro worker activity hactivity
        by_contra hinside
        exact hinside (houtside worker activity ((hquiet worker activity hinside).mpr hactivity))
      exact .free hfree hlater hsettled
  | taken worker lock change stage hlock hholder hactivity hheld houtside hfits =>
      have hinside : (Activity.changing director change stage).held? ≠ none := by
        change stage.held? ≠ none
        rw [hheld]
        simp
      have hkept : later.activities.get? worker = some (.changing director change stage) :=
        (hquiet _ _ hinside).mp hactivity
      have hlater : ∀ other activity, other ≠ worker → later.activities.get? other = some activity →
          activity.held? = none := by
        intro other activity hother hactivity
        by_contra hinside
        exact hinside
          (houtside other activity hother ((hquiet other activity hinside).mpr hactivity))
      exact .taken worker lock change stage hlock hholder hkept hheld hlater hfits

/-- A move that leaves the changes with a writer lock alone keeps order, if the version stays and all
activities belong here. -/
theorem Orderly.of_quiet
    (h : Orderly director identity registered cell session history found coordinator)
    (hdirectors : later.directors = session.directors)
    (hcoordinator : later.coordinators.get? found.coordinator = some next)
    (hhandles : later.handles = session.handles)
    (htracks : next.Tracks identity cell (history.stored.headD registered))
    (hbelongs : ∀ worker activity, later.activities.get? worker = some activity →
      activity.Belongs director identity cell found)
    (hquiet : Quiet session.activities later.activities) :
    Orderly director identity registered cell later history found next where
  directed := by
    rw [hdirectors]
    exact h.directed
  coordinated := hcoordinator
  tracks := htracks
  shares := by
    intro version hversion
    rw [Session.Shares, hhandles]
    exact h.shares version hversion
  belongs := hbelongs
  linked := h.linked
  turn := h.turn.of_quiet hquiet

theorem Activity.Belongs.wakeAt (h : activity.Belongs director identity cell found)
    (woken : Ref Coordinator) (entry : Option (Ref Entry)) :
    (activity.wakeAt woken entry).Belongs director identity cell found := by
  cases activity with
  | calling reference call stage timeout =>
      obtain ⟨hcoordinator, hspares, hstage⟩ := h
      obtain ⟨stage', hwoken, hkept⟩ :=
        Activity.exists_wakeAt_calling woken entry reference call stage timeout
      rw [hwoken]
      exact ⟨hcoordinator, hspares, hkept cell hstage⟩
  | changing reference change stage =>
      rw [Activity.wakeAt_changing]
      exact h

theorem Orderly.wake
    (h : Orderly director identity registered cell session history found coordinator)
    (woken : Ref Coordinator) (entry : Option (Ref Entry)) :
    Orderly director identity registered cell (session.wake woken entry) history found
      coordinator := by
  obtain ⟨hdirectors, hcoordinators, hhandles⟩ := session.wake_frame woken entry
  refine h.of_quiet hdirectors ?_ hhandles h.tracks ?_ (quiet_wake session woken entry)
  · rw [hcoordinators]
    exact h.coordinated
  · intro other present hpresent
    rw [Session.get?_wake, Option.map_eq_some_iff] at hpresent
    obtain ⟨before, hbefore, rfl⟩ := hpresent
    exact (h.belongs other before hbefore).wakeAt woken entry

theorem Orderly.setCoordinator
    (h : Orderly director identity registered cell session history found coordinator)
    (htracks : next.Tracks identity cell (history.stored.headD registered)) :
    Orderly director identity registered cell
      { session with coordinators := session.coordinators.set found.coordinator next } history found
      next := by
  refine h.of_quiet rfl ?_ rfl htracks h.belongs fun other inside hinside => Iff.rfl
  exact Pool.get?_set_of_get? h.coordinated next

theorem Orderly.setActivity
    (h : Orderly director identity registered cell session history found coordinator)
    (hbefore : session.Outside worker) (hafter : activity.held? = none)
    (hbelongs : activity.Belongs director identity cell found) :
    Orderly director identity registered cell (session.setActivity worker activity) history found
      coordinator := by
  refine h.of_quiet rfl h.coordinated rfl h.tracks ?_ (quiet_setActivity hbefore hafter)
  intro other present hpresent
  rw [Session.get?_setActivity] at hpresent
  split at hpresent
  · rw [← Option.some.inj hpresent]
    exact hbelongs
  · exact h.belongs other present hpresent

theorem Orderly.expire
    (h : Orderly director identity registered cell session history found coordinator)
    (hactivity : session.activities.get? worker = some activity) :
    Orderly director identity registered cell (session.setActivity worker activity.expire) history
      found coordinator := by
  have hbelongs := h.belongs worker activity hactivity
  cases activity with
  | calling reference call stage timeout =>
      obtain ⟨hcoordinator, hspares, hstage⟩ := hbelongs
      exact h.setActivity (Session.outside_of_get? hactivity rfl) rfl
        ⟨hcoordinator, hspares, hstage.expire⟩
  | changing reference change stage =>
      have hsame : ∀ other, (session.setActivity worker
          (Activity.changing reference change stage).expire).activities.get? other =
            session.activities.get? other := by
        intro other
        rw [Session.get?_setActivity]
        split
        · rename_i heq
          rw [← heq, hactivity]
          rfl
        · rfl
      refine h.of_quiet rfl h.coordinated rfl h.tracks ?_ ?_
      · intro other present hpresent
        rw [hsame] at hpresent
        exact h.belongs other present hpresent
      · intro other inside hinside
        rw [hsame]

theorem Orderly.collect
    (h : Orderly director identity registered cell session history found coordinator)
    (worker : Worker) :
    Orderly director identity registered cell (session.collect worker).2 history found
      coordinator := by
  obtain ⟨hdirectors, hcoordinators, hhandles⟩ := session.collect_frame worker
  refine h.of_quiet hdirectors ?_ hhandles h.tracks ?_ (quiet_collect session worker)
  · rw [hcoordinators]
    exact h.coordinated
  · exact fun other present hpresent =>
      h.belongs other present (Session.get?_of_collect hpresent)

theorem Orderly.stepCall
    (h : Orderly director identity registered cell session history found coordinator)
    {reference : Ref Coordinator} {call : Coordinator.Call} {stage : Coordinator.Stage}
    {timeout : Option UInt64}
    (hactivity : session.activities.get? worker = some (.calling reference call stage timeout))
    (hstep : session.stepCall? worker reference call stage timeout = some later) :
    ∃ next, Orderly director identity registered cell later history found next := by
  obtain ⟨rfl, hspares, hstage⟩ := h.belongs worker _ hactivity
  rw [Session.stepCall?, h.coordinated] at hstep
  cases hprogress : call.step? coordinator worker stage with
  | none =>
      rw [Option.bind_eq_bind, Option.bind_some, hprogress] at hstep
      cases hstep
  | some progress =>
      rw [Option.bind_eq_bind, Option.bind_some, hprogress] at hstep
      obtain ⟨htracks, hin⟩ := hspares.step h.tracks hstage hprogress
      obtain rfl := Option.some.inj hstep
      have houtside := Session.outside_of_get? hactivity rfl
      refine ⟨progress.coordinator, ?_⟩
      apply Orderly.wake
      exact (h.setCoordinator htracks).setActivity houtside rfl ⟨rfl, hspares, hin⟩

end Moves

end RoleStack

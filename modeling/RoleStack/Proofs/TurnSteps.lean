import RoleStack.Proofs.Turns

/-!
# Steps of a change

A change takes the writer lock when nobody has it, reads the current version, composes on it, stores
what was made and gives the lock back. At each of these steps the history goes on with the change.
-/

namespace RoleStack

section Moves

variable {director : Ref Director} {identity : Identity} {registered : SharedHandle}
  {cell : Ref Entry} {session later : Session} {history recorded : History} {found : Director}
  {coordinator next : Coordinator} {worker : Worker} {activity : Activity}

/-- A step that composes nothing and leaves the known writer locks in place keeps order, if the version
and the turn are right afterwards. -/
theorem Orderly.proceed
    (h : Orderly director identity registered cell session history found coordinator)
    {change : Change} {progress : Change.Progress} (hidentity : change.identity = identity)
    (htracks : progress.coordinator.Tracks identity cell (recorded.stored.headD registered))
    (hcomposed : recorded.composed = history.composed)
    (hlocks : ∀ lock, found.writers.locks.get? identity = some lock →
      progress.writers.locks.get? identity = some lock)
    (hqueued : ∀ lock, progress.stage = .queued lock →
      progress.writers.locks.get? identity = some lock)
    (hturn : Turn director identity registered cell
      (session.proceed director found worker change progress) progress.writers recorded) :
    Orderly director identity registered cell
      (session.proceed director found worker change progress) recorded
      { found with writers := progress.writers } progress.coordinator where
  directed := proceed_directed h.directed worker change progress
  coordinated := proceed_coordinated h.coordinated director worker change progress
  tracks := htracks
  shares := by
    intro version hversion
    rw [History.made, hcomposed] at hversion
    rw [Session.Shares, Session.proceed, (Session.wake_frame _ _ _).2.2]
    exact h.shares version hversion
  belongs := by
    have hgrown : ∀ {activity : Activity}, activity.Belongs director identity cell found →
        activity.Belongs director identity cell { found with writers := progress.writers } := by
      intro activity hactivity
      cases activity with
      | calling reference call stage timeout => exact hactivity
      | changing reference change stage =>
          exact ⟨hactivity.1, hactivity.2.1, fun lock hlock => hlocks lock (hactivity.2.2 lock hlock)⟩
    intro other present hpresent
    rw [get?_proceed] at hpresent
    split at hpresent
    · rw [← Option.some.inj hpresent]
      exact ⟨rfl, hidentity, hqueued⟩
    · obtain ⟨before, hbefore, rfl⟩ := Option.map_eq_some_iff.mp hpresent
      exact hgrown ((h.belongs other before hbefore).wakeAt found.coordinator progress.wakes)
  linked := by
    rw [hcomposed]
    exact h.linked
  turn := hturn

theorem History.last_mem (history : History) (registered : SharedHandle) :
    history.made.headD registered ∈ registered :: history.made := by
  cases history.made with
  | nil => exact List.mem_cons_self
  | cons last earlier => exact List.mem_cons_of_mem _ List.mem_cons_self

/-- A worker with a writer lock has the lock of the identity and the turn. -/
theorem Orderly.turn_of_held
    (h : Orderly director identity registered cell session history found coordinator)
    {change : Change} {stage : Change.Stage} {lock : Ref WriterLock}
    (hactivity : session.activities.get? worker = some (.changing director change stage))
    (hheld : stage.held? = some lock) :
    found.writers.locks.get? identity = some lock ∧
      found.writers.cells.get? lock = some ⟨some worker⟩ ∧
      (∀ other activity, other ≠ worker → session.activities.get? other = some activity →
        activity.held? = none) ∧
      history.Fits registered cell stage := by
  cases h.turn with
  | free hfree houtside hsettled =>
      have hnone : stage.held? = none := houtside worker _ hactivity
      rw [hheld] at hnone
      cases hnone
  | taken writer taken change' stage' hlock hholder hwriter hheld' houtside hfits =>
      by_cases hsame : worker = writer
      · subst hsame
        obtain ⟨-, rfl, rfl⟩ := Activity.changing.inj (Option.some.inj (hactivity.symm.trans hwriter))
        obtain rfl : lock = taken := Option.some.inj (hheld.symm.trans hheld')
        exact ⟨hlock, hholder, houtside, hfits⟩
      · have hnone : stage.held? = none := houtside worker _ hsame hactivity
        rw [hheld] at hnone
        cases hnone

theorem outside_proceed {change : Change} {progress : Change.Progress}
    (houtside : ∀ other activity, other ≠ worker → session.activities.get? other = some activity →
      activity.held? = none) (other : Worker) (present : Activity) (hother : other ≠ worker)
    (hpresent : (session.proceed director found worker change progress).activities.get? other =
      some present) : present.held? = none := by
  rw [get?_proceed, if_neg hother.symm, Option.map_eq_some_iff] at hpresent
  obtain ⟨before, hbefore, rfl⟩ := hpresent
  rw [Activity.held?_wakeAt]
  exact houtside other before hother hbefore

theorem Orderly.proceed_inside
    (h : Orderly director identity registered cell session history found coordinator)
    {change : Change} {stage : Change.Stage} {lock : Ref WriterLock} {progress : Change.Progress}
    (hactivity : session.activities.get? worker = some (.changing director change stage))
    (hheld : stage.held? = some lock) (hwriters : progress.writers = found.writers)
    (hnext : progress.stage.held? = some lock)
    (htracks : progress.coordinator.Tracks identity cell (recorded.stored.headD registered))
    (hcomposed : recorded.composed = history.composed)
    (hfits : recorded.Fits registered cell progress.stage) :
    Orderly director identity registered cell
      (session.proceed director found worker change progress) recorded
      { found with writers := progress.writers } progress.coordinator := by
  obtain ⟨hlock, hholder, houtside, -⟩ := h.turn_of_held hactivity hheld
  obtain ⟨-, hidentity, -⟩ := h.belongs worker _ hactivity
  refine h.proceed hidentity htracks hcomposed ?_ ?_ ?_
  · intro other hother
    rw [hwriters]
    exact hother
  · intro other hother
    rw [hother] at hnext
    cases hnext
  · rw [hwriters]
    refine .taken worker lock change progress.stage hlock hholder ?_ hnext
      (fun other present => outside_proceed houtside other present) hfits
    rw [get?_proceed, if_pos rfl]

theorem quiet_proceed {change : Change} {stage : Change.Stage} {progress : Change.Progress}
    (hactivity : session.activities.get? worker = some (.changing director change stage))
    (hbefore : stage.held? = none) (hafter : progress.stage.held? = none) :
    Quiet session.activities (session.proceed director found worker change progress).activities := by
  have houtside := Session.outside_of_get? hactivity hbefore
  have hreached : (Activity.changing director change progress.stage).held? = none := hafter
  intro other inside hinside
  rw [Session.proceed, ← quiet_wake _ _ _ other inside hinside]
  exact quiet_setActivity houtside hreached other inside hinside

theorem Turn.of_obtain {writers : Writers}
    (h : Turn director identity registered cell session writers history) :
    (writers.obtain identity).2.locks.get? identity = some (writers.obtain identity).1 ∧
      Turn director identity registered cell session (writers.obtain identity).2 history := by
  unfold Writers.obtain
  cases hfound : writers.locks.get? identity with
  | some lock => exact ⟨hfound, h⟩
  | none =>
      refine ⟨by rw [Table.get?_insert, if_pos rfl], ?_⟩
      cases h with
      | free hfree houtside hsettled =>
          -- A lock that is made anew is free.
          refine .free ?_ houtside hsettled
          intro lock hlock
          rw [Table.get?_insert, if_pos rfl] at hlock
          rw [← Option.some.inj hlock]
          exact Pool.get?_add_next _ _
      | taken worker lock change stage hlock hholder hactivity hheld houtside hfits =>
          rw [hfound] at hlock
          cases hlock

theorem Orderly.step_begun
    (h : Orderly director identity registered cell session history found coordinator)
    {change : Change} {progress : Change.Progress}
    (hactivity : session.activities.get? worker = some (.changing director change .begun))
    (hprogress : change.step? worker found.writers coordinator .begun = some progress) :
    Orderly director identity registered cell
      (session.proceed director found worker change progress) history
      { found with writers := progress.writers } progress.coordinator := by
  obtain ⟨-, hidentity, -⟩ := h.belongs worker _ hactivity
  obtain ⟨hobtained, hturn⟩ := h.turn.of_obtain
  obtain rfl : progress = ⟨(found.writers.obtain change.identity).2, coordinator,
      .queued (found.writers.obtain change.identity).1, none⟩ := (Option.some.inj hprogress).symm
  rw [hidentity]
  apply h.proceed hidentity h.tracks rfl
  · intro lock hlock
    have hkept : (found.writers.obtain identity).2 = found.writers := by
      rw [Writers.obtain, hlock]
    simp only [hkept]
    exact hlock
  · intro lock hlock
    obtain rfl := Change.Stage.queued.inj hlock
    exact hobtained
  · exact hturn.of_quiet (quiet_proceed hactivity rfl rfl)

theorem Orderly.step_queued
    (h : Orderly director identity registered cell session history found coordinator)
    {change : Change} {lock : Ref WriterLock} {progress : Change.Progress}
    (hactivity : session.activities.get? worker = some (.changing director change (.queued lock)))
    (hprogress : change.step? worker found.writers coordinator (.queued lock) = some progress) :
    Orderly director identity registered cell
      (session.proceed director found worker change progress) history
      { found with writers := progress.writers } progress.coordinator := by
  obtain ⟨-, hidentity, hqueued⟩ := h.belongs worker _ hactivity
  have hlock := hqueued lock rfl
  simp only [Change.step?] at hprogress
  split at hprogress
  · rename_i hfree
    obtain rfl := Option.some.inj hprogress
    have hunheld : found.writers.cells.get? lock = some ⟨none⟩ := by
      unfold Writers.isFree at hfree
      split at hfree
      · rename_i present hpresent
        obtain ⟨holder⟩ := present
        obtain rfl : holder = none := Option.isNone_iff_eq_none.mp hfree
        exact hpresent
      · cases hfree
    refine h.proceed hidentity h.tracks rfl (fun _ hother => hother) (fun _ hother => by cases hother)
      ?_
    cases h.turn with
    | free hfree houtside hsettled =>
        have hothers : ∀ other activity, other ≠ worker →
            session.activities.get? other = some activity → activity.held? = none := by
          intro other activity _ hother
          exact houtside other activity hother
        refine .taken worker lock change (.reading lock) hlock ?_ ?_ rfl ?_ hsettled
        · exact Pool.get?_set_of_get? hunheld _
        · rw [get?_proceed, if_pos rfl]
        · intro other present
          exact outside_proceed hothers other present
    | taken writer taken change' stage' hlock' hholder hwriter hheld houtside hfits =>
        -- A free lock is not the one that somebody has.
        obtain rfl : lock = taken := Option.some.inj (hlock.symm.trans hlock')
        rw [hunheld] at hholder
        cases hholder
  · cases hprogress

theorem Orderly.step_reading
    (h : Orderly director identity registered cell session history found coordinator)
    {change : Change} {lock : Ref WriterLock} {progress : Change.Progress}
    (hactivity : session.activities.get? worker = some (.changing director change (.reading lock)))
    (hprogress : change.step? worker found.writers coordinator (.reading lock) = some progress) :
    Orderly director identity registered cell
      (session.proceed director found worker change progress) history
      { found with writers := progress.writers } progress.coordinator := by
  obtain ⟨-, hidentity, -⟩ := h.belongs worker _ hactivity
  obtain ⟨-, -, -, hfits⟩ := h.turn_of_held hactivity rfl
  rw [Change.step?, hidentity, h.tracks.found] at hprogress
  obtain rfl := Option.some.inj hprogress
  exact h.proceed_inside hactivity rfl rfl rfl h.tracks rfl ⟨hfits, rfl⟩

theorem Orderly.step_waiting
    (h : Orderly director identity registered cell session history found coordinator)
    {change : Change} {lock : Ref WriterLock} {entry : Ref Entry} {progress : Change.Progress}
    (hactivity :
      session.activities.get? worker = some (.changing director change (.waiting lock entry)))
    (hprogress : change.step? worker found.writers coordinator (.waiting lock entry) =
      some progress) :
    Orderly director identity registered cell
      (session.proceed director found worker change progress) history
      { found with writers := progress.writers } progress.coordinator := by
  obtain ⟨-, -, -, hsettled, rfl⟩ := h.turn_of_held hactivity rfl
  rw [Change.step?] at hprogress
  cases hread : coordinator.readIn? entry worker with
  | none =>
      rw [hread] at hprogress
      cases hprogress
  | some result =>
      obtain rfl := h.tracks.eq_of_readIn? hread
      rw [hread] at hprogress
      obtain rfl := Option.some.inj hprogress
      exact h.proceed_inside hactivity rfl rfl rfl h.tracks rfl ⟨hsettled, rfl⟩

theorem Orderly.step_holding
    (h : Orderly director identity registered cell session history found coordinator)
    {change : Change} {lock : Ref WriterLock} {current : SharedHandle} {progress : Change.Progress}
    (hactivity :
      session.activities.get? worker = some (.changing director change (.holding lock current)))
    (hprogress : change.step? worker found.writers coordinator (.holding lock current) =
      some progress) :
    Orderly director identity registered cell
      (session.proceed director found worker change progress) history
      { found with writers := progress.writers } progress.coordinator := by
  obtain ⟨-, -, -, hsettled, hcurrent⟩ := h.turn_of_held hactivity rfl
  have hidentity : current.identity = identity := by
    rw [hcurrent, ← hsettled.1]
    exact (h.shares _ (history.last_mem registered)).1
  obtain rfl := Option.some.inj hprogress
  exact h.proceed_inside hactivity rfl rfl rfl (h.tracks.lock hidentity worker) rfl
    ⟨hsettled, hcurrent⟩

theorem Orderly.step_storing
    (h : Orderly director identity registered cell session history found coordinator)
    {change : Change} {lock : Ref WriterLock} {made : SharedHandle} {progress : Change.Progress}
    (hactivity :
      session.activities.get? worker = some (.changing director change (.storing lock made)))
    (hprogress : change.step? worker found.writers coordinator (.storing lock made) =
      some progress) :
    Orderly director identity registered cell
      (session.proceed director found worker change progress)
      { history with stored := made :: history.stored }
      { found with writers := progress.writers } progress.coordinator := by
  obtain ⟨-, -, -, hmade, hstored⟩ := h.turn_of_held hactivity rfl
  have hidentity : made.identity = identity := by
    refine (h.shares made ?_).1
    rw [hmade]
    exact List.mem_cons_of_mem _ List.mem_cons_self
  obtain rfl := Option.some.inj hprogress
  exact h.proceed_inside hactivity rfl rfl rfl (h.tracks.store hidentity) rfl
    ⟨hmade, congrArg (made :: ·) hstored⟩

theorem Orderly.step_lettingGo
    (h : Orderly director identity registered cell session history found coordinator)
    {change : Change} {lock : Ref WriterLock} {result : Except DirectorError SharedHandle}
    {progress : Change.Progress}
    (hactivity :
      session.activities.get? worker = some (.changing director change (.lettingGo lock result)))
    (hprogress : change.step? worker found.writers coordinator (.lettingGo lock result) =
      some progress) :
    Orderly director identity registered cell
      (session.proceed director found worker change progress) history
      { found with writers := progress.writers } progress.coordinator := by
  obtain ⟨-, hidentity, -⟩ := h.belongs worker _ hactivity
  obtain ⟨-, -, -, hfits⟩ := h.turn_of_held hactivity rfl
  have htracks := h.tracks.unlock worker false
  rw [← hidentity] at htracks
  obtain rfl := Option.some.inj hprogress
  refine h.proceed_inside hactivity rfl rfl rfl ?_ rfl ?_
  · rw [← hidentity]
    exact htracks
  · cases result <;> exact hfits

theorem Orderly.step_leaving
    (h : Orderly director identity registered cell session history found coordinator)
    {change : Change} {lock : Ref WriterLock} {result : Except DirectorError SharedHandle}
    {progress : Change.Progress}
    (hactivity :
      session.activities.get? worker = some (.changing director change (.leaving lock result)))
    (hprogress : change.step? worker found.writers coordinator (.leaving lock result) =
      some progress) :
    Orderly director identity registered cell
      (session.proceed director found worker change progress)
      { history with returned := result.toOption.toList ++ history.returned }
      { found with writers := progress.writers } progress.coordinator := by
  obtain ⟨-, hidentity, -⟩ := h.belongs worker _ hactivity
  obtain ⟨hlock, hholder, houtside, hfits⟩ := h.turn_of_held hactivity rfl
  obtain rfl := Option.some.inj hprogress
  refine h.proceed hidentity h.tracks rfl (fun _ hother => hother) (fun _ hother => by cases hother)
    ?_
  refine .free ?_ ?_ ?_
  · intro other hother
    obtain rfl : lock = other := Option.some.inj (hlock.symm.trans hother)
    exact Pool.get?_set_of_get? hholder _
  · intro other present hpresent
    by_cases hsame : other = worker
    · rw [hsame, get?_proceed, if_pos rfl] at hpresent
      rw [← Option.some.inj hpresent]
      rfl
    · exact outside_proceed houtside other present hsame hpresent
  · cases result with
    | error error => exact hfits
    | ok made => exact hfits

theorem Session.Shares.compose {version : SharedHandle} (h : session.Shares identity version)
    (workshop : Ref Workshop) (agent : AgentId) (operation : Operation) :
    (session.compose workshop agent operation).2.2.Shares identity version := by
  obtain ⟨hidentity, state, hstate, hsame⟩ := h
  exact ⟨hidentity, state, Session.get?_handles_compose hstate workshop agent operation, hsame⟩

theorem Session.shares_of_compose_ok {workshop : Ref Workshop} {agent : AgentId}
    {operation : Operation} {made : SharedHandle} (h : session.Shares identity operation.target)
    (hmade : (session.compose workshop agent operation).1 = .ok made) :
    (session.compose workshop agent operation).2.2.Shares identity made := by
  obtain ⟨-, state, hstate, hidentity⟩ := h
  obtain ⟨found, handle, hworkshop, hresult, rfl⟩ := Session.exists_of_compose_ok hmade
  have hsame : handle.identity = identity := by
    rw [Engine.identity_of_compose_ok hresult, Session.read_of_get? hstate, hidentity]
  obtain ⟨board, hcompose⟩ := Session.compose_eq hworkshop agent operation
  rw [hcompose, hresult]
  exact ⟨hsame, handle, Pool.get?_add_next _ _, hsame⟩

theorem Orderly.compose_inside
    (h : Orderly director identity registered cell session history found coordinator)
    {change : Change} {stage reached : Change.Stage} {lock : Ref WriterLock}
    (workshop : Ref Workshop) (agent : AgentId) (operation : Operation)
    (hactivity : session.activities.get? worker = some (.changing director change stage))
    (hheld : stage.held? = some lock) (hnext : reached.held? = some lock)
    (hstored : recorded.stored = history.stored)
    (hshares : ∀ version ∈ registered :: recorded.made,
      (session.compose workshop agent operation).2.2.Shares identity version)
    (hlinked : History.Linked registered recorded.composed)
    (hfits : recorded.Fits registered cell reached) :
    Orderly director identity registered cell
      ((session.compose workshop agent operation).2.2.setActivity worker
        (.changing director change reached)) recorded found coordinator := by
  obtain ⟨hcoordinators, hdirectors, hactivities⟩ :=
    session.compose_frame workshop agent operation
  obtain ⟨-, hidentity, -⟩ := h.belongs worker _ hactivity
  obtain ⟨hlock, hholder, houtside, -⟩ := h.turn_of_held hactivity hheld
  exact
    { directed := by
        simp only [Session.setActivity, hdirectors]
        exact h.directed
      coordinated := by
        simp only [Session.setActivity, hcoordinators]
        exact h.coordinated
      tracks := by
        rw [hstored]
        exact h.tracks
      shares := hshares
      belongs := by
        intro other present hpresent
        rw [Session.get?_setActivity, hactivities] at hpresent
        split at hpresent
        · rw [← Option.some.inj hpresent]
          refine ⟨rfl, hidentity, ?_⟩
          intro other hother
          rw [hother] at hnext
          cases hnext
        · exact h.belongs other present hpresent
      linked := hlinked
      turn := by
        refine .taken worker lock change reached hlock hholder ?_ hnext ?_ hfits
        · rw [Session.get?_setActivity, if_pos rfl]
        · intro other present hother hpresent
          rw [Session.get?_setActivity, if_neg hother.symm, hactivities] at hpresent
          exact houtside other present hother hpresent }

theorem Orderly.step_composing
    (h : Orderly director identity registered cell session history found coordinator)
    {change : Change} {lock : Ref WriterLock} {current : SharedHandle}
    (hactivity :
      session.activities.get? worker = some (.changing director change (.composing lock current)))
    (hstep : session.stepChange? worker director change (.composing lock current) = some later) :
    Orderly director identity registered cell later
      (history.record (session.activities.get? worker) (later.activities.get? worker)) found
      coordinator := by
  obtain ⟨-, -, -, hsettled, hcurrent⟩ := h.turn_of_held hactivity rfl
  have hlast : session.Shares identity current := by
    rw [hcurrent, ← hsettled.1]
    exact h.shares _ (history.last_mem registered)
  have hkept : ∀ version ∈ registered :: history.made,
      (session.compose found.workshop change.agent
        (change.kind.operation current change.role)).2.2.Shares identity version :=
    fun version hversion => (h.shares version hversion).compose _ _ _
  obtain rfl := eq_of_stepChange?_composing h.directed hstep
  rw [hactivity, Session.get?_setActivity, if_pos rfl]
  cases hresult : (session.compose found.workshop change.agent
      (change.kind.operation current change.role)).1 with
  | error error =>
      exact h.compose_inside found.workshop change.agent _ hactivity rfl rfl rfl hkept h.linked
        hsettled
  | ok made =>
      refine h.compose_inside found.workshop change.agent _ hactivity rfl rfl rfl ?_ ?_ ?_
      · intro version hversion
        rcases List.mem_cons.mp hversion with rfl | hversion
        · exact hkept version List.mem_cons_self
        rcases List.mem_cons.mp hversion with rfl | hversion
        · exact Session.shares_of_compose_ok hlast hresult
        · exact hkept version (List.mem_cons_of_mem _ hversion)
      · refine ⟨?_, h.linked⟩
        rw [hcurrent, ← hsettled.1]
        rfl
      · exact ⟨congrArg (made :: ·) hsettled.1, hsettled.2⟩
end Moves

end RoleStack

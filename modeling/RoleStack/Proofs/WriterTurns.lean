import RoleStack.Proofs.TurnSteps

/-!
# Writers take turns

Whatever the order of the steps, the writer lock spans the reading of the current version, the
composition and the store, so that each change composes on exactly what the change before it made.
-/

namespace RoleStack

section Moves

variable {director : Ref Director} {identity : Identity} {registered : SharedHandle}
  {cell : Ref Entry} {session later : Session} {history recorded : History} {found : Director}
  {coordinator next : Coordinator} {worker : Worker} {activity : Activity}

/-! ### Every interleaving -/

theorem Orderly.stepChange
    (h : Orderly director identity registered cell session history found coordinator)
    {change : Change} {stage : Change.Stage}
    (hactivity : session.activities.get? worker = some (.changing director change stage))
    (hstep : session.stepChange? worker director change stage = some later) :
    ∃ writers next, Orderly director identity registered cell later
      (history.record (session.activities.get? worker) (later.activities.get? worker))
      { found with writers := writers } next := by
  -- Composing is a step of the session; all others see the writers and the coordinator only.
  by_cases hcomposing : ∃ lock current, stage = .composing lock current
  · obtain ⟨lock, current, rfl⟩ := hcomposing
    exact ⟨found.writers, coordinator, h.step_composing hactivity hstep⟩
  have hother : ∀ lock current, stage ≠ .composing lock current :=
    fun lock current hsame => hcomposing ⟨lock, current, hsame⟩
  obtain ⟨progress, hprogress, rfl⟩ :=
    exists_of_stepChange? h.directed h.coordinated hother hstep
  refine ⟨progress.writers, progress.coordinator, ?_⟩
  rw [hactivity, get?_proceed, if_pos rfl]
  cases stage with
  | begun => exact h.step_begun hactivity hprogress
  | queued lock => exact h.step_queued hactivity hprogress
  | reading lock => exact h.step_reading hactivity hprogress
  | waiting lock entry => exact h.step_waiting hactivity hprogress
  | holding lock current => exact h.step_holding hactivity hprogress
  | composing lock current => exact absurd rfl (hother lock current)
  | storing lock made =>
      have hstored := h.step_storing hactivity hprogress
      obtain rfl := Option.some.inj hprogress
      exact hstored
  | lettingGo lock result => exact h.step_lettingGo hactivity hprogress
  | leaving lock result =>
      have hleft := h.step_leaving hactivity hprogress
      obtain rfl := Option.some.inj hprogress
      cases result with
      | ok made => exact hleft
      | error error => exact hleft
  | returned result => cases hprogress

theorem Orderly.step
    (h : Orderly director identity registered cell session history found coordinator)
    (hstep : session.step? worker = some later) :
    ∃ writers next, Orderly director identity registered cell later
      (history.record (session.activities.get? worker) (later.activities.get? worker))
      { found with writers := writers } next := by
  rw [Session.step?] at hstep
  cases hactivity : session.activities.get? worker with
  | none =>
      rw [hactivity] at hstep
      cases hstep
  | some activity =>
      rw [hactivity] at hstep
      cases activity with
      | calling reference call stage timeout =>
          obtain ⟨next, hnext⟩ := h.stepCall hactivity hstep
          exact ⟨found.writers, next, hnext⟩
      | changing other change stage =>
          obtain ⟨rfl, -, -⟩ := h.belongs worker _ hactivity
          obtain ⟨writers, next, hnext⟩ := h.stepChange hactivity hstep
          rw [hactivity] at hnext
          exact ⟨writers, next, hnext⟩

theorem Orderly.move
    (h : Orderly director identity registered cell session history found coordinator)
    (hmove : Move director identity session history later recorded) :
    ∃ writers next, Orderly director identity registered cell later recorded
      { found with writers := writers } next := by
  cases hmove with
  | change worker change hidle hidentity =>
      have hbelongs : (Activity.changing director change .begun).Belongs director identity cell
          found := by
        refine ⟨rfl, hidentity, ?_⟩
        intro lock hlock
        cases hlock
      exact ⟨found.writers, coordinator,
        h.setActivity (Session.outside_of_idle hidle) rfl hbelongs⟩
  | call worker other call timeout hidle hdirector hspares =>
      obtain rfl : found = other := Option.some.inj (h.directed.symm.trans hdirector)
      exact ⟨found.writers, coordinator,
        h.setActivity (Session.outside_of_idle hidle) rfl ⟨rfl, hspares, trivial⟩⟩
  | step worker next hstep => exact h.step hstep
  | expire worker activity hactivity => exact ⟨found.writers, coordinator, h.expire hactivity⟩
  | collect worker => exact ⟨found.writers, coordinator, h.collect worker⟩

theorem Session.Registers.orderly (h : session.Registers director registered) :
    ∃ cell found coordinator, Orderly director registered.identity registered cell session .empty
      found coordinator := by
  obtain ⟨found, coordinator, cell, hdirector, hcoordinator, htracks, hfree⟩ := h.registered
  refine ⟨cell, found, coordinator, hdirector, hcoordinator, htracks, ?_, ?_, trivial, ?_⟩
  · intro version hversion
    obtain rfl := List.mem_singleton.mp hversion
    exact h.shared
  · intro worker activity hactivity
    rw [h.idle] at hactivity
    cases hactivity
  · refine .free hfree ?_ ⟨rfl, rfl⟩
    intro worker
    exact Session.outside_of_idle (h.idle worker)

theorem Interleaved.orderly (hregisters : session.Registers director registered)
    (h : Interleaved director registered.identity session later history) :
    ∃ cell found coordinator, Orderly director registered.identity registered cell later history
      found coordinator := by
  induction h with
  | start => exact hregisters.orderly
  | move interleaved move ih =>
      obtain ⟨cell, found, coordinator, horderly⟩ := ih
      obtain ⟨writers, next, hnext⟩ := horderly.move move
      exact ⟨cell, _, next, hnext⟩

/-- At most one change is made and not stored yet, and at most one not given back yet. -/
theorem Turn.pending {writers : Writers}
    (h : Turn director identity registered cell session writers history) :
    (∃ pending, history.made = pending ++ history.stored ∧ pending.length ≤ 1) ∧
      ∃ pending, history.made = pending ++ history.returned ∧ pending.length ≤ 1 := by
  have hsettled : history.Settled →
      (∃ pending, history.made = pending ++ history.stored ∧ pending.length ≤ 1) ∧
        ∃ pending, history.made = pending ++ history.returned ∧ pending.length ≤ 1 := by
    intro hsettled
    exact ⟨⟨[], hsettled.1, Nat.zero_le 1⟩, ⟨[], hsettled.1.trans hsettled.2, Nat.zero_le 1⟩⟩
  cases h with
  | free hfree houtside hall => exact hsettled hall
  | taken worker lock change stage hlock hholder hactivity hheld houtside hfits =>
      cases stage with
      | begun | queued | returned => cases hheld
      | reading => exact hsettled hfits
      | waiting | holding | composing => exact hsettled hfits.1
      | storing lock next =>
          obtain ⟨hmade, hstored⟩ := hfits
          refine ⟨⟨[next], hmade, Nat.le_refl 1⟩, ⟨[next], ?_, Nat.le_refl 1⟩⟩
          rw [hmade, hstored]
          rfl
      | lettingGo lock result | leaving lock result =>
          cases result with
          | error error => exact hsettled hfits
          | ok next =>
              obtain ⟨hmade, hstored⟩ := hfits
              exact ⟨⟨[], hmade, Nat.zero_le 1⟩, ⟨[next], hmade.trans hstored, Nat.le_refl 1⟩⟩

/-- No change is lost, however the workers interleave: each successful composition was on what the one
before it made, the first on the registered handle; these are the versions that were stored and given
back, in this order, except that the last may still be on its way; and the coordinator has the version
that was stored last. -/
theorem changes_take_turns (hregisters : session.Registers director registered)
    (hinterleaved : Interleaved director registered.identity session later history) :
    History.Linked registered history.composed ∧
      (∃ pending, history.made = pending ++ history.stored ∧ pending.length ≤ 1) ∧
      (∃ pending, history.made = pending ++ history.returned ∧ pending.length ≤ 1) ∧
      ∃ found, later.directors.get? director = some found ∧
        (later.coordinator found.coordinator).peek registered.identity =
          some (history.stored.headD registered) := by
  obtain ⟨cell, found, coordinator, horderly⟩ := hinterleaved.orderly hregisters
  obtain ⟨hstored, hreturned⟩ := horderly.turn.pending
  refine ⟨horderly.linked, hstored, hreturned, found, horderly.directed, ?_⟩
  rw [Session.coordinator, horderly.coordinated]
  exact horderly.tracks.peek

/-! ### Running workers in turn -/

/-- Lets the workers of the list take a step one after the other, where they can. -/
def Session.alternate (session : Session) (history : History) : List Worker → Session × History
  | [] => (session, history)
  | worker :: rest =>
      match session.step? worker with
      | none => session.alternate history rest
      | some next =>
          next.alternate
            (history.record (session.activities.get? worker) (next.activities.get? worker)) rest

theorem Interleaved.alternate {start : Session}
    (h : Interleaved director identity start session history) (workers : List Worker) :
    Interleaved director identity start (session.alternate history workers).1
      (session.alternate history workers).2 := by
  induction workers generalizing session history with
  | nil => exact h
  | cons worker rest ih =>
      rw [Session.alternate]
      split
      · exact ih h
      · rename_i next hnext
        exact ih (h.move (.step worker next hnext))

/-- All holds are dropped while the first change is about to store, and the second change still waits
for its turn. -/
theorem changes_take_turns_past_unlock :
    let opened := (((Session.start.addWorkshop ⟨none, false⟩ none none).2.addCoordinator ⟨0⟩).2
      |>.addDirector ⟨0⟩ ⟨0⟩).2
    let made := opened.instantiate .database
    let shared := made.2.share made.1
    let session := (shared.2.register ⟨0⟩ shared.1).2
    session.Registers ⟨0⟩ shared.1 ∧
      ∃ later history, Interleaved ⟨0⟩ shared.1.identity session later history ∧
        history.composed =
          [(⟨⟨1⟩, ⟨1⟩⟩, ⟨⟨2⟩, ⟨1⟩⟩), (⟨⟨0⟩, ⟨1⟩⟩, ⟨⟨1⟩, ⟨1⟩⟩)] ∧
        history.returned = [⟨⟨2⟩, ⟨1⟩⟩, ⟨⟨1⟩, ⟨1⟩⟩] ∧
        ∃ found, later.directors.get? ⟨0⟩ = some found ∧
          (later.coordinator found.coordinator).peek ⟨1⟩ = some ⟨⟨2⟩, ⟨1⟩⟩ := by
  intro opened made shared session
  have hregisters : session.Registers ⟨0⟩ shared.1 := by
    refine ⟨⟨⟨⟨0⟩, ⟨0⟩, Writers.empty⟩, _, ⟨0⟩, rfl, rfl, ⟨rfl, _, rfl, rfl, rfl⟩, ?_⟩,
      ⟨rfl, _, rfl, rfl⟩, fun _ => rfl⟩
    intro lock hlock
    cases hlock
  have hcalled : Interleaved ⟨0⟩ shared.1.identity session _ .empty :=
    ((Interleaved.start.move (.change ⟨"first"⟩
        ⟨.assume, ⟨1⟩, (Role.administrator true []).reference ⟨0⟩, .zero⟩ rfl rfl)).move
      (.change ⟨"second"⟩ ⟨.assume, ⟨1⟩, (Role.auditor []).reference ⟨1⟩, .zero⟩ rfl rfl)).move
      (.call ⟨"other"⟩ ⟨⟨0⟩, ⟨0⟩, Writers.empty⟩ (.unlock ⟨1⟩ true) none rfl rfl rfl)
  have hrun := hcalled.alternate
    (List.replicate 6 ⟨"first"⟩ ++ List.replicate 2 ⟨"other"⟩ ++ List.replicate 2 ⟨"second"⟩ ++
      List.replicate 3 ⟨"first"⟩ ++ List.replicate 9 ⟨"second"⟩)
  obtain ⟨-, -, -, found, hfound, hpeek⟩ := changes_take_turns hregisters hrun
  refine ⟨hregisters, _, _, hrun, ?_, ?_, found, hfound, hpeek.trans ?_⟩
  · decide +kernel
  · decide +kernel
  · decide +kernel

end Moves

end RoleStack

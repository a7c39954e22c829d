import RoleStack.Proofs.Wakeups
import RoleStack.Proofs.WriterTurns

/-!
# Who waits for whom

A change waits twice: for the writer lock of its identity, and then until nobody else holds the identity.
Only the second wait lets a worker pass that holds the identity itself. So a worker that holds it and
starts a change may wait for the writer lock of a change that waits for this very hold.
-/

namespace RoleStack

/-- The change can take no step by itself: the writer lock is taken, the reader has to wait, or the step
is not its own. -/
theorem Change.step?_eq_none {change : Change} {worker : Worker} {writers : Writers}
    {coordinator : Coordinator} {stage : Stage}
    (h : change.step? worker writers coordinator stage = none) :
    (∃ lock, stage = .queued lock ∧ writers.isFree lock = false) ∨
      (∃ lock cell, stage = .waiting lock cell ∧ coordinator.readIn? cell worker = none) ∨
      (∃ lock current, stage = .composing lock current) ∨ ∃ result, stage = .returned result := by
  cases stage with
  | queued lock =>
      rw [step?] at h
      by_cases hfree : writers.isFree lock = true
      · rw [if_pos hfree] at h
        cases h
      · exact Or.inl ⟨lock, rfl, by simpa using hfree⟩
  | waiting lock cell =>
      rw [step?] at h
      cases hread : coordinator.readIn? cell worker with
      | none => exact Or.inr (Or.inl ⟨lock, cell, rfl, hread⟩)
      | some version =>
          rw [hread] at h
          cases version <;> cases h
  | reading lock =>
      rw [step?] at h
      split at h <;> cases h
  | composing lock current => exact Or.inr (Or.inr (Or.inl ⟨lock, current, rfl⟩))
  | returned result => exact Or.inr (Or.inr (Or.inr ⟨result, rfl⟩))
  | begun | holding | storing | lettingGo | leaving => cases h

theorem Coordinator.Call.step?_eq_none {call : Call} {coordinator : Coordinator} {worker : Worker}
    {stage : Stage} (h : call.step? coordinator worker stage = none) :
    (∃ cell, stage = .asleep cell) ∨ ∃ reply, stage = .returned reply := by
  cases stage with
  | asleep cell => exact Or.inl ⟨cell, rfl⟩
  | returned reply => exact Or.inr ⟨reply, rfl⟩
  | begun | entering | roused => cases h

/-- The worker is in a call or change that has not returned. -/
def Session.Busy (session : Session) (worker : Worker) : Prop :=
  ∃ activity, session.activities.get? worker = some activity ∧ activity.answer? = none

/-- A change has the writer lock and waits for others to let go of the identity, and all of them wait in
changes of their own for that lock. -/
structure Entangled (director : Ref Director) (session : Session) (found : Director)
    (cell : Ref Entry) (entry : Entry) : Prop where
  locked : entry.isLocked = true
  waits : ∃ writer change lock,
    session.activities.get? writer = some (.changing director change (.waiting lock cell)) ∧
      found.writers.cells.get? lock = some ⟨some writer⟩ ∧ entry.isHeldBy writer = false ∧
      ∀ holder, entry.isHeldBy holder = true → ∃ other,
        session.activities.get? holder = some (.changing director other (.queued lock))

section Steps

variable {director : Ref Director} {identity : Identity} {registered : SharedHandle}
  {cell : Ref Entry} {session later : Session} {history : History} {found : Director}
  {coordinator : Coordinator} {worker : Worker} {activity : Activity} {entry : Entry}

theorem Coordinator.Places.readIn?_eq_none_iff (h : coordinator.Places identity cell entry) :
    coordinator.readIn? cell worker = none ↔ entry.blocksReader worker = true := by
  rw [Coordinator.readIn?, h.present]
  by_cases hblocks : entry.blocksReader worker = true
  · simp [hblocks]
  · simp [hblocks]

theorem Interleaved.steps (h : Interleaved director identity session later history) :
    Relation.ReflTransGen Session.Steps session later := by
  induction h with
  | start => exact .refl
  | move interleaved move ih =>
      refine ih.tail ?_
      cases move with
      | change worker change hidle hidentity => exact .change worker director change hidle
      | call worker found call timeout hidle hdirector hspares =>
          exact .call worker found.coordinator call timeout hidle
      | step worker next hstep => exact .step worker _ hstep
      | expire worker activity hactivity => exact .expire worker activity hactivity
      | collect worker => exact .collect worker

/-- Where a worker is that cannot go on, if it is in no lock that waits. -/
inductive Stuck (director : Ref Director) (found : Director) (cell : Ref Entry) (entry : Entry)
    (worker : Worker) : Activity → Prop where
  | queued (change : Change) (lock : Ref WriterLock) (htaken : found.writers.isFree lock = false) :
      Stuck director found cell entry worker (.changing director change (.queued lock))
  | reading (change : Change) (lock : Ref WriterLock) (hblocks : entry.blocksReader worker = true) :
      Stuck director found cell entry worker (.changing director change (.waiting lock cell))
  | asleep (reference : Ref Coordinator) (identity : Identity) (timeout : Option UInt64)
      (hblocks : entry.blocksReader worker = true) :
      Stuck director found cell entry worker
        (.calling reference (.current identity) (.asleep cell) timeout)

theorem Orderly.stuck
    (h : Orderly director identity registered cell session history found coordinator)
    (hplaces : coordinator.Places identity cell entry) (halert : session.Alert)
    (hactivity : session.activities.get? worker = some activity) (hopen : activity.answer? = none)
    (hbrief : ∀ reference handle stage timeout,
      activity ≠ .calling reference (.lock handle true) stage timeout)
    (hstep : session.step? worker = none) :
    Stuck director found cell entry worker activity := by
  have hbelongs := h.belongs worker activity hactivity
  cases activity with
  | calling reference call stage timeout =>
      obtain ⟨rfl, -, hstage⟩ := hbelongs
      rw [Session.step?_calling hactivity h.coordinated, Option.map_eq_none_iff] at hstep
      rcases Coordinator.Call.step?_eq_none hstep with ⟨place, rfl⟩ | ⟨reply, rfl⟩
      · obtain rfl : place = cell := hstage
        obtain ⟨present, seen, hpresent, hseen, hheld⟩ := halert worker _ hactivity
        obtain rfl : coordinator = present := Option.some.inj (h.coordinated.symm.trans hpresent)
        obtain rfl : entry = seen := Option.some.inj (hplaces.present.symm.trans hseen)
        cases call with
        | current other => exact .asleep found.coordinator other timeout hheld
        | lock handle waits =>
            obtain rfl : waits = true := hheld.1
            exact absurd rfl (hbrief found.coordinator handle (.asleep place) timeout)
        | store | delete | unlock => cases hheld
      · cases hopen
  | changing other change stage =>
      obtain ⟨rfl, -, -⟩ := hbelongs
      by_cases hcomposing : ∃ lock current, stage = .composing lock current
      · obtain ⟨lock, current, rfl⟩ := hcomposing
        rw [Session.step?_composing hactivity h.directed] at hstep
        cases hstep
      have hstage : ∀ lock current, stage ≠ .composing lock current :=
        fun lock current hsame => hcomposing ⟨lock, current, hsame⟩
      rw [Session.step?_changing hactivity h.directed h.coordinated hstage,
        Option.map_eq_none_iff] at hstep
      rcases Change.step?_eq_none hstep with ⟨lock, rfl, htaken⟩ | ⟨lock, place, rfl, hread⟩ |
        ⟨lock, current, rfl⟩ | ⟨result, rfl⟩
      · exact .queued change lock htaken
      · obtain ⟨-, -, -, -, rfl⟩ := h.turn_of_held hactivity rfl
        exact .reading change lock (hplaces.readIn?_eq_none_iff.mp hread)
      · exact absurd rfl (hstage lock current)
      · cases hopen

/-- Where nobody can go on, a writer lock that is taken belongs to a change that waits to read. -/
theorem Orderly.writer_waits
    (h : Orderly director identity registered cell session history found coordinator)
    (hplaces : coordinator.Places identity cell entry) (halert : session.Alert)
    (hstep : ∀ worker, session.step? worker = none) {change : Change} {lock : Ref WriterLock}
    (hactivity : session.activities.get? worker = some (.changing director change (.queued lock)))
    (htaken : found.writers.isFree lock = false) :
    ∃ writer other,
      session.activities.get? writer = some (.changing director other (.waiting lock cell)) ∧
      found.writers.cells.get? lock = some ⟨some writer⟩ ∧ entry.blocksReader writer = true := by
  obtain ⟨-, -, hqueued⟩ := h.belongs worker _ hactivity
  have hlock := hqueued lock rfl
  cases h.turn with
  | free hfree houtside hsettled =>
      simp [Writers.isFree, hfree lock hlock] at htaken
  | taken writer taken other stage hlock' hholder hwriter hheld houtside hfits =>
      obtain rfl : lock = taken := Option.some.inj (hlock.symm.trans hlock')
      have hopen : (Activity.changing director other stage).answer? = none := by
        cases stage with
        | returned result => cases hheld
        | begun | queued | reading | waiting | holding | composing | storing | lettingGo
        | leaving => rfl
      have hstuck := h.stuck hplaces halert hwriter hopen
        (fun _ _ _ _ => Activity.noConfusion) (hstep writer)
      cases hstuck with
      | queued change lock htaken => cases hheld
      | reading change place hblocks =>
          obtain rfl : place = lock := Option.some.inj hheld
          exact ⟨writer, other, hwriter, hholder, hblocks⟩

theorem Orderly.entangled
    (h : Orderly director identity registered cell session history found coordinator)
    (hplaces : coordinator.Places identity cell entry) (halert : session.Alert)
    (hbrief : ∀ worker reference handle stage timeout,
      session.activities.get? worker ≠ some (.calling reference (.lock handle true) stage timeout))
    (hstep : ∀ worker, session.step? worker = none) (hbusy : session.Busy worker)
    (hholders : ∀ holder, entry.isHeldBy holder = true → session.Busy holder) :
    Entangled director session found cell entry := by
  have hstuck : ∀ other activity, session.activities.get? other = some activity →
      activity.answer? = none → Stuck director found cell entry other activity := by
    intro other activity hactivity hopen
    refine h.stuck hplaces halert hactivity hopen ?_ (hstep other)
    rintro reference handle stage timeout rfl
    exact hbrief other reference handle stage timeout hactivity
  -- Whoever is stuck, there is a reader that has to wait.
  have hreader : ∃ reader, entry.blocksReader reader = true := by
    obtain ⟨activity, hactivity, hopen⟩ := hbusy
    cases hstuck worker activity hactivity hopen with
    | queued change lock htaken =>
        obtain ⟨writer, -, -, -, hblocks⟩ := h.writer_waits hplaces halert hstep hactivity htaken
        exact ⟨writer, hblocks⟩
    | reading change lock hblocks => exact ⟨worker, hblocks⟩
    | asleep reference identity timeout hblocks => exact ⟨worker, hblocks⟩
  have hlocked : entry.isLocked = true := by
    obtain ⟨reader, hblocks⟩ := hreader
    simp only [Entry.blocksReader, Bool.and_eq_true] at hblocks
    exact hblocks.1.1
  have hqueued : ∀ holder, entry.isHeldBy holder = true → ∃ change lock,
      session.activities.get? holder = some (.changing director change (.queued lock)) ∧
        found.writers.isFree lock = false := by
    intro holder hheld
    obtain ⟨activity, hactivity, hopen⟩ := hholders holder hheld
    have hpasses : entry.blocksReader holder ≠ true := by simp [Entry.blocksReader, hheld]
    cases hstuck holder activity hactivity hopen with
    | queued change lock htaken => exact ⟨change, lock, hactivity, htaken⟩
    | reading change lock hblocks => exact absurd hblocks hpasses
    | asleep reference identity timeout hblocks => exact absurd hblocks hpasses
  obtain ⟨first, hfirst⟩ : ∃ first, entry.isHeldBy first = true := by
    obtain ⟨first, hmem⟩ := List.exists_mem_of_ne_nil entry.holders
      (by simpa [Entry.isLocked] using hlocked)
    exact ⟨first, by simpa [Entry.isHeldBy] using hmem⟩
  obtain ⟨change, lock, hactivity, htaken⟩ := hqueued first hfirst
  obtain ⟨writer, other, hwriter, hholder, hblocks⟩ :=
    h.writer_waits hplaces halert hstep hactivity htaken
  have hfree : entry.isHeldBy writer = false := by
    simp only [Entry.blocksReader, Bool.and_eq_true, Bool.not_eq_true'] at hblocks
    exact hblocks.2
  refine ⟨hlocked, writer, other, lock, hwriter, hholder, hfree, ?_⟩
  intro holder hheld
  obtain ⟨change', lock', hactivity', -⟩ := hqueued holder hheld
  -- All of them wait for the lock of the identity.
  have hlock := (h.belongs first _ hactivity).2.2 lock rfl
  have hlock' := (h.belongs holder _ hactivity').2.2 lock' rfl
  obtain rfl : lock = lock' := Option.some.inj (hlock.symm.trans hlock')
  exact ⟨change', hactivity'⟩

/-- While some worker is in a call and none in a lock that waits, a worker can go on, or one that is
between two calls has a hold to let go, or the changes are entangled. A change whose worker holds the
identity always reads on once it has the writer lock. -/
theorem moves_unless_entangled (hregisters : session.Registers director registered)
    (hinterleaved : Interleaved director registered.identity session later history)
    (hbrief : ∀ worker reference handle stage timeout,
      later.activities.get? worker ≠ some (.calling reference (.lock handle true) stage timeout))
    (hbusy : later.Busy worker) :
    ∃ found coordinator cell entry, later.directors.get? director = some found ∧
      later.coordinators.get? found.coordinator = some coordinator ∧
      coordinator.Places registered.identity cell entry ∧
      ((∃ other next, later.step? other = some next) ∨
        (∃ holder, entry.isHeldBy holder = true ∧ ¬ later.Busy holder) ∨
        Entangled director later found cell entry) ∧
      ∀ reader change lock place,
        later.activities.get? reader = some (.changing director change (.waiting lock place)) →
        entry.isHeldBy reader = true → ∃ next, later.step? reader = some next := by
  obtain ⟨cell, found, coordinator, horderly⟩ := hinterleaved.orderly hregisters
  obtain ⟨entry, hentry, -⟩ := horderly.tracks.entry
  have hplaces : coordinator.Places registered.identity cell entry :=
    ⟨horderly.tracks.found, hentry⟩
  have halert := (Session.alert_of_idle hregisters.idle).of_steps hinterleaved.steps
  refine ⟨found, coordinator, cell, entry, horderly.directed, horderly.coordinated, hplaces, ?_, ?_⟩
  · by_cases hmoves : ∃ other next, later.step? other = some next
    · exact Or.inl hmoves
    by_cases hidle : ∃ holder, entry.isHeldBy holder = true ∧ ¬ later.Busy holder
    · exact Or.inr (Or.inl hidle)
    have hstep : ∀ other, later.step? other = none := by
      intro other
      cases hother : later.step? other with
      | none => rfl
      | some next => exact absurd ⟨other, next, hother⟩ hmoves
    have hholders : ∀ holder, entry.isHeldBy holder = true → later.Busy holder := by
      intro holder hheld
      by_contra hnot
      exact hidle ⟨holder, hheld, hnot⟩
    exact Or.inr (Or.inr (horderly.entangled hplaces halert hbrief hstep hbusy hholders))
  · intro reader change lock place hactivity hheld
    cases hstep : later.step? reader with
    | some next => exact ⟨next, rfl⟩
    | none =>
        have hstuck := horderly.stuck hplaces halert hactivity rfl
          (fun _ _ _ _ => Activity.noConfusion) hstep
        cases hstuck with
        | reading change lock hblocks => simp [Entry.blocksReader, hheld] at hblocks

end Steps

/-! ### A holder that changes what it holds -/

namespace Session

/-- The holder takes a hold, the change of another worker takes the writer lock and waits to read, and
then the holder starts a change itself. -/
def overtaken : Session × History :=
  let held := (oneRegistered.setActivity ⟨"holder"⟩
    (.calling ⟨0⟩ (.lock ⟨⟨0⟩, ⟨1⟩⟩ false) .begun none)).alternate .empty
      [⟨"holder"⟩, ⟨"holder"⟩]
  let waiting := ((held.1.collect ⟨"holder"⟩).2.setActivity ⟨"other"⟩
    (.changing ⟨0⟩ ⟨.assume, ⟨1⟩, (Role.auditor []).reference ⟨1⟩, .zero⟩ .begun)).alternate held.2
      [⟨"other"⟩, ⟨"other"⟩, ⟨"other"⟩]
  (waiting.1.setActivity ⟨"holder"⟩ (.changing ⟨0⟩
    ⟨.assume, ⟨1⟩, (Role.administrator true []).reference ⟨0⟩, .zero⟩ .begun)).alternate waiting.2
      [⟨"holder"⟩]

theorem interleaved_overtaken :
    Interleaved ⟨0⟩ ⟨1⟩ oneRegistered overtaken.1 overtaken.2 := by
  have hstart : Interleaved ⟨0⟩ ⟨1⟩ oneRegistered oneRegistered .empty := .start
  have hheld := (hstart.move (.call ⟨"holder"⟩ ⟨⟨0⟩, ⟨0⟩, Writers.empty⟩
    (.lock ⟨⟨0⟩, ⟨1⟩⟩ false) none rfl rfl rfl)).alternate [⟨"holder"⟩, ⟨"holder"⟩]
  have hwaiting := ((hheld.move (.collect ⟨"holder"⟩)).move (.change ⟨"other"⟩
    ⟨.assume, ⟨1⟩, (Role.auditor []).reference ⟨1⟩, .zero⟩ rfl rfl)).alternate
      [⟨"other"⟩, ⟨"other"⟩, ⟨"other"⟩]
  exact (hwaiting.move (.change ⟨"holder"⟩
    ⟨.assume, ⟨1⟩, (Role.administrator true []).reference ⟨0⟩, .zero⟩ rfl rfl)).alternate
      [⟨"holder"⟩]

theorem eq_of_overtaken {worker : Worker} {activity : Activity}
    (h : overtaken.1.activities.get? worker = some activity) :
    worker = ⟨"holder"⟩ ∨ worker = ⟨"other"⟩ := by
  have hmem : worker ∈ overtaken.1.activities.keys := by
    rw [Table.mem_keys_iff, h, Option.isSome_some]
  have hkeys : overtaken.1.activities.keys = [⟨"other"⟩, ⟨"holder"⟩] := rfl
  rw [hkeys] at hmem
  simpa [or_comm] using hmem

theorem step?_overtaken (worker : Worker) : overtaken.1.step? worker = none := by
  cases hactivity : overtaken.1.activities.get? worker with
  | none => rw [step?, hactivity]
  | some activity => rcases eq_of_overtaken hactivity with rfl | rfl <;> rfl

/-- The holder waits for the writer lock of the change that waits for its hold, and nobody can go on. -/
theorem nobody_moves_overtaken :
    ∃ later history, oneRegistered.Registers ⟨0⟩ ⟨⟨0⟩, ⟨1⟩⟩ ∧
      Interleaved ⟨0⟩ ⟨1⟩ oneRegistered later history ∧
      (Coordinator.entry? (later.coordinator ⟨0⟩) ⟨1⟩).map Entry.holders = some [⟨"holder"⟩] ∧
      later.activities.get? ⟨"holder"⟩ = some (.changing ⟨0⟩
        ⟨.assume, ⟨1⟩, (Role.administrator true []).reference ⟨0⟩, .zero⟩ (.queued ⟨0⟩)) ∧
      later.activities.get? ⟨"other"⟩ = some (.changing ⟨0⟩
        ⟨.assume, ⟨1⟩, (Role.auditor []).reference ⟨1⟩, .zero⟩ (.waiting ⟨0⟩ ⟨0⟩)) ∧
      ∀ worker, later.step? worker = none :=
  ⟨_, _, registers_oneRegistered, interleaved_overtaken, rfl, rfl, rfl, step?_overtaken⟩

end Session

theorem moves_unless_entangled_overtaken :
    Session.oneRegistered.Registers ⟨0⟩ ⟨⟨0⟩, ⟨1⟩⟩ ∧
      Interleaved ⟨0⟩ ⟨1⟩ Session.oneRegistered Session.overtaken.1 Session.overtaken.2 ∧
      Session.overtaken.1.Busy ⟨"other"⟩ ∧
      ∃ found cell entry, Entangled ⟨0⟩ Session.overtaken.1 found cell entry := by
  have hbrief : ∀ worker reference handle stage timeout,
      Session.overtaken.1.activities.get? worker ≠
        some (.calling reference (.lock handle true) stage timeout) := by
    intro worker reference handle stage timeout hactivity
    rcases Session.eq_of_overtaken hactivity with rfl | rfl <;> cases Option.some.inj hactivity
  have hbusy : Session.overtaken.1.Busy ⟨"other"⟩ := ⟨_, rfl, rfl⟩
  obtain ⟨found, coordinator, cell, entry, hfound, hcoordinated, hplaces, hmoves, -⟩ :=
    moves_unless_entangled Session.registers_oneRegistered Session.interleaved_overtaken hbrief hbusy
  refine ⟨Session.registers_oneRegistered, Session.interleaved_overtaken, hbusy, found, cell, entry, ?_⟩
  rcases hmoves with ⟨other, next, hnext⟩ | ⟨holder, hheld, hidle⟩ | hentangled
  · rw [Session.step?_overtaken] at hnext
    cases hnext
  · have hfound : found.coordinator = ⟨0⟩ := by
      rw [← Option.some.inj hfound]
      rfl
    have hholders : (Session.overtaken.1.coordinators.get? ⟨0⟩).bind
        (fun coordinator => (coordinator.entry? ⟨1⟩).map Entry.holders) =
          some [⟨"holder"⟩] := rfl
    rw [← hfound, hcoordinated, Option.bind_some, hplaces.entry?_eq, Option.map_some] at hholders
    have hholder : holder = ⟨"holder"⟩ := by
      simpa [Entry.isHeldBy, Option.some.inj hholders] using hheld
    subst hholder
    exact absurd ⟨_, rfl, rfl⟩ hidle
  · exact hentangled

end RoleStack

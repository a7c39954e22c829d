import RoleStack.Proofs.Deregistration
import RoleStack.Proofs.Ledger

/-!
# A held identity is not handed out

Workers take and drop holds on an identity, store versions of it, read it and change it through a
director, in any order of their steps. A worker that starts to unlock has a hold by the ledger, and keeps
it until the unlock has its effect, since nobody else can take it away; the same goes for the hold that a
change takes. So the entry agrees with the ledger at every step, and with it the rule that a reader waits
unless it has a hold or nobody has.
-/

namespace RoleStack

/-! ### What the workers do -/

/-- One step around an identity: a worker that is idle starts a change or a call that borrows the
identity, a worker goes on, its time runs out, or its answer is collected. -/
inductive Borrow (director : Ref Director) (identity : Identity) (session : Session)
    (ledger : Ledger) : Session → Ledger → Prop where
  | change (worker : Worker) (change : Change) (hidle : session.activities.get? worker = none)
      (hidentity : change.identity = identity) :
      Borrow director identity session ledger
        (session.setActivity worker (.changing director change .begun)) ledger
  /-- A worker unlocks only while it has a hold. -/
  | call (worker : Worker) (found : Director) (call : Coordinator.Call) (timeout : Option UInt64)
      (hidle : session.activities.get? worker = none)
      (hdirector : session.directors.get? director = some found)
      (hborrows : call.Borrows session identity)
      (hown : ∀ other all, call = .unlock other all → ledger.Holds worker) :
      Borrow director identity session ledger
        (session.setActivity worker (.calling found.coordinator call .begun timeout)) ledger
  | step (worker : Worker) (activity : Activity) (next : Session)
      (hactivity : session.activities.get? worker = some activity)
      (hstep : session.step? worker = some next) :
      Borrow director identity session ledger next (ledger.record worker activity)
  | expire (worker : Worker) (activity : Activity)
      (hactivity : session.activities.get? worker = some activity) :
      Borrow director identity session ledger (session.setActivity worker activity.expire) ledger
  | collect (worker : Worker) :
      Borrow director identity session ledger (session.collect worker).2 ledger

inductive Borrowed (director : Ref Director) (identity : Identity) (start : Session) :
    Session → Ledger → Prop where
  | start : Borrowed director identity start start .empty
  | move {session later : Session} {ledger recorded : Ledger}
      (borrowed : Borrowed director identity start session ledger)
      (move : Borrow director identity session ledger later recorded) :
      Borrowed director identity start later recorded

/-- The step gives the worker this version of the identity to read. -/
inductive Session.Reads (session : Session) (worker : Worker) (identity : Identity)
    (next : Session) : Option SharedHandle → Prop where
  | call (reference : Ref Coordinator) (stage : Coordinator.Stage) (timeout : Option UInt64)
      (version : Option SharedHandle)
      (hbefore : session.activities.get? worker =
        some (.calling reference (.current identity) stage timeout))
      (hafter : next.activities.get? worker =
        some (.calling reference (.current identity) (.returned (.version version)) timeout)) :
      Session.Reads session worker identity next version
  | change (director : Ref Director) (change : Change) (lock : Ref WriterLock) (cell : Ref Entry)
      (version : SharedHandle) (hidentity : change.identity = identity)
      (hbefore : session.activities.get? worker =
        some (.changing director change (.waiting lock cell)))
      (hafter : next.activities.get? worker =
        some (.changing director change (.holding lock version))) :
      Session.Reads session worker identity next (some version)
  | missing (director : Ref Director) (change : Change) (lock : Ref WriterLock)
      (stage : Change.Stage) (hidentity : change.identity = identity)
      (hstage : stage = .reading lock ∨ ∃ cell, stage = .waiting lock cell)
      (hbefore : session.activities.get? worker = some (.changing director change stage))
      (hafter : next.activities.get? worker =
        some (.changing director change (.leaving lock change.unknown))) :
      Session.Reads session worker identity next none

/-! ### What the workers rely on -/

def Activity.Borrows (session : Session) (director : Ref Director) (reference : Ref Coordinator)
    (identity : Identity) (cell : Ref Entry) : Activity → Prop
  | .calling other call stage _ =>
      other = reference ∧ call.Borrows session identity ∧ stage.In cell
  | .changing other change stage =>
      other = director ∧ change.identity = identity ∧ stage.Rests session identity cell

/-- What holds after every step. -/
structure Lent (director : Ref Director) (reference : Ref Coordinator) (identity : Identity)
    (registered : SharedHandle) (cell : Ref Entry) (session : Session) (ledger : Ledger)
    (coordinator : Coordinator) (entry : Entry) : Prop where
  directed : ∃ found, session.directors.get? director = some found ∧ found.coordinator = reference
  coordinated : session.coordinators.get? reference = some coordinator
  places : coordinator.Places identity cell entry
  shares : session.Shares identity entry.current
  agrees : entry.Agrees ledger registered
  borrows : ∀ worker activity, session.activities.get? worker = some activity →
    activity.Borrows session director reference identity cell
  held : ∀ worker activity, session.activities.get? worker = some activity → activity.LetsGo →
    entry.isHeldBy worker = true

section Steps

variable {director : Ref Director} {reference woken : Ref Coordinator} {identity : Identity}
  {registered : SharedHandle} {cell : Ref Entry} {session later : Session}
  {ledger recorded : Ledger} {coordinator next : Coordinator} {entry changed : Entry}
  {worker : Worker} {activity : Activity} {wakes : Option (Ref Entry)}

theorem Activity.Borrows.mono (h : activity.Borrows session director reference identity cell)
    (hkept : ∀ version, session.Shares identity version → later.Shares identity version) :
    activity.Borrows later director reference identity cell := by
  cases activity with
  | calling other call stage timeout =>
      obtain ⟨hother, hcall, hstage⟩ := h
      refine ⟨hother, ?_, hstage⟩
      cases call with
      | store version => exact hkept version hcall
      | delete | lock | unlock | current => exact hcall
  | changing other change stage =>
      obtain ⟨hother, hidentity, hrests⟩ := h
      refine ⟨hother, hidentity, ?_⟩
      cases stage with
      | holding lock version | composing lock version | storing lock version =>
          exact hkept version hrests
      | begun | queued | reading | waiting | lettingGo | leaving | returned => exact hrests

theorem Activity.Borrows.wakeAt (h : activity.Borrows session director reference identity cell)
    (woken : Ref Coordinator) (wakes : Option (Ref Entry)) :
    (activity.wakeAt woken wakes).Borrows session director reference identity cell := by
  cases activity with
  | calling other call stage timeout =>
      obtain ⟨hother, hcall, hstage⟩ := h
      obtain ⟨stage', hwoken, hkept⟩ :=
        Activity.exists_wakeAt_calling woken wakes other call stage timeout
      rw [hwoken]
      exact ⟨hother, hcall, hkept cell hstage⟩
  | changing other change stage =>
      rw [Activity.wakeAt_changing]
      exact h

theorem Activity.LetsGo.of_wakeAt (h : (activity.wakeAt woken wakes).LetsGo) : activity.LetsGo := by
  cases activity with
  | changing other change stage =>
      rw [Activity.wakeAt_changing] at h
      exact h
  | calling other call stage timeout =>
      cases wakes with
      | none => exact h
      | some place =>
          cases call with
          | store | delete | lock | current => cases h
          | unlock target all =>
              rintro reply rfl
              apply h reply
              split <;> rfl

theorem Activity.LetsGo.of_expire (h : activity.expire.LetsGo) : activity.LetsGo := by
  cases activity with
  | changing other change stage => exact h
  | calling other call stage timeout =>
      cases call with
      | store | delete | lock | current => cases h
      | unlock target all =>
          rintro reply rfl
          exact h reply rfl

/-- Moves that start or end something leave the coordinator as it is. -/
theorem Lent.rest
    (h : Lent director reference identity registered cell session ledger coordinator entry)
    (hdirectors : later.directors = session.directors)
    (hcoordinators : later.coordinators = session.coordinators)
    (hhandles : later.handles = session.handles)
    (hactivities : ∀ worker activity, later.activities.get? worker = some activity →
      session.activities.get? worker = some activity ∨
        activity.Borrows session director reference identity cell ∧
          (activity.LetsGo → entry.isHeldBy worker = true)) :
    Lent director reference identity registered cell later ledger coordinator entry := by
  have hkept : ∀ version, session.Shares identity version → later.Shares identity version := by
    intro version hversion
    rw [Session.Shares, hhandles]
    exact hversion
  refine ⟨?_, ?_, h.places, hkept _ h.shares, h.agrees, ?_, ?_⟩
  · rw [hdirectors]
    exact h.directed
  · rw [hcoordinators]
    exact h.coordinated
  · intro worker activity hactivity
    rcases hactivities worker activity hactivity with hbefore | ⟨hborrows, -⟩
    · exact (h.borrows worker activity hbefore).mono hkept
    · exact hborrows.mono hkept
  · intro worker activity hactivity hgoes
    rcases hactivities worker activity hactivity with hbefore | ⟨-, hheld⟩
    · exact h.held worker activity hbefore hgoes
    · exact hheld hgoes

theorem Lent.setActivity
    (h : Lent director reference identity registered cell session ledger coordinator entry)
    (hborrows : activity.Borrows session director reference identity cell)
    (hheld : activity.LetsGo → entry.isHeldBy worker = true) :
    Lent director reference identity registered cell (session.setActivity worker activity) ledger
      coordinator entry := by
  refine h.rest rfl rfl rfl ?_
  intro other present hpresent
  rcases Session.of_get?_setActivity hpresent with ⟨rfl, rfl⟩ | ⟨-, hbefore⟩
  · exact Or.inr ⟨hborrows, hheld⟩
  · exact Or.inl hbefore

/-- After a step, the entry and the ledger differ by what the step posts, and all others are at most
woken. -/
theorem Lent.after
    (h : Lent director reference identity registered cell session ledger coordinator entry)
    (hdirected : ∃ found, later.directors.get? director = some found ∧
      found.coordinator = reference)
    (hcoordinated : later.coordinators.get? reference = some next)
    (hkept : ∀ version, session.Shares identity version → later.Shares identity version)
    (hplaces : next.Places identity cell changed)
    (hposts : Posts session identity worker entry ledger changed recorded)
    (hactivities : ∀ other, later.activities.get? other =
      ((session.setActivity worker activity).activities.get? other).map
        (Activity.wakeAt woken wakes))
    (hborrows : activity.Borrows later director reference identity cell)
    (hheld : activity.LetsGo → changed.isHeldBy worker = true) :
    Lent director reference identity registered cell later recorded next changed := by
  refine ⟨hdirected, hcoordinated, hplaces, hkept _ (hposts.shares h.shares),
    hposts.agrees h.agrees, ?_, ?_⟩
  · intro other present hpresent
    rcases Session.of_get?_step hactivities hpresent with ⟨-, rfl⟩ | ⟨-, before, hbefore, rfl⟩
    · exact hborrows.wakeAt woken wakes
    · exact ((h.borrows other before hbefore).mono hkept).wakeAt woken wakes
  · intro other present hpresent hgoes
    rcases Session.of_get?_step hactivities hpresent with
      ⟨rfl, rfl⟩ | ⟨hother, before, hbefore, rfl⟩
    · exact hheld hgoes.of_wakeAt
    · exact hposts.isHeldBy_of_ne hother (h.held other before hbefore hgoes.of_wakeAt)

theorem Lent.step
    (h : Lent director reference identity registered cell session ledger coordinator entry)
    (hactivity : session.activities.get? worker = some activity)
    (hstep : session.step? worker = some later) :
    ∃ next changed, Lent director reference identity registered cell later
      (ledger.record worker activity) next changed := by
  have hkept : ∀ version, session.Shares identity version → later.Shares identity version :=
    fun version hversion => hversion.step hstep
  have hborrows := h.borrows worker activity hactivity
  have hown := h.held worker activity hactivity
  obtain ⟨found, hfound, hreference⟩ := h.directed
  cases Session.Stepped.of_step? hstep with
  | call other call stage timeout seen progress hpresent hcoordinated hprogress =>
      obtain rfl := Option.some.inj (hactivity.symm.trans hpresent)
      obtain ⟨rfl, hcall, hstage⟩ := hborrows
      obtain rfl : coordinator = seen := Option.some.inj (h.coordinated.symm.trans hcoordinated)
      obtain ⟨changed, hplaces, hin, hposts, hgoes⟩ :=
        hcall.step h.places hstage hown hprogress ledger
      obtain ⟨hdirectors, hcoordinators, -⟩ :=
        session.proceedCall_frame other worker call timeout progress
      have hnext : (Activity.calling other call progress.stage timeout).Borrows session director
          other identity cell := ⟨rfl, hcall, hin⟩
      refine ⟨progress.coordinator, changed, h.after ⟨found, ?_, hreference⟩ ?_ hkept hplaces hposts
        (session.get?_proceedCall other worker call timeout progress) (hnext.mono hkept) hgoes⟩
      · rw [hdirectors]
        exact hfound
      · rw [hcoordinators]
        exact Pool.get?_set_of_get? h.coordinated _
  | change other change stage seen coordinated progress hpresent hdirected hcoordinated hprogress =>
      obtain rfl := Option.some.inj (hactivity.symm.trans hpresent)
      obtain ⟨rfl, hidentity, hrests⟩ := hborrows
      obtain rfl : found = seen := Option.some.inj (hfound.symm.trans hdirected)
      subst hreference
      obtain rfl : coordinator = coordinated :=
        Option.some.inj (h.coordinated.symm.trans hcoordinated)
      obtain ⟨changed, hplaces, hin, hposts, hgoes⟩ :=
        hrests.step hidentity h.places h.shares h.agrees.kept hown hprogress ledger
      have hnext : (Activity.changing other change progress.stage).Borrows session other
          found.coordinator identity cell := ⟨rfl, hidentity, hin⟩
      exact ⟨progress.coordinator, changed, h.after
        ⟨_, proceed_directed hfound worker change progress, rfl⟩
        (proceed_coordinated h.coordinated other worker change progress) hkept hplaces hposts
        (Session.get?_wake _ _ _) (hnext.mono hkept) hgoes⟩
  | compose other change lock current seen hpresent hdirected =>
      obtain rfl := Option.some.inj (hactivity.symm.trans hpresent)
      obtain ⟨rfl, hidentity, hshared⟩ := hborrows
      obtain ⟨hdirectors, hcoordinators⟩ :=
        session.proceedComposing_frame other seen worker change lock current
      have hactivities : ∀ present, (session.proceedComposing other seen worker change lock
          current).activities.get? present =
            ((session.setActivity worker (.changing other change (Change.composed lock
              (session.compose seen.workshop change.agent (change.kind.operation current
                change.role)).1))).activities.get? present).map
                  (Activity.wakeAt reference none) := by
        intro present
        rw [Session.get?_proceedComposing]
        exact Option.map_id'.symm
      have hrests := Change.rests_composed hshared change seen.workshop lock cell
      refine ⟨coordinator, entry, h.after ⟨found, ?_, hreference⟩ ?_ hkept h.places .nothing
        hactivities ⟨rfl, hidentity, hrests⟩ fun _ => hown trivial⟩
      · rw [hdirectors]
        exact hfound
      · rw [hcoordinators]
        exact h.coordinated

theorem Lent.move
    (h : Lent director reference identity registered cell session ledger coordinator entry)
    (hmove : Borrow director identity session ledger later recorded) :
    ∃ next changed, Lent director reference identity registered cell later recorded next changed := by
  cases hmove with
  | change worker change hidle hidentity =>
      refine ⟨coordinator, entry, h.setActivity ⟨rfl, hidentity, trivial⟩ ?_⟩
      rintro ⟨⟩
  | call worker found call timeout hidle hdirector hborrows hown =>
      obtain ⟨present, hpresent, rfl⟩ := h.directed
      obtain rfl : present = found := Option.some.inj (hpresent.symm.trans hdirector)
      refine ⟨coordinator, entry, h.setActivity ⟨rfl, hborrows, trivial⟩ ?_⟩
      intro hgoes
      cases call with
      | unlock other all => exact (h.agrees.isHeldBy_iff worker).mpr (hown other all rfl)
      | store | delete | lock | current => cases hgoes
  | step worker activity next hactivity hstep => exact h.step hactivity hstep
  | expire worker activity hactivity =>
      have hborrows := h.borrows worker activity hactivity
      have hheld := h.held worker activity hactivity
      refine ⟨coordinator, entry, h.setActivity ?_ fun hgoes => hheld hgoes.of_expire⟩
      cases activity with
      | changing other change stage => exact hborrows
      | calling other call stage timeout => exact ⟨hborrows.1, hborrows.2.1, hborrows.2.2.expire⟩
  | collect worker =>
      obtain ⟨hdirectors, hcoordinators, hhandles⟩ := session.collect_frame worker
      exact ⟨coordinator, entry, h.rest hdirectors hcoordinators hhandles
        fun other activity hactivity => Or.inl (Session.get?_of_collect hactivity)⟩

theorem Session.Registers.lent (h : session.Registers director registered)
    (hunlocked : ∀ found, session.directors.get? director = some found →
      (session.coordinator found.coordinator).isLocked registered.identity = false) :
    ∃ reference cell coordinator entry, Lent director reference registered.identity registered cell
      session .empty coordinator entry := by
  obtain ⟨found, coordinator, cell, hdirected, hcoordinated, htracks, -⟩ := h.registered
  obtain ⟨entry, hentry, hcurrent, hretired⟩ := htracks.entry
  have hplaces : coordinator.Places registered.identity cell entry := ⟨htracks.found, hentry⟩
  have hfree : entry.isLocked = false := by
    have hlocked := hunlocked found hdirected
    rw [Session.coordinator, hcoordinated, Option.getD_some, Coordinator.isLocked,
      hplaces.entry?_eq] at hlocked
    exact hlocked
  have hholders : entry.holders = [] := by simpa [Entry.isLocked] using hfree
  refine ⟨found.coordinator, cell, coordinator, entry, ⟨found, hdirected, rfl⟩, hcoordinated, hplaces,
    ?_, ⟨hcurrent, hretired, ?_⟩, ?_, ?_⟩
  · rw [hcurrent]
    exact h.shared
  · intro worker
    rw [hholders]
    rfl
  · intro worker activity hactivity
    rw [h.idle] at hactivity
    cases hactivity
  · intro worker activity hactivity
    rw [h.idle] at hactivity
    cases hactivity

theorem Borrowed.lent (hregisters : session.Registers director registered)
    (hunlocked : ∀ found, session.directors.get? director = some found →
      (session.coordinator found.coordinator).isLocked registered.identity = false)
    (h : Borrowed director registered.identity session later ledger) :
    ∃ reference cell coordinator entry, Lent director reference registered.identity registered cell
      later ledger coordinator entry := by
  induction h with
  | start => exact hregisters.lent hunlocked
  | move borrowed move ih =>
      obtain ⟨reference, cell, coordinator, entry, hlent⟩ := ih
      obtain ⟨next, changed, hnext⟩ := hlent.move move
      exact ⟨reference, cell, next, changed, hnext⟩

/-! ### Reads -/

/-- Who reads gets the current version, and has a hold unless nobody has. -/
theorem Coordinator.Places.of_readIn? {version : Option SharedHandle}
    (h : coordinator.Places identity cell entry) (hkept : entry.retired = false)
    (hread : coordinator.readIn? cell worker = some version) :
    version = some entry.current ∧ (entry.isHeldBy worker = true ∨ entry.isLocked = false) := by
  rw [Coordinator.readIn?, h.present] at hread
  by_cases hblocks : entry.blocksReader worker = true
  · simp [hblocks] at hread
  · simp only [if_neg hblocks, Entry.version?, hkept, Bool.false_eq_true, if_false] at hread
    refine ⟨(Option.some.inj hread).symm, ?_⟩
    by_cases hheld : entry.isHeldBy worker = true
    · exact Or.inl hheld
    · have hfree : entry.isLocked = false := by
        simpa [Entry.blocksReader, hkept, hheld] using hblocks
      exact Or.inr hfree

theorem Coordinator.Places.of_readOrSleep {version : Option SharedHandle}
    (h : coordinator.Places identity cell entry) (hkept : entry.retired = false)
    (hread : (Coordinator.Call.readOrSleep coordinator worker cell).stage =
      .returned (.version version)) :
    version = some entry.current ∧ (entry.isHeldBy worker = true ∨ entry.isLocked = false) := by
  unfold Coordinator.Call.readOrSleep at hread
  split at hread
  · cases hread
  · rename_i result hresult
    obtain rfl : result = version := by simpa using hread
    exact h.of_readIn? hkept hresult

theorem Lent.of_waiting
    (h : Lent director reference identity registered cell session ledger coordinator entry)
    {other : Ref Director} {change : Change} {lock : Ref WriterLock} {place : Ref Entry}
    (hactivity : session.activities.get? worker = some (.changing other change (.waiting lock place)))
    (hstep : session.step? worker = some later) :
    later.activities.get? worker = some (.changing other change (.holding lock entry.current)) ∧
      (entry.isHeldBy worker = true ∨ entry.isLocked = false) := by
  obtain ⟨found, hfound, rfl⟩ := h.directed
  obtain ⟨rfl, -, hplace⟩ := h.borrows worker _ hactivity
  obtain rfl : place = cell := hplace
  rw [Session.step?_changing hactivity hfound h.coordinated (fun _ _ => Change.Stage.noConfusion),
    Option.map_eq_some_iff] at hstep
  obtain ⟨progress, hprogress, rfl⟩ := hstep
  rw [Change.step?] at hprogress
  cases hread : coordinator.readIn? place worker with
  | none =>
      rw [hread] at hprogress
      cases hprogress
  | some version =>
      obtain ⟨rfl, hholds⟩ := h.places.of_readIn? h.agrees.kept hread
      rw [hread] at hprogress
      obtain rfl := Option.some.inj hprogress
      rw [get?_proceed, if_pos rfl]
      exact ⟨rfl, hholds⟩

theorem Lent.of_reading
    (h : Lent director reference identity registered cell session ledger coordinator entry)
    {other : Ref Director} {change : Change} {lock : Ref WriterLock}
    (hactivity : session.activities.get? worker = some (.changing other change (.reading lock)))
    (hstep : session.step? worker = some later) :
    later.activities.get? worker = some (.changing other change (.waiting lock cell)) := by
  obtain ⟨found, hfound, rfl⟩ := h.directed
  obtain ⟨rfl, hidentity, -⟩ := h.borrows worker _ hactivity
  rw [Session.step?_changing hactivity hfound h.coordinated (fun _ _ => Change.Stage.noConfusion),
    Option.map_eq_some_iff] at hstep
  obtain ⟨progress, hprogress, rfl⟩ := hstep
  rw [Change.step?, hidentity, h.places.found] at hprogress
  obtain rfl := Option.some.inj hprogress
  rw [get?_proceed, if_pos rfl]

theorem Lent.of_reads {version : Option SharedHandle}
    (h : Lent director reference identity registered cell session ledger coordinator entry)
    (hstep : session.step? worker = some later)
    (hreads : session.Reads worker identity later version) :
    version = some entry.current ∧ (entry.isHeldBy worker = true ∨ entry.isLocked = false) := by
  cases hreads with
  | call other stage timeout version hbefore hafter =>
      obtain ⟨rfl, -, hstage⟩ := h.borrows worker _ hbefore
      rw [Session.step?_calling hbefore h.coordinated, Option.map_eq_some_iff] at hstep
      obtain ⟨progress, hprogress, rfl⟩ := hstep
      rw [Session.get?_proceedCall, Session.get?_setActivity, if_pos rfl, Option.map_some] at hafter
      -- The lookup of a tracked identity returns nothing yet, and a read wakes nobody.
      have hread : progress.stage = .entering cell ∧ progress.wakes = none ∨
          progress = Coordinator.Call.readOrSleep coordinator worker cell := by
        cases stage with
        | begun =>
            obtain rfl := Option.some.inj hprogress
            simp [Coordinator.Call.lookUp, h.places.found]
        | entering place =>
            obtain rfl : place = cell := hstage
            exact Or.inr (Option.some.inj hprogress).symm
        | roused place timedOut =>
            obtain rfl : place = cell := hstage
            exact Or.inr (Option.some.inj hprogress).symm
        | asleep place => cases hprogress
        | returned reply => cases hprogress
      rcases hread with ⟨hentering, hwakes⟩ | rfl
      · rw [hentering, hwakes] at hafter
        cases hafter
      · rw [Coordinator.Call.readOrSleep_wakes] at hafter
        obtain ⟨-, -, hreturned, -⟩ := Activity.calling.inj (Option.some.inj hafter)
        exact h.places.of_readOrSleep h.agrees.kept hreturned
  | change other change lock place version hidentity hbefore hafter =>
      obtain ⟨hholding, hholds⟩ := h.of_waiting hbefore hstep
      obtain ⟨-, -, hreached⟩ := Activity.changing.inj (Option.some.inj (hafter.symm.trans hholding))
      obtain ⟨-, rfl⟩ := Change.Stage.holding.inj hreached
      exact ⟨rfl, hholds⟩
  | missing other change lock stage hidentity hstage hbefore hafter =>
      rcases hstage with rfl | ⟨place, rfl⟩
      · rw [h.of_reading hbefore hstep] at hafter
        cases hafter
      · rw [(h.of_waiting hbefore hstep).1] at hafter
        cases hafter

/-- Whatever the workers do, the holds on the identity are those that were taken and not let go; who is
about to let go has a hold; and who reads gets the version that was stored last, while it has a hold or
nobody has. -/
theorem reads_respect_holds (hregisters : session.Registers director registered)
    (hunlocked : ∀ found, session.directors.get? director = some found →
      (session.coordinator found.coordinator).isLocked registered.identity = false)
    (hborrowed : Borrowed director registered.identity session later ledger) :
    (∃ found entry, later.directors.get? director = some found ∧
      Coordinator.entry? (later.coordinator found.coordinator) registered.identity = some entry ∧
      ∀ worker,
        entry.holders.count worker + ledger.dropped.count worker = ledger.taken.count worker) ∧
    (∀ worker activity, later.activities.get? worker = some activity → activity.LetsGo →
      ledger.Holds worker) ∧
    ∀ worker next version, later.step? worker = some next →
      later.Reads worker registered.identity next version →
      version = some (ledger.stored.headD registered) ∧ (ledger.Holds worker ∨ ledger.Clear) := by
  obtain ⟨reference, cell, coordinator, entry, hlent⟩ := hborrowed.lent hregisters hunlocked
  obtain ⟨found, hfound, rfl⟩ := hlent.directed
  refine ⟨⟨found, entry, hfound, ?_, hlent.agrees.counted⟩, ?_, ?_⟩
  · rw [Session.coordinator, hlent.coordinated, Option.getD_some]
    exact hlent.places.entry?_eq
  · intro worker activity hactivity hgoes
    exact (hlent.agrees.isHeldBy_iff worker).mp (hlent.held worker activity hactivity hgoes)
  · intro worker next version hstep hreads
    obtain ⟨rfl, hholds⟩ := hlent.of_reads hstep hreads
    refine ⟨congrArg some hlent.agrees.current, ?_⟩
    rcases hholds with hheld | hfree
    · exact Or.inl ((hlent.agrees.isHeldBy_iff worker).mp hheld)
    · exact Or.inr (hlent.agrees.clear hfree)

end Steps

/-! ### Running workers in turn -/

/-- Lets the workers of the list take a step one after the other, where they can. -/
def Session.lend (session : Session) (ledger : Ledger) : List Worker → Session × Ledger
  | [] => (session, ledger)
  | worker :: rest =>
      match session.activities.get? worker, session.step? worker with
      | some activity, some next => next.lend (ledger.record worker activity) rest
      | _, _ => session.lend ledger rest

theorem Borrowed.lend {director : Ref Director} {identity : Identity} {start session : Session}
    {ledger : Ledger} (h : Borrowed director identity start session ledger)
    (workers : List Worker) :
    Borrowed director identity start (session.lend ledger workers).1
      (session.lend ledger workers).2 := by
  induction workers generalizing session ledger with
  | nil => exact h
  | cons worker rest ih =>
      rw [Session.lend]
      split
      · rename_i activity next hactivity hnext
        exact ih (h.move (.step worker activity next hactivity hnext))
      · exact ih h

/-- The reader starts while a change is about to store. It sleeps until the change lets go, and then
gets the version that the change stored. -/
theorem reads_respect_holds_of_change :
    ∃ later next ledger, Session.oneRegistered.Registers ⟨0⟩ ⟨⟨0⟩, ⟨1⟩⟩ ∧
      Borrowed ⟨0⟩ ⟨1⟩ Session.oneRegistered later ledger ∧
      later.step? ⟨"reader"⟩ = some next ∧
      later.Reads ⟨"reader"⟩ ⟨1⟩ next (some ⟨⟨1⟩, ⟨1⟩⟩) ∧
      ledger.stored = [⟨⟨1⟩, ⟨1⟩⟩] ∧ ledger.taken = [⟨"changer"⟩] ∧ ledger.Clear := by
  have hunlocked : ∀ found, Session.oneRegistered.directors.get? ⟨0⟩ = some found →
      (Session.oneRegistered.coordinator found.coordinator).isLocked ⟨1⟩ = false := by
    intro found hfound
    obtain rfl := Option.some.inj hfound
    rfl
  have hstarted : Borrowed ⟨0⟩ ⟨1⟩ Session.oneRegistered _ .empty :=
    (Borrowed.start.move (.change ⟨"changer"⟩
      ⟨.assume, ⟨1⟩, (Role.administrator true []).reference ⟨0⟩, .zero⟩ rfl rfl)).move
      (.call ⟨"reader"⟩ ⟨⟨0⟩, ⟨0⟩, Writers.empty⟩ (.current ⟨1⟩) none rfl rfl rfl
        (fun _ _ => Coordinator.Call.noConfusion))
  have hrun := hstarted.lend
    (List.replicate 6 ⟨"changer"⟩ ++ List.replicate 2 ⟨"reader"⟩ ++ List.replicate 2 ⟨"changer"⟩)
  obtain ⟨-, -, hreads⟩ := reads_respect_holds Session.registers_oneRegistered hunlocked hrun
  refine ⟨_, _, _, Session.registers_oneRegistered, hrun, rfl, .call ⟨0⟩ _ none _ rfl rfl, rfl, rfl,
    ?_⟩
  obtain ⟨-, hholds⟩ := hreads ⟨"reader"⟩ _ _ rfl (.call ⟨0⟩ _ none _ rfl rfl)
  have hfree : ¬ Ledger.Holds ⟨[⟨"changer"⟩], [⟨"changer"⟩], [⟨⟨1⟩, ⟨1⟩⟩]⟩ ⟨"reader"⟩ := by
    simp [Ledger.Holds]
  exact hholds.resolve_left hfree

end RoleStack

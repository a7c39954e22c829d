import RoleStack.Proofs.Deregistration
import RoleStack.Proofs.Entries
import RoleStack.Proofs.Steps
import Mathlib.Logic.Relation

/-!
# A change by itself

A change holds the identity from before it composes until after it stored. If nobody else takes a step
meanwhile, the holds are the same afterwards, and so are the entries of all other identities.
-/

namespace RoleStack

namespace Coordinator

/-! ### Entries before and after -/

/-- All entries but that of the identity are as they were, and this many manipulations were counted. -/
structure Revises (before after : Coordinator) (identity : Identity) (revised : Entry)
    (count : UInt64) : Prop where
  tracked : ∀ other, after.find? other = before.find? other
  others : ∀ other, other ≠ identity → after.entry? other = before.entry? other
  revised : after.entry? identity = some revised
  counted : after.manipulations = before.manipulations + count

section Entries

variable {coordinator before middle after : Coordinator} {identity : Identity} {cell : Ref Entry}
  {entry changed revised : Entry} {handle next : SharedHandle} {count more : UInt64}

theorem Revises.trans (first : before.Revises middle identity changed count)
    (second : middle.Revises after identity revised more) :
    before.Revises after identity revised (count + more) where
  tracked other := (second.tracked other).trans (first.tracked other)
  others other hother := (second.others other hother).trans (first.others other hother)
  revised := second.revised
  counted := by
    rw [second.counted, first.counted, UInt64.add_assoc]

theorem Sound.revises_count (h : coordinator.Sound)
    (hplaces : coordinator.Places identity cell entry) (changed : Entry) :
    coordinator.Revises (coordinator.count.setEntry cell changed) identity changed 1 where
  tracked _ := rfl
  others _ hother := h.count.entry?_setEntry_of_ne hplaces.count hother
  revised := Places.entry?_eq (hplaces.count.setEntry changed)
  counted := rfl

theorem Sound.revises_lock (h : coordinator.Sound)
    (hplaces : coordinator.Places identity cell entry) (hidentity : handle.identity = identity)
    (worker : Worker) :
    coordinator.Revises (coordinator.lock worker handle) identity (entry.acquire worker) 1 := by
  rw [hplaces.lock_eq hidentity]
  exact h.revises_count hplaces _

theorem Sound.revises_store (h : coordinator.Sound)
    (hplaces : coordinator.Places identity cell entry) (hidentity : handle.identity = identity) :
    coordinator.Revises (coordinator.store handle).2 identity (entry.replace handle) 1 := by
  rw [hplaces.store_eq hidentity]
  exact h.revises_count hplaces _

theorem Sound.revises_unlock (h : coordinator.Sound)
    (hplaces : coordinator.Places identity cell entry) (hlocked : entry.isLocked = true)
    (worker : Worker) :
    coordinator.Revises (coordinator.unlock worker identity false).2 identity
      (entry.release worker) 1 := by
  rw [hplaces.unlock_eq hlocked]
  exact h.revises_count hplaces _

/-- A hold that is taken and let go is counted twice and leaves nothing else behind. -/
theorem Sound.revises_lock_unlock (h : coordinator.Sound)
    (hplaces : coordinator.Places identity cell entry) (hidentity : handle.identity = identity)
    (worker : Worker) :
    coordinator.Revises ((coordinator.lock worker handle).unlock worker identity false).2 identity
      { entry with manipulations := entry.manipulations + 2 } 2 := by
  have hheld := Entry.isLocked_of_isHeldBy (entry.isHeldBy_acquire_self worker)
  have hlock := h.revises_lock hplaces hidentity worker
  have hunlock := (h.lock worker handle).revises_unlock (hplaces.lock hidentity worker) hheld worker
  rw [entry.release_acquire worker] at hunlock
  exact hlock.trans hunlock

/-- A version that is stored under a hold stays when the hold is let go. -/
theorem Sound.revises_lock_store_unlock (h : coordinator.Sound)
    (hplaces : coordinator.Places identity cell entry) (hidentity : handle.identity = identity)
    (hnext : next.identity = identity) (worker : Worker) :
    coordinator.Revises
      (((coordinator.lock worker handle).store next).2.unlock worker identity false).2 identity
      { entry with current := next, manipulations := entry.manipulations + 3 } 3 := by
  have hlocked := hplaces.lock hidentity worker
  have hheld : ((entry.acquire worker).replace next).isLocked = true :=
    Entry.isLocked_of_isHeldBy (entry.isHeldBy_acquire_self worker)
  have hlock := h.revises_lock hplaces hidentity worker
  have hstore := (h.lock worker handle).revises_store hlocked hnext
  have hunlock := ((h.lock worker handle).store next).revises_unlock (hlocked.store hnext) hheld
    worker
  rw [entry.release_replace_acquire worker next] at hunlock
  exact (hlock.trans hstore).trans hunlock

end Entries

end Coordinator

theorem Writers.isFree_obtain {writers : Writers} {identity : Identity}
    (h : ∀ lock, writers.locks.get? identity = some lock → writers.isFree lock = true) :
    (writers.obtain identity).2.isFree (writers.obtain identity).1 = true := by
  unfold Writers.obtain
  cases hlock : writers.locks.get? identity with
  | some lock => exact h lock hlock
  | none =>
      simp only [isFree, Pool.get?_add_next]
      rfl

/-! ### The steps of a worker that is left alone -/

namespace Session

def StepsOf (worker : Worker) (before after : Session) : Prop :=
  before.step? worker = some after

/-- The change of the worker is at this stage, with the director and its coordinator as they are. -/
structure At (session : Session) (director : Ref Director) (worker : Worker) (change : Change)
    (stage : Change.Stage) (found : Director) (coordinator : Coordinator) : Prop where
  active : session.activities.get? worker = some (.changing director change stage)
  directed : session.directors.get? director = some found
  coordinated : session.coordinators.get? found.coordinator = some coordinator

section Steps

variable {session later : Session} {director : Ref Director} {worker : Worker} {change : Change}
  {stage : Change.Stage} {found : Director} {coordinator : Coordinator} {cell : Ref Entry}
  {entry : Entry} {lock : Ref WriterLock} {identity : Identity} {version : SharedHandle}

theorem Shares.stepsOf (h : session.Shares identity version)
    (hrun : Relation.ReflTransGen (StepsOf worker) session later) :
    later.Shares identity version := by
  induction hrun with
  | refl => exact h
  | tail _ hstep ih => exact ih.step hstep

theorem At.proceed (h : session.At director worker change stage found coordinator)
    {progress : Change.Progress} (hstage : ∀ lock current, stage ≠ .composing lock current)
    (hprogress : change.step? worker found.writers coordinator stage = some progress) :
    ∃ later, StepsOf worker session later ∧
      later.At director worker change progress.stage { found with writers := progress.writers }
        progress.coordinator := by
  refine ⟨session.proceed director found worker change progress, ?_, ?_, ?_, ?_⟩
  · rw [StepsOf, step?_changing h.active h.directed h.coordinated hstage, hprogress, Option.map_some]
  · rw [get?_proceed, if_pos rfl]
  · exact proceed_directed h.directed worker change progress
  · exact proceed_coordinated h.coordinated director worker change progress

theorem At.begin (h : session.At director worker change .begun found coordinator)
    (hturn : ∀ lock, found.writers.locks.get? change.identity = some lock →
      found.writers.isFree lock = true) :
    ∃ later lock writers, Relation.ReflTransGen (StepsOf worker) session later ∧
      later.At director worker change (.reading lock) { found with writers := writers }
        coordinator := by
  obtain ⟨queued, hqueue, hqueued⟩ := h.proceed (fun _ _ => Change.Stage.noConfusion) rfl
  have hfree := Writers.isFree_obtain hturn
  have htake : change.step? worker (found.writers.obtain change.identity).2 coordinator
      (.queued (found.writers.obtain change.identity).1) = some _ := if_pos hfree
  obtain ⟨later, hread, hreading⟩ := hqueued.proceed (fun _ _ => Change.Stage.noConfusion) htake
  exact ⟨later, _, _, (Relation.ReflTransGen.single hqueue).tail hread, hreading⟩

theorem At.hold (h : session.At director worker change (.reading lock) found coordinator)
    (hplaces : coordinator.Places change.identity cell entry) (hretired : entry.retired = false)
    (hreads : entry.blocksReader worker = false) :
    ∃ later, Relation.ReflTransGen (StepsOf worker) session later ∧
      later.At director worker change (.composing lock entry.current) found
        (coordinator.lock worker entry.current) := by
  have hlook : change.step? worker found.writers coordinator (.reading lock) =
      some ⟨found.writers, coordinator, .waiting lock cell, none⟩ := by
    rw [Change.step?, hplaces.found]
  have hread : change.step? worker found.writers coordinator (.waiting lock cell) =
      some ⟨found.writers, coordinator, .holding lock entry.current, none⟩ := by
    have hversion : coordinator.readIn? cell worker = some (some entry.current) := by
      simp [Coordinator.readIn?, hplaces.present, hreads, Entry.version?, hretired]
    rw [Change.step?, hversion]
  obtain ⟨waiting, hwait, hwaiting⟩ := h.proceed (fun _ _ => Change.Stage.noConfusion) hlook
  obtain ⟨holding, hhold, hholding⟩ := hwaiting.proceed (fun _ _ => Change.Stage.noConfusion) hread
  obtain ⟨later, hlock, hlater⟩ := hholding.proceed (fun _ _ => Change.Stage.noConfusion) rfl
  exact ⟨later, ((Relation.ReflTransGen.single hwait).tail hhold).tail hlock, hlater⟩

theorem At.compose {current : SharedHandle}
    (h : session.At director worker change (.composing lock current) found coordinator)
    (hshared : session.Shares identity current) :
    ∃ later result, StepsOf worker session later ∧
      later.At director worker change (Change.composed lock result) found coordinator ∧
      ∀ made, result = .ok made → later.Shares identity made := by
  obtain ⟨hdirectors, hcoordinators⟩ :=
    session.proceedComposing_frame director found worker change lock current
  refine ⟨session.proceedComposing director found worker change lock current,
    (session.compose found.workshop change.agent
      (change.kind.operation current change.role)).1,
    step?_composing h.active h.directed, ⟨?_, ?_, ?_⟩, ?_⟩
  · rw [get?_proceedComposing, get?_setActivity, if_pos rfl]
  · rw [hdirectors]
    exact h.directed
  · rw [hcoordinators]
    exact h.coordinated
  · intro made hmade
    have htarget : session.Shares identity (change.kind.operation current change.role).target := hshared
    exact shares_of_compose_ok htarget hmade

theorem At.finish {result : Except DirectorError SharedHandle}
    (h : session.At director worker change (.lettingGo lock result) found coordinator) :
    ∃ later writers, Relation.ReflTransGen (StepsOf worker) session later ∧
      later.At director worker change (.returned result) { found with writers := writers }
        (coordinator.unlock worker change.identity false).2 := by
  obtain ⟨leaving, hunlock, hleaving⟩ := h.proceed (fun _ _ => Change.Stage.noConfusion) rfl
  obtain ⟨later, hleave, hlater⟩ := hleaving.proceed (fun _ _ => Change.Stage.noConfusion) rfl
  exact ⟨later, _, (Relation.ReflTransGen.single hunlock).tail hleave, hlater⟩

end Steps

end Session

/-! ### What a whole change leaves -/

namespace Change

/-- The version and the counts after a change with this result, where the identity was tracked exactly if
it was not found unknown. The counts are words, and go round like them. -/
def Settles (identity : Identity) (before after : Coordinator) :
    Except DirectorError SharedHandle → Prop
  | .ok made =>
      before.contains identity = true ∧ after.peek identity = some made ∧
        after.manipulationsOf identity = before.manipulationsOf identity + 3 ∧
        after.manipulations = before.manipulations + 3
  | .error (.composition _) =>
      before.contains identity = true ∧ after.peek identity = before.peek identity ∧
        after.manipulationsOf identity = before.manipulationsOf identity + 2 ∧
        after.manipulations = before.manipulations + 2
  | .error (.unknownIdentity unknown) =>
      unknown = identity ∧ before.contains identity = false ∧
        after.manipulationsOf identity = before.manipulationsOf identity ∧
        after.manipulations = before.manipulations

end Change

namespace Coordinator

section Results

variable {before after : Coordinator} {identity : Identity} {entry : Entry} {made : SharedHandle}

theorem contains_eq_isSome (coordinator : Coordinator) (identity : Identity) :
    coordinator.contains identity = (coordinator.find? identity).isSome := rfl

theorem Revises.settles_ok {cell : Ref Entry} (hplaces : before.Places identity cell entry)
    (h : before.Revises after identity
      { entry with current := made, manipulations := entry.manipulations + 3 } 3) :
    Change.Settles identity before after (.ok made) := by
  refine ⟨?_, ?_, ?_, h.counted⟩
  · rw [contains_eq_isSome, hplaces.found, Option.isSome_some]
  · rw [peek, h.revised, Option.map_some]
  · rw [manipulationsOf, manipulationsOf, h.revised, hplaces.entry?_eq]
    rfl

theorem Revises.settles_composition {cell : Ref Entry} (hplaces : before.Places identity cell entry)
    (h : before.Revises after identity
      { entry with manipulations := entry.manipulations + 2 } 2) (error : CompositionError) :
    Change.Settles identity before after (.error (.composition error)) := by
  refine ⟨?_, ?_, ?_, h.counted⟩
  · rw [contains_eq_isSome, hplaces.found, Option.isSome_some]
  · rw [peek, peek, h.revised, hplaces.entry?_eq]
    rfl
  · rw [manipulationsOf, manipulationsOf, h.revised, hplaces.entry?_eq]
    rfl

end Results

end Coordinator

namespace Session

variable {session : Session} {director : Ref Director} {worker : Worker} {change : Change}
  {found : Director} {coordinator : Coordinator} {cell : Ref Entry} {entry : Entry}
  {lock : Ref WriterLock}

theorem At.unknown (h : session.At director worker change (.reading lock) found coordinator)
    (huntracked : coordinator.find? change.identity = none) :
    ∃ later writers, Relation.ReflTransGen (StepsOf worker) session later ∧
      later.At director worker change (.returned change.unknown) { found with writers := writers }
        coordinator := by
  have hlook : change.step? worker found.writers coordinator (.reading lock) =
      some ⟨found.writers, coordinator, .leaving lock change.unknown, none⟩ := by
    rw [Change.step?, huntracked]
  obtain ⟨leaving, hread, hleaving⟩ := h.proceed (fun _ _ => Change.Stage.noConfusion) hlook
  obtain ⟨later, hleave, hlater⟩ := hleaving.proceed (fun _ _ => Change.Stage.noConfusion) rfl
  exact ⟨later, _, (Relation.ReflTransGen.single hread).tail hleave, hlater⟩

/-- From the reading of a tracked identity on, a change leaves the identity's entry alone but for the
counts and, if it made a version, the version. -/
theorem At.settle (h : session.At director worker change (.reading lock) found coordinator)
    (hsound : coordinator.Sound) (hplaces : coordinator.Places change.identity cell entry)
    (hshared : session.Shares change.identity entry.current) (hretired : entry.retired = false)
    (hreads : entry.blocksReader worker = false) :
    ∃ later writers result revised count next,
      Relation.ReflTransGen (StepsOf worker) session later ∧
      later.At director worker change (.returned result) { found with writers := writers } next ∧
      coordinator.Revises next change.identity revised count ∧ revised.holders = entry.holders ∧
      Change.Settles change.identity coordinator next result ∧
      ∀ made, result = .ok made → later.Shares change.identity made := by
  obtain ⟨holding, hhold, hheld⟩ := h.hold hplaces hretired hreads
  obtain ⟨composed, result, hcompose, hcomposed, hmade⟩ := hheld.compose (hshared.stepsOf hhold)
  have hidentity := hshared.1
  cases result with
  | error error =>
      obtain ⟨later, writers, hfinish, hlater⟩ := hcomposed.finish
      have hrevises := hsound.revises_lock_unlock hplaces hidentity worker
      refine ⟨later, writers, _, _, _, _, (hhold.tail hcompose).trans hfinish, hlater, hrevises, rfl,
        hrevises.settles_composition hplaces error, ?_⟩
      rintro made ⟨⟩
  | ok made =>
      have hshares := hmade made rfl
      obtain ⟨storing, hstore, hstored⟩ :=
        hcomposed.proceed (fun _ _ => Change.Stage.noConfusion) rfl
      obtain ⟨later, writers, hfinish, hlater⟩ := hstored.finish
      have hrevises := hsound.revises_lock_store_unlock hplaces hidentity hshares.1 worker
      refine ⟨later, writers, _, _, _, _, ((hhold.tail hcompose).tail hstore).trans hfinish, hlater,
        hrevises, rfl, hrevises.settles_ok hplaces, ?_⟩
      rintro same ⟨⟩
      exact hshares.stepsOf ((Relation.ReflTransGen.single hstore).trans hfinish)

/-- A change that need not wait and is left alone comes to its end. The holds on the identity, the
tracked identities and the entries of all others are the same then, and the version is the one that the
change gives back, or without one that which was there. -/
theorem holds_kept_by_change (session : Session)
    (hdirected : session.directors.get? director = some found)
    (hcoordinated : session.coordinators.get? found.coordinator = some coordinator)
    (hsound : coordinator.Sound)
    (hshared : ∀ version, coordinator.peek change.identity = some version →
      session.Shares change.identity version)
    (hturn : ∀ lock, found.writers.locks.get? change.identity = some lock →
      found.writers.isFree lock = true)
    (hreads : ∀ entry, coordinator.entry? change.identity = some entry →
      entry.isLocked = false ∨ entry.isHeldBy worker = true) :
    ∃ later result next,
      Relation.ReflTransGen (StepsOf worker)
        (session.setActivity worker (.changing director change .begun)) later ∧
      later.activities.get? worker = some (.changing director change (.returned result)) ∧
      later.coordinators.get? found.coordinator = some next ∧
      (∀ other, next.contains other = coordinator.contains other) ∧
      (∀ other, other ≠ change.identity → next.entry? other = coordinator.entry? other) ∧
      (next.entry? change.identity).map Entry.holders =
        (coordinator.entry? change.identity).map Entry.holders ∧
      Change.Settles change.identity coordinator next result ∧
      ∀ made, result = .ok made → later.Shares change.identity made := by
  have hbegun : (session.setActivity worker (.changing director change .begun)).At director worker
      change .begun found coordinator := by
    refine ⟨?_, hdirected, hcoordinated⟩
    rw [get?_setActivity, if_pos rfl]
  obtain ⟨reading, lock, writers, hbegin, hreading⟩ := hbegun.begin hturn
  cases hfind : coordinator.find? change.identity with
  | none =>
      obtain ⟨later, writers, hrun, hlater⟩ := hreading.unknown hfind
      have huntracked : coordinator.contains change.identity = false := by
        rw [Coordinator.contains_eq_isSome, hfind, Option.isSome_none]
      refine ⟨later, _, coordinator, hbegin.trans hrun, hlater.active, hlater.coordinated,
        fun _ => rfl, fun _ _ => rfl, rfl, ⟨rfl, huntracked, rfl, rfl⟩, ?_⟩
      rintro made ⟨⟩
  | some cell =>
      obtain ⟨entry, hpresent, -, hretired⟩ := hsound.placed change.identity cell hfind
      have hplaces : coordinator.Places change.identity cell entry := ⟨hfind, hpresent⟩
      have hversion : coordinator.peek change.identity = some entry.current := by
        rw [Coordinator.peek, hplaces.entry?_eq, Option.map_some]
      have hstart : (session.setActivity worker (.changing director change .begun)).Shares
          change.identity entry.current := hshared _ hversion
      have hshares := hstart.stepsOf hbegin
      have hunblocked : entry.blocksReader worker = false := by
        rcases hreads entry hplaces.entry?_eq with hfree | hheld
        · simp [Entry.blocksReader, hfree]
        · simp [Entry.blocksReader, hheld]
      obtain ⟨later, writers, result, revised, count, next, hrun, hlater, hrevises, hholders,
        hsettles, hmade⟩ := hreading.settle hsound hplaces hshares hretired hunblocked
      refine ⟨later, result, next, hbegin.trans hrun, hlater.active, hlater.coordinated, ?_,
        hrevises.others, ?_, hsettles, hmade⟩
      · intro other
        rw [Coordinator.contains_eq_isSome, Coordinator.contains_eq_isSome, hrevises.tracked other]
      · rw [hrevises.revised, hplaces.entry?_eq, Option.map_some, Option.map_some, hholders]

/-- The worker of the change has two holds of its own already, one below and one above that of another
worker. -/
theorem holds_kept_by_change_held :
    let shared : SharedHandle := ⟨⟨0⟩, ⟨1⟩⟩
    let coordinator := ((((Coordinator.start ⟨0⟩).store shared).2.lock ⟨"first"⟩ shared).lock
      ⟨"other"⟩ shared).lock ⟨"first"⟩ shared
    let session :=
      { oneRegistered with coordinators := oneRegistered.coordinators.set ⟨0⟩ coordinator }
    let change : Change := ⟨.assume, ⟨1⟩, (Role.administrator true []).reference ⟨0⟩, .zero⟩
    coordinator.Sound ∧
      ∃ later result next,
        Relation.ReflTransGen (StepsOf ⟨"first"⟩)
          (session.setActivity ⟨"first"⟩ (.changing ⟨0⟩ change .begun)) later ∧
        later.activities.get? ⟨"first"⟩ = some (.changing ⟨0⟩ change (.returned result)) ∧
        later.coordinators.get? ⟨0⟩ = some next ∧
        (next.entry? ⟨1⟩).map Entry.holders =
          some [⟨"first"⟩, ⟨"other"⟩, ⟨"first"⟩] ∧
        Change.Settles ⟨1⟩ coordinator next result ∧
        ∀ made, result = .ok made → later.Shares ⟨1⟩ made := by
  intro shared coordinator session change
  have hreached : coordinator.Reached :=
    (((((Coordinator.Reached.start ⟨0⟩).store shared).lock ⟨"first"⟩ shared).lock ⟨"other"⟩
      shared).lock ⟨"first"⟩ shared)
  have hsound : coordinator.Sound := hreached.sound
  have hdirected : session.directors.get? ⟨0⟩ = some ⟨⟨0⟩, ⟨0⟩, Writers.empty⟩ := rfl
  have hshared : ∀ version, coordinator.peek change.identity = some version →
      session.Shares change.identity version := by
    intro version hversion
    obtain rfl := Option.some.inj hversion
    exact ⟨rfl, _, rfl, rfl⟩
  have hturn : ∀ lock, Writers.empty.locks.get? change.identity = some lock →
      Writers.empty.isFree lock = true := by
    intro lock hlock
    cases hlock
  have hreads : ∀ entry, coordinator.entry? change.identity = some entry →
      entry.isLocked = false ∨ entry.isHeldBy ⟨"first"⟩ = true := by
    intro entry hentry
    obtain rfl := Option.some.inj hentry
    exact Or.inr rfl
  obtain ⟨later, result, next, hrun, hreturned, hnext, -, -, hholders, hsettles, hmade⟩ :=
    holds_kept_by_change session hdirected rfl hsound hshared hturn hreads
  exact ⟨hsound, later, result, next, hrun, hreturned, hnext, hholders, hsettles, hmade⟩

end Session

end RoleStack

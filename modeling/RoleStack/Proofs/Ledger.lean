import RoleStack.Proofs.Alerts
import RoleStack.Proofs.Steps

/-!
# A ledger of holds

Every hold that is taken or let go and every version that is stored is written into a ledger. A release
drops a hold of the worker itself if there is one, and otherwise the newest hold of all, which is somebody
else's. So the entry agrees with the ledger as long as workers let go of nothing but holds of their own,
and what this takes is that nobody loses a hold by what another worker does.
-/

namespace RoleStack

/-- What was seen of the holds and versions of an identity, the newest first. -/
structure Ledger where
  /-- One worker for each hold that was taken. -/
  taken : List Worker
  /-- One worker for each hold that was let go. -/
  dropped : List Worker
  stored : List SharedHandle

namespace Ledger

def empty : Ledger := ⟨[], [], []⟩

def take (ledger : Ledger) (worker : Worker) : Ledger :=
  { ledger with taken := worker :: ledger.taken }

def drop (ledger : Ledger) (worker : Worker) : Ledger :=
  { ledger with dropped := worker :: ledger.dropped }

def store (ledger : Ledger) (version : SharedHandle) : Ledger :=
  { ledger with stored := version :: ledger.stored }

/-- What the next step of a worker in this activity adds. -/
def record (ledger : Ledger) (worker : Worker) : Activity → Ledger
  | .calling _ (.lock ..) (.entering _) _ | .changing _ _ (.holding ..) => ledger.take worker
  | .calling _ (.unlock ..) (.entering _) _ | .changing _ _ (.lettingGo ..) => ledger.drop worker
  | .calling _ (.store version) (.entering _) _ | .changing _ _ (.storing _ version) =>
      ledger.store version
  | _ => ledger

/-- The worker is between a lock and the unlock that matches it. -/
def Holds (ledger : Ledger) (worker : Worker) : Prop :=
  ledger.dropped.count worker < ledger.taken.count worker

/-- Every hold was let go again. -/
def Clear (ledger : Ledger) : Prop :=
  ∀ worker, ledger.taken.count worker = ledger.dropped.count worker

end Ledger

namespace Entry

/-- The entry has the holds and the version that the ledger has. -/
structure Agrees (entry : Entry) (ledger : Ledger) (registered : SharedHandle) : Prop where
  current : entry.current = ledger.stored.headD registered
  kept : entry.retired = false
  counted : ∀ worker,
    entry.holders.count worker + ledger.dropped.count worker = ledger.taken.count worker

namespace Agrees

variable {entry : Entry} {ledger : Ledger} {registered : SharedHandle}

theorem isHeldBy_iff (h : entry.Agrees ledger registered) (worker : Worker) :
    entry.isHeldBy worker = true ↔ ledger.Holds worker := by
  have hcounted := h.counted worker
  have hmem : entry.isHeldBy worker = true ↔ 0 < entry.holders.count worker := by
    simp [Entry.isHeldBy, List.count_pos_iff]
  rw [hmem, Ledger.Holds]
  omega

theorem clear (h : entry.Agrees ledger registered) (hfree : entry.isLocked = false) :
    ledger.Clear := by
  intro worker
  have hnone : entry.holders = [] := by simpa [Entry.isLocked] using hfree
  have hcounted := h.counted worker
  rw [hnone, List.count_nil] at hcounted
  omega

theorem acquire (h : entry.Agrees ledger registered) (worker : Worker) :
    (entry.acquire worker).Agrees (ledger.take worker) registered where
  current := h.current
  kept := h.kept
  counted other := by
    have hcounted := h.counted other
    simp only [Entry.acquire, Ledger.take, List.count_cons]
    omega

theorem replace (h : entry.Agrees ledger registered) (version : SharedHandle) :
    (entry.replace version).Agrees (ledger.store version) registered where
  current := rfl
  kept := h.kept
  counted := h.counted

/-- A worker that has a hold lets go of that one, and of nobody else's. -/
theorem release (h : entry.Agrees ledger registered) {worker : Worker}
    (hheld : entry.isHeldBy worker = true) :
    (entry.release worker).Agrees (ledger.drop worker) registered := by
  have hmem : worker ∈ entry.holders := by simpa [Entry.isHeldBy] using hheld
  rw [release_of_isHeldBy hheld]
  refine ⟨h.current, h.kept, ?_⟩
  intro other
  have hcounted := h.counted other
  by_cases hother : worker = other
  · subst hother
    have hpos : 0 < entry.holders.count worker := List.count_pos_iff.mpr hmem
    simp only [Ledger.drop, List.count_cons_self, List.count_erase_self]
    omega
  · have hkept : (entry.holders.erase worker).count other = entry.holders.count other :=
      List.count_erase_of_ne (Ne.symm hother)
    simp only [Ledger.drop, hkept, List.count_cons_of_ne hother]
    omega

end Agrees

end Entry

/-! ### What a step writes

Calls have their effect on the entry when they enter it, and a change has one when it takes its hold, when
it stores and when it lets go. All other steps leave the entry and the ledger as they are. -/

/-- A lock that does not wait for the others, an unlock of one hold, a store or a read of this identity. -/
def Coordinator.Call.Borrows (session : Session) (identity : Identity) : Coordinator.Call → Prop
  | .lock handle waits => handle.identity = identity ∧ waits = false
  | .unlock other all => other = identity ∧ all = false
  | .store version => session.Shares identity version
  | .current other => other = identity
  | .delete _ => False

/-- The change is at the entry of the identity, with versions of the identity. -/
def Change.Stage.Rests (session : Session) (identity : Identity) (cell : Ref Entry) :
    Change.Stage → Prop
  | .waiting _ place => place = cell
  | .holding _ version | .composing _ version | .storing _ version => session.Shares identity version
  | .begun | .queued _ | .reading _ | .lettingGo .. | .leaving .. | .returned _ => True

/-- The worker is about to let go of a hold of its own. -/
def Activity.LetsGo : Activity → Prop
  | .calling _ (.unlock ..) stage _ => ∀ reply, stage ≠ .returned reply
  | .changing _ _ (.composing ..) | .changing _ _ (.storing ..) | .changing _ _ (.lettingGo ..) =>
      True
  | _ => False

/-- What the step of a worker does to the entry and writes into the ledger. -/
inductive Posts (session : Session) (identity : Identity) (worker : Worker) (entry : Entry)
    (ledger : Ledger) : Entry → Ledger → Prop where
  | nothing : Posts session identity worker entry ledger entry ledger
  | taken : Posts session identity worker entry ledger (entry.acquire worker) (ledger.take worker)
  | stored (version : SharedHandle) (hshared : session.Shares identity version) :
      Posts session identity worker entry ledger (entry.replace version) (ledger.store version)
  | dropped (hheld : entry.isHeldBy worker = true) :
      Posts session identity worker entry ledger (entry.release worker) (ledger.drop worker)

section Steps

variable {session : Session} {identity : Identity} {worker other : Worker} {entry changed : Entry}
  {ledger recorded : Ledger} {registered : SharedHandle} {coordinator : Coordinator}
  {cell : Ref Entry}

theorem Posts.agrees (h : Posts session identity worker entry ledger changed recorded)
    (hagrees : entry.Agrees ledger registered) : changed.Agrees recorded registered := by
  cases h with
  | nothing => exact hagrees
  | taken => exact hagrees.acquire worker
  | stored version hshared => exact hagrees.replace version
  | dropped hheld => exact hagrees.release hheld

/-- Nobody loses a hold by what another worker does. -/
theorem Posts.isHeldBy_of_ne (h : Posts session identity worker entry ledger changed recorded)
    (hother : other ≠ worker) (hheld : entry.isHeldBy other = true) :
    changed.isHeldBy other = true := by
  cases h with
  | nothing => exact hheld
  | taken =>
      have hmem : other ∈ entry.holders := by simpa [Entry.isHeldBy] using hheld
      simp [Entry.isHeldBy, Entry.acquire, hmem]
  | stored version hshared => exact hheld
  | dropped hown =>
      have hmem : other ∈ entry.holders := by simpa [Entry.isHeldBy] using hheld
      rw [Entry.release_of_isHeldBy hown]
      simpa [Entry.isHeldBy] using (List.mem_erase_of_ne hother).mpr hmem

theorem Posts.shares (h : Posts session identity worker entry ledger changed recorded)
    (hshared : session.Shares identity entry.current) :
    session.Shares identity changed.current := by
  cases h with
  | nothing => exact hshared
  | taken => exact hshared
  | stored version hversion => exact hversion
  | dropped hheld =>
      rw [(Coordinator.release_current entry worker).1]
      exact hshared

namespace Coordinator

theorem Places.acquireIn (h : coordinator.Places identity cell entry) (worker : Worker) :
    (coordinator.acquireIn cell worker).Places identity cell (entry.acquire worker) := by
  simp only [Coordinator.acquireIn, h.present]
  exact h.setEntry _

theorem Places.replaceIn (h : coordinator.Places identity cell entry) (version : SharedHandle) :
    (coordinator.replaceIn cell version).2.Places identity cell (entry.replace version) := by
  simp only [Coordinator.replaceIn, h.present]
  exact h.setEntry _

theorem Places.releaseIn (h : coordinator.Places identity cell entry)
    (hlocked : entry.isLocked = true) (worker : Worker) :
    (coordinator.releaseIn cell worker false).2.Places identity cell (entry.release worker) := by
  simp only [Coordinator.releaseIn, h.present, hlocked, if_true]
  exact h.count.setEntry _

variable {call : Call} {stage : Stage} {progress : Progress}

theorem Call.Borrows.lookUp (h : call.Borrows session identity)
    (hplaces : coordinator.Places identity cell entry) :
    (call.lookUp coordinator).coordinator.Places identity cell entry ∧
      (call.lookUp coordinator).stage = .entering cell := by
  cases call with
  | delete other => cases h
  | store version =>
      have hfound : coordinator.count.find? version.identity = some cell := by
        rw [h.1]
        exact hplaces.found
      simp only [Call.lookUp, hfound]
      exact ⟨hplaces.count, trivial⟩
  | lock handle waits =>
      have hfound : coordinator.count.find? handle.identity = some cell := by
        rw [h.1]
        exact hplaces.found
      simp only [Call.lookUp, findOrTrack, hfound]
      exact ⟨hplaces.count, trivial⟩
  | unlock other all =>
      obtain ⟨rfl, rfl⟩ := h
      simp only [Call.lookUp, hplaces.found]
      exact ⟨hplaces, trivial⟩
  | current other =>
      obtain rfl : other = identity := h
      simp only [Call.lookUp, hplaces.found]
      exact ⟨hplaces, trivial⟩

theorem Call.Borrows.enter (h : call.Borrows session identity)
    (hplaces : coordinator.Places identity cell entry) {reference : Ref Coordinator}
    {timeout : Option UInt64}
    (hown : (Activity.calling reference call (.entering cell) timeout).LetsGo →
      entry.isHeldBy worker = true) (ledger : Ledger) :
    ∃ changed, (call.enter coordinator worker cell).coordinator.Places identity cell changed ∧
      (call.enter coordinator worker cell).stage.In cell ∧
      Posts session identity worker entry ledger changed
        (ledger.record worker (.calling reference call (.entering cell) timeout)) ∧
      ¬ (Activity.calling reference call (call.enter coordinator worker cell).stage timeout).LetsGo := by
  cases call with
  | delete other => cases h
  | store version =>
      exact ⟨_, hplaces.replaceIn version, trivial, .stored version h, id⟩
  | lock handle waits =>
      obtain ⟨-, rfl⟩ := h
      exact ⟨_, hplaces.acquireIn worker, trivial, .taken, id⟩
  | unlock other all =>
      obtain ⟨-, rfl⟩ := h
      have hheld := hown fun _ => Stage.noConfusion
      have hlocked := Entry.isLocked_of_isHeldBy hheld
      exact ⟨_, hplaces.releaseIn hlocked worker, trivial, .dropped hheld, fun hgoes => hgoes _ rfl⟩
  | current other =>
      obtain ⟨hsame, hin⟩ := Call.readOrSleep_keeps coordinator worker cell
      refine ⟨entry, ?_, hin, .nothing, id⟩
      rw [Call.enter, hsame]
      exact hplaces

theorem Call.Borrows.step (h : call.Borrows session identity)
    (hplaces : coordinator.Places identity cell entry) (hstage : stage.In cell)
    {reference : Ref Coordinator} {timeout : Option UInt64}
    (hown : (Activity.calling reference call stage timeout).LetsGo → entry.isHeldBy worker = true)
    (hstep : call.step? coordinator worker stage = some progress) (ledger : Ledger) :
    ∃ changed, progress.coordinator.Places identity cell changed ∧ progress.stage.In cell ∧
      Posts session identity worker entry ledger changed
        (ledger.record worker (.calling reference call stage timeout)) ∧
      ((Activity.calling reference call progress.stage timeout).LetsGo →
        changed.isHeldBy worker = true) := by
  -- What still lets go after the step was to let go before it.
  have hstill : (∀ reply, stage ≠ .returned reply) →
      (Activity.calling reference call progress.stage timeout).LetsGo →
        entry.isHeldBy worker = true := by
    intro hopen hgoes
    cases call with
    | unlock other all => exact hown hopen
    | store | delete | lock | current => cases hgoes
  cases stage with
  | begun =>
      obtain rfl := Option.some.inj hstep
      obtain ⟨hlooked, hentering⟩ := h.lookUp hplaces
      refine ⟨entry, hlooked, ?_, ?_, hstill fun _ => Stage.noConfusion⟩
      · rw [hentering]
        exact rfl
      · cases call <;> exact .nothing
  | entering place =>
      obtain rfl : place = cell := hstage
      obtain rfl := Option.some.inj hstep
      obtain ⟨changed, hentered, hin, hposts, hdone⟩ := h.enter hplaces hown ledger
      exact ⟨changed, hentered, hin, hposts, fun hgoes => absurd hgoes hdone⟩
  | roused place timedOut =>
      obtain rfl : place = cell := hstage
      obtain rfl := Option.some.inj hstep
      obtain ⟨hsame, hin, -⟩ := call.resume_keeps coordinator worker place timedOut
      refine ⟨entry, ?_, hin, ?_, hstill fun _ => Stage.noConfusion⟩
      · rw [hsame]
        exact hplaces
      · cases call <;> exact .nothing
  | asleep place => cases hstep
  | returned reply => cases hstep

end Coordinator

/-- What a change makes is a version of the identity again. -/
theorem Change.rests_composed {current : SharedHandle} (hshared : session.Shares identity current)
    (change : Change) (workshop : Ref Workshop) (lock : Ref WriterLock) (cell : Ref Entry) :
    (Change.composed lock (session.compose workshop change.agent
      (change.kind.operation current change.role)).1).Rests
        (session.compose workshop change.agent (change.kind.operation current change.role)).2.2
        identity cell := by
  have htarget : session.Shares identity (change.kind.operation current change.role).target := hshared
  cases hresult : (session.compose workshop change.agent
      (change.kind.operation current change.role)).1 with
  | error error => trivial
  | ok made => exact Session.shares_of_compose_ok htarget hresult

theorem Change.Stage.Rests.step {change : Change} {stage : Change.Stage}
    {progress : Change.Progress} {writers : Writers} {director : Ref Director}
    (h : stage.Rests session identity cell) (hidentity : change.identity = identity)
    (hplaces : coordinator.Places identity cell entry)
    (hshared : session.Shares identity entry.current) (hkept : entry.retired = false)
    (hown : (Activity.changing director change stage).LetsGo → entry.isHeldBy worker = true)
    (hstep : change.step? worker writers coordinator stage = some progress) (ledger : Ledger) :
    ∃ changed, progress.coordinator.Places identity cell changed ∧
      progress.stage.Rests session identity cell ∧
      Posts session identity worker entry ledger changed
        (ledger.record worker (.changing director change stage)) ∧
      ((Activity.changing director change progress.stage).LetsGo →
        changed.isHeldBy worker = true) := by
  subst hidentity
  cases stage with
  | begun =>
      obtain rfl := Option.some.inj hstep
      refine ⟨entry, hplaces, trivial, .nothing, ?_⟩
      rintro ⟨⟩
  | queued lock =>
      rw [Change.step?] at hstep
      split at hstep
      · obtain rfl := Option.some.inj hstep
        refine ⟨entry, hplaces, trivial, .nothing, ?_⟩
        rintro ⟨⟩
      · cases hstep
  | reading lock =>
      rw [Change.step?, hplaces.found] at hstep
      obtain rfl := Option.some.inj hstep
      refine ⟨entry, hplaces, rfl, .nothing, ?_⟩
      rintro ⟨⟩
  | waiting lock place =>
      obtain rfl : place = cell := h
      rw [Change.step?, Coordinator.readIn?, hplaces.present] at hstep
      by_cases hblocks : entry.blocksReader worker = true
      · simp [hblocks] at hstep
      · simp only [if_neg hblocks, Entry.version?, hkept, Bool.false_eq_true, if_false] at hstep
        obtain rfl := Option.some.inj hstep
        refine ⟨entry, hplaces, hshared, .nothing, ?_⟩
        rintro ⟨⟩
  | holding lock version =>
      obtain rfl := Option.some.inj hstep
      exact ⟨_, hplaces.lock h.1 worker, h, .taken, fun _ => entry.isHeldBy_acquire_self worker⟩
  | composing lock version => cases hstep
  | storing lock version =>
      obtain rfl := Option.some.inj hstep
      exact ⟨_, hplaces.store h.1, trivial, .stored version h, fun _ => hown trivial⟩
  | lettingGo lock result =>
      obtain rfl := Option.some.inj hstep
      have hheld := hown trivial
      refine ⟨_, hplaces.unlock_one (Entry.isLocked_of_isHeldBy hheld) worker, trivial,
        .dropped hheld, ?_⟩
      rintro ⟨⟩
  | leaving lock result =>
      obtain rfl := Option.some.inj hstep
      refine ⟨entry, hplaces, trivial, .nothing, ?_⟩
      rintro ⟨⟩
  | returned result => cases hstep

end Steps

end RoleStack

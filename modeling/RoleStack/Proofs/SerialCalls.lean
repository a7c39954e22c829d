import RoleStack.HandleClass.Samples
import RoleStack.Proofs.CallAnswers
import RoleStack.Proofs.Journals

/-!
# One call at a time

Workers call a coordinator, and change roles at its directors, so that each call is over before the next
begins. The journal of the coordinator then tells what each of them did.
-/

namespace RoleStack

/-! ### Lines of calls and changes -/

namespace Coordinator

/-- The handle that a call brings along. -/
def Call.handle? : Call → Option SharedHandle
  | .store handle | .lock handle _ => some handle
  | .delete _ | .unlock .. | .current _ => none

/-- Whether the call may have to wait for others. -/
def Call.mayWait : Call → Bool
  | .lock _ waits => waits
  | .current _ => true
  | .store _ | .delete _ | .unlock .. => false

namespace Transaction

def ofCall (worker : Worker) (reply : Reply) : Call → List Transaction
  | .store handle => [.stored handle]
  | .delete identity => [.deleted identity]
  | .lock handle _ => [.locked worker handle]
  | .unlock identity all => [.unlocked worker identity all (reply = .flag true)]
  | .current _ => []

/-- A change of a tracked identity holds the version that it found, stores what it made of it, if
anything, and lets go. -/
def ofChange (worker : Worker) (result : Except DirectorError SharedHandle) :
    Option SharedHandle → List Transaction
  | none => []
  | some current =>
      let stored := match result with
        | .ok made => [.stored made]
        | .error _ => []
      .unlocked worker current.identity false true :: stored ++ [.locked worker current]

theorem ofCall_unlock (worker : Worker) (identity : Identity) (all released : Bool) :
    ofCall worker (.flag released) (.unlock identity all) =
      [.unlocked worker identity all released] := by
  simp [ofCall]

end Transaction

variable {coordinator : Coordinator}

theorem Sound.isLocked_lock (h : coordinator.Sound) (worker : Worker) (handle : SharedHandle) :
    (coordinator.lock worker handle).isLocked handle.identity = true := by
  rw [isLocked, (h.amends_lock worker handle).amended]
  rfl

theorem Sound.isLocked_store (h : coordinator.Sound) (handle : SharedHandle) :
    (coordinator.store handle).2.isLocked handle.identity =
      coordinator.isLocked handle.identity := by
  rw [isLocked, (h.amends_store handle).amended, isLocked]
  cases coordinator.entry? handle.identity <;> rfl

theorem Sound.leads_unlock_of_isLocked (h : coordinator.Sound) {identity : Identity}
    (hlocked : coordinator.isLocked identity = true) (worker : Worker) (all : Bool) :
    coordinator.Leads (.unlocked worker identity all true)
      (coordinator.unlock worker identity all).2 := by
  have hreleased : (coordinator.unlock worker identity all).1 = true :=
    (h.unlock_fst worker identity all).trans hlocked
  have hleads : coordinator.Leads _ (coordinator.unlock worker identity all).2 :=
    .unlock worker identity all
  rw [hreleased] at hleads
  exact hleads

end Coordinator

theorem Writers.Free.forget {writers : Writers} (h : writers.Free) (identity : Identity) :
    (writers.forget identity).Free := by
  intro other lock hlock
  change (writers.locks.erase identity).get? other = some lock at hlock
  rw [Table.get?_erase] at hlock
  split at hlock
  · cases hlock
  · exact h other lock hlock

namespace Session

open Coordinator

/-- Nobody is in a call, and no writer lock of a director with this coordinator is taken. -/
structure StandsBy (session : Session) (reference : Ref Coordinator) (coordinator : Coordinator) :
    Prop where
  idle : session.activities = Table.empty
  coordinated : session.coordinators.get? reference = some coordinator
  free : ∀ director found, session.directors.get? director = some found →
    found.coordinator = reference → found.writers.Free

/-- If there is a handle, it was obtained in the session. -/
def Obtained (session : Session) (handle : Option SharedHandle) : Prop :=
  ∀ given, handle = some given → session.Shares given.identity given

/-- The sessions that whole calls lead to, each with the journal of the coordinator. -/
inductive Serial (reference : Ref Coordinator) (config : CoordinatorConfig) :
    Session → List Transaction → Prop where
  | opened {session : Session} (stands : session.StandsBy reference (Coordinator.start config)) :
      Serial reference config session []
  /-- What leaves the coordinator and its directors alone, and the identities of handles. -/
  | elsewhere {session later : Session} {journal : List Transaction}
      (earlier : Serial reference config session journal)
      (stands : later.StandsBy reference (session.coordinator reference))
      (keeps : ∀ identity shared, session.Shares identity shared → later.Shares identity shared) :
      Serial reference config later journal
  | call {session later : Session} {journal : List Transaction} {worker : Worker} {call : Call}
      {timeout : Option UInt64} {patience : UInt64} {reply : Reply}
      (earlier : Serial reference config session journal)
      (obtained : session.Obtained call.handle?)
      (returned : session.perform worker (.calling reference call .begun timeout) patience =
        (some (.reply reply), later)) :
      Serial reference config later (Transaction.ofCall worker reply call ++ journal)
  | change {session later : Session} {journal : List Transaction} {worker : Worker}
      {director : Ref Director} {found : Director} {change : Change} {patience : UInt64}
      {result : Except DirectorError SharedHandle}
      (earlier : Serial reference config session journal)
      (directed : session.directors.get? director = some found)
      (same : found.coordinator = reference)
      (returned : session.perform worker (.changing director change .begun) patience =
        (some (.change result), later)) :
      Serial reference config later (Transaction.ofChange worker result
        ((session.coordinator reference).peek change.identity) ++ journal)
  | register {session : Session} {journal : List Transaction} {director : Ref Director}
      {found : Director} {handle : SharedHandle}
      (earlier : Serial reference config session journal)
      (directed : session.directors.get? director = some found)
      (same : found.coordinator = reference)
      (obtained : session.Obtained (some handle)) :
      Serial reference config (session.register director handle).2 (.stored handle :: journal)
  | deregister {session : Session} {journal : List Transaction} {director : Ref Director}
      {found : Director}
      (earlier : Serial reference config session journal)
      (directed : session.directors.get? director = some found)
      (same : found.coordinator = reference) (identity : Identity) :
      Serial reference config (session.deregister director identity).2
        (.deleted identity :: journal)

/-- The current versions are there, each with its identity. -/
def Backs (session : Session) (coordinator : Coordinator) : Prop :=
  ∀ identity entry, coordinator.entry? identity = some entry →
    session.Shares identity entry.current

/-- What holds between two calls. -/
structure Keeps (session : Session) (reference : Ref Coordinator) (config : CoordinatorConfig)
    (journal : List Transaction) (coordinator : Coordinator) : Prop where
  stands : session.StandsBy reference coordinator
  after : coordinator.After config journal
  backs : session.Backs coordinator

section Keeping

variable {session later : Session} {reference : Ref Coordinator} {config : CoordinatorConfig}
  {journal : List Transaction} {coordinator before after : Coordinator} {line : Transaction}
  {director : Ref Director} {found : Director} {worker : Worker} {asked : Call} {task : Change}
  {timeout : Option UInt64} {patience : UInt64} {reply : Reply}
  {result : Except DirectorError SharedHandle} {identity : Identity} {entry : Entry}

theorem Shares.obtained {version : SharedHandle} (h : session.Shares identity version) :
    session.Obtained (some version) := by
  obtain ⟨rfl, hstate⟩ := h
  rintro given ⟨⟩
  exact ⟨rfl, hstate⟩

theorem obtained_none (session : Session) : session.Obtained none :=
  fun _ hgiven => nomatch hgiven

@[simp]
theorem obtained_withCoordinator {handle : Option SharedHandle} :
    (session.withCoordinator reference coordinator).Obtained handle ↔ session.Obtained handle :=
  Iff.rfl

theorem StandsBy.withCoordinator (h : session.StandsBy reference before) (after : Coordinator) :
    (session.withCoordinator reference after).StandsBy reference after where
  idle := h.idle
  coordinated := get?_withCoordinator h.coordinated after
  free := h.free

theorem StandsBy.withDirector (h : session.StandsBy found.coordinator before)
    (hdirected : session.directors.get? director = some found) {writers : Writers}
    (hfree : writers.Free) (after : Coordinator) :
    (session.withDirector director found writers after).StandsBy found.coordinator after where
  idle := h.idle
  coordinated := Pool.get?_set_of_get? h.coordinated after
  free := by
    intro other present hpresent hsame
    change (session.directors.set director _).get? other = some present at hpresent
    rw [Pool.get?_set] at hpresent
    split at hpresent
    · rename_i hother
      rw [← hother, hdirected, Option.map_some] at hpresent
      obtain rfl := Option.some.inj hpresent
      exact hfree
    · exact h.free other present hpresent hsame

theorem StandsBy.compose (h : session.StandsBy reference coordinator) (workshop : Ref Workshop)
    (agent : AgentId) (operation : Operation) :
    (session.compose workshop agent operation).2.2.StandsBy reference coordinator := by
  obtain ⟨hcoordinators, hdirectors, hactivities⟩ := session.compose_frame workshop agent operation
  refine ⟨hactivities.trans h.idle, ?_, ?_⟩
  · rw [hcoordinators]
    exact h.coordinated
  · rw [hdirectors]
    exact h.free

theorem Extends.backs (h : session.Extends later) (hbacks : session.Backs coordinator) :
    later.Backs coordinator :=
  fun identity entry hentry => h.shares (hbacks identity entry hentry)

theorem Backs.next (h : session.Backs before) (hsound : before.Sound)
    (hleads : before.Leads line after)
    (hobtained : session.Obtained line.handle?) :
    session.Backs after := by
  have hamends := hleads.amends hsound
  intro identity entry hentry
  by_cases hidentity : identity = line.identity
  · subst hidentity
    rw [hamends.amended] at hentry
    cases line with
    | stored handle =>
        obtain rfl := Option.some.inj hentry
        exact hobtained handle rfl
    | locked worker handle =>
        obtain rfl := Option.some.inj hentry
        change session.Shares handle.identity
          ((before.entry? handle.identity).getD (Entry.start handle)).current
        cases hbefore : before.entry? handle.identity with
        | none => exact hobtained handle rfl
        | some present => exact h handle.identity present hbefore
    | unlocked worker identity all released =>
        obtain ⟨present, hbefore, rfl⟩ := Option.map_eq_some_iff.mp hentry
        cases all with
        | true =>
            rw [if_pos rfl, (releaseAll_current present).1]
            exact h identity present hbefore
        | false =>
            rw [if_neg Bool.false_ne_true, (release_current present worker).1]
            exact h identity present hbefore
    | deleted identity => cases hentry
  · rw [hamends.others identity hidentity] at hentry
    exact h identity entry hentry

theorem Keeps.next (h : session.Keeps reference config journal before)
    (hleads : before.Leads line after)
    (hobtained : session.Obtained line.handle?) :
    (session.withCoordinator reference after).Keeps reference config (line :: journal) after where
  stands := h.stands.withCoordinator after
  after := .next h.after hleads
  backs := h.backs.next h.after.sound hleads hobtained

/-- A call that returns has done what it does as a whole. -/
theorem Keeps.call (h : session.Keeps reference config journal coordinator)
    (hobtained : session.Obtained asked.handle?)
    (hreturned : session.perform worker (.calling reference asked .begun timeout) patience =
      (some (.reply reply), later)) :
    ∃ after,
      later.Keeps reference config (Transaction.ofCall worker reply asked ++ journal) after := by
  obtain ⟨hidle, hcoordinated, -⟩ := h.stands
  cases asked with
  | store handle =>
      rw [perform_store hidle hcoordinated] at hreturned
      cases hreturned
      exact ⟨_, h.next (.store handle) hobtained⟩
  | delete identity =>
      rw [perform_delete hidle hcoordinated] at hreturned
      cases hreturned
      exact ⟨_, h.next (.delete identity) hobtained⟩
  | lock handle waits =>
      have hlater : later = session.withCoordinator reference (coordinator.lock worker handle) := by
        cases waits with
        | true => exact (eq_of_perform_waiting_lock hidle hcoordinated h.after.sound hreturned).2
        | false =>
            rw [perform_lock hidle hcoordinated] at hreturned
            exact (congrArg Prod.snd hreturned).symm
      subst hlater
      exact ⟨_, h.next (.lock worker handle) hobtained⟩
  | unlock identity all =>
      rw [perform_unlock hidle hcoordinated] at hreturned
      cases hreturned
      rw [Transaction.ofCall_unlock]
      exact ⟨_, h.next (.unlock worker identity all) hobtained⟩
  | current identity =>
      cases hreads : coordinator.current? worker identity with
      | none =>
          have hnone := perform_current_of_none hidle hcoordinated hreads timeout patience
          rw [hreturned] at hnone
          cases hnone
      | some version =>
          rw [perform_current hidle hcoordinated hreads] at hreturned
          cases hreturned
          exact ⟨coordinator, h⟩

theorem Keeps.compose (h : session.Keeps reference config journal coordinator)
    (workshop : Ref Workshop) (agent : AgentId) (operation : Operation) :
    (session.compose workshop agent operation).2.2.Keeps reference config journal coordinator :=
  ⟨h.stands.compose workshop agent operation, h.after,
    (session.extends_compose workshop agent operation).backs h.backs⟩

theorem Keeps.hold (h : session.Keeps reference config journal coordinator)
    (hentry : coordinator.entry? identity = some entry) (worker : Worker) :
    (session.withCoordinator reference (coordinator.lock worker entry.current)).Keeps reference config
      (.locked worker entry.current :: journal) (coordinator.lock worker entry.current) :=
  h.next (.lock worker entry.current) (h.backs identity entry hentry).obtained

/-- The end of a change, while it holds the identity. -/
theorem Keeps.letGo (h : session.Keeps found.coordinator config journal coordinator)
    (hdirected : session.directors.get? director = some found) {writers : Writers}
    (hfree : writers.Free) {lines : List Transaction}
    (hheld : (session.withCoordinator found.coordinator before).Keeps found.coordinator config lines
      before) (hlocked : before.isLocked identity = true) (worker : Worker) :
    ∃ after, (session.withDirector director found writers
      (before.unlock worker identity false).2).Keeps found.coordinator config
        (.unlocked worker identity false true :: lines) after := by
  have hleads := hheld.after.sound.leads_unlock_of_isLocked hlocked worker false
  have hunlocked := hheld.next hleads (obtained_none _)
  exact ⟨_, h.stands.withDirector hdirected hfree _, hunlocked.after, hunlocked.backs⟩

/-- A change that need not wait for holds of others, and returns, has held the version that it found. -/
theorem Keeps.change_of_entry (h : session.Keeps found.coordinator config journal coordinator)
    (hdirected : session.directors.get? director = some found)
    (hentry : coordinator.entry? task.identity = some entry)
    (hreads : entry.blocksReader worker = false)
    (hreturned : session.perform worker (.changing director task .begun) patience =
      (some (.change result), later)) :
    (∃ after, later.Keeps found.coordinator config
      (Transaction.ofChange worker result (some entry.current) ++ journal) after) ∧
      ∀ made, result = .ok made → later.Shares task.identity made := by
  obtain ⟨hidle, hcoordinated, hfrees⟩ := h.stands
  have hsound := h.after.sound
  have hfree := hfrees director found hdirected rfl
  have hserved := hfree.served task.identity worker
  obtain ⟨cell, hplaces, hidentity, hretired⟩ := hsound.places_of_entry? hentry
  have hlocked := hsound.isLocked_lock worker entry.current
  rw [hidentity] at hlocked
  rw [perform_change hidle hdirected hcoordinated hfree hplaces hretired hreads] at hreturned
  have hdirected' := (session.compose_frame found.workshop task.agent
    (task.kind.operation entry.current task.role)).2.1 ▸ hdirected
  have hcomposed := h.compose found.workshop task.agent
    (task.kind.operation entry.current task.role)
  have htarget : session.Shares task.identity
      (task.kind.operation entry.current task.role).target :=
    h.backs task.identity entry hentry
  simp only [Transaction.ofChange, hidentity]
  rcases hcompose : session.compose found.workshop task.agent
    (task.kind.operation entry.current task.role) with ⟨error | made, spent, composed⟩
  · simp only [hcompose] at hreturned hdirected' hcomposed
    cases hreturned
    refine ⟨hcomposed.letGo hdirected' hserved (hcomposed.hold hentry worker) hlocked worker, ?_⟩
    rintro made ⟨⟩
  · have hmade := shares_of_compose_ok htarget (congrArg Prod.fst hcompose)
    simp only [hcompose] at hreturned hdirected' hcomposed hmade
    cases hreturned
    have hheld := hcomposed.hold hentry worker
    have hstored := hheld.next (.store made) hmade.obtained
    rw [withCoordinator_withCoordinator] at hstored
    have hstays := hheld.after.sound.isLocked_store made
    rw [hmade.1, hlocked] at hstays
    refine ⟨hcomposed.letGo hdirected' hserved hstored hstays worker, ?_⟩
    rintro _ ⟨⟩
    exact hmade

/-- A change that returns has held the version that it found, stored what it made, and let go. -/
theorem Keeps.change (h : session.Keeps found.coordinator config journal coordinator)
    (hdirected : session.directors.get? director = some found)
    (hreturned : session.perform worker (.changing director task .begun) patience =
      (some (.change result), later)) :
    (∃ after, later.Keeps found.coordinator config
      (Transaction.ofChange worker result (coordinator.peek task.identity) ++ journal) after) ∧
      ∀ made, result = .ok made →
        (coordinator.peek task.identity).isSome = true ∧ later.Shares task.identity made := by
  obtain ⟨hidle, hcoordinated, hfrees⟩ := h.stands
  have hsound := h.after.sound
  have hfree := hfrees director found hdirected rfl
  rw [Coordinator.peek]
  cases hentry : coordinator.entry? task.identity with
  | none =>
      rw [perform_change_unknown hidle hdirected hcoordinated hfree (hsound.find?_of_entry? hentry)]
        at hreturned
      cases hreturned
      have hserved := hfree.served task.identity worker
      refine ⟨⟨coordinator, h.stands.withDirector hdirected hserved coordinator, h.after, h.backs⟩, ?_⟩
      rintro made ⟨⟩
  | some entry =>
      cases hreads : entry.blocksReader worker with
      | true =>
          obtain ⟨cell, hplaces, -⟩ := hsound.places_of_entry? hentry
          have hnone := perform_change_blocked hidle hdirected hcoordinated hfree hplaces hreads
            patience
          rw [hreturned] at hnone
          cases hnone
      | false =>
          obtain ⟨hkeeps, hmakes⟩ := h.change_of_entry hdirected hentry hreads hreturned
          exact ⟨hkeeps, fun made hmade => ⟨rfl, hmakes made hmade⟩⟩

theorem StandsBy.register (h : session.StandsBy found.coordinator coordinator)
    (hdirected : session.directors.get? director = some found) (handle : SharedHandle) :
    session.register director handle = (handle.identity,
      session.withCoordinator found.coordinator (coordinator.store handle).2) := by
  rw [Session.register, hdirected]
  simp only [coordinator_eq h.coordinated]
  rfl

theorem StandsBy.deregister (h : session.StandsBy found.coordinator coordinator)
    (hdirected : session.directors.get? director = some found) (identity : Identity) :
    session.deregister director identity = ((coordinator.delete identity).1,
      session.withDirector director found (found.writers.forget identity)
        (coordinator.delete identity).2) := by
  have hidle : (session.withDirector director found (found.writers.forget identity)
      (coordinator.delete identity).2).activities = Table.empty := h.idle
  have hforgotten : session.forget director identity = ((coordinator.delete identity).1,
      session.withDirector director found (found.writers.forget identity)
        (coordinator.delete identity).2) := by
    rw [Session.forget, hdirected]
    simp only [coordinator_eq h.coordinated]
    exact congrArg (Prod.mk _) (wake_of_activities hidle _ _)
  rw [Session.deregister, hforgotten]
  exact congrArg (Prod.mk _) (settle_of_activities hidle)

theorem Serial.keeps (h : session.Serial reference config journal) :
    session.Keeps reference config journal (session.coordinator reference) := by
  suffices hkeeps : ∃ coordinator, session.Keeps reference config journal coordinator by
    obtain ⟨coordinator, hkeeps⟩ := hkeeps
    rw [coordinator_eq hkeeps.stands.coordinated]
    exact hkeeps
  induction h with
  | opened stands => exact ⟨_, stands, .start, fun _ _ hentry => nomatch hentry⟩
  | elsewhere _ stands keeps ih =>
      obtain ⟨coordinator, hkeeps⟩ := ih
      rw [coordinator_eq hkeeps.stands.coordinated] at stands
      exact ⟨coordinator, stands, hkeeps.after,
        fun identity entry hentry => keeps identity _ (hkeeps.backs identity entry hentry)⟩
  | call _ obtained returned ih =>
      obtain ⟨coordinator, hkeeps⟩ := ih
      exact hkeeps.call obtained returned
  | change _ directed same returned ih =>
      obtain ⟨coordinator, hkeeps⟩ := ih
      subst same
      rw [coordinator_eq hkeeps.stands.coordinated]
      exact (hkeeps.change directed returned).1
  | register _ directed same obtained ih =>
      obtain ⟨coordinator, hkeeps⟩ := ih
      subst same
      rw [hkeeps.stands.register directed]
      exact ⟨_, hkeeps.next (.store _) obtained⟩
  | deregister _ directed same identity ih =>
      obtain ⟨coordinator, hkeeps⟩ := ih
      subst same
      rw [hkeeps.stands.deregister directed]
      have hdeleted := hkeeps.next (.delete identity) (obtained_none _)
      have hfree := (hkeeps.stands.free _ _ directed rfl).forget identity
      exact ⟨_, hkeeps.stands.withDirector directed hfree _, hdeleted.after, hdeleted.backs⟩

/-! ### Calls that never wait -/

theorem Serial.store (h : session.Serial reference config journal) (handle : SharedHandle)
    (hobtained : session.Obtained (some handle)) :
    (session.withCoordinator reference ((session.coordinator reference).store handle).2).Serial
      reference config (.stored handle :: journal) := by
  have hkeeps := h.keeps
  have hreturned : session.perform ⟨""⟩ (.calling reference (.store handle) .begun none) 0 = _ :=
    perform_store hkeeps.stands.idle hkeeps.stands.coordinated handle none 0
  refine .call h ?_ hreturned
  exact hobtained

theorem Serial.lock (h : session.Serial reference config journal) (handle : SharedHandle)
    (hobtained : session.Obtained (some handle)) (worker : Worker) :
    (session.withCoordinator reference ((session.coordinator reference).lock worker handle)).Serial
      reference config (.locked worker handle :: journal) := by
  have hkeeps := h.keeps
  have hreturned : session.perform worker
      (.calling reference (.lock handle false) .begun none) 0 = _ :=
    perform_lock hkeeps.stands.idle hkeeps.stands.coordinated handle none 0
  refine .call h ?_ hreturned
  exact hobtained

theorem Serial.unlock (h : session.Serial reference config journal) {released : Bool}
    (hlocked : (session.coordinator reference).isLocked identity = released) (worker : Worker)
    (all : Bool) :
    (session.withCoordinator reference
      ((session.coordinator reference).unlock worker identity all).2).Serial reference config
        (.unlocked worker identity all released :: journal) := by
  have hkeeps := h.keeps
  have hreturned : session.perform worker
      (.calling reference (.unlock identity all) .begun none) 0 = _ :=
    perform_unlock hkeeps.stands.idle hkeeps.stands.coordinated identity all none 0
  rw [hkeeps.after.sound.unlock_fst, hlocked] at hreturned
  rw [← List.singleton_append, ← Transaction.ofCall_unlock]
  refine .call h ?_ hreturned
  exact obtained_none session

theorem Serial.delete (h : session.Serial reference config journal) (identity : Identity) :
    (session.withCoordinator reference ((session.coordinator reference).delete identity).2).Serial
      reference config (.deleted identity :: journal) := by
  have hkeeps := h.keeps
  have hreturned : session.perform ⟨""⟩ (.calling reference (.delete identity) .begun none) 0 = _ :=
    perform_delete hkeeps.stands.idle hkeeps.stands.coordinated identity none 0
  refine .call h ?_ hreturned
  exact obtained_none session

theorem Serial.exists_answer (h : session.Serial reference config journal)
    (hwaits : asked.mayWait = false) (worker : Worker) (timeout : Option UInt64)
    (patience : UInt64) : ∃ reply later,
      session.perform worker (.calling reference asked .begun timeout) patience =
        (some (.reply reply), later) := by
  have hstands := h.keeps.stands
  cases asked with
  | store handle => exact ⟨_, _, perform_store hstands.idle hstands.coordinated handle _ _⟩
  | delete identity => exact ⟨_, _, perform_delete hstands.idle hstands.coordinated identity _ _⟩
  | lock handle waits =>
      cases waits with
      | true => cases hwaits
      | false => exact ⟨_, _, perform_lock hstands.idle hstands.coordinated handle _ _⟩
  | unlock identity all =>
      exact ⟨_, _, perform_unlock hstands.idle hstands.coordinated identity all _ _⟩
  | current identity => cases hwaits

end Keeping

/-! ### A small session -/

section Small

/-- The first handles of two identities, and a director over a coordinator without entries. -/
def small : Session :=
  let (database, session) := Session.start.instantiate .database
  let (_, session) := session.share database
  let (metered, session) := session.instantiate .metered
  let (_, session) := session.share metered
  let (workshop, session) := session.addWorkshop ⟨none, false⟩ none none
  let (coordinator, session) := session.addCoordinator ⟨0⟩
  (session.addDirector workshop coordinator).2

def smallDatabase : SharedHandle := ⟨⟨0⟩, ⟨1⟩⟩

def smallMetered : SharedHandle := ⟨⟨1⟩, ⟨2⟩⟩

theorem shares_smallDatabase : small.Shares ⟨1⟩ smallDatabase := ⟨rfl, _, rfl, rfl⟩

theorem shares_smallMetered : small.Shares ⟨2⟩ smallMetered := ⟨rfl, _, rfl, rfl⟩

theorem serial_small : small.Serial ⟨0⟩ ⟨0⟩ [] := by
  refine .opened ⟨rfl, rfl, ?_⟩
  intro director found hdirected _
  obtain ⟨index⟩ := director
  cases index with
  | zero =>
      obtain rfl := Option.some.inj hdirected
      exact Writers.free_empty
  | succ index => cases hdirected

end Small

end Session

end RoleStack

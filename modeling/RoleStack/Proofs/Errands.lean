import RoleStack.Proofs.LoneWorker
import RoleStack.Proofs.Lifecycle
import RoleStack.Proofs.Unnaming

/-!
# Errands for identities

Workers register handles at a director, change roles, take holds and drop them, one call after the
other. What such a call does to its identity depends on what is seen of that identity alone, up to the
names of made classes, and nothing is seen of it at the others.
-/

namespace RoleStack

/-! ### Amended entries -/

namespace Coordinator

/-- All entries but that of the identity are as they were. -/
structure Amends (before after : Coordinator) (identity : Identity) (amended : Option Entry) :
    Prop where
  sound : after.Sound
  amended : after.entry? identity = amended
  others : ∀ other, other ≠ identity → after.entry? other = before.entry? other

section Amending

variable {coordinator before after : Coordinator} {identity : Identity} {entry : Entry}
  {amended : Option Entry}

theorem Sound.places_of_entry? (h : coordinator.Sound)
    (hentry : coordinator.entry? identity = some entry) :
    ∃ cell, coordinator.Places identity cell entry ∧ entry.current.identity = identity ∧
      entry.retired = false := by
  obtain ⟨cell, hfound, hpresent⟩ := Option.bind_eq_some_iff.mp hentry
  obtain ⟨placed, hplaced, hkept⟩ := h.placed identity cell hfound
  obtain rfl := Option.some.inj (hpresent.symm.trans hplaced)
  exact ⟨cell, ⟨hfound, hpresent⟩, hkept⟩

theorem Sound.find?_of_entry? (h : coordinator.Sound) (hentry : coordinator.entry? identity = none) :
    coordinator.find? identity = none := by
  cases hfound : coordinator.find? identity with
  | none => rfl
  | some cell =>
      obtain ⟨entry, hpresent, -⟩ := h.placed identity cell hfound
      rw [Coordinator.entry?, hfound, Option.bind_some, hpresent] at hentry
      cases hentry

theorem Revises.amends {revised : Entry} {count : UInt64}
    (h : before.Revises after identity revised count) (hsound : after.Sound) :
    before.Amends after identity (some revised) :=
  ⟨hsound, h.revised, h.others⟩

theorem Amends.of_count (h : before.count.Amends after identity amended) :
    before.Amends after identity amended :=
  ⟨h.sound, h.amended, h.others⟩

theorem Sound.amends_track (h : coordinator.Sound) (hretired : entry.retired = false) :
    coordinator.Amends (coordinator.track entry) entry.current.identity (some entry) := by
  have hfind : ∀ identity, (coordinator.track entry).find? identity =
      if entry.current.identity = identity then some coordinator.cells.next
      else coordinator.find? identity :=
    fun identity => Table.get?_insert _ _ _ _
  refine ⟨h.track hretired, ?_, ?_⟩
  · rw [Coordinator.entry?, hfind, if_pos rfl]
    exact Pool.get?_add_next _ _
  · intro other hother
    rw [Coordinator.entry?, Coordinator.entry?, hfind, if_neg (Ne.symm hother)]
    cases hfound : coordinator.find? other with
    | none => rfl
    | some place =>
        obtain ⟨present, hpresent, -⟩ := h.placed other place hfound
        rw [Option.bind_some, Option.bind_some, hpresent]
        exact Pool.get?_add_of_get? _ _ _ _ hpresent

theorem Sound.amends_store (h : coordinator.Sound) (handle : SharedHandle) :
    coordinator.Amends (coordinator.store handle).2 handle.identity
      (some (((coordinator.entry? handle.identity).getD (Entry.start handle)).replace handle)) := by
  cases hentry : coordinator.entry? handle.identity with
  | none =>
      have hfind : coordinator.count.find? handle.identity = none := h.find?_of_entry? hentry
      have htracked : (Entry.start handle).touch.retired = false := rfl
      simp only [Coordinator.store, hfind]
      exact (h.count.amends_track htracked).of_count
  | some entry =>
      obtain ⟨cell, hplaces, -⟩ := h.places_of_entry? hentry
      exact (h.revises_store hplaces rfl).amends (h.store handle)

theorem Sound.amends_lock (h : coordinator.Sound) (worker : Worker) (handle : SharedHandle) :
    coordinator.Amends (coordinator.lock worker handle) handle.identity
      (some (((coordinator.entry? handle.identity).getD (Entry.start handle)).acquire worker)) := by
  cases hentry : coordinator.entry? handle.identity with
  | none =>
      have hfind : coordinator.count.find? handle.identity = none := h.find?_of_entry? hentry
      have htracked : (Entry.start handle).retired = false := rfl
      have htrack : coordinator.Amends _ handle.identity _ := (h.count.amends_track htracked).of_count
      have hplaces : (coordinator.count.track (Entry.start handle)).Places handle.identity
          coordinator.count.cells.next (Entry.start handle) :=
        ⟨(Table.get?_insert _ _ _ _).trans (if_pos rfl), Pool.get?_add_next _ _⟩
      have hlock : coordinator.lock worker handle = (coordinator.count.track
          (Entry.start handle)).setEntry coordinator.count.cells.next
            ((Entry.start handle).acquire worker) := by
        simp only [Coordinator.lock, findOrTrack, hfind, acquireIn, hplaces.present]
      refine ⟨h.lock worker handle, ?_, ?_⟩
      · rw [hlock]
        exact (hplaces.setEntry _).entry?_eq
      · intro other hother
        rw [hlock, htrack.sound.entry?_setEntry_of_ne hplaces hother]
        exact htrack.others other hother
  | some entry =>
      obtain ⟨cell, hplaces, -⟩ := h.places_of_entry? hentry
      exact (h.revises_lock hplaces rfl worker).amends (h.lock worker handle)

theorem Sound.amends_unlock (h : coordinator.Sound) (worker : Worker) (identity : Identity)
    (all : Bool) :
    coordinator.Amends (coordinator.unlock worker identity all).2 identity
      ((coordinator.entry? identity).map fun entry =>
        if all then entry.releaseAll else entry.release worker) := by
  have hsound := h.unlock worker identity all
  cases hentry : coordinator.entry? identity with
  | none =>
      have hsame : coordinator.unlock worker identity all = (false, coordinator) := by
        rw [Coordinator.unlock, h.find?_of_entry? hentry]
      rw [hsame]
      exact ⟨h, hentry, fun _ _ => rfl⟩
  | some entry =>
      obtain ⟨cell, hplaces, -⟩ := h.places_of_entry? hentry
      by_cases hlocked : entry.isLocked = true
      · rw [hplaces.unlock_eq hlocked] at hsound ⊢
        exact (h.revises_count hplaces _).amends hsound
      · have hkept : (if all then entry.releaseAll else entry.release worker) = entry := by
          cases all <;> simp [Entry.releaseAll, Entry.release, hlocked]
        rw [hplaces.unlock_eq_of_not_isLocked (by simpa using hlocked), Option.map_some, hkept]
        exact ⟨h, hentry, fun _ _ => rfl⟩

theorem Sound.unlock_fst (h : coordinator.Sound) (worker : Worker) (identity : Identity) (all : Bool) :
    (coordinator.unlock worker identity all).1 = coordinator.isLocked identity := by
  unfold isLocked
  cases hentry : coordinator.entry? identity with
  | none =>
      rw [Coordinator.unlock, h.find?_of_entry? hentry]
      rfl
  | some entry =>
      obtain ⟨cell, hplaces, -⟩ := h.places_of_entry? hentry
      by_cases hlocked : entry.isLocked = true
      · rw [hplaces.unlock_eq hlocked, Option.map_some, hlocked]
        rfl
      · rw [hplaces.unlock_eq_of_not_isLocked (by simpa using hlocked)]
        simpa using hlocked

/-- A change that comes to its end, without a new version or with one. -/
theorem Sound.amends_change (h : coordinator.Sound) (hentry : coordinator.entry? identity = some entry)
    (worker : Worker) :
    coordinator.Amends
        ((coordinator.lock worker entry.current).unlock worker identity false).2 identity
        (some { entry with manipulations := entry.manipulations + 2 }) ∧
      ∀ made : SharedHandle, made.identity = identity →
        coordinator.Amends
          (((coordinator.lock worker entry.current).store made).2.unlock worker identity false).2
          identity
          (some { entry with current := made, manipulations := entry.manipulations + 3 }) := by
  obtain ⟨cell, hplaces, hcurrent, -⟩ := h.places_of_entry? hentry
  have hlocked := h.lock worker entry.current
  constructor
  · exact (h.revises_lock_unlock hplaces hcurrent worker).amends
      (hlocked.unlock worker identity false)
  · intro made hmade
    exact (h.revises_lock_store_unlock hplaces hcurrent hmade worker).amends
      ((hlocked.store made).unlock worker identity false)

end Amending

end Coordinator

/-! ### Errands -/

/-- What a worker asks a director or its coordinator to do for one identity. A handle of the identity
is told by its place among those that were obtained. -/
inductive Errand where
  | register (identity : Identity) (place : Nat)
  | lock (worker : Worker) (identity : Identity) (place : Nat) (timeout : Option UInt64)
  | unlock (worker : Worker) (identity : Identity) (all : Bool)
  | change (worker : Worker) (change : Change)

namespace Errand

def identity : Errand → Identity
  | .register identity _ | .lock _ identity _ _ | .unlock _ identity _ => identity
  | .change _ asked => asked.identity

inductive Report where
  /-- No handle was obtained in this place. -/
  | absent
  | waiting
  | registered
  | replied (reply : Coordinator.Reply)
  | changed (result : Except DirectorError Handle)

def Report.isWaiting : Report → Bool
  | .waiting => true
  | _ => false

/-- Why no new version was made. -/
def Report.cause? : Report → Option CompositionCause
  | .changed (.error (.composition error)) => error.cause?
  | _ => none

end Errand

namespace Run

def handlesOf (run : Run) (identity : Identity) : List SharedHandle :=
  run.obtained.filter fun shared => shared.identity = identity

/-- Starts a call, and lets it go on until it returns or has to wait. -/
def call (run : Run) (worker : Worker) (activity : Activity) : Errand.Report × Run :=
  match run.session.perform worker activity 0 with
  | (none, session) => (.waiting, ⟨session, run.obtained⟩)
  | (some (.reply reply), session) => (.replied reply, ⟨session, run.obtained⟩)
  | (some (.change (.error error)), session) => (.changed (.error error), ⟨session, run.obtained⟩)
  | (some (.change (.ok made)), session) =>
      (.changed (.ok (session.read made)), ⟨session, run.obtained ++ [made]⟩)

def attend (director : Ref Director) (coordinator : Ref Coordinator) (run : Run) :
    Errand → Errand.Report × Run
  | .register identity place =>
      match (run.handlesOf identity)[place]? with
      | none => (.absent, run)
      | some handle => (.registered, ⟨(run.session.register director handle).2, run.obtained⟩)
  | .lock worker identity place timeout =>
      match (run.handlesOf identity)[place]? with
      | none => (.absent, run)
      | some handle => run.call worker (.calling coordinator (.lock handle false) .begun timeout)
  | .unlock worker identity all =>
      run.call worker (.calling coordinator (.unlock identity all) .begun none)
  | .change worker change => run.call worker (.changing director change .begun)

/-- Each report stands with the identity that it is about. -/
def attendAll (director : Ref Director) (coordinator : Ref Coordinator) (run : Run) :
    List Errand → List (Identity × Errand.Report) × Run
  | [] => ([], run)
  | errand :: rest =>
      let (report, next) := run.attend director coordinator errand
      let (reports, last) := next.attendAll director coordinator rest
      ((errand.identity, report) :: reports, last)

end Run

/-! ### What is seen of an identity -/

def DirectorError.unnamed : DirectorError → DirectorError
  | .unknownIdentity identity => .unknownIdentity identity
  | .composition error => .composition error.unnamed

/-- The report with the names of made classes left out. -/
def Errand.Report.unnamed : Errand.Report → Errand.Report
  | .changed (.ok handle) => .changed (.ok handle.unnamed)
  | .changed (.error error) => .changed (.error error.unnamed)
  | report => report

/-- Stands where the version itself is given beside. -/
def SharedHandle.blank : SharedHandle := ⟨⟨0⟩, ⟨0⟩⟩

def Entry.bare (entry : Entry) : Entry := { entry with current := .blank }

/-- The handles of an identity, and its entry with the current version, all without the names of made
classes. -/
structure Profile where
  handles : List Handle
  standing : Option (Handle × Entry)

namespace Profile

/-- What a change makes of a version, whichever engine composes. -/
def make (strict : Bool) (change : Change) (current : Handle) : Except CompositionError Handle :=
  Engine.outline ((Engine.start ⟨0⟩ ⟨none, strict⟩).compose Registry.empty Sequence.start
    (fun _ => current) change.agent
      (change.kind.operation ⟨⟨0⟩, change.identity⟩ change.role)).result

/-- Only a change can have to wait, when others hold the identity. -/
def waits (profile : Profile) : Errand → Bool
  | .change worker _ =>
      (profile.standing.map fun standing => standing.2.blocksReader worker).getD false
  | _ => false

/-- How an identity stands that is tracked from now on if it was not. -/
def standingWith (profile : Profile) (handle : Handle) : Handle × Entry :=
  profile.standing.getD (handle, Entry.start .blank)

/-- What an errand comes to for who sees its identity only. -/
def attend (strict : Bool) (profile : Profile) : Errand → Errand.Report × Profile
  | .register _ place =>
      match profile.handles[place]? with
      | none => (.absent, profile)
      | some handle =>
          (.registered,
            ⟨profile.handles, some (handle, (profile.standingWith handle).2.replace .blank)⟩)
  | .lock worker _ place _ =>
      match profile.handles[place]? with
      | none => (.absent, profile)
      | some handle =>
          let (current, entry) := profile.standingWith handle
          (.replied (.flag true), ⟨profile.handles, some (current, entry.acquire worker)⟩)
  | .unlock worker _ all =>
      (.replied (.flag ((profile.standing.map fun standing => standing.2.isLocked).getD false)),
        ⟨profile.handles, profile.standing.map fun standing =>
          (standing.1, if all then standing.2.releaseAll else standing.2.release worker)⟩)
  | .change worker change =>
      match profile.standing with
      | none => (.changed (.error (.unknownIdentity change.identity)), profile)
      | some (current, entry) =>
          if entry.blocksReader worker then (.waiting, profile)
          else
            match make strict change current with
            | .error error =>
                (.changed (.error (.composition error)), ⟨profile.handles,
                  some (current, { entry with manipulations := entry.manipulations + 2 })⟩)
            | .ok made =>
                (.changed (.ok made), ⟨profile.handles ++ [made],
                  some (made, { entry with manipulations := entry.manipulations + 3 })⟩)

end Profile

namespace Session

/-- A version without the names of made classes. -/
def view (session : Session) (shared : SharedHandle) : Handle := (session.read shared).unnamed

def standing (session : Session) (entry : Entry) : Handle × Entry :=
  (session.view entry.current, entry.bare)

theorem view_withDirector (session : Session) (director : Ref Director) (found : Director)
    (writers : Writers) (coordinator : Coordinator) (shared : SharedHandle) :
    (session.withDirector director found writers coordinator).view shared =
      session.view shared := rfl

/-- Handles stay as they are. -/
def Extends (session later : Session) : Prop :=
  ∀ cell handle, session.handles.get? cell = some handle → later.handles.get? cell = some handle

end Session

def Run.profile (run : Run) (coordinator : Coordinator) (identity : Identity) : Profile :=
  ⟨(run.handlesOf identity).map run.session.view,
    (coordinator.entry? identity).map run.session.standing⟩

section Views

variable {session later : Session} {identity : Identity} {shared : SharedHandle} {entry : Entry}

theorem Session.Extends.shares (h : session.Extends later)
    (hshares : session.Shares identity shared) :
    later.Shares identity shared := by
  obtain ⟨hsame, handle, hhandle, hidentity⟩ := hshares
  exact ⟨hsame, handle, h _ _ hhandle, hidentity⟩

theorem Session.Extends.view_eq (h : session.Extends later)
    (hshares : session.Shares identity shared) :
    later.view shared = session.view shared := by
  obtain ⟨-, handle, hhandle, -⟩ := hshares
  rw [view, view, read_of_get? hhandle, read_of_get? (h _ _ hhandle)]

theorem Session.Extends.standing_eq (h : session.Extends later)
    (hshares : session.Shares identity entry.current) :
    later.standing entry = session.standing entry := by
  rw [standing, standing, h.view_eq hshares]

theorem Session.extends_compose (session : Session) (workshop : Ref Workshop) (agent : AgentId)
    (operation : Operation) : session.Extends (session.compose workshop agent operation).2.2 :=
  fun _ _ h => get?_handles_compose h workshop agent operation

theorem Entry.bare_release (entry : Entry) (worker : Worker) :
    (entry.release worker).bare = entry.bare.release worker := by
  unfold Entry.release
  split <;> simp_all [Entry.bare, Entry.isLocked, Entry.touch, Entry.isHeldBy]

theorem Entry.bare_releaseAll (entry : Entry) :
    entry.releaseAll.bare = entry.bare.releaseAll := by
  unfold Entry.releaseAll
  split <;> simp_all [Entry.bare, Entry.isLocked, Entry.touch]

/-- Dropping holds leaves the version, and the holds go whichever version it is. -/
theorem Session.standing_unlock (session : Session) (entry : Entry) (worker : Worker) (all : Bool) :
    session.standing (if all then entry.releaseAll else entry.release worker) =
      (session.view entry.current,
        if all then entry.bare.releaseAll else entry.bare.release worker) := by
  cases all with
  | true =>
      rw [if_pos rfl, if_pos rfl, standing, entry.bare_releaseAll,
        (Coordinator.releaseAll_current entry).1]
  | false =>
      rw [if_neg Bool.false_ne_true, if_neg Bool.false_ne_true, standing, entry.bare_release,
        (Coordinator.release_current entry worker).1]

end Views

/-! ### A director at rest -/

/-- What a director works with. -/
structure Office where
  found : Director
  coordinator : Coordinator
  workshop : Workshop

def Office.strict (office : Office) : Bool := office.workshop.engine.config.strictRemoveUntil

/-- Nobody is in a call, and the engine of the director comes to no name that was taken. -/
structure Session.AtRest (session : Session) (director : Ref Director) (office : Office) : Prop where
  idle : session.activities = Table.empty
  directed : session.directors.get? director = some office.found
  coordinated : session.coordinators.get? office.found.coordinator = some office.coordinator
  employed : session.workshops.get? office.found.workshop = some office.workshop
  free : office.found.writers.Free
  ahead : office.workshop.engine.namer.AheadOf (session.registry office.workshop.registry)

/-- The handles that were obtained and the current versions are there, each with its identity. -/
structure Run.Knows (run : Run) (coordinator : Coordinator) : Prop where
  sound : coordinator.Sound
  current : ∀ identity entry, coordinator.entry? identity = some entry →
    run.session.Shares identity entry.current
  obtained : ∀ shared ∈ run.obtained, run.session.Shares shared.identity shared

section Resting

variable {session : Session} {director : Ref Director} {office : Office} {run : Run}
  {coordinator next : Coordinator} {identity : Identity} {amended : Option Entry}

theorem Session.AtRest.withCoordinator (h : session.AtRest director office) (next : Coordinator) :
    (session.withCoordinator office.found.coordinator next).AtRest director
      { office with coordinator := next } where
  idle := h.idle
  directed := h.directed
  coordinated := get?_withCoordinator h.coordinated next
  employed := h.employed
  free := h.free
  ahead := h.ahead

theorem Session.AtRest.register (h : session.AtRest director office) (handle : SharedHandle) :
    session.register director handle =
      (handle.identity,
        session.withCoordinator office.found.coordinator (office.coordinator.store handle).2) := by
  unfold Session.register Session.coordinator
  rw [h.directed]
  simp only [h.coordinated]
  rfl

theorem Session.AtRest.withDirector (h : session.AtRest director office) {writers : Writers}
    (hfree : writers.Free) (next : Coordinator) :
    (session.withDirector director office.found writers next).AtRest director
      ⟨{ office.found with writers := writers }, next, office.workshop⟩ where
  idle := h.idle
  directed := Pool.get?_set_of_get? h.directed _
  coordinated := Pool.get?_set_of_get? h.coordinated _
  employed := h.employed
  free := hfree
  ahead := h.ahead

theorem Session.AtRest.compose (h : session.AtRest director office) (agent : AgentId)
    (operation : Operation) :
    ∃ workshop : Workshop, { office with workshop := workshop }.strict = office.strict ∧
      (session.compose office.found.workshop agent operation).2.2.AtRest director
        { office with workshop := workshop } := by
  obtain ⟨workshop, hworkshop, hconfig, hahead⟩ :=
    exists_workshop_compose h.employed h.ahead agent operation
  obtain ⟨hcoordinators, hdirectors, hactivities⟩ :=
    session.compose_frame office.found.workshop agent operation
  refine ⟨workshop, congrArg EngineConfig.strictRemoveUntil hconfig, hactivities.trans h.idle, ?_, ?_,
    hworkshop, h.free, hahead⟩
  · rw [hdirectors]
    exact h.directed
  · rw [hcoordinators]
    exact h.coordinated

/-- What is known after an entry was amended and perhaps a version made, and what is seen then. -/
theorem Run.Knows.later (h : run.Knows coordinator) {later : Session}
    (hextends : run.session.Extends later) (hamends : coordinator.Amends next identity amended)
    (hcurrent : ∀ entry, amended = some entry → later.Shares identity entry.current)
    {made : List SharedHandle} (hmade : ∀ shared ∈ made, later.Shares identity shared) :
    let after : Run := ⟨later, run.obtained ++ made⟩
    after.Knows next ∧
      after.profile next identity =
        ⟨(run.profile coordinator identity).handles ++ made.map later.view,
          amended.map later.standing⟩ ∧
      ∀ other, other ≠ identity → after.profile next other = run.profile coordinator other := by
  intro after
  have hviews : ∀ other, (run.handlesOf other).map later.view =
      (run.handlesOf other).map run.session.view := by
    intro other
    apply List.map_congr_left
    intro shared hshared
    exact hextends.view_eq (h.obtained shared (List.mem_of_mem_filter hshared))
  refine ⟨⟨hamends.sound, ?_, ?_⟩, ?_, ?_⟩
  · intro other entry hentry
    by_cases hother : other = identity
    · subst hother
      exact hcurrent entry (hamends.amended.symm.trans hentry)
    · rw [hamends.others other hother] at hentry
      exact hextends.shares (h.current other entry hentry)
  · intro shared hshared
    rcases List.mem_append.mp hshared with hold | hnew
    · exact hextends.shares (h.obtained shared hold)
    · have hshares := hmade shared hnew
      exact hshares.1 ▸ hshares
  · have hown : made.filter (fun shared => shared.identity = identity) = made :=
      List.filter_eq_self.mpr fun shared hshared => decide_eq_true (hmade shared hshared).1
    rw [profile, handlesOf, List.filter_append, hown, List.map_append, hamends.amended]
    exact congrArg (fun views => Profile.mk (views ++ made.map later.view) _) (hviews identity)
  · intro other hother
    have hnone : made.filter (fun shared => shared.identity = other) = [] := by
      refine List.filter_eq_nil_iff.mpr fun shared hshared hsame => hother ?_
      exact (of_decide_eq_true hsame).symm.trans (hmade shared hshared).1
    have hstanding : (coordinator.entry? other).map later.standing =
        (coordinator.entry? other).map run.session.standing := by
      cases hentry : coordinator.entry? other with
      | none => rfl
      | some entry =>
          exact congrArg some (hextends.standing_eq (h.current other entry hentry))
    rw [profile, handlesOf, List.filter_append, hnone, List.append_nil, hamends.others other hother,
      hstanding]
    exact congrArg (fun views => Profile.mk views _) (hviews other)

end Resting

/-! ### One errand -/

namespace Run

/-- What is seen of the identity, with the report, is this; the others look as before. -/
structure Serves (run : Run) (director : Ref Director) (office : Office) (identity : Identity)
    (seen : Errand.Report × Profile) (attended : Errand.Report × Run) (later : Office) : Prop where
  coordinator : later.found.coordinator = office.found.coordinator
  strict : later.strict = office.strict
  rests : attended.2.session.AtRest director later
  knows : attended.2.Knows later.coordinator
  report : attended.1.unnamed = seen.1
  own : attended.2.profile later.coordinator identity = seen.2
  others : ∀ other, other ≠ identity →
    attended.2.profile later.coordinator other = run.profile office.coordinator other

/-- The errand ends as it does for who sees its identity only. -/
def EndsApart (run : Run) (director : Ref Director) (office : Office) (errand : Errand) : Prop :=
  ∃ later, run.Serves director office errand.identity
    ((run.profile office.coordinator errand.identity).attend office.strict errand)
    (run.attend director office.found.coordinator errand) later

section Serving

variable {run : Run} {director : Ref Director} {office next : Office} {identity : Identity}
  {coordinator : Coordinator} {amended : Option Entry} {later : Session}

theorem serves_of_made (hknows : run.Knows office.coordinator) (hrests : later.AtRest director next)
    (hcoordinator : next.found.coordinator = office.found.coordinator)
    (hstrict : next.strict = office.strict) (hextends : run.session.Extends later)
    (hamends : office.coordinator.Amends next.coordinator identity amended)
    (hcurrent : ∀ entry, amended = some entry → later.Shares identity entry.current)
    {made : List SharedHandle} (hmade : ∀ shared ∈ made, later.Shares identity shared)
    (report : Errand.Report) :
    run.Serves director office identity
      (report.unnamed, ⟨(run.profile office.coordinator identity).handles ++ made.map later.view,
        amended.map later.standing⟩)
      (report, ⟨later, run.obtained ++ made⟩) next := by
  obtain ⟨hknown, hown, hothers⟩ := hknows.later hextends hamends hcurrent hmade
  exact ⟨hcoordinator, hstrict, hrests, hknown, rfl, hown, hothers⟩

theorem serves_of_amends (hknows : run.Knows office.coordinator)
    (hrests : later.AtRest director next)
    (hcoordinator : next.found.coordinator = office.found.coordinator)
    (hstrict : next.strict = office.strict) (hextends : run.session.Extends later)
    (hamends : office.coordinator.Amends next.coordinator identity amended)
    (hcurrent : ∀ entry, amended = some entry → later.Shares identity entry.current)
    (report : Errand.Report) :
    run.Serves director office identity
      (report.unnamed, ⟨(run.profile office.coordinator identity).handles,
        amended.map later.standing⟩)
      (report, ⟨later, run.obtained⟩) next := by
  have hserves := serves_of_made hknows hrests hcoordinator hstrict hextends hamends hcurrent
    (fun _ hmem => absurd hmem List.not_mem_nil) report
  rwa [List.map_nil, List.append_nil, List.append_nil] at hserves

/-- A call that touches nothing but the coordinator. -/
theorem serves_of_coordinator (hknows : run.Knows office.coordinator)
    (hrests : run.session.AtRest director office)
    (hamends : office.coordinator.Amends coordinator identity amended)
    (hcurrent : ∀ entry, amended = some entry → run.session.Shares identity entry.current)
    (report : Errand.Report) :
    run.Serves director office identity
      (report.unnamed, ⟨(run.profile office.coordinator identity).handles,
        amended.map run.session.standing⟩)
      (report, ⟨run.session.withCoordinator office.found.coordinator coordinator, run.obtained⟩)
      { office with coordinator := coordinator } :=
  serves_of_amends hknows (hrests.withCoordinator coordinator) rfl rfl (fun _ _ h => h) hamends
    hcurrent report

theorem getElem?_profile (run : Run) (coordinator : Coordinator) (identity : Identity) (place : Nat) :
    (run.profile coordinator identity).handles[place]? =
      (run.handlesOf identity)[place]?.map run.session.view :=
  List.getElem?_map

theorem Knows.shares_handlesOf (h : run.Knows coordinator) {place : Nat} {handle : SharedHandle}
    (hhandle : (run.handlesOf identity)[place]? = some handle) :
    run.session.Shares identity handle := by
  obtain ⟨hmem, hidentity⟩ := List.mem_filter.mp (List.mem_of_getElem? hhandle)
  exact of_decide_eq_true hidentity ▸ h.obtained handle hmem

theorem standingWith_profile (run : Run) (coordinator : Coordinator) (handle : SharedHandle) :
    (run.profile coordinator handle.identity).standingWith (run.session.view handle) =
      run.session.standing ((coordinator.entry? handle.identity).getD (Entry.start handle)) :=
  Option.getD_map run.session.standing (Entry.start handle) (coordinator.entry? handle.identity)

/-- Nothing is dropped where nothing is held, and then none is told to be. -/
theorem attend_unlock (run : Run) (coordinator : Coordinator) (strict : Bool) (worker : Worker)
    (identity : Identity) (all : Bool) :
    (run.profile coordinator identity).attend strict (.unlock worker identity all) =
      (.replied (.flag (coordinator.isLocked identity)),
        ⟨(run.profile coordinator identity).handles,
          ((coordinator.entry? identity).map fun entry =>
            if all then entry.releaseAll else entry.release worker).map run.session.standing⟩) := by
  unfold Coordinator.isLocked Run.profile
  cases coordinator.entry? identity with
  | none => rfl
  | some entry =>
      simp only [Option.map_some, run.session.standing_unlock]
      rfl

end Serving

section Errands

variable {run : Run} {director : Ref Director} {office : Office} {worker : Worker} {change : Change}
  {entry : Entry} (hrests : run.session.AtRest director office) (hknows : run.Knows office.coordinator)
include hrests hknows

theorem endsApart_register (identity : Identity) (place : Nat) :
    run.EndsApart director office (.register identity place) := by
  simp only [EndsApart, Errand.identity, Profile.attend, Run.attend, getElem?_profile]
  cases hhandle : (run.handlesOf identity)[place]? with
  | none => exact ⟨office, rfl, rfl, hrests, hknows, rfl, rfl, fun _ _ => rfl⟩
  | some handle =>
      have hshares := hknows.shares_handlesOf hhandle
      obtain rfl := hshares.1
      simp only [Option.map_some, hrests.register, standingWith_profile]
      refine ⟨_, serves_of_coordinator hknows hrests (hknows.sound.amends_store handle) ?_ .registered⟩
      rintro entry ⟨⟩
      exact hshares

theorem endsApart_lock (worker : Worker) (identity : Identity) (place : Nat)
    (timeout : Option UInt64) :
    run.EndsApart director office (.lock worker identity place timeout) := by
  simp only [EndsApart, Errand.identity, Profile.attend, Run.attend, getElem?_profile]
  cases hhandle : (run.handlesOf identity)[place]? with
  | none => exact ⟨office, rfl, rfl, hrests, hknows, rfl, rfl, fun _ _ => rfl⟩
  | some handle =>
      have hshares := hknows.shares_handlesOf hhandle
      obtain rfl := hshares.1
      simp only [Option.map_some, Run.call, standingWith_profile,
        Session.perform_lock hrests.idle hrests.coordinated]
      refine ⟨_, serves_of_coordinator hknows hrests (hknows.sound.amends_lock worker handle) ?_
        (.replied (.flag true))⟩
      rintro entry ⟨⟩
      cases htracked : office.coordinator.entry? handle.identity with
      | none => exact hshares
      | some tracked => exact hknows.current handle.identity tracked htracked

theorem endsApart_unlock (worker : Worker) (identity : Identity) (all : Bool) :
    run.EndsApart director office (.unlock worker identity all) := by
  have hamends := hknows.sound.amends_unlock worker identity all
  have hcurrent : ∀ entry, (office.coordinator.entry? identity).map (fun entry =>
      if all then entry.releaseAll else entry.release worker) = some entry →
        run.session.Shares identity entry.current := by
    intro entry hentry
    obtain ⟨tracked, htracked, rfl⟩ := Option.map_eq_some_iff.mp hentry
    have hshares := hknows.current identity tracked htracked
    cases all with
    | true => exact (Coordinator.releaseAll_current tracked).1 ▸ hshares
    | false => exact (Coordinator.release_current tracked worker).1 ▸ hshares
  have hserves := serves_of_coordinator hknows hrests hamends hcurrent
    (.replied (.flag (office.coordinator.isLocked identity)))
  simp only [EndsApart, Errand.identity, attend_unlock, Run.attend, Run.call,
    Session.perform_unlock hrests.idle hrests.coordinated, hknows.sound.unlock_fst]
  exact ⟨_, hserves⟩

omit hknows in
/-- What a change makes is seen alike wherever it is made. -/
theorem make_view (hcurrent : run.session.Shares change.identity entry.current) :
    let composed := run.session.compose office.found.workshop change.agent
      (change.kind.operation entry.current change.role)
    Profile.make office.strict change (run.session.view entry.current) =
      match composed.1 with
      | .error error => .error error.unnamed
      | .ok made => .ok (composed.2.2.view made) := by
  intro composed
  have houtline : Profile.make office.strict change (run.session.view entry.current) =
      Engine.outline (run.session.composition office.workshop change.agent
        (change.kind.operation entry.current change.role)).result :=
    Engine.outline_compose rfl (Namer.aheadOf_empty _) hrests.ahead hcurrent.1.symm
      (Handle.unnamed_unnamed _)
  rw [houtline]
  cases hcomposed : composed.1 with
  | error error =>
      rw [Session.result_of_compose_eq_error hrests.employed hcomposed]
      rfl
  | ok made =>
      obtain ⟨workshop, next, hworkshop, hresult, hnext⟩ := Session.exists_of_compose_eq_ok hcomposed
      obtain rfl := Option.some.inj (hrests.employed.symm.trans hworkshop)
      have hread : composed.2.2.read made = next := Session.read_of_get? hnext
      simp only [hresult, Session.view, hread]
      rfl

/-- A change that need not wait. -/
theorem endsApart_change (hentry : office.coordinator.entry? change.identity = some entry)
    (hreads : entry.blocksReader worker = false) :
    run.EndsApart director office (.change worker change) := by
  obtain ⟨cell, hplaces, hidentity, hretired⟩ := hknows.sound.places_of_entry? hentry
  have hcurrent := hknows.current change.identity entry hentry
  obtain ⟨hkept, hstored⟩ := hknows.sound.amends_change hentry worker
  have hfree := hrests.free.served change.identity worker
  have hmake := make_view hrests hcurrent
  have hperform := Session.perform_change hrests.idle hrests.directed hrests.coordinated hrests.free
    hplaces hretired hreads 0
  obtain ⟨workshop, hstrict, hcomposed⟩ := hrests.compose change.agent
    (change.kind.operation entry.current change.role)
  have hextends := run.session.extends_compose office.found.workshop change.agent
    (change.kind.operation entry.current change.role)
  have hunblocked : entry.bare.blocksReader worker = false := hreads
  simp only [EndsApart, Errand.identity, Profile.attend, Run.attend, Run.call, Run.profile, hentry,
    Option.map_some, Session.standing, hunblocked, Bool.false_eq_true, if_false]
  rcases hcompose : run.session.compose office.found.workshop change.agent
    (change.kind.operation entry.current change.role) with ⟨error | made, spent, composed⟩
  · simp only [hcompose] at hmake hperform hextends hcomposed
    have hafter : ∀ kept, some { entry with manipulations := entry.manipulations + 2 } = some kept →
        composed.Shares change.identity kept.current := by
      rintro kept ⟨⟩
      exact hextends.shares hcurrent
    have hserves := serves_of_amends hknows (hcomposed.withDirector hfree _) rfl hstrict hextends hkept
      hafter (.changed (.error (.composition error)))
    simp only [Option.map_some, Session.standing, Session.view_withDirector,
      hextends.view_eq hcurrent] at hserves
    simp only [hmake, hperform]
    exact ⟨_, hserves⟩
  · simp only [hcompose] at hmake hperform hextends hcomposed
    have htarget : run.session.Shares change.identity
        (change.kind.operation entry.current change.role).target := hcurrent
    have hmade := Session.shares_of_compose_ok htarget (congrArg Prod.fst hcompose)
    rw [hcompose] at hmade
    have hafter : ∀ kept, some { entry with
        current := made, manipulations := entry.manipulations + 3 } = some kept →
          composed.Shares change.identity kept.current := by
      rintro kept ⟨⟩
      exact hmade
    have hserves := serves_of_made hknows (hcomposed.withDirector hfree _) rfl hstrict hextends
      (hstored made hmade.1) hafter (fun shared hshared => List.mem_singleton.mp hshared ▸ hmade)
      (.changed (.ok (composed.read made)))
    simp only [hmake, hperform]
    exact ⟨_, hserves⟩

/-- The change of an identity that is not tracked. -/
theorem endsApart_change_unknown (worker : Worker)
    (hentry : office.coordinator.entry? change.identity = none) :
    run.EndsApart director office (.change worker change) := by
  have hperform : run.session.perform worker (.changing director change .begun) 0 = _ :=
    Session.perform_change_unknown hrests.idle hrests.directed hrests.coordinated hrests.free
      (hknows.sound.find?_of_entry? hentry) 0
  have hfree := hrests.free.served change.identity worker
  have hserves := serves_of_amends hknows (hrests.withDirector hfree office.coordinator) rfl rfl
    (fun _ _ h => h) ⟨hknows.sound, hentry, fun _ _ => rfl⟩ (fun _ h => nomatch h)
    (.changed (.error (.unknownIdentity change.identity)))
  simp only [EndsApart, Errand.identity, Profile.attend, Run.attend, Run.call, Run.profile, hentry,
    Option.map_none, hperform]
  exact ⟨_, hserves⟩

/-- What has to wait for who sees its identity only has to wait indeed. -/
theorem attend_of_waits {errand : Errand}
    (hwaits : (run.profile office.coordinator errand.identity).waits errand = true) :
    (run.attend director office.found.coordinator errand).1.isWaiting = true := by
  cases errand with
  | register identity place => cases hwaits
  | lock worker identity place timeout => cases hwaits
  | unlock worker identity all => cases hwaits
  | change worker change =>
      simp only [Profile.waits, Run.profile, Errand.identity] at hwaits
      cases hentry : office.coordinator.entry? change.identity with
      | none =>
          rw [hentry] at hwaits
          cases hwaits
      | some entry =>
          rw [hentry] at hwaits
          have hblocks : entry.blocksReader worker = true := hwaits
          obtain ⟨cell, hplaces, -⟩ := hknows.sound.places_of_entry? hentry
          have hstuck := Session.perform_change_blocked hrests.idle hrests.directed
            hrests.coordinated hrests.free hplaces hblocks 0
          simp only [Run.attend, Run.call]
          split
          · rfl
          all_goals
            rename_i hperform
            rw [hperform] at hstuck
            cases hstuck

/-- Whatever need not wait ends as it does for who sees its identity only. -/
theorem endsApart_of_not_waits {errand : Errand}
    (hwaits : (run.profile office.coordinator errand.identity).waits errand = false) :
    run.EndsApart director office errand := by
  cases errand with
  | register identity place => exact endsApart_register hrests hknows identity place
  | lock worker identity place timeout =>
      exact endsApart_lock hrests hknows worker identity place timeout
  | unlock worker identity all => exact endsApart_unlock hrests hknows worker identity all
  | change worker change =>
      cases hentry : office.coordinator.entry? change.identity with
      | none => exact endsApart_change_unknown hrests hknows worker hentry
      | some entry =>
          have hreads : entry.blocksReader worker = false := by
            simp only [Profile.waits, Run.profile, Errand.identity, hentry] at hwaits
            exact hwaits
          exact endsApart_change hrests hknows hentry hreads

end Errands

end Run

end RoleStack

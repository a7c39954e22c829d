import RoleStack.Proofs.SerialCalls

/-!
# Latest versions

A coordinator has one version of each identity that it tracks: the one that was stored last since it
began to, or else the one that the first lock came with. Later locks may come with any old version.
-/

namespace RoleStack

namespace Coordinator

namespace Transaction

def stored? : Transaction → Option SharedHandle
  | .stored handle => some handle
  | .locked .. | .unlocked .. | .deleted _ => none

def locked? : Transaction → Option SharedHandle
  | .locked _ handle => some handle
  | .stored _ | .unlocked .. | .deleted _ => none

/-- The version that was stored last, or else the one that the first lock came with. -/
def latestOf (lines : List Transaction) : Option SharedHandle :=
  lines.findSome? stored? <|> lines.reverse.findSome? locked?

/-- The latest version of an identity, none while it is untracked. -/
def latest? (journal : List Transaction) (identity : Identity) : Option SharedHandle :=
  latestOf (sinceRemoval journal identity)

theorem latestOf_stored (handle : SharedHandle) (lines : List Transaction) :
    latestOf (.stored handle :: lines) = some handle := rfl

/-- Only the first lock tells the version, and only as long as none is stored. -/
theorem latestOf_locked (worker : Worker) (handle : SharedHandle) (lines : List Transaction) :
    latestOf (.locked worker handle :: lines) = some ((latestOf lines).getD handle) := by
  have hlast : [locked worker handle].findSome? locked? = some handle := rfl
  have hskip : (locked worker handle :: lines).findSome? stored? = lines.findSome? stored? := rfl
  rw [latestOf, latestOf, hskip, List.reverse_cons, List.findSome?_append, hlast]
  cases lines.findSome? stored? with
  | some stored => rfl
  | none => cases lines.reverse.findSome? locked? <;> rfl

theorem latestOf_unlocked (worker : Worker) (identity : Identity) (all released : Bool)
    (lines : List Transaction) :
    latestOf (.unlocked worker identity all released :: lines) = latestOf lines := by
  have hnone : [unlocked worker identity all released].findSome? locked? = none := rfl
  rw [latestOf, latestOf, List.reverse_cons, List.findSome?_append, hnone, Option.or_none]
  rfl

theorem latest?_stored (handle : SharedHandle) (journal : List Transaction) :
    latest? (.stored handle :: journal) handle.identity = some handle := by
  have hidentity : (stored handle).identity = handle.identity := rfl
  rw [latest?, sinceRemoval_cons_of_eq hidentity rfl, latestOf_stored]

theorem latest?_locked (worker : Worker) (handle : SharedHandle) (journal : List Transaction) :
    latest? (.locked worker handle :: journal) handle.identity =
      some ((latest? journal handle.identity).getD handle) := by
  have hidentity : (locked worker handle).identity = handle.identity := rfl
  rw [latest?, sinceRemoval_cons_of_eq hidentity rfl, latestOf_locked, latest?]

theorem latest?_unlocked (worker : Worker) (identity : Identity) (all released : Bool)
    (journal : List Transaction) :
    latest? (.unlocked worker identity all released :: journal) identity =
      latest? journal identity := by
  have hidentity : (unlocked worker identity all released).identity = identity := rfl
  rw [latest?, sinceRemoval_cons_of_eq hidentity rfl, latestOf_unlocked, latest?]

theorem latest?_deleted (identity : Identity) (journal : List Transaction) :
    latest? (.deleted identity :: journal) identity = none := by
  have hidentity : (deleted identity).identity = identity := rfl
  rw [latest?, sinceRemoval_cons_of_isDeletion hidentity rfl]
  rfl

theorem latest?_ofChange {worker : Worker} {current made : SharedHandle}
    (h : current.identity = made.identity) (journal : List Transaction) :
    latest? (ofChange worker (.ok made) (some current) ++ journal) made.identity = some made := by
  simp only [ofChange, List.cons_append, List.nil_append, h]
  rw [latest?_unlocked, latest?_stored]

end Transaction

section Versions

variable {coordinator : Coordinator} {config : CoordinatorConfig} {journal : List Transaction}
  {identity : Identity} {worker : Worker}

open Transaction

/-- The entry of an identity has the latest version that the calls came with. -/
theorem After.peek_eq (h : coordinator.After config journal) (identity : Identity) :
    coordinator.peek identity = latest? journal identity := by
  refine h.of_lines (motive := fun lines entry =>
    entry.map Entry.current = latestOf (lines.takeWhile fun line => !line.isDeletion)) rfl ?_ identity
  intro line lines entry _ hlines
  cases line with
  | stored handle =>
      rw [List.takeWhile_cons_of_pos rfl, latestOf_stored]
      cases entry <;> rfl
  | locked worker handle =>
      rw [List.takeWhile_cons_of_pos rfl, latestOf_locked, ← hlines]
      cases entry <;> rfl
  | unlocked worker identity all released =>
      rw [List.takeWhile_cons_of_pos rfl, latestOf_unlocked, ← hlines]
      cases entry with
      | none => rfl
      | some entry =>
          cases all with
          | true => exact congrArg some (releaseAll_current entry).1
          | false => exact congrArg some (release_current entry worker).1
  | deleted identity => rfl

/-- A store gives the version that it replaces. -/
theorem Sound.store_fst (h : coordinator.Sound) (handle : SharedHandle) :
    (coordinator.store handle).1 = coordinator.peek handle.identity := by
  rw [peek]
  cases hentry : coordinator.entry? handle.identity with
  | none =>
      have hfind : coordinator.count.find? handle.identity = none := h.find?_of_entry? hentry
      simp only [Coordinator.store, hfind]
      rfl
  | some entry =>
      obtain ⟨cell, hplaces, -⟩ := h.places_of_entry? hentry
      rw [hplaces.store_eq rfl]
      rfl

/-- A removal gives the version that goes with it. -/
theorem Sound.delete_fst (h : coordinator.Sound) (identity : Identity) :
    (coordinator.delete identity).1 = coordinator.peek identity := by
  rw [peek]
  cases hentry : coordinator.entry? identity with
  | none =>
      rw [Coordinator.delete, h.find?_of_entry? hentry]
      rfl
  | some entry =>
      obtain ⟨cell, hplaces, -⟩ := h.places_of_entry? hentry
      rw [hplaces.delete_eq]
      rfl

/-- Whether a read of the identity has to wait for holds of others. -/
def blocks (coordinator : Coordinator) (worker : Worker) (identity : Identity) : Bool :=
  ((coordinator.entry? identity).map fun entry => entry.blocksReader worker).getD false

theorem Sound.current?_eq (h : coordinator.Sound) (worker : Worker) (identity : Identity) :
    coordinator.current? worker identity =
      if coordinator.blocks worker identity then none else some (coordinator.peek identity) := by
  unfold blocks peek current?
  cases hentry : coordinator.entry? identity with
  | none =>
      rw [h.find?_of_entry? hentry]
      rfl
  | some entry =>
      obtain ⟨cell, hplaces, -, hretired⟩ := h.places_of_entry? hentry
      simp [hplaces.found, readIn?, hplaces.present, Entry.version?, hretired]

end Versions

end Coordinator

/-- The version that a change made. -/
def Answer.made? : Answer → Option SharedHandle
  | .change (.ok made) => some made
  | .change (.error _) | .reply _ => none

theorem Answer.eq_of_made? {performed : Option Answer × Session} {made : SharedHandle}
    (h : performed.1.bind Answer.made? = some made) :
    performed = (some (.change (.ok made)), performed.2) := by
  obtain ⟨answer, later⟩ := performed
  obtain ⟨given, hgiven, hmade⟩ := Option.bind_eq_some_iff.mp h
  obtain rfl : answer = some given := hgiven
  cases given with
  | reply => cases hmade
  | change result =>
      cases result with
      | error => cases hmade
      | ok => cases hmade; rfl

namespace Session

open Coordinator

/-- The coordinator has this version of the identity, or none and does not track it. -/
structure Maps (session : Session) (reference : Ref Coordinator) (identity : Identity)
    (latest : Option SharedHandle) : Prop where
  peek : (session.coordinator reference).peek identity = latest
  tracked : (session.coordinator reference).contains identity = latest.isSome
  listed : identity ∈ (session.coordinator reference).identities ↔ latest.isSome = true
  own : ∀ version, latest = some version →
    version.identity = identity ∧ (session.read version).identity = identity

/-- What is seen of this version, and what becomes of it. -/
structure KeepsLatest (session : Session) (reference : Ref Coordinator) (identity : Identity)
    (latest : Option SharedHandle) : Prop extends session.Maps reference identity latest where
  /-- A read that need not wait gives the version and leaves all as it is. -/
  current : ∀ worker timeout patience,
    (session.coordinator reference).blocks worker identity = false →
      session.perform worker (.calling reference (.current identity) .begun timeout) patience =
        (some (.reply (.version latest)), session)
  store : ∀ worker handle timeout patience, session.Shares identity handle → ∃ later,
    session.perform worker (.calling reference (.store handle) .begun timeout) patience =
        (some (.reply (.version latest)), later) ∧
      later.Maps reference identity (some handle)
  /-- A lock comes with the version of an identity only if this was not tracked. -/
  lock : ∀ worker handle timeout patience, session.Shares identity handle → ∃ later,
    session.perform worker (.calling reference (.lock handle false) .begun timeout) patience =
        (some (.reply (.flag true)), later) ∧
      later.Maps reference identity (some (latest.getD handle))
  delete : ∀ worker timeout patience, ∃ later,
    session.perform worker (.calling reference (.delete identity) .begun timeout) patience =
        (some (.reply (.version latest)), later) ∧
      later.Maps reference identity none
  register : ∀ director found handle, session.directors.get? director = some found →
    found.coordinator = reference → session.Shares identity handle →
      (session.register director handle).2.Maps reference identity (some handle)
  deregister : ∀ director found, session.directors.get? director = some found →
    found.coordinator = reference →
      (session.deregister director identity).1 = latest ∧
        (session.deregister director identity).2.Maps reference identity none
  change : ∀ worker director found change patience made later,
    session.directors.get? director = some found → found.coordinator = reference →
      Change.identity change = identity →
      session.perform worker (.changing director change .begun) patience =
        (some (.change (.ok made)), later) →
      later.Maps reference identity (some made)

section Mapping

variable {session : Session} {reference : Ref Coordinator} {config : CoordinatorConfig}
  {journal : List Transaction}

theorem Serial.maps (h : session.Serial reference config journal) (identity : Identity) :
    session.Maps reference identity (Transaction.latest? journal identity) := by
  obtain ⟨-, hafter, hbacks⟩ := h.keeps
  rw [← hafter.peek_eq]
  refine ⟨rfl, ?_, ?_, ?_⟩
  · rw [hafter.sound.contains_eq, peek, Option.isSome_map]
  · rw [hafter.sound.mem_identities_iff, peek, Option.isSome_map]
  · intro version hversion
    obtain ⟨entry, hentry, rfl⟩ := Option.map_eq_some_iff.mp hversion
    obtain ⟨hown, state, hstate, hidentity⟩ := hbacks identity entry hentry
    rw [read_of_get? hstate]
    exact ⟨hown, hidentity⟩

theorem Serial.maps_store (h : session.Serial reference config journal) {identity : Identity}
    {handle : SharedHandle} (hshares : session.Shares identity handle) :
    (session.withCoordinator reference ((session.coordinator reference).store handle).2).Maps
      reference identity (some handle) := by
  obtain ⟨rfl, -⟩ := id hshares
  have hmaps := (h.store handle hshares.obtained).maps handle.identity
  rw [Transaction.latest?_stored] at hmaps
  exact hmaps

theorem Serial.maps_lock (h : session.Serial reference config journal) {identity : Identity}
    {handle : SharedHandle} (hshares : session.Shares identity handle) (worker : Worker) :
    (session.withCoordinator reference ((session.coordinator reference).lock worker handle)).Maps
      reference identity (some ((Transaction.latest? journal identity).getD handle)) := by
  obtain ⟨rfl, -⟩ := id hshares
  have hmaps := (h.lock handle hshares.obtained worker).maps handle.identity
  rw [Transaction.latest?_locked] at hmaps
  exact hmaps

theorem Serial.maps_delete (h : session.Serial reference config journal) (identity : Identity) :
    (session.withCoordinator reference ((session.coordinator reference).delete identity).2).Maps
      reference identity none := by
  have hmaps := (h.delete identity).maps identity
  rw [Transaction.latest?_deleted] at hmaps
  exact hmaps

theorem Serial.maps_deregister (h : session.Serial reference config journal)
    {director : Ref Director} {found : Director}
    (hdirected : session.directors.get? director = some found) (hsame : found.coordinator = reference)
    (identity : Identity) :
    (session.deregister director identity).2.Maps reference identity none := by
  have hmaps := (h.deregister hdirected hsame identity).maps identity
  rw [Transaction.latest?_deleted] at hmaps
  exact hmaps

theorem Serial.maps_change (h : session.Serial reference config journal) {worker : Worker}
    {director : Ref Director} {found : Director}
    (hdirected : session.directors.get? director = some found) (hsame : found.coordinator = reference)
    {task : Change} {patience : UInt64} {made : SharedHandle} {later : Session}
    (hreturned : session.perform worker (.changing director task .begun) patience =
      (some (.change (.ok made)), later)) :
    later.Maps reference task.identity (some made) := by
  have hserial := h.change hdirected hsame hreturned
  have hkeeps := h.keeps
  subst hsame
  obtain ⟨htracked, hmade, -⟩ := (hkeeps.change hdirected hreturned).2 made rfl
  obtain ⟨current, hcurrent⟩ := Option.isSome_iff_exists.mp htracked
  have howns := ((h.maps task.identity).own current ((h.maps task.identity).peek.symm.trans hcurrent)).1
  have hmaps := hserial.maps made.identity
  rw [hcurrent, Transaction.latest?_ofChange (howns.trans hmade.symm), hmade] at hmaps
  exact hmaps

/-- Every tracked identity has the version that was stored last since it began to be tracked, or else the
one of the lock that it began with. That is the version that reads, stores and removals answer, and no
identity is listed twice. -/
theorem latest_versions_kept (h : session.Serial reference config journal) (identity : Identity) :
    session.KeepsLatest reference identity (Transaction.latest? journal identity) ∧
      (session.coordinator reference).identities.Nodup := by
  obtain ⟨hstands, hafter, -⟩ := h.keeps
  have hmaps := h.maps identity
  refine ⟨⟨hmaps, ?_, ?_, ?_, ?_, ?_, ?_, ?_⟩, hafter.nodup_identities⟩
  · intro worker timeout patience hfree
    apply perform_current hstands.idle hstands.coordinated
    rw [hafter.sound.current?_eq, hfree, hmaps.peek]
    rfl
  · intro worker handle timeout patience hshares
    refine ⟨_, ?_, h.maps_store hshares⟩
    rw [perform_store hstands.idle hstands.coordinated, hafter.sound.store_fst, hshares.1, hmaps.peek]
  · intro worker handle timeout patience hshares
    exact ⟨_, perform_lock hstands.idle hstands.coordinated handle timeout patience,
      h.maps_lock hshares worker⟩
  · intro worker timeout patience
    refine ⟨_, ?_, h.maps_delete identity⟩
    rw [perform_delete hstands.idle hstands.coordinated, hafter.sound.delete_fst, hmaps.peek]
  · rintro director found handle hdirected rfl hshares
    rw [hstands.register hdirected]
    exact h.maps_store hshares
  · rintro director found hdirected rfl
    refine ⟨?_, h.maps_deregister hdirected rfl identity⟩
    rw [hstands.deregister hdirected, hafter.sound.delete_fst, hmaps.peek]
  · rintro worker director found change patience made later hdirected hsame rfl hreturned
    exact h.maps_change hdirected hsame hreturned

end Mapping

section Stale

/-- A role is assumed for the first identity of a small session, which was registered. -/
def assumed : Option Answer × Session :=
  (small.register ⟨0⟩ smallDatabase).2.perform ⟨"worker"⟩
    (.changing ⟨0⟩ ⟨.assume, ⟨1⟩, (Role.administrator true []).reference ⟨0⟩, .zero⟩ .begun) 0

/-- A lock with the version that was registered comes after another was made. -/
theorem latest_versions_kept_past_lock :
    let made : SharedHandle := ⟨⟨2⟩, ⟨1⟩⟩
    let worker : Worker := ⟨"worker"⟩
    ∃ session : Session,
      session.Serial ⟨0⟩ ⟨0⟩ (.locked worker smallDatabase ::
        (Transaction.ofChange worker (.ok made) (some smallDatabase) ++ [.stored smallDatabase])) ∧
      session.Maps ⟨0⟩ ⟨1⟩ (some made) ∧ session.Maps ⟨0⟩ ⟨2⟩ none := by
  intro made worker
  have hregistered : (small.register ⟨0⟩ smallDatabase).2.Serial ⟨0⟩ ⟨0⟩ [.stored smallDatabase] :=
    serial_small.register rfl rfl shares_smallDatabase.obtained
  have hmade : assumed.1.bind Answer.made? = some made := by decide +kernel
  have hchanged : assumed.2.Serial ⟨0⟩ ⟨0⟩ (Transaction.ofChange worker (.ok made)
      (some smallDatabase) ++ [.stored smallDatabase]) :=
    hregistered.change rfl rfl (Answer.eq_of_made? hmade)
  have hstate : (assumed.2.handles.get? ⟨0⟩).map Handle.identity = some ⟨1⟩ := by decide +kernel
  obtain ⟨state, hpresent, hidentity⟩ := Option.map_eq_some_iff.mp hstate
  have hshares : assumed.2.Shares ⟨1⟩ smallDatabase := ⟨rfl, state, hpresent, hidentity⟩
  have hlocked := hchanged.lock smallDatabase hshares.obtained worker
  exact ⟨_, hlocked, (latest_versions_kept hlocked ⟨1⟩).1.toMaps,
    (latest_versions_kept hlocked ⟨2⟩).1.toMaps⟩

end Stale

end Session

end RoleStack

import RoleStack.HandleClass.Samples
import RoleStack.Proofs.Errands

/-!
# Identities kept apart

Identities at a director share an engine with its counter and its registry. All that goes from one to
another are the numbers inside class names, unless a name was taken that the engine still comes to: who
takes its turn there fails, and the errands of the others tell whose turn that is.
-/

namespace RoleStack

/-! ### Runs with the same identity in them -/

theorem Errand.Report.isWaiting_unnamed (report : Errand.Report) :
    report.unnamed.isWaiting = report.isWaiting := by
  cases report with
  | changed result => cases result <;> rfl
  | absent | waiting | registered | replied reply => rfl

namespace Run

section Runs

variable {run run' : Run} {director director' : Ref Director} {office office' : Office}
  {reference reference' : Ref Coordinator} {identity : Identity} {errand : Errand}

theorem not_waits_of_isWaiting_eq_false (hrests : run.session.AtRest director office)
    (hknows : run.Knows office.coordinator)
    (hwaits : (run.attend director office.found.coordinator errand).1.isWaiting = false) :
    (run.profile office.coordinator errand.identity).waits errand = false := by
  rw [← Bool.not_eq_true]
  intro hblocked
  rw [attend_of_waits hrests hknows hblocked] at hwaits
  cases hwaits

theorem attendAll_cons (director : Ref Director) (reference : Ref Coordinator) (run : Run)
    (errand : Errand) (rest : List Errand) :
    run.attendAll director reference (errand :: rest) =
      let attended := run.attend director reference errand
      let last := attended.2.attendAll director reference rest
      ((errand.identity, attended.1) :: last.1, last.2) := rfl

/-- Where an identity looks the same, its own errands are answered the same and leave it looking the
same, whatever the errands on others between them. -/
theorem attendAll_of_profile_eq (errands : List Errand) (hrests : run.session.AtRest director office)
    (hknows : run.Knows office.coordinator) (hrests' : run'.session.AtRest director' office')
    (hknows' : run'.Knows office'.coordinator) (hreference : office.found.coordinator = reference)
    (hreference' : office'.found.coordinator = reference') (hstrict : office'.strict = office.strict)
    (hprofile : run'.profile office'.coordinator identity = run.profile office.coordinator identity)
    (hwaits : ∀ entry ∈ (run.attendAll director reference errands).1, entry.2.isWaiting = false) :
    let whole := run.attendAll director reference errands
    let own := run'.attendAll director' reference'
      (errands.filter fun errand => errand.identity = identity)
    own.1.map (fun entry => entry.2.unnamed) =
        (whole.1.filter fun entry => entry.1 = identity).map (fun entry => entry.2.unnamed) ∧
      ∃ later later' : Office, later.found.coordinator = reference ∧
        later'.found.coordinator = reference' ∧
        whole.2.session.AtRest director later ∧ own.2.session.AtRest director' later' ∧
        own.2.profile later'.coordinator identity = whole.2.profile later.coordinator identity := by
  induction errands generalizing run run' office office' with
  | nil => exact ⟨rfl, office, office', hreference, hreference', hrests, hrests', hprofile⟩
  | cons errand rest ih =>
      rw [attendAll_cons] at hwaits
      obtain ⟨hfirst, hrest⟩ := List.forall_mem_cons.mp hwaits
      rw [← hreference] at hfirst
      have hfree := not_waits_of_isWaiting_eq_false hrests hknows hfirst
      obtain ⟨next, hserves⟩ := endsApart_of_not_waits hrests hknows hfree
      rw [hreference] at hserves
      have hnext := hserves.coordinator.trans hreference
      by_cases hown : errand.identity = identity
      · subst hown
        rw [← hprofile] at hfree hserves
        obtain ⟨next', hserves'⟩ := endsApart_of_not_waits hrests' hknows' hfree
        rw [hreference', hstrict] at hserves'
        obtain ⟨hreports, hlater⟩ := ih hserves.rests hserves.knows hserves'.rests hserves'.knows hnext
          (hserves'.coordinator.trans hreference')
          (hserves'.strict.trans (hstrict.trans hserves.strict.symm))
          (hserves'.own.trans hserves.own.symm) hrest
        have hreport := hserves'.report.trans hserves.report.symm
        simp only [attendAll_cons, List.filter_cons, decide_true, if_true, List.map_cons, hreport,
          hreports]
        exact ⟨trivial, hlater⟩
      · obtain ⟨hreports, hlater⟩ := ih hserves.rests hserves.knows hrests' hknows' hnext hreference'
          (hstrict.trans hserves.strict.symm)
          (hprofile.trans (hserves.others identity (Ne.symm hown)).symm) hrest
        simp only [attendAll_cons, List.filter_cons, hown, decide_false, Bool.false_eq_true, if_false]
        exact ⟨hreports, hlater⟩

/-- The current version of an identity, without the names of made classes. -/
def version? (run : Run) (reference : Ref Coordinator) (identity : Identity) : Option Handle :=
  ((run.session.coordinator reference).peek identity).map run.session.view

theorem standing_eq_of_atRest (hrests : run.session.AtRest director office)
    (hreference : office.found.coordinator = reference) (identity : Identity) :
    let coordinator := run.session.coordinator reference
    let standing := (run.profile office.coordinator identity).standing
    run.version? reference identity = standing.map Prod.fst ∧
      coordinator.lockCount identity = (standing.map fun standing => standing.2.lockCount).getD 0 ∧
      coordinator.manipulationsOf identity =
        (standing.map fun standing => standing.2.manipulations).getD 0 := by
  have hfound : run.session.coordinator reference = office.coordinator := by
    rw [Session.coordinator, ← hreference, hrests.coordinated, Option.getD_some]
  simp only [version?, hfound, Coordinator.peek, Coordinator.lockCount, Coordinator.manipulationsOf,
    Run.profile]
  cases office.coordinator.entry? identity with
  | none => exact ⟨rfl, rfl, rfl⟩
  | some entry => exact ⟨rfl, rfl, rfl⟩

/-- In a run in which nobody has to wait, the errands on an identity come to the same without those on
the others. They succeed and fail alike and for the same causes, and leave the same version, as many
holds and as many manipulations. Only the names of made classes may differ. -/
theorem identities_kept_apart (run : Run) (errands : List Errand) (identity : Identity)
    (hrests : run.session.AtRest director office) (hknows : run.Knows office.coordinator)
    (hwaits : ∀ entry ∈ (run.attendAll director office.found.coordinator errands).1,
      entry.2.isWaiting = false) :
    let reference := office.found.coordinator
    let whole := run.attendAll director reference errands
    let own := run.attendAll director reference
      (errands.filter fun errand => errand.identity = identity)
    own.1.map (fun entry => entry.2.unnamed) =
        (whole.1.filter fun entry => entry.1 = identity).map (fun entry => entry.2.unnamed) ∧
      (∀ entry ∈ own.1, entry.2.isWaiting = false) ∧
      own.2.version? reference identity = whole.2.version? reference identity ∧
      (own.2.session.coordinator reference).lockCount identity =
        (whole.2.session.coordinator reference).lockCount identity ∧
      (own.2.session.coordinator reference).manipulationsOf identity =
        (whole.2.session.coordinator reference).manipulationsOf identity := by
  intro reference whole own
  obtain ⟨hreports, later, later', hreference, hreference', hrests, hrests', hprofile⟩ :=
    attendAll_of_profile_eq errands hrests hknows hrests hknows rfl rfl rfl rfl hwaits
  obtain ⟨hversion, hcount, hmanipulations⟩ := standing_eq_of_atRest hrests hreference identity
  obtain ⟨hversion', hcount', hmanipulations'⟩ := standing_eq_of_atRest hrests' hreference' identity
  rw [hprofile] at hversion' hcount' hmanipulations'
  refine ⟨hreports, ?_, hversion'.trans hversion.symm, hcount'.trans hcount.symm,
    hmanipulations'.trans hmanipulations.symm⟩
  intro entry hentry
  have hmem : entry.2.unnamed ∈ own.1.map fun entry => entry.2.unnamed :=
    List.mem_map_of_mem hentry
  rw [hreports] at hmem
  obtain ⟨same, hsame, hunnamed⟩ := List.mem_map.mp hmem
  rw [← Errand.Report.isWaiting_unnamed, ← hunnamed, Errand.Report.isWaiting_unnamed]
  exact hwaits same (List.mem_of_mem_filter hsame)

end Runs

end Run

/-! ### A new director -/

section Fresh

variable {session : Session} {workshop : Ref Workshop} {employed : Workshop}

def Session.openOffice (session : Session) (workshop : Ref Workshop) (config : CoordinatorConfig) :
    Session :=
  ((session.addCoordinator config).2.addDirector workshop session.coordinators.next).2

theorem Session.atRest_openOffice (hidle : session.activities = Table.empty)
    (hemployed : session.workshops.get? workshop = some employed)
    (hahead : employed.engine.namer.AheadOf (session.registry employed.registry))
    (config : CoordinatorConfig) :
    (session.openOffice workshop config).AtRest session.directors.next
      ⟨⟨workshop, session.coordinators.next, Writers.empty⟩, Coordinator.start config, employed⟩ where
  idle := hidle
  directed := Pool.get?_add_next _ _
  coordinated := Pool.get?_add_next _ _
  employed := hemployed
  free := Writers.free_empty
  ahead := hahead

theorem Run.knows_start (session : Session) {obtained : List SharedHandle}
    (hobtained : ∀ shared ∈ obtained, session.Shares shared.identity shared)
    (config : CoordinatorConfig) : (Run.mk session obtained).Knows (Coordinator.start config) where
  sound := Coordinator.sound_start config
  current := fun _ _ hentry => nomatch hentry
  obtained := hobtained

end Fresh

/-! ### Two identities by turns -/

namespace Run

section Turns

/-- A handle of each base class, with the numbers 1 and 2. -/
def instances (session : Session) : Run :=
  let (database, session) := session.instantiate .database
  let (first, session) := session.share database
  let (metered, session) := session.instantiate .metered
  let (second, session) := session.share metered
  ⟨session, [first, second]⟩

/-- The handles at a new director, which uses the first engine. -/
def ofInstances (session : Session) : Run :=
  ⟨(instances session).session.openOffice ⟨0⟩ ⟨0⟩, (instances session).obtained⟩

def assumeAdministrator (identity : Identity) : Errand :=
  .change ⟨"worker"⟩ ⟨.assume, identity, (Role.administrator true []).reference ⟨0⟩, .zero⟩

def className? (run : Run) (identity : Identity) : Option String :=
  ((run.session.coordinator ⟨0⟩).peek identity).map fun version =>
    (run.session.read version).className

def turning : Run := ofInstances (Session.start.addWorkshop ⟨none, false⟩ none none).2

/-- The first identity is held all the time, and the second assumes its role twice. -/
def turns : List Errand :=
  [.register ⟨1⟩ 0, .register ⟨2⟩ 0, .lock ⟨"worker"⟩ ⟨1⟩ 0 none, assumeAdministrator ⟨2⟩,
    assumeAdministrator ⟨1⟩, assumeAdministrator ⟨2⟩,
    .change ⟨"worker"⟩ ⟨.assume, ⟨1⟩, (Role.auditor []).reference ⟨1⟩, .zero⟩,
    .unlock ⟨"other"⟩ ⟨2⟩ true,
    .change ⟨"worker"⟩ ⟨.release, ⟨1⟩, (Role.administrator true []).reference ⟨0⟩, .zero⟩,
    assumeAdministrator ⟨1⟩]

theorem identities_kept_apart_turning :
    let whole := turning.attendAll ⟨0⟩ ⟨0⟩ turns
    let own := turning.attendAll ⟨0⟩ ⟨0⟩ (turns.filter fun errand => errand.identity = ⟨1⟩)
    (∀ entry ∈ whole.1, entry.2.isWaiting = false) ∧
      whole.2.className? ⟨1⟩ = some "DBProxy_roled_4_1_roled_5_1" ∧
      own.2.className? ⟨1⟩ = some "DBProxy_roled_3_1_roled_4_1" ∧
      own.2.version? ⟨0⟩ ⟨1⟩ = whole.2.version? ⟨0⟩ ⟨1⟩ ∧
      (own.2.session.coordinator ⟨0⟩).lockCount ⟨1⟩ = 1 ∧
      (own.2.session.coordinator ⟨0⟩).manipulationsOf ⟨1⟩ = 14 := by
  intro whole own
  have hrests : turning.session.AtRest ⟨0⟩ _ :=
    Session.atRest_openOffice rfl rfl (Namer.aheadOf_empty _) ⟨0⟩
  have hknows : turning.Knows (Coordinator.start ⟨0⟩) := by
    apply knows_start
    intro shared hshared
    rcases List.mem_pair.mp hshared with rfl | rfl
    · exact ⟨rfl, _, rfl, rfl⟩
    · exact ⟨rfl, _, rfl, rfl⟩
  have hwaits : ∀ entry ∈ whole.1, entry.2.isWaiting = false := by decide +kernel
  have hcount : (whole.2.session.coordinator ⟨0⟩).lockCount ⟨1⟩ = 1 := by decide +kernel
  have hmanipulations : (whole.2.session.coordinator ⟨0⟩).manipulationsOf ⟨1⟩ = 14 := by
    decide +kernel
  obtain ⟨-, -, hversion, hcount', hmanipulations'⟩ :=
    identities_kept_apart turning turns ⟨1⟩ hrests hknows hwaits
  exact ⟨hwaits, by decide +kernel, by decide +kernel, hversion, hcount'.trans hcount,
    hmanipulations'.trans hmanipulations⟩

/-- The class that the engine makes first of the database is there already. -/
def taken : Run :=
  let (registry, session) := Session.start.addRegistry
  let (_, session) :=
    session.registerAll registry [.base "DBProxy_roled_1_1" Table.empty [] none]
  ofInstances (session.addWorkshop ⟨some 1, false⟩ (some registry) none).2

def takenTurns : List Errand :=
  [.register ⟨1⟩ 0, .register ⟨2⟩ 0, assumeAdministrator ⟨2⟩, assumeAdministrator ⟨1⟩]

/-- Without the errands on the second identity, the first comes to the name that was taken. -/
theorem taken_name_met_alone :
    let whole := taken.attendAll ⟨0⟩ ⟨0⟩ takenTurns
    let own := taken.attendAll ⟨0⟩ ⟨0⟩ (takenTurns.filter fun errand => errand.identity = ⟨1⟩)
    (∀ entry ∈ whole.1, entry.2.isWaiting = false) ∧
      (whole.1.filter fun entry => entry.1 = ⟨1⟩).map (fun entry => entry.2.cause?) = [none, none] ∧
      own.1.map (fun entry => entry.2.cause?) =
        [none, some (.nameCollision "DBProxy_roled_1_1")] ∧
      whole.2.className? ⟨1⟩ = some "DBProxy_roled_2_1" ∧ own.2.className? ⟨1⟩ = some "DBProxy" := by
  decide +kernel

end Turns

end Run

end RoleStack

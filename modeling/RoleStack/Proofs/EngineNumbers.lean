import RoleStack.Proofs.MadeNames

/-!
# The numbers of engines

An engine with no pinned number takes the next one of the sequence, and the sequence knows nothing of
the pins. So such an engine shares its number with exactly the engines that are pinned to it, whether
they were started before or later. Pins out of the reach of the sequence keep all engines apart.
-/

namespace RoleStack

/-- What an engine is started with. -/
structure EngineSetup where
  config : EngineConfig
  registry : Option (Ref Registry)
  dispatcher : Option (Ref Dispatcher)

namespace EngineSetup

def pin? (setup : EngineSetup) : Option UInt64 := setup.config.instanceId

/-- How many engines take a number from the sequence. -/
def unpinned (setups : List EngineSetup) : Nat :=
  setups.countP fun setup => setup.pin?.isNone

/-- No number is pinned twice. -/
def PinsDiffer (setups : List EngineSetup) : Prop :=
  ∀ (place other : Nat) setup setup' pin, setups[place]? = some setup →
    setups[other]? = some setup' → setup.pin? = some pin → setup'.pin? = some pin → place = other

end EngineSetup

/-- The number that the sequence gives out after so many others. -/
def Sequence.numberAfter (count : Nat) : UInt64 := UInt64.ofNat (count + 1)

namespace Session

open EngineSetup

/-- Starts engines in turn. -/
def addWorkshops (session : Session) : List EngineSetup → Session
  | [] => session
  | setup :: rest =>
      (session.addWorkshop setup.config setup.registry setup.dispatcher).2.addWorkshops rest

/-- The engine that is started in this place. -/
def engineAt? (setups : List EngineSetup) (place : Nat) : Option Engine :=
  setups[place]?.map fun setup =>
    Engine.start ⟨setup.pin?.getD (Sequence.numberAfter (unpinned (setups.take place)))⟩ setup.config

/-! ### One engine more -/

/-- A new engine takes a number unless one is pinned. -/
theorem exists_addWorkshop (session : Session) (setup : EngineSetup) :
    ∃ found, (session.addWorkshop setup.config setup.registry setup.dispatcher).2.workshops =
        session.workshops.add found ∧
      found.engine = Engine.start ⟨setup.pin?.getD session.engineIds.next⟩ setup.config ∧
      (session.addWorkshop setup.config setup.registry setup.dispatcher).2.engineIds =
        if setup.pin?.isNone then session.engineIds.advance else session.engineIds := by
  obtain ⟨⟨pin, strict⟩, given, dispatcher⟩ := setup
  cases pin with
  | some pin => cases given <;> exact ⟨_, rfl, rfl, rfl⟩
  | none => cases given <;> exact ⟨_, rfl, rfl, rfl⟩

end Session

/-! ### Counting -/

theorem Sequence.advance_numberAfter (count : Nat) :
    (Sequence.mk (numberAfter count)).advance = ⟨numberAfter (count + 1)⟩ := by
  rw [advance, numberAfter, numberAfter, Sequence.mk.injEq]
  exact (UInt64.ofNat_add (count + 1) 1).symm

theorem Sequence.toNat_numberAfter {count : Nat} (h : count + 1 < UInt64.size) :
    (numberAfter count).toNat = count + 1 :=
  UInt64.toNat_ofNat_of_lt' h

namespace EngineSetup

variable {setups : List EngineSetup} {setup : EngineSetup} {place other : Nat}

theorem unpinned_concat (setups : List EngineSetup) (setup : EngineSetup) :
    unpinned (setups ++ [setup]) = unpinned setups + if setup.pin?.isNone then 1 else 0 := by
  rw [unpinned, List.countP_append, List.countP_singleton]
  rfl

/-- An engine that takes a number from the sequence is counted from then on. -/
theorem unpinned_take_lt (hsetup : setups[place]? = some setup) (hpin : setup.pin? = none)
    (hplace : place < other) : unpinned (setups.take place) < unpinned (setups.take other) := by
  have hnext : setups.take (place + 1) = setups.take place ++ [setup] := by
    rw [List.take_add_one, hsetup]
    rfl
  have hmore : (setups.take (place + 1)).Sublist (setups.take other) :=
    (List.take_prefix_take_left hplace).sublist
  calc unpinned (setups.take place)
      < unpinned (setups.take (place + 1)) := by
        rw [hnext, unpinned_concat, hpin, if_pos Option.isNone_none]
        exact Nat.lt_succ_self _
    _ ≤ unpinned (setups.take other) := hmore.countP_le

theorem unpinned_take_lt_unpinned (hsetup : setups[place]? = some setup)
    (hpin : setup.pin? = none) : unpinned (setups.take place) < unpinned setups := by
  obtain ⟨hplace, -⟩ := List.getElem?_eq_some_iff.mp hsetup
  have hall := unpinned_take_lt hsetup hpin hplace
  rwa [List.take_length] at hall

end EngineSetup

/-! ### All engines -/

namespace Session

open EngineSetup

/-- The engines are those of the setups, in their order. -/
structure Started (session : Session) (setups : List EngineSetup) : Prop where
  sequence : session.engineIds = ⟨Sequence.numberAfter (unpinned setups)⟩
  count : session.workshops.next = ⟨setups.length⟩
  engines : ∀ place, (session.workshops.get? ⟨place⟩).map Workshop.engine = engineAt? setups place

variable {session : Session} {setups : List EngineSetup} {setup : EngineSetup}

theorem engineAt?_concat (setups : List EngineSetup) (setup : EngineSetup) (place : Nat) :
    engineAt? (setups ++ [setup]) place =
      if place = setups.length then
        some (Engine.start ⟨setup.pin?.getD (Sequence.numberAfter (unpinned setups))⟩ setup.config)
      else engineAt? setups place := by
  rw [engineAt?, engineAt?]
  rcases Nat.lt_trichotomy place setups.length with hless | rfl | hmore
  · rw [if_neg hless.ne, List.getElem?_append_left hless, List.take_append_of_le_length hless.le]
  · rw [if_pos rfl, List.getElem?_concat_length, List.take_left']
    · rfl
    · rfl
  · rw [if_neg hmore.ne', List.getElem?_eq_none hmore.le, List.getElem?_eq_none]
    · rfl
    · rw [List.length_append]
      exact hmore

theorem Started.addWorkshop (h : session.Started setups) (setup : EngineSetup) :
    (session.addWorkshop setup.config setup.registry setup.dispatcher).2.Started
      (setups ++ [setup]) := by
  obtain ⟨found, hworkshops, hengine, hsequence⟩ := exists_addWorkshop session setup
  constructor
  · rw [hsequence, unpinned_concat, h.sequence]
    split
    · exact Sequence.advance_numberAfter _
    · rfl
  · rw [hworkshops, Pool.next_add, h.count, List.length_append, List.length_singleton]
  · intro place
    rw [hworkshops, engineAt?_concat, Pool.get?_add, h.count, ← h.engines]
    by_cases hplace : place = setups.length
    · rw [if_pos (by rw [hplace]), if_pos hplace, Option.map_some, hengine, h.sequence]
    · rw [if_neg (fun hsame => hplace (Ref.mk.inj hsame)), if_neg hplace]

theorem Started.addWorkshops (h : session.Started setups) (more : List EngineSetup) :
    (session.addWorkshops more).Started (setups ++ more) := by
  induction more generalizing session setups with
  | nil =>
      rw [List.append_nil]
      exact h
  | cons setup rest ih =>
      rw [← List.singleton_append, ← List.append_assoc]
      exact ih (h.addWorkshop setup)

theorem started_nil (hsequence : session.engineIds = Sequence.start)
    (hworkshops : session.workshops = Pool.empty) : session.Started [] where
  sequence := hsequence
  count := by
    rw [hworkshops]
    rfl
  engines := by
    intro place
    rw [hworkshops]
    rfl

/-! ### Who shares a number -/

namespace Started

variable {place other : Nat} {setup' : EngineSetup}

theorem exists_engine (h : session.Started setups) (hsetup : setups[place]? = some setup) :
    ∃ found, session.workshops.get? ⟨place⟩ = some found ∧
      found.engine.id =
        ⟨setup.pin?.getD (Sequence.numberAfter (unpinned (setups.take place)))⟩ ∧
      found.engine.namer = Namer.start found.engine.id := by
  have hengine := h.engines place
  rw [engineAt?, hsetup, Option.map_some, Option.map_eq_some_iff] at hengine
  obtain ⟨found, hfound, hstarted⟩ := hengine
  refine ⟨found, hfound, ?_, ?_⟩
  · rw [hstarted]
    rfl
  · rw [hstarted]
    rfl

theorem exists_setup (h : session.Started setups) {found : Workshop}
    (hfound : session.workshops.get? ⟨place⟩ = some found) :
    ∃ setup, setups[place]? = some setup := by
  have hengine := h.engines place
  rw [hfound, Option.map_some, eq_comm, engineAt?, Option.map_eq_some_iff] at hengine
  obtain ⟨setup, hsetup, -⟩ := hengine
  exact ⟨setup, hsetup⟩

theorem toNat_number (hcount : unpinned setups < UInt64.size) (hsetup : setups[place]? = some setup)
    (hpin : setup.pin? = none) :
    (Sequence.numberAfter (unpinned (setups.take place))).toNat =
      unpinned (setups.take place) + 1 := by
  have hplace := unpinned_take_lt_unpinned hsetup hpin
  exact Sequence.toNat_numberAfter (by omega)

/-- The sequence does not repeat itself as long as it has numbers left. -/
theorem number_ne (hcount : unpinned setups < UInt64.size) (hsetup : setups[place]? = some setup)
    (hpin : setup.pin? = none) (hsetup' : setups[other]? = some setup') (hpin' : setup'.pin? = none)
    (hne : other ≠ place) :
    Sequence.numberAfter (unpinned (setups.take other)) ≠
      Sequence.numberAfter (unpinned (setups.take place)) := by
  have hdiffer : unpinned (setups.take other) ≠ unpinned (setups.take place) := by
    rcases Nat.lt_or_gt_of_ne hne with hless | hmore
    · exact (unpinned_take_lt hsetup' hpin' hless).ne
    · exact (unpinned_take_lt hsetup hpin hmore).ne'
  intro hsame
  have hvalues := congrArg UInt64.toNat hsame
  rw [toNat_number hcount hsetup' hpin', toNat_number hcount hsetup hpin] at hvalues
  exact hdiffer (Nat.succ.inj hvalues)

theorem shares_iff (h : session.Started setups) (hcount : unpinned setups < UInt64.size)
    (hsetup : setups[place]? = some setup) (hpin : setup.pin? = none)
    (hsetup' : setups[other]? = some setup') (hne : other ≠ place) :
    ∃ found found', session.workshops.get? ⟨place⟩ = some found ∧
      session.workshops.get? ⟨other⟩ = some found' ∧
      found.engine.id = ⟨Sequence.numberAfter (unpinned (setups.take place))⟩ ∧
      (found'.engine.id = found.engine.id ↔ setup'.pin? = some found.engine.id.value) := by
  obtain ⟨found, hfound, hid, -⟩ := h.exists_engine hsetup
  obtain ⟨found', hfound', hid', -⟩ := h.exists_engine hsetup'
  rw [hpin, Option.getD_none] at hid
  refine ⟨found, found', hfound, hfound', hid, ?_⟩
  rw [hid, hid', EngineId.mk.injEq]
  cases hpin' : setup'.pin? with
  | some pin => rw [Option.getD_some, Option.some.injEq]
  | none =>
      have hdiffer := number_ne hcount hsetup hpin hsetup' hpin' hne
      simp [hdiffer]

/-- No pin is a number that the sequence gives out for these engines. -/
def OutOfReach (setups : List EngineSetup) : Prop :=
  ∀ setup ∈ setups, ∀ pin, setup.pin? = some pin → pin = 0 ∨ unpinned setups < pin.toNat

theorem not_shares (h : session.Started setups) (hcount : unpinned setups < UInt64.size)
    (hreach : OutOfReach setups) {found found' : Workshop}
    (hfound : session.workshops.get? ⟨place⟩ = some found)
    (hfound' : session.workshops.get? ⟨other⟩ = some found') (hsetup : setups[place]? = some setup)
    (hpin : setup.pin? = none) (hne : other ≠ place) : found'.engine.id ≠ found.engine.id := by
  obtain ⟨setup', hsetup'⟩ := h.exists_setup hfound'
  obtain ⟨first, second, hfirst, hsecond, hid, hshares⟩ :=
    h.shares_iff hcount hsetup hpin hsetup' hne
  obtain rfl := Option.some.inj (hfound.symm.trans hfirst)
  obtain rfl := Option.some.inj (hfound'.symm.trans hsecond)
  intro hsame
  have hnumber := toNat_number hcount hsetup hpin
  have hplace := unpinned_take_lt_unpinned hsetup hpin
  rcases hreach setup' (List.mem_of_getElem? hsetup') _ (hshares.mp hsame) with hzero | habove
  · rw [hid] at hzero
    rw [show Sequence.numberAfter _ = 0 from hzero] at hnumber
    cases hnumber
  · rw [hid] at habove
    simp only [hnumber] at habove
    omega

/-- Pins that are out of the reach of the sequence, and differ, keep all engines apart. -/
theorem enginesDiffer (h : session.Started setups) (hcount : unpinned setups < UInt64.size)
    (hdiffer : PinsDiffer setups) (hreach : OutOfReach setups) : session.EnginesDiffer := by
  rintro ⟨place⟩ ⟨other⟩ found found' hfound hfound' hsame
  by_contra hne
  have hplaces : other ≠ place := fun heq => hne (congrArg Ref.mk heq.symm)
  obtain ⟨setup, hsetup⟩ := h.exists_setup hfound
  obtain ⟨setup', hsetup'⟩ := h.exists_setup hfound'
  cases hpin : setup.pin? with
  | none => exact h.not_shares hcount hreach hfound hfound' hsetup hpin hplaces hsame.symm
  | some pin =>
      cases hpin' : setup'.pin? with
      | none => exact h.not_shares hcount hreach hfound' hfound hsetup' hpin' hplaces.symm hsame
      | some pin' =>
          obtain ⟨first, hfirst, hid, -⟩ := h.exists_engine hsetup
          obtain ⟨second, hsecond, hid', -⟩ := h.exists_engine hsetup'
          obtain rfl := Option.some.inj (hfound.symm.trans hfirst)
          obtain rfl := Option.some.inj (hfound'.symm.trans hsecond)
          rw [hid, hid', hpin, hpin', Option.getD_some, Option.getD_some, EngineId.mk.injEq] at hsame
          subst hsame
          exact hplaces (hdiffer place other setup setup' pin hsetup hsetup' hpin hpin').symm

end Started

/-! ### Shared registries -/

/-- Every engine has a registry with nothing in it. -/
def Stocked (session : Session) : Prop :=
  ∀ workshop found, session.workshops.get? workshop = some found →
    session.registries.get? found.registry = some Registry.empty

theorem Started.unused (h : session.Started setups) (hcount : unpinned setups < UInt64.size)
    (hdiffer : PinsDiffer setups) (hreach : Started.OutOfReach setups) (hstocked : session.Stocked) :
    session.Unused where
  started := by
    rintro ⟨place⟩ found hfound
    obtain ⟨setup, hsetup⟩ := h.exists_setup hfound
    obtain ⟨same, hsame, -, hnamer⟩ := h.exists_engine hsetup
    obtain rfl := Option.some.inj (hfound.symm.trans hsame)
    exact hnamer
  empty := hstocked
  distinct := h.enginesDiffer hcount hdiffer hreach

/-- Among engines that are started in any order, one without a pin shares its number with exactly those
that are pinned to it. If the sequence reaches no pin, and no number is pinned twice, then all numbers
differ, and whatever registries the engines share, no name is ever taken: a composition fails with a taken
name only if its own generator does. -/
theorem engines_share_pinned_numbers (hsequence : session.engineIds = Sequence.start)
    (hworkshops : session.workshops = Pool.empty) (hcount : unpinned setups < UInt64.size) :
    (∀ (place other : Nat) setup setup', setups[place]? = some setup → setup.pin? = none →
      setups[other]? = some setup' → other ≠ place →
        ∃ found found', (session.addWorkshops setups).workshops.get? ⟨place⟩ = some found ∧
          (session.addWorkshops setups).workshops.get? ⟨other⟩ = some found' ∧
          found.engine.id = ⟨Sequence.numberAfter (unpinned (setups.take place))⟩ ∧
          (found'.engine.id = found.engine.id ↔ setup'.pin? = some found.engine.id.value)) ∧
    (PinsDiffer setups → Started.OutOfReach setups →
      (session.addWorkshops setups).EnginesDiffer ∧
      ((session.addWorkshops setups).Stocked → ∀ obtained orders order error name,
        order.NeverCollides →
        ((Run.mk (session.addWorkshops setups) obtained).fulfilAll orders |>.fulfil order).1 =
            some (.error error) →
          error.cause? ≠ some (.nameCollision name))) := by
  have hstarted : (session.addWorkshops setups).Started setups :=
    (started_nil hsequence hworkshops).addWorkshops setups
  refine ⟨?_, ?_⟩
  · intro place other setup setup' hsetup hpin hsetup' hne
    exact hstarted.shares_iff hcount hsetup hpin hsetup' hne
  intro hdiffer hreach
  refine ⟨hstarted.enginesDiffer hcount hdiffer hreach, ?_⟩
  intro hstocked obtained orders order error name hnever herror
  have hunused := hstarted.unused hcount hdiffer hreach hstocked
  exact Run.fulfil_ne_nameCollision (Run.tallies_fulfilAll hunused.tallies orders) hnever herror
    name

/-! ### A pin within reach, and one beyond -/

section Pins

/-- The second engine shares the registry of the first, whose number is pinned. -/
def pinnedFirst (pin : UInt64) : List EngineSetup :=
  [⟨⟨some pin, false⟩, none, none⟩, ⟨⟨none, false⟩, some ⟨0⟩, none⟩]

theorem pinsDiffer_pinnedFirst (pin : UInt64) : PinsDiffer (pinnedFirst pin) := by
  have hfirst : ∀ (place : Nat) setup found, (pinnedFirst pin)[place]? = some setup →
      setup.pin? = some found → place = 0 := by
    intro place setup found hsetup hpin
    rcases place with _ | _ | place
    · rfl
    · obtain rfl := Option.some.inj hsetup
      cases hpin
    · cases hsetup
  intro place other setup setup' found hsetup hsetup' hpin hpin'
  rw [hfirst place setup found hsetup hpin, hfirst other setup' found hsetup' hpin']

def pinning (pin : UInt64) : Run :=
  ⟨Session.start.addWorkshops (pinnedFirst pin), []⟩

theorem stocked_pinning (pin : UInt64) : (pinning pin).session.Stocked := by
  have hworkshops : (pinning pin).session.workshops = ⟨#[
      ⟨Engine.start ⟨pin⟩ ⟨some pin, false⟩, ⟨0⟩, none⟩,
      ⟨Engine.start ⟨1⟩ ⟨none, false⟩, ⟨0⟩, none⟩]⟩ := rfl
  rintro ⟨index⟩ found hfound
  rw [hworkshops, Pool.get?] at hfound
  rcases index with _ | _ | index
  · obtain rfl := Option.some.inj hfound
    rfl
  · obtain rfl := Option.some.inj hfound
    rfl
  · cases hfound

theorem engines_share_pinned_numbers_beyond :
    unpinned (pinnedFirst 7) < UInt64.size ∧ PinsDiffer (pinnedFirst 7) ∧
      Started.OutOfReach (pinnedFirst 7) ∧ (pinning 7).session.Stocked ∧
      (pinning 7).session.EnginesDiffer ∧
      ∀ orders order error name, order.NeverCollides →
        (((pinning 7).fulfilAll orders).fulfil order).1 = some (.error error) →
          error.cause? ≠ some (.nameCollision name) := by
  have hcount : unpinned (pinnedFirst 7) < UInt64.size := by decide
  have hreach : Started.OutOfReach (pinnedFirst 7) := by
    intro setup hsetup pin hpin
    simp only [pinnedFirst, List.mem_cons, List.not_mem_nil, or_false] at hsetup
    rcases hsetup with rfl | rfl
    · obtain rfl := Option.some.inj hpin
      exact .inr (by decide)
    · cases hpin
  obtain ⟨-, happart⟩ :=
    engines_share_pinned_numbers (rfl : Session.start.engineIds = Sequence.start) rfl hcount
  obtain ⟨hdiffer, hfree⟩ := happart (pinsDiffer_pinnedFirst 7) hreach
  exact ⟨hcount, pinsDiffer_pinnedFirst 7, hreach, stocked_pinning 7, hdiffer,
    hfree (stocked_pinning 7) []⟩

/-- An administrator is added to the first handle. -/
def assumeOn (workshop : Ref Workshop) : Order :=
  .compose workshop 0 .zero
    (ChangeKind.assume.operation ⟨⟨0⟩, ⟨1⟩⟩ ((Role.administrator true []).reference ⟨0⟩))

/-- A pin of one is also the first number that the sequence gives out. The two engines then give one
name, and the class of the second is refused. -/
theorem unpinned_number_not_fresh :
    PinsDiffer (pinnedFirst 1) ∧ (pinnedFirst 1)[1]?.bind EngineSetup.pin? = none ∧
      ((pinning 1).session.workshops.get? ⟨1⟩).map (fun found => found.engine.id) =
        ((pinning 1).session.workshops.get? ⟨0⟩).map (fun found => found.engine.id) ∧
      (((pinning 1).fulfilAll [.instantiate .database, assumeOn ⟨0⟩]).fulfil (assumeOn ⟨1⟩)).1 =
        some (.error (.failed ⟨1⟩ .addRole "admin" (.nameCollision "DBProxy_roled_1_1"))) :=
  ⟨pinsDiffer_pinnedFirst 1, rfl, by decide +kernel, by decide +kernel⟩

end Pins

end Session

end RoleStack

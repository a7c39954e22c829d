import RoleStack.Proofs.Failures
import RoleStack.Proofs.LastingState
import RoleStack.Proofs.TurnSteps

/-!
# One identity, one lineage

Fresh handles and the blank destinations of compositions take consecutive numbers. A new version gives
its own number up for the identity of its source. So identities go along lineages and nowhere else, as
long as the sequence does not repeat itself, and the numbers given up stay without a handle.
-/

namespace RoleStack

/-! ### Numbers of the sequence -/

namespace Sequence

variable {start : Sequence} {turns : Nat}

def after (start : Sequence) (turns : Nat) : Sequence := ⟨start.next + UInt64.ofNat turns⟩

theorem after_zero (start : Sequence) : start.after 0 = start := by
  simp [after]

theorem advance_after (start : Sequence) (turns : Nat) :
    (start.after turns).advance = start.after (turns + 1) := by
  change Sequence.mk (start.next + UInt64.ofNat turns + 1) = _
  rw [after, UInt64.ofNat_add, ← UInt64.add_assoc]
  rfl

theorem handsOut_after (start : Sequence) (turns : Nat) :
    start.HandsOut (turns + 1) ⟨(start.after turns).next⟩ :=
  ⟨turns, Nat.lt_succ_self turns, rfl⟩

theorem ne_after_of_handsOut {identity : Identity} (h : start.HandsOut turns identity)
    (hturns : turns < UInt64.size) : identity ≠ ⟨(start.after turns).next⟩ := by
  rintro rfl
  obtain ⟨turn, hless, hvalue⟩ := h
  have hnumbers := congrArg UInt64.toNat ((UInt64.add_right_inj _).mp hvalue)
  rw [UInt64.toNat_ofNat_of_lt' hturns, UInt64.toNat_ofNat_of_lt' (hless.trans hturns)] at hnumbers
  exact hless.ne' hnumbers

end Sequence

/-! ### Lineages -/

/-- How a handle came about: the source of a version is told by its place. -/
inductive Birth where
  | instantiated
  | composed (source : Nat)
deriving DecidableEq

/-- The handle in the first place comes by compositions from the one in the second, which was
instantiated. -/
inductive Descends (births : List Birth) : Nat → Nat → Prop where
  | root {place : Nat} (hbirth : births[place]? = some .instantiated) : Descends births place place
  | composed {place source origin : Nat} (hbirth : births[place]? = some (.composed source))
      (hsource : Descends births source origin) : Descends births place origin

/-- Both come from the same instance. -/
def Kin (births : List Birth) (place other : Nat) : Prop :=
  ∃ origin, Descends births place origin ∧ Descends births other origin

/-- A source is there before its versions are. -/
def Ordered (births : List Birth) : Prop :=
  ∀ place source : Nat, births[place]? = some (.composed source) → source < place

section Lineages

variable {births : List Birth} {place other source origin : Nat} {birth : Birth}

theorem Kin.symm (h : Kin births place other) : Kin births other place := by
  obtain ⟨origin, hplace, hother⟩ := h
  exact ⟨origin, hother, hplace⟩

theorem Descends.origin_lt (h : Descends births place origin) : origin < births.length := by
  induction h with
  | root hbirth =>
      obtain ⟨hlength, -⟩ := List.getElem?_eq_some_iff.mp hbirth
      exact hlength
  | composed _ _ ih => exact ih

theorem descends_concat_iff (hordered : Ordered births) (hplace : place < births.length)
    (birth : Birth) :
    Descends (births ++ [birth]) place origin ↔ Descends births place origin := by
  constructor
  · intro h
    induction h with
    | root hbirth =>
        rw [List.getElem?_append_left hplace] at hbirth
        exact .root hbirth
    | composed hbirth _ ih =>
        rw [List.getElem?_append_left hplace] at hbirth
        exact .composed hbirth (ih ((hordered _ _ hbirth).trans hplace))
  · intro h
    induction h with
    | root hbirth => exact .root (by rw [List.getElem?_append_left hplace, hbirth])
    | composed hbirth _ ih =>
        exact .composed (by rw [List.getElem?_append_left hplace, hbirth])
          (ih ((hordered _ _ hbirth).trans hplace))

theorem descends_instantiated_iff :
    Descends (births ++ [.instantiated]) births.length origin ↔ origin = births.length := by
  constructor
  · intro h
    cases h with
    | root => rfl
    | composed hbirth =>
        rw [List.getElem?_concat_length] at hbirth
        cases hbirth
  · rintro rfl
    exact .root List.getElem?_concat_length

theorem descends_composed_iff (hordered : Ordered births) (hsource : source < births.length) :
    Descends (births ++ [.composed source]) births.length origin ↔ Descends births source origin := by
  rw [← descends_concat_iff hordered hsource (.composed source)]
  constructor
  · intro h
    cases h with
    | root hbirth =>
        rw [List.getElem?_concat_length] at hbirth
        cases hbirth
    | composed hbirth hdescends =>
        rw [List.getElem?_concat_length] at hbirth
        obtain rfl := Birth.composed.inj (Option.some.inj hbirth)
        exact hdescends
  · exact .composed List.getElem?_concat_length

theorem Ordered.concat (h : Ordered births)
    (hbirth : ∀ source, birth = .composed source → source < births.length) :
    Ordered (births ++ [birth]) := by
  intro place source hplace
  rw [List.getElem?_append] at hplace
  split at hplace
  · exact h place source hplace
  · rename_i hlength
    rw [List.getElem?_singleton] at hplace
    split at hplace
    · have hless := hbirth source (Option.some.inj hplace)
      omega
    · cases hplace

end Lineages

/-! ### Names of a lineage -/

/-- Identities of handles against how these came about, and the numbers that were given up, all out of
so many turns of the sequence. -/
structure Faithful (start : Sequence) (turns : Nat) (births : List Birth)
    (names blanks : List Identity) : Prop where
  length : names.length = births.length
  ordered : Ordered births
  same : ∀ place other name name', names[place]? = some name → names[other]? = some name' →
    (name = name' ↔ Kin births place other)
  given : ∀ name ∈ names, start.HandsOut turns name
  burnt : ∀ blank ∈ blanks, start.HandsOut turns blank
  apart : ∀ blank ∈ blanks, blank ∉ names

namespace Faithful

variable {start : Sequence} {turns : Nat} {births : List Birth} {names blanks : List Identity}

theorem nil (start : Sequence) : Faithful start 0 [] [] [] where
  length := rfl
  ordered := fun place source hplace => by simp at hplace
  same := fun place other name name' hplace => by simp at hplace
  given := fun name hmem => absurd hmem List.not_mem_nil
  burnt := fun blank hmem => absurd hmem List.not_mem_nil
  apart := fun blank hmem => absurd hmem List.not_mem_nil

/-- One more name is right when it is that of its kin and of no other. -/
theorem same_concat (h : Faithful start turns births names blanks) {birth : Birth} {name : Identity}
    (hself : Kin (births ++ [birth]) births.length births.length)
    (hnew : ∀ place name', names[place]? = some name' →
      (name' = name ↔ Kin (births ++ [birth]) place births.length)) :
    ∀ place other first second, (names ++ [name])[place]? = some first →
      (names ++ [name])[other]? = some second →
        (first = second ↔ Kin (births ++ [birth]) place other) := by
  have hcases : ∀ place first, (names ++ [name])[place]? = some first →
      (place < births.length ∧ names[place]? = some first) ∨ place = births.length ∧ first = name := by
    intro place first hplace
    rw [List.getElem?_append] at hplace
    split at hplace
    · exact .inl ⟨h.length ▸ ‹_›, hplace⟩
    · rw [List.getElem?_singleton] at hplace
      split at hplace
      · exact .inr ⟨by have := h.length; omega, (Option.some.inj hplace).symm⟩
      · cases hplace
  intro place other first second hplace hother
  rcases hcases place first hplace with ⟨hless, hfirst⟩ | ⟨rfl, rfl⟩
  · rcases hcases other second hother with ⟨hless', hsecond⟩ | ⟨rfl, rfl⟩
    · rw [h.same place other first second hfirst hsecond]
      simp only [Kin, descends_concat_iff h.ordered hless, descends_concat_iff h.ordered hless']
    · exact hnew place first hfirst
  · rcases hcases other second hother with ⟨-, hsecond⟩ | ⟨rfl, rfl⟩
    · rw [eq_comm, hnew other second hsecond]
      exact ⟨Kin.symm, Kin.symm⟩
    · exact iff_of_true rfl hself

theorem instantiate (h : Faithful start turns births names blanks) (hturns : turns < UInt64.size) :
    Faithful start (turns + 1) (births ++ [.instantiated])
      (names ++ [⟨(start.after turns).next⟩]) blanks where
  length := by simp [h.length]
  ordered := h.ordered.concat fun source hbirth => by cases hbirth
  same := by
    apply h.same_concat
    · exact ⟨_, descends_instantiated_iff.mpr rfl, descends_instantiated_iff.mpr rfl⟩
    · intro place name hname
      have hplace : place < births.length := by
        rw [← h.length]
        exact (List.getElem?_eq_some_iff.mp hname).1
      have hfresh := Sequence.ne_after_of_handsOut (h.given name (List.mem_of_getElem? hname)) hturns
      refine iff_of_false hfresh ?_
      -- No old handle comes from the new instance.
      rintro ⟨origin, hdescends, hdescends'⟩
      obtain rfl := descends_instantiated_iff.mp hdescends'
      exact ((descends_concat_iff h.ordered hplace _).mp hdescends).origin_lt.false
  given := by
    intro name hmem
    rcases List.mem_append.mp hmem with hold | hnew
    · exact (h.given name hold).succ
    · obtain rfl := List.mem_singleton.mp hnew
      exact Sequence.handsOut_after start turns
  burnt := fun blank hmem => (h.burnt blank hmem).succ
  apart := by
    intro blank hmem hname
    rcases List.mem_append.mp hname with hold | hnew
    · exact h.apart blank hmem hold
    · exact Sequence.ne_after_of_handsOut (h.burnt blank hmem) hturns (List.mem_singleton.mp hnew)

theorem burn (h : Faithful start turns births names blanks) (hturns : turns < UInt64.size) :
    Faithful start (turns + 1) births names (blanks ++ [⟨(start.after turns).next⟩]) where
  length := h.length
  ordered := h.ordered
  same := h.same
  given := fun name hmem => (h.given name hmem).succ
  burnt := by
    intro blank hmem
    rcases List.mem_append.mp hmem with hold | hnew
    · exact (h.burnt blank hold).succ
    · obtain rfl := List.mem_singleton.mp hnew
      exact Sequence.handsOut_after start turns
  apart := by
    intro blank hmem hname
    rcases List.mem_append.mp hmem with hold | hnew
    · exact h.apart blank hold hname
    · exact Sequence.ne_after_of_handsOut (h.given blank hname) hturns (List.mem_singleton.mp hnew)

theorem compose (h : Faithful start turns births names blanks) {source : Nat} {name : Identity}
    (hname : names[source]? = some name) :
    Faithful start turns (births ++ [.composed source]) (names ++ [name]) blanks := by
  have hsource : source < births.length := by
    rw [← h.length]
    exact (List.getElem?_eq_some_iff.mp hname).1
  have hmem := List.mem_of_getElem? hname
  have hself : Kin births source source := (h.same source source name name hname hname).mp rfl
  exact
    { length := by simp [h.length]
      ordered := h.ordered.concat fun source' hbirth => by
        obtain rfl := Birth.composed.inj hbirth
        exact hsource
      same := by
        apply h.same_concat
        · simpa only [Kin, descends_composed_iff h.ordered hsource] using hself
        · intro place name' hname'
          have hplace : place < births.length := by
            rw [← h.length]
            exact (List.getElem?_eq_some_iff.mp hname').1
          rw [h.same place source name' name hname' hname]
          simp only [Kin, descends_concat_iff h.ordered hplace,
            descends_composed_iff h.ordered hsource]
      given := by
        intro other hother
        rcases List.mem_append.mp hother with hold | hnew
        · exact h.given other hold
        · obtain rfl := List.mem_singleton.mp hnew
          exact h.given other hmem
      burnt := h.burnt
      apart := by
        intro blank hblank hother
        rcases List.mem_append.mp hother with hold | hnew
        · exact h.apart blank hblank hold
        · obtain rfl := List.mem_singleton.mp hnew
          exact h.apart blank hblank hmem }

end Faithful

/-! ### One composition -/

theorem Engine.sequence_compose_eq (engine : Engine) (registry : Registry) (sequence : Sequence)
    (read : SharedHandle → Handle) (agent : AgentId) (operation : Operation) :
    (engine.compose registry sequence read agent operation).sequence =
      if operation.status = .queued ∧ (engine.planFor read operation).toBool then sequence.advance
      else sequence := by
  by_cases hqueued : operation.status = .queued
  · cases hplan : engine.planFor read operation with
    | error cause =>
        rw [compose_of_plan_eq_error hqueued hplan, if_neg fun h => Bool.noConfusion h.2]
        rfl
    | ok plan =>
        rw [compose_of_plan_eq_ok hqueued hplan, if_pos ⟨hqueued, rfl⟩]
        cases engine.carryOut registry ⟨sequence.next⟩ read operation plan with
        | error cause => rfl
        | ok carried => rfl
  · rw [compose_of_not_queued hqueued, if_neg fun h => hqueued h.1]

namespace Session

/-- The engine can begin with the operation, and finds a class for the new version. -/
def planStands (session : Session) (workshop : Ref Workshop) (operation : Operation) : Bool :=
  match session.workshops.get? workshop with
  | none => false
  | some found =>
      operation.status = .queued ∧ (found.engine.planFor session.read operation).toBool

theorem identities_compose (session : Session) (workshop : Ref Workshop) (agent : AgentId)
    (operation : Operation) :
    (session.compose workshop agent operation).2.2.identities =
      if session.planStands workshop operation then session.identities.advance
      else session.identities := by
  cases hworkshop : session.workshops.get? workshop with
  | none =>
      simp only [compose_of_get?_eq_none hworkshop, planStands, hworkshop,
        if_neg Bool.false_ne_true]
  | some found =>
      obtain ⟨board, hcompose⟩ := compose_eq hworkshop agent operation
      rw [hcompose]
      simp only [planStands, hworkshop, decide_eq_true_eq]
      exact found.engine.sequence_compose_eq _ _ _ _ _

end Session

/-! ### Whole runs -/

namespace Session

variable {session : Session} {identity : Identity} {shared : SharedHandle}

theorem Shares.identity_read (h : session.Shares identity shared) :
    (session.read shared).identity = identity := by
  obtain ⟨-, handle, hhandle, hidentity⟩ := h
  rw [read_of_get? hhandle, hidentity]

theorem shares_share (session : Session) (handle : Handle) :
    (session.share handle).2.Shares handle.identity (session.share handle).1 :=
  ⟨rfl, handle, Pool.get?_add_next _ _, rfl⟩

theorem Shares.share (h : session.Shares identity shared) (handle : Handle) :
    (session.share handle).2.Shares identity shared := by
  obtain ⟨hsame, found, hfound, hidentity⟩ := h
  exact ⟨hsame, found, Pool.get?_add_of_get? _ _ _ _ hfound, hidentity⟩

end Session

namespace Run

def birth? (run : Run) : Order → Option Birth
  | .instantiate _ => some .instantiated
  | .compose workshop place agent operation =>
      ((run.fulfil (.compose workshop place agent operation)).1.bind Except.toOption).map fun _ =>
        .composed place

/-- The number that a blank destination is born with. -/
def blank? (run : Run) : Order → Option Identity
  | .instantiate _ => none
  | .compose workshop place _ operation =>
      match run.obtained[place]? with
      | none => none
      | some target =>
          if run.session.planStands workshop (operation.aimedAt target) then
            some ⟨run.session.identities.next⟩
          else none

def names (run : Run) : List Identity := run.obtained.map SharedHandle.identity

end Run

/-- A run, with how its handles came about and the numbers of its blank destinations. -/
structure Chronicle where
  run : Run
  births : List Birth
  blanks : List Identity

namespace Chronicle

def start (session : Session) : Chronicle := ⟨⟨session, []⟩, [], []⟩

def fulfil (chronicle : Chronicle) (order : Order) : Chronicle :=
  { run := (chronicle.run.fulfil order).2
    births := chronicle.births ++ (chronicle.run.birth? order).toList
    blanks := chronicle.blanks ++ (chronicle.run.blank? order).toList }

def fulfilAll (chronicle : Chronicle) (orders : List Order) : Chronicle :=
  orders.foldl fulfil chronicle

/-- How many handles were instantiated, the blank ones among them. -/
def instances (chronicle : Chronicle) : Nat :=
  chronicle.births.count .instantiated + chronicle.blanks.length

/-- Every handle is named, and the names go by lineages. -/
structure Kept (start : Sequence) (chronicle : Chronicle) : Prop where
  named : ∀ shared ∈ chronicle.run.obtained, chronicle.run.session.Shares shared.identity shared
  identities : chronicle.run.session.identities = start.after chronicle.instances
  faithful : Faithful start chronicle.instances chronicle.births chronicle.run.names
    chronicle.blanks

section Steps

variable {start : Sequence} {chronicle : Chronicle} {place : Nat} {target : SharedHandle}

theorem kept_start (session : Session) : Kept session.identities (.start session) where
  named := fun _ hmem => absurd hmem List.not_mem_nil
  identities := (Sequence.after_zero session.identities).symm
  faithful := .nil session.identities

theorem instances_fulfil (chronicle : Chronicle) (order : Order) :
    (chronicle.fulfil order).instances =
      chronicle.instances + (chronicle.run.birth? order).toList.count .instantiated +
        (chronicle.run.blank? order).toList.length := by
  simp only [instances, fulfil, List.count_append, List.length_append]
  omega

theorem fulfil_of_get?_eq_none (h : chronicle.run.obtained[place]? = none)
    (workshop : Ref Workshop) (agent : AgentId) (operation : Operation) :
    chronicle.fulfil (.compose workshop place agent operation) = chronicle := by
  simp only [fulfil, Run.birth?, Run.blank?, Run.fulfil, h, Option.bind_none, Option.map_none,
    Option.toList_none, List.append_nil]

theorem Kept.instantiate (h : Kept start chronicle) (hless : chronicle.instances < UInt64.size)
    (handleClass : HandleClass) : Kept start (chronicle.fulfil (.instantiate handleClass)) := by
  have hcount : (chronicle.fulfil (.instantiate handleClass)).instances =
      chronicle.instances + 1 := instances_fulfil chronicle (.instantiate handleClass)
  constructor
  · intro shared hmem
    rcases List.mem_append.mp hmem with hold | hnew
    · exact (h.named shared hold).share _
    · obtain rfl := List.mem_singleton.mp hnew
      exact Session.shares_share _ _
  · rw [hcount, ← Sequence.advance_after, ← h.identities]
    rfl
  · have hfaithful := h.faithful.instantiate hless
    rw [← h.identities] at hfaithful
    have hnames : (chronicle.fulfil (.instantiate handleClass)).run.names =
        chronicle.run.names ++ [⟨chronicle.run.session.identities.next⟩] :=
      List.map_append
    have hblanks : (chronicle.fulfil (.instantiate handleClass)).blanks = chronicle.blanks :=
      List.append_nil _
    rwa [hcount, hnames, hblanks]

/-- The chronicle when a composition came to its end, but its new version is not obtained yet. -/
def spend (chronicle : Chronicle) (order : Order) : Chronicle :=
  { run := ⟨(chronicle.run.fulfil order).2.session, chronicle.run.obtained⟩
    births := chronicle.births
    blanks := chronicle.blanks ++ (chronicle.run.blank? order).toList }

theorem Kept.spend (h : Kept start chronicle) (hless : chronicle.instances < UInt64.size)
    (htarget : chronicle.run.obtained[place]? = some target) (workshop : Ref Workshop)
    (agent : AgentId) (operation : Operation) :
    Kept start (chronicle.spend (.compose workshop place agent operation)) := by
  have hsequence := chronicle.run.session.identities_compose workshop agent
    (operation.aimedAt target)
  have hnamed : ∀ shared ∈ chronicle.run.obtained, (chronicle.run.session.compose workshop agent
      (operation.aimedAt target)).2.2.Shares shared.identity shared :=
    fun shared hmem => (h.named shared hmem).compose _ _ _
  simp only [Chronicle.spend, Run.fulfil_compose htarget, Run.blank?, htarget]
  cases hstands : chronicle.run.session.planStands workshop (operation.aimedAt target) with
  | false =>
      rw [hstands, if_neg Bool.false_ne_true] at hsequence
      rw [if_neg Bool.false_ne_true, Option.toList_none, List.append_nil]
      exact ⟨hnamed, hsequence.trans h.identities, h.faithful⟩
  | true =>
      rw [hstands, if_pos rfl, h.identities, Sequence.advance_after] at hsequence
      have hfaithful := h.faithful.burn hless
      rw [← h.identities] at hfaithful
      have hcount : chronicle.births.count .instantiated +
          (chronicle.blanks ++ [Identity.mk chronicle.run.session.identities.next]).length =
            chronicle.instances + 1 := by
        rw [List.length_append, List.length_singleton, instances, Nat.add_assoc]
      rw [if_pos rfl, Option.toList_some]
      refine ⟨hnamed, ?_, ?_⟩
      · rw [instances, hcount]
        exact hsequence
      · rw [instances, hcount]
        exact hfaithful

theorem Kept.adopt (h : Kept start chronicle) (htarget : chronicle.run.obtained[place]? = some target)
    {shared : SharedHandle} (hshared : chronicle.run.session.Shares target.identity shared) :
    Kept start
      { run := ⟨chronicle.run.session, chronicle.run.obtained ++ [shared]⟩
        births := chronicle.births ++ [.composed place]
        blanks := chronicle.blanks } := by
  have hname : chronicle.run.names[place]? = some shared.identity := by
    rw [Run.names, List.getElem?_map, htarget, hshared.1]
    rfl
  have hcount : (chronicle.births ++ [Birth.composed place]).count .instantiated +
      chronicle.blanks.length = chronicle.instances := by
    rw [List.count_append]
    rfl
  have hnames : chronicle.run.names ++ [shared.identity] =
      (chronicle.run.obtained ++ [shared]).map SharedHandle.identity := by
    rw [List.map_append]
    rfl
  have hfaithful := h.faithful.compose hname
  rw [hnames] at hfaithful
  constructor
  · intro other hmem
    rcases List.mem_append.mp hmem with hold | hnew
    · exact h.named other hold
    · obtain rfl := List.mem_singleton.mp hnew
      rw [hshared.1]
      exact hshared
  · rw [instances, hcount]
    exact h.identities
  · rw [instances, hcount]
    exact hfaithful

theorem Kept.compose (h : Kept start chronicle) (hless : chronicle.instances < UInt64.size)
    (htarget : chronicle.run.obtained[place]? = some target) (workshop : Ref Workshop)
    (agent : AgentId) (operation : Operation) :
    Kept start (chronicle.fulfil (.compose workshop place agent operation)) := by
  have hspent := h.spend hless htarget workshop agent operation
  have hfulfil := Run.fulfil_compose htarget workshop agent operation
  cases hcomposed : (chronicle.run.session.compose workshop agent (operation.aimedAt target)).1 with
  | error error =>
      have hsame : chronicle.fulfil (.compose workshop place agent operation) =
          chronicle.spend (.compose workshop place agent operation) := by
        simp only [fulfil, Chronicle.spend, Run.birth?, hfulfil, hcomposed, Except.toOption,
          Option.bind_some, Option.map_none, Option.toList_none, List.append_nil]
      rw [hsame]
      exact hspent
  | ok shared =>
      have htargeted : chronicle.run.session.Shares target.identity
          (operation.aimedAt target).target := h.named target (List.mem_of_getElem? htarget)
      have hshared := Session.shares_of_compose_ok htargeted hcomposed
      have hmade : (chronicle.spend (.compose workshop place agent operation)).run.session.Shares
          target.identity shared := by
        rw [Chronicle.spend, hfulfil]
        exact hshared
      have hadopted := hspent.adopt htarget hmade
      simpa only [fulfil, Chronicle.spend, Run.birth?, hfulfil, hcomposed, Except.toOption,
        Option.bind_some, Option.map_some, Option.toList_some] using hadopted

theorem Kept.fulfil (h : Kept start chronicle) (order : Order)
    (hless : chronicle.instances < UInt64.size) : Kept start (chronicle.fulfil order) := by
  cases order with
  | instantiate handleClass => exact h.instantiate hless handleClass
  | compose workshop place agent operation =>
      cases htarget : chronicle.run.obtained[place]? with
      | none =>
          rw [fulfil_of_get?_eq_none htarget]
          exact h
      | some target => exact h.compose hless htarget workshop agent operation

theorem instances_le_fulfilAll (chronicle : Chronicle) (orders : List Order) :
    chronicle.instances ≤ (chronicle.fulfilAll orders).instances := by
  induction orders generalizing chronicle with
  | nil => exact Nat.le_refl _
  | cons order rest ih =>
      have hstep : chronicle.instances ≤ (chronicle.fulfil order).instances := by
        rw [instances_fulfil]
        omega
      exact hstep.trans (ih (chronicle.fulfil order))

theorem Kept.fulfilAll (h : Kept start chronicle) (orders : List Order)
    (hless : (chronicle.fulfilAll orders).instances < UInt64.size) :
    Kept start (chronicle.fulfilAll orders) := by
  induction orders generalizing chronicle with
  | nil => exact h
  | cons order rest ih =>
      have hbefore := (chronicle.instances_le_fulfilAll (order :: rest)).trans_lt hless
      exact ih (h.fulfil order hbefore) hless

end Steps

/-- Two handles of a run have the same identity when they come from the same instance, and only then.
A number is taken for each instance, and for each composition with a plan that stands, whatever comes
of it. Numbers of the second kind are the identity of no handle. -/
theorem identity_names_lineage (session : Session) (orders : List Order) :
    let chronicle := (start session).fulfilAll orders
    chronicle.instances < UInt64.size →
      (∀ place other shared shared', chronicle.run.obtained[place]? = some shared →
        chronicle.run.obtained[other]? = some shared' →
          ((chronicle.run.session.read shared).identity =
              (chronicle.run.session.read shared').identity ↔
            Kin chronicle.births place other)) ∧
        (∀ blank ∈ chronicle.blanks, ∀ shared ∈ chronicle.run.obtained,
          (chronicle.run.session.read shared).identity ≠ blank) ∧
        chronicle.run.session.identities = session.identities.after chronicle.instances ∧
        ∀ workshop agent operation,
          (chronicle.run.session.compose workshop agent operation).2.2.identities =
            if chronicle.run.session.planStands workshop operation then
              chronicle.run.session.identities.advance
            else chronicle.run.session.identities := by
  intro chronicle hless
  have hkept : Kept session.identities chronicle := (kept_start session).fulfilAll orders hless
  refine ⟨?_, ?_, hkept.identities, chronicle.run.session.identities_compose⟩
  · intro place other shared shared' hshared hshared'
    rw [(hkept.named shared (List.mem_of_getElem? hshared)).identity_read,
      (hkept.named shared' (List.mem_of_getElem? hshared')).identity_read]
    apply hkept.faithful.same
    · rw [Run.names, List.getElem?_map, hshared]
      rfl
    · rw [Run.names, List.getElem?_map, hshared']
      rfl
  · rintro blank hblank shared hshared rfl
    rw [(hkept.named shared hshared).identity_read] at hblank
    exact hkept.faithful.apart shared.identity hblank (List.mem_map_of_mem hshared)

section Branching

/-- The role is assumed twice on the first handle. Then a transfer that has its source already fails on it,
and the second handle has no role to release. -/
def branchingOrders : List Order :=
  let admin := (Role.administrator true []).reference ⟨0⟩
  let assume := ChangeKind.assume.operation ⟨⟨0⟩, ⟨1⟩⟩ admin
  let stale := { assume with
    transfer := { Transfer.fresh with source := some assume.target, sourceSet := true } }
  [.instantiate .database, .instantiate .metered, .compose ⟨0⟩ 0 .zero assume,
    .compose ⟨0⟩ 0 .zero assume, .compose ⟨0⟩ 0 .zero stale,
    .compose ⟨0⟩ 1 .zero (ChangeKind.release.operation ⟨⟨1⟩, ⟨2⟩⟩ admin)]

def branching : Chronicle :=
  (start (Session.start.addWorkshop ⟨none, false⟩ none none).2).fulfilAll branchingOrders

theorem identity_names_lineage_branching :
    branching.instances < UInt64.size ∧ branching.blanks = [⟨3⟩, ⟨4⟩, ⟨5⟩] ∧
      branching.run.session.identities = ⟨6⟩ ∧ Kin branching.births 2 3 ∧
      ¬ Kin branching.births 1 3 ∧
      ∀ shared ∈ branching.run.obtained, (branching.run.session.read shared).identity ≠ ⟨5⟩ := by
  have hless : branching.instances < UInt64.size := by decide +kernel
  have hblanks : branching.blanks = [⟨3⟩, ⟨4⟩, ⟨5⟩] := by decide +kernel
  have hsequence : branching.run.session.identities = ⟨6⟩ := by decide +kernel
  have hobtained : branching.run.obtained =
      [⟨⟨0⟩, ⟨1⟩⟩, ⟨⟨1⟩, ⟨2⟩⟩, ⟨⟨2⟩, ⟨1⟩⟩, ⟨⟨3⟩, ⟨1⟩⟩] := by decide +kernel
  obtain ⟨hsame, hburnt, -, -⟩ := identity_names_lineage
    (Session.start.addWorkshop ⟨none, false⟩ none none).2 branchingOrders hless
  have hkin := hsame 2 3 ⟨⟨2⟩, ⟨1⟩⟩ ⟨⟨3⟩, ⟨1⟩⟩ (congrArg (·[2]?) hobtained)
    (congrArg (·[3]?) hobtained)
  have hstrange := hsame 1 3 ⟨⟨1⟩, ⟨2⟩⟩ ⟨⟨3⟩, ⟨1⟩⟩ (congrArg (·[1]?) hobtained)
    (congrArg (·[3]?) hobtained)
  have hblank : ⟨5⟩ ∈ branching.blanks := by
    rw [hblanks]
    decide
  exact ⟨hless, hblanks, hsequence, hkin.mp (by decide +kernel),
    mt hstrange.mpr (by decide +kernel), hburnt ⟨5⟩ hblank⟩

end Branching

end Chronicle

end RoleStack

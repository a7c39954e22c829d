import RoleStack.HandleClass.Samples
import RoleStack.Proofs.Roots
import RoleStack.Proofs.SessionComposing

/-!
# State that lasts

A handle keeps to the layout of its base, and a composition gives the next version the identity, the
field values and the counts of the one before. Both hold along every run that writes to fields, counts
uses and composes, with any generators and on any engines.
-/

namespace RoleStack

/-! ### Tables under writes -/

namespace Table

variable {Key Value : Type} [DecidableEq Key]

theorem keys_insert_of_get? {table : Table Key Value} {key : Key} {previous : Value}
    (h : table.get? key = some previous) (value : Value) :
    (table.insert key value).keys = table.keys := by
  obtain ⟨entries⟩ := table
  simp only [get?, insert, keys] at h ⊢
  induction entries with
  | nil => cases h
  | cons entry rest ih =>
      obtain ⟨other, present⟩ := entry
      by_cases hother : other = key
      · simp [insertEntry, hother]
      · rw [lookupEntry, if_neg hother] at h
        simp [insertEntry, hother, ih h]

theorem get?_eq_none_of_keys_eq {first second : Table Key Value} (hkeys : first.keys = second.keys)
    {key : Key} (h : first.get? key = none) : second.get? key = none := by
  rw [← Option.not_isSome_iff_eq_none, ← mem_keys_iff] at h ⊢
  rwa [← hkeys]

end Table

/-! ### Copies of extended state -/

namespace HandleClass

def CopiesSteadily (handleClass : HandleClass) : Prop :=
  ∀ fresh, handleClass.extension? = some fresh → fresh.Steady

def CopiesFaithfully (handleClass : HandleClass) : Prop :=
  ∀ fresh, handleClass.extension? = some fresh → fresh.Faithful

theorem CopiesFaithfully.copiesSteadily {handleClass : HandleClass}
    (h : handleClass.CopiesFaithfully) : handleClass.CopiesSteadily :=
  fun fresh hfresh => (h fresh hfresh).steady

/-- As where there is no extended state, or uses are counted. -/
theorem copiesFaithfully_of_usage {handleClass : HandleClass}
    (h : ∀ fresh, handleClass.extension? = some fresh → ∃ counts, fresh = .usage counts) :
    handleClass.CopiesFaithfully := by
  intro fresh hfresh
  obtain ⟨counts, rfl⟩ := h fresh hfresh
  exact Extension.faithful_usage counts

theorem copiesFaithfully_metered : metered.CopiesFaithfully :=
  copiesFaithfully_of_usage fun _ hfresh => ⟨_, (Option.some.inj hfresh).symm⟩

end HandleClass

namespace Handle

theorem keys_mergeFields (source destination : Table String Json) :
    (mergeFields source destination).keys = destination.keys := by
  simp [mergeFields, Table.keys]

theorem get?_mergeFields (source destination : Table String Json) (field : String) :
    (mergeFields source destination).get? field =
      (destination.get? field).map fun own => (source.get? field).getD own := by
  obtain ⟨entries⟩ := destination
  simp only [mergeFields, Table.get?]
  induction entries with
  | nil => rfl
  | cons entry rest ih =>
      obtain ⟨name, own⟩ := entry
      rw [List.map_cons, Table.lookupEntry, Table.lookupEntry]
      by_cases hname : name = field
      · simp [hname]
      · rw [if_neg hname, if_neg hname, ih]

/-- A source with the same fields passes all its values on. -/
theorem get?_mergeFields_of_keys_eq {source destination : Table String Json}
    (hkeys : source.keys = destination.keys) (field : String) :
    (mergeFields source destination).get? field = source.get? field := by
  rw [get?_mergeFields]
  cases hsource : source.get? field with
  | none => rw [Table.get?_eq_none_of_keys_eq hkeys hsource, Option.map_none]
  | some value =>
      cases hown : destination.get? field with
      | none => rw [Table.get?_eq_none_of_keys_eq hkeys.symm hown] at hsource; cases hsource
      | some own => rfl

/-! ### What a handle keeps to -/

/-- The handle is of a class over the base, and has the fields of its layout in their order. -/
structure Keeps (handle : Handle) (base : HandleClass) : Prop where
  root : handle.handleClass.root = base
  fields : handle.fields.keys = base.layout.keys

/-- The handle has extended state exactly if new instances of its class have, and of the same kind. -/
def Extended (handle : Handle) : Prop :=
  handle.extension.map Extension.copy = handle.handleClass.extension?.map Extension.copy

/-- The handle has the identity and the field values of the source. -/
structure Continues (handle source : Handle) : Prop where
  identity : handle.identity = source.identity
  fields : ∀ field, handle.fields.get? field = source.fields.get? field

variable {handle next : Handle} {base : HandleClass}

theorem keeps_blank (hbase : base.isBase = true) (identity : Identity) :
    (blank identity base).Keeps base where
  root := HandleClass.root_of_isBase hbase
  fields := rfl

theorem Keeps.extension?_eq (h : handle.Keeps base) :
    handle.handleClass.extension? = base.extension? := by
  rw [← h.root, HandleClass.extension?_root]

theorem Keeps.copiesSteadily (h : handle.Keeps base) (hbase : base.CopiesSteadily) :
    handle.handleClass.CopiesSteadily :=
  fun fresh hfresh => hbase fresh (h.extension?_eq ▸ hfresh)

theorem Keeps.copiesFaithfully_iff (h : handle.Keeps base) :
    handle.handleClass.CopiesFaithfully ↔ base.CopiesFaithfully := by
  rw [HandleClass.CopiesFaithfully, HandleClass.CopiesFaithfully, h.extension?_eq]

theorem exists_of_setField {field : String} {value previous : Json}
    (h : handle.setField field value = .ok (previous, next)) :
    handle.fields.get? field = some previous ∧
      next = { handle with fields := handle.fields.insert field value } := by
  unfold setField at h
  split at h
  · rename_i found hfound
    obtain ⟨rfl, rfl⟩ := Prod.mk.inj (Except.ok.inj h)
    exact ⟨hfound, rfl⟩
  · cases h

theorem Keeps.setField (hkeeps : handle.Keeps base) {field : String} {value previous : Json}
    (h : handle.setField field value = .ok (previous, next)) : next.Keeps base := by
  obtain ⟨hfield, rfl⟩ := exists_of_setField h
  exact ⟨hkeeps.root, (Table.keys_insert_of_get? hfield value).trans hkeeps.fields⟩

theorem Extended.setField (hextended : handle.Extended) {field : String} {value previous : Json}
    (h : handle.setField field value = .ok (previous, next)) : next.Extended := by
  obtain ⟨-, rfl⟩ := exists_of_setField h
  exact hextended

theorem Extended.recordUse (hextended : handle.Extended) (operation : String) :
    (handle.recordUse operation).Extended := by
  have hcopy : Extension.copy ∘ (·.record operation) = Extension.copy :=
    funext fun extension => extension.copy_record operation
  rw [Extended, Handle.recordUse, Option.map_map, hcopy]
  exact hextended

/-- The extended state of the next version is a copy in a fresh one, if there is any. -/
structure Copies (next handle : Handle) : Prop where
  none : handle.handleClass.extension? = none → handle.extension = none ∧ next.extension = none
  some : ∀ fresh, handle.handleClass.extension? = some fresh →
    ∃ state copied, handle.extension = some state ∧ state.copy = fresh.copy ∧
      state.copyInto fresh = .ok copied ∧ next.extension = some copied

theorem Extended.copies_of_absorb {source destination merged : Handle}
    (hextended : source.Extended)
    (hsame : destination.handleClass.extension? = source.handleClass.extension?)
    (hblank : destination.extension = destination.handleClass.extension?)
    (h : absorb source destination = .ok merged) : merged.Copies source := by
  obtain ⟨extension, hextension, rfl⟩ := exists_of_absorb h
  rw [copiedExtension, hblank, hsame] at hextension
  rw [Extended] at hextended
  constructor
  · intro hfresh
    rw [hfresh] at hextended hextension
    exact ⟨Option.map_eq_none_iff.mp hextended, (Except.ok.inj hextension).symm⟩
  · intro fresh hfresh
    rw [hfresh] at hextended hextension
    obtain ⟨state, hstate, hkind⟩ := Option.map_eq_some_iff.mp hextended
    rw [hstate] at hextension
    simp only at hextension
    cases hcopied : state.copyInto fresh with
    | error error =>
        rw [hcopied] at hextension
        cases hextension
    | ok copied =>
        rw [hcopied] at hextension
        exact ⟨state, copied, hstate, hkind, hcopied, (Except.ok.inj hextension).symm⟩

section Copies

variable (h : next.Copies handle)

include h

theorem Copies.extended (hsame : next.handleClass.extension? = handle.handleClass.extension?) :
    next.Extended := by
  rw [Extended, hsame]
  cases hfresh : handle.handleClass.extension? with
  | none => rw [(h.none hfresh).2]
  | some fresh =>
      obtain ⟨state, copied, -, -, hcopied, hnext⟩ := h.some fresh hfresh
      rw [hnext, Option.map_some, Option.map_some, Extension.copy_of_copyInto hcopied]

theorem Copies.extension_eq (hfaithful : handle.handleClass.CopiesFaithfully) :
    next.extension = handle.extension := by
  cases hfresh : handle.handleClass.extension? with
  | none => rw [(h.none hfresh).1, (h.none hfresh).2]
  | some fresh =>
      obtain ⟨state, copied, hstate, hkind, hcopied, hnext⟩ := h.some fresh hfresh
      rw [hnext, hstate, (hfaithful fresh hfresh).eq_of_copyInto hkind hcopied]

/-- A handle that was copied can be copied once more than its copy. -/
theorem Copies.copyableFor_succ
    (hsame : next.handleClass.extension? = handle.handleClass.extension?) {times : Nat}
    (hnext : next.CopyableFor times) : handle.CopyableFor (times + 1) := by
  intro fresh hfresh
  obtain ⟨state, copied, hstate, -, hcopied, hextension⟩ := h.some fresh hfresh
  have hlater := hnext fresh (hsame.trans hfresh)
  rw [hextension, Option.getD_some] at hlater
  rw [hstate, Option.getD_some]
  exact ⟨copied, hcopied, hlater⟩

theorem Copies.copyable (hsame : next.handleClass.extension? = handle.handleClass.extension?)
    (hsteady : handle.handleClass.CopiesSteadily) : next.Copyable := by
  intro times fresh hfound
  have hfresh : handle.handleClass.extension? = Option.some fresh := hsame ▸ hfound
  obtain ⟨state, copied, -, hkind, hcopied, hextension⟩ := h.some fresh hfresh
  rw [hextension, Option.getD_some]
  exact (hsteady fresh hfresh).copiesFor hkind hcopied times

end Copies

end Handle

@[simp]
theorem Operation.blankDestination_fields (operation : Operation) (identity : Identity)
    (handleClass : HandleClass) :
    (operation.blankDestination identity handleClass).fields = handleClass.layout := by
  unfold blankDestination
  split <;> rfl

namespace Engine

variable {engine : Engine} {registry : Registry} {sequence : Sequence}
  {read : SharedHandle → Handle} {agent : AgentId} {operation : Operation} {next : Handle}
  {base : HandleClass}

theorem absorb_of_compose_ok
    (h : (engine.compose registry sequence read agent operation).result = .ok next) :
    Handle.absorb (read operation.target)
      (operation.blankDestination ⟨sequence.next⟩ next.handleClass) = .ok next := by
  obtain ⟨plan, hcomposes⟩ := exists_of_compose_ok h
  rw [hcomposes.handleClass]
  exact (Operation.populate_eq_ok_iff.mp hcomposes.populated).2

theorem fields_of_compose_ok
    (h : (engine.compose registry sequence read agent operation).result = .ok next) :
    next.fields = Handle.mergeFields (read operation.target).fields next.handleClass.layout := by
  obtain ⟨extension, -, hnext⟩ := Handle.exists_of_absorb (absorb_of_compose_ok h)
  have hfields := congrArg Handle.fields hnext
  rwa [Operation.blankDestination_fields] at hfields

theorem keeps_of_compose_ok (hkeeps : (read operation.target).Keeps base)
    (h : (engine.compose registry sequence read agent operation).result = .ok next) :
    next.Keeps base := by
  have hroot : next.handleClass.root = base := (root_of_compose_ok h).trans hkeeps.root
  refine ⟨hroot, ?_⟩
  rw [fields_of_compose_ok h, Handle.keys_mergeFields, ← HandleClass.layout_root, hroot]

theorem get?_fields_of_compose_ok (hkeeps : (read operation.target).Keeps base)
    (h : (engine.compose registry sequence read agent operation).result = .ok next)
    (field : String) : next.fields.get? field = (read operation.target).fields.get? field := by
  have hlayout : next.handleClass.layout = base.layout := by
    rw [← HandleClass.layout_root, root_of_compose_ok h, hkeeps.root]
  rw [fields_of_compose_ok h, hlayout, Handle.get?_mergeFields_of_keys_eq hkeeps.fields]

theorem extension?_of_compose_ok
    (h : (engine.compose registry sequence read agent operation).result = .ok next) :
    next.handleClass.extension? = (read operation.target).handleClass.extension? :=
  HandleClass.extension?_eq_of_root (root_of_compose_ok h)

theorem copies_of_compose_ok (hextended : (read operation.target).Extended)
    (h : (engine.compose registry sequence read agent operation).result = .ok next) :
    next.Copies (read operation.target) := by
  refine hextended.copies_of_absorb ?_ ?_ (absorb_of_compose_ok h)
  · rw [Operation.blankDestination_handleClass]
    exact extension?_of_compose_ok h
  · rw [Operation.blankDestination_extension, Operation.blankDestination_handleClass]

theorem extended_of_compose_ok (hextended : (read operation.target).Extended)
    (h : (engine.compose registry sequence read agent operation).result = .ok next) :
    next.Extended :=
  (copies_of_compose_ok hextended h).extended (extension?_of_compose_ok h)

theorem continues_of_compose_ok (hkeeps : (read operation.target).Keeps base)
    (h : (engine.compose registry sequence read agent operation).result = .ok next) :
    next.Continues (read operation.target) where
  identity := identity_of_compose_ok h
  fields := get?_fields_of_compose_ok hkeeps h

end Engine

/-! ### Runs that write -/

/-- What is done to the handles of a run, each named by the place in which it was obtained. -/
inductive Deed where
  | setField (place : Nat) (field : String) (value : Json)
  | recordUse (place : Nat) (operation : String)
  | compose (workshop : Ref Workshop) (place : Nat) (agent : AgentId) (operation : Operation)

/-- The generator of a composition is one of these. -/
def Deed.Generates (allowed : Generator → Prop) : Deed → Prop
  | .setField .. | .recordUse .. => True
  | .compose _ _ _ operation => allowed operation.generator

namespace Run

/-- A fresh instance of the class is all that was obtained. -/
def fresh (session : Session) (base : HandleClass) : Run :=
  ((Run.mk session []).fulfil (.instantiate base)).2

/-- Changes the present state of a handle, if one was obtained in this place. -/
def writeAt (run : Run) (place : Nat) (write : Session → SharedHandle → Session) : Run :=
  match run.obtained[place]? with
  | none => run
  | some shared => ⟨write run.session shared, run.obtained⟩

def perform (run : Run) : Deed → Run
  | .setField place field value =>
      run.writeAt place fun session shared => (session.setField shared field value).2
  | .recordUse place operation =>
      run.writeAt place fun session shared => (session.recordUse shared operation).2
  | .compose workshop place agent operation =>
      (run.fulfil (.compose workshop place agent operation)).2

def performAll (run : Run) : List Deed → Run
  | [] => run
  | deed :: rest => (run.perform deed).performAll rest

end Run

/-- The new version is the one that the engine made, and it is what its reference reads as. -/
theorem Session.exists_of_compose_eq_ok {session : Session} {workshop : Ref Workshop}
    {agent : AgentId} {operation : Operation} {shared : SharedHandle}
    (h : (session.compose workshop agent operation).1 = .ok shared) :
    ∃ found next, session.workshops.get? workshop = some found ∧
      (session.composition found agent operation).result = .ok next ∧
      (session.compose workshop agent operation).2.2.handles.get? shared.cell = some next := by
  obtain ⟨found, next, hworkshop, hresult, rfl⟩ := exists_of_compose_ok h
  obtain ⟨board, hcompose⟩ := compose_eq hworkshop agent operation
  refine ⟨found, next, hworkshop, hresult, ?_⟩
  rw [hcompose, hresult]
  exact Pool.get?_add_next _ _

/-- A property of handles that no deed takes away. -/
structure Handle.Lasting (property : Handle → Prop) (allowed : Generator → Prop) : Prop where
  setField : ∀ {handle next : Handle} {field : String} {value previous : Json}, property handle →
    handle.setField field value = .ok (previous, next) → property next
  recordUse : ∀ {handle : Handle} (operation : String), property handle →
    property (handle.recordUse operation)
  compose : ∀ {engine : Engine} {registry : Registry} {sequence : Sequence}
    {read : SharedHandle → Handle} {agent : AgentId} {operation : Operation} {next : Handle},
    allowed operation.generator → property (read operation.target) →
      (engine.compose registry sequence read agent operation).result = .ok next → property next

namespace Run

/-- Every handle that was obtained has the property. -/
def Everywhere (property : Handle → Prop) (run : Run) : Prop :=
  ∀ shared ∈ run.obtained,
    ∃ handle, run.session.handles.get? shared.cell = some handle ∧ property handle

variable {property : Handle → Prop} {allowed : Generator → Prop} {run : Run}

theorem Everywhere.read (h : run.Everywhere property) {shared : SharedHandle}
    (hshared : shared ∈ run.obtained) : property (run.session.read shared) := by
  obtain ⟨handle, hhandle, hproperty⟩ := h shared hshared
  rw [Session.read_of_get? hhandle]
  exact hproperty

theorem everywhere_fresh {session : Session} {base : HandleClass}
    (h : ∀ identity, property (Handle.blank identity base)) :
    (fresh session base).Everywhere property := by
  intro shared hshared
  obtain rfl := List.mem_singleton.mp hshared
  exact ⟨_, Pool.get?_add_next _ _, h _⟩

theorem Everywhere.write (h : run.Everywhere property) (shared : SharedHandle) {state : Handle}
    (hstate : property state) :
    (Run.mk (run.session.write shared state) run.obtained).Everywhere property := by
  intro other hother
  obtain ⟨handle, hhandle, hproperty⟩ := h other hother
  simp only [Session.write, Pool.get?_set]
  split
  · exact ⟨state, by rw [hhandle, Option.map_some], hstate⟩
  · exact ⟨handle, hhandle, hproperty⟩

theorem Everywhere.writeAt (h : run.Everywhere property) (place : Nat)
    {write : Session → SharedHandle → Session}
    (hwrite : ∀ shared ∈ run.obtained,
      (Run.mk (write run.session shared) run.obtained).Everywhere property) :
    (run.writeAt place write).Everywhere property := by
  unfold Run.writeAt
  split
  · exact h
  · rename_i shared hplace
    exact hwrite shared (List.mem_of_getElem? hplace)

theorem Everywhere.perform (lasting : Handle.Lasting property allowed) (h : run.Everywhere property)
    {deed : Deed} (hdeed : deed.Generates allowed) : (run.perform deed).Everywhere property := by
  cases deed with
  | setField place field value =>
      apply h.writeAt
      intro shared hshared
      unfold Session.setField
      split
      · exact h
      · rename_i previous state hset
        exact h.write shared (lasting.setField (h.read hshared) hset)
  | recordUse place operation =>
      apply h.writeAt
      intro shared hshared
      exact h.write shared (lasting.recordUse operation (h.read hshared))
  | compose workshop place agent operation =>
      rw [Run.perform]
      cases hplace : run.obtained[place]? with
      | none =>
          rw [fulfil, hplace]
          exact h
      | some source =>
          rw [fulfil_compose hplace]
          intro shared hshared
          rcases List.mem_append.mp hshared with hold | hnew
          · obtain ⟨handle, hhandle, hproperty⟩ := h shared hold
            exact ⟨handle, Session.get?_handles_compose hhandle _ _ _, hproperty⟩
          · cases hcomposed :
                (run.session.compose workshop agent (operation.aimedAt source)).1 with
            | error error =>
                rw [hcomposed] at hnew
                cases hnew
            | ok made =>
                rw [hcomposed] at hnew
                obtain rfl := List.mem_singleton.mp hnew
                obtain ⟨found, next, -, hresult, hnext⟩ :=
                  Session.exists_of_compose_eq_ok hcomposed
                have hallowed : allowed (operation.aimedAt source).generator := hdeed
                have hsource : property (run.session.read (operation.aimedAt source).target) :=
                  h.read (List.mem_of_getElem? hplace)
                exact ⟨next, hnext, lasting.compose hallowed hsource hresult⟩

/-- What no deed takes away holds along the whole run. -/
theorem Everywhere.performAll (lasting : Handle.Lasting property allowed)
    (h : run.Everywhere property) {deeds : List Deed}
    (hdeeds : ∀ deed ∈ deeds, deed.Generates allowed) :
    (run.performAll deeds).Everywhere property := by
  induction deeds generalizing run with
  | nil => exact h
  | cons deed rest ih =>
      apply ih (h.perform lasting (hdeeds deed List.mem_cons_self))
      intro later hlater
      exact hdeeds later (List.mem_cons_of_mem _ hlater)

theorem lasting_keeps (base : HandleClass) :
    Handle.Lasting (fun handle => handle.Keeps base ∧ handle.Extended) fun _ => True where
  setField := fun h hset => ⟨h.1.setField hset, h.2.setField hset⟩
  recordUse := fun operation h => ⟨⟨h.1.root, h.1.fields⟩, h.2.recordUse operation⟩
  compose := fun _ h hresult =>
    ⟨Engine.keeps_of_compose_ok h.1 hresult, Engine.extended_of_compose_ok h.2 hresult⟩

theorem everywhere_keeps (session : Session) {base : HandleClass} (hbase : base.isBase = true)
    (deeds : List Deed) :
    ((fresh session base).performAll deeds).Everywhere fun handle =>
      handle.Keeps base ∧ handle.Extended := by
  have hfresh : (fresh session base).Everywhere fun handle => handle.Keeps base ∧ handle.Extended :=
    everywhere_fresh fun identity => ⟨Handle.keeps_blank hbase identity, rfl⟩
  apply hfresh.performAll (lasting_keeps base)
  intro deed _
  cases deed <;> trivial

/-- In a run from a fresh instance every handle keeps to the base and to its layout, and every
composition continues the handle that it changes, in the state that it has at that moment. Uses go on
being counted, unless the base makes extended state that does not copy them. -/
theorem state_follows_identity (session : Session) {base : HandleClass} (hbase : base.isBase = true)
    (deeds : List Deed) :
    let run := (fresh session base).performAll deeds
    (∀ shared ∈ run.obtained,
      (run.session.read shared).handleClass.root = base ∧
        (run.session.read shared).fields.keys = base.layout.keys) ∧
    ∀ (place : Nat) source workshop agent (operation : Operation) next,
      run.obtained[place]? = some source →
      (run.session.compose workshop agent (operation.aimedAt source)).1 = .ok next →
        let later := (run.session.compose workshop agent (operation.aimedAt source)).2.2
        (later.read next).Continues (run.session.read source) ∧
          (base.CopiesFaithfully → ∀ counted,
            (later.read next).useCount? counted = (run.session.read source).useCount? counted) := by
  intro run
  have heverywhere := everywhere_keeps session hbase deeds
  refine ⟨fun shared hshared => ?_, ?_⟩
  · obtain ⟨hkeeps, -⟩ := heverywhere.read hshared
    exact ⟨hkeeps.root, hkeeps.fields⟩
  · intro place source workshop agent operation next hplace hcomposed later
    obtain ⟨hkeeps, hextended⟩ := heverywhere.read (List.mem_of_getElem? hplace)
    obtain ⟨found, made, -, hresult, hmade⟩ := Session.exists_of_compose_eq_ok hcomposed
    rw [Session.read_of_get? hmade]
    refine ⟨Engine.continues_of_compose_ok hkeeps hresult, ?_⟩
    intro hfaithful counted
    have hextension := (Engine.copies_of_compose_ok hextended hresult).extension_eq
      (hkeeps.copiesFaithfully_iff.mpr hfaithful)
    rw [Handle.useCount?, hextension]
    rfl

/-! ### A run on counted handles -/

section Metering

/-- Writes on the first version and on the second, which an auditor's layer extends then. -/
def meteringDeeds : List Deed :=
  let assume (role : RoleRef) := ChangeKind.assume.operation ⟨⟨0⟩, ⟨1⟩⟩ role
  [.setField 0 "calls" (.ofNat 7), .recordUse 0 "createDatabase",
    .compose ⟨0⟩ 0 .zero (assume ((Role.administrator true []).reference ⟨0⟩)),
    .recordUse 1 "createDatabase", .setField 1 "calls" (.ofNat 8),
    .compose ⟨0⟩ 1 .zero (assume ((Role.auditor []).reference ⟨1⟩))]

def metering : Run :=
  (fresh (Session.start.addWorkshop ⟨none, false⟩ none none).2 .metered).performAll meteringDeeds

/-- The administrator goes from below the auditor. -/
def meteringRelease : Except CompositionError SharedHandle × Operation × Session :=
  metering.session.compose ⟨0⟩ .zero
    (ChangeKind.release.operation ⟨⟨2⟩, ⟨1⟩⟩ ((Role.administrator true []).reference ⟨0⟩))

theorem state_follows_identity_metering :
    HandleClass.metered.isBase = true ∧ meteringRelease.1 = .ok ⟨⟨3⟩, ⟨1⟩⟩ ∧
      (meteringRelease.2.2.read ⟨⟨3⟩, ⟨1⟩⟩).handleClass.layers = [.role Role.auditing] ∧
      (meteringRelease.2.2.read ⟨⟨3⟩, ⟨1⟩⟩).fields.get? "calls" = some (.ofNat 8) ∧
      (meteringRelease.2.2.read ⟨⟨3⟩, ⟨1⟩⟩).useCount? "createDatabase" = some 2 := by
  have hbase : HandleClass.metered.isBase = true := rfl
  have hplace : metering.obtained[2]? = some ⟨⟨2⟩, ⟨1⟩⟩ := by decide +kernel
  have hreleased : meteringRelease.1 = .ok ⟨⟨3⟩, ⟨1⟩⟩ := by decide +kernel
  have hcalls : (metering.session.read ⟨⟨2⟩, ⟨1⟩⟩).fields.get? "calls" = some (.ofNat 8) := rfl
  have huses : (metering.session.read ⟨⟨2⟩, ⟨1⟩⟩).useCount? "createDatabase" = some 2 := by
    decide +kernel
  have hlayers : (meteringRelease.2.2.read ⟨⟨3⟩, ⟨1⟩⟩).handleClass.layers = [.role Role.auditing] := by
    decide +kernel
  obtain ⟨hcontinues, hcounts⟩ :=
    (state_follows_identity _ hbase meteringDeeds).2 2 ⟨⟨2⟩, ⟨1⟩⟩ ⟨0⟩ .zero
      (ChangeKind.release.operation ⟨⟨2⟩, ⟨1⟩⟩ ((Role.administrator true []).reference ⟨0⟩))
      ⟨⟨3⟩, ⟨1⟩⟩ hplace hreleased
  exact ⟨hbase, hreleased, hlayers, (hcontinues.fields "calls").trans hcalls,
    (hcounts HandleClass.copiesFaithfully_metered "createDatabase").trans huses⟩

end Metering

end Run

end RoleStack

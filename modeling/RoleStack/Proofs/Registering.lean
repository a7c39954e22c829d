import RoleStack.HandleClass.Samples
import RoleStack.Proofs.NameCollisions
import RoleStack.Proofs.SessionComposing

/-!
# Registries only grow

A registry holds the classes of every batch that it took in, each under its name, and keeps them. A
batch enters whole or not at all, whether it is handed in directly or by an engine that made it. It
is refused for the first of its classes whose name came earlier in the batch or is registered.
-/

namespace RoleStack

/-! ### One batch -/

namespace Registry

variable {registry filled : Registry} {batch accepted : List HandleClass} {name : String}

/-- No name of the batch comes twice in it, and none is registered. -/
def Admits (registry : Registry) (batch : List HandleClass) : Prop :=
  (batch.map HandleClass.name).Nodup ∧ ∀ made ∈ batch, registry.get? made.name = none

theorem contains_eq_false_iff : registry.contains name = false ↔ registry.get? name = none := by
  rw [contains, Table.contains, Option.isSome_eq_false_iff, Option.isNone_iff_eq_none, get?]

theorem collision?_eq_none_iff_admits : registry.collision? batch [] = none ↔ registry.Admits batch := by
  simp [collision?_eq_none_iff, Admits, contains_eq_false_iff]

theorem exists_of_collision?_eq_some {earlier : List String}
    (h : registry.collision? batch earlier = some name) :
    ∃ front made rest, batch = front ++ made :: rest ∧ registry.collision? front earlier = none ∧
      (made.name ∈ earlier ∨ made.name ∈ front.map HandleClass.name ∨
        registry.contains made.name = true) ∧ name = made.name := by
  induction batch generalizing earlier with
  | nil => cases h
  | cons first rest ih =>
      rw [collision?] at h
      split at h
      · rename_i hcollides
        obtain rfl := Option.some.inj h
        rw [Bool.or_eq_true, List.contains_iff_mem] at hcollides
        exact ⟨[], first, rest, rfl, rfl, hcollides.imp_right .inr, rfl⟩
      · rename_i hfree
        obtain ⟨front, made, later, rfl, hfront, htaken, hname⟩ := ih h
        refine ⟨first :: front, made, later, rfl, ?_, ?_, hname⟩
        · rw [collision?, if_neg hfree, hfront]
        · rw [List.mem_cons, List.map_cons, List.mem_cons] at *
          tauto

theorem exists_registerAll_iff_admits :
    (∃ filled, registry.registerAll batch = .ok filled) ↔ registry.Admits batch := by
  rw [← collision?_eq_none_iff_admits, registerAll]
  cases registry.collision? batch [] <;> simp

/-- A refused batch is refused for the first class that does not fit in. -/
theorem exists_of_registerAll_eq_error (h : registry.registerAll batch = .error name) :
    ∃ front made rest, batch = front ++ made :: rest ∧ registry.Admits front ∧
      (made.name ∈ front.map HandleClass.name ∨ registry.get? made.name ≠ none) ∧
      name = made.name := by
  unfold registerAll at h
  split at h
  · rename_i found hcollision
    obtain rfl := Except.error.inj h
    obtain ⟨front, made, rest, hbatch, hfront, htaken, hname⟩ :=
      exists_of_collision?_eq_some hcollision
    refine ⟨front, made, rest, hbatch, collision?_eq_none_iff_admits.mp hfront, ?_, hname⟩
    rw [← Bool.not_eq_false, contains_eq_false_iff] at htaken
    exact htaken.resolve_left List.not_mem_nil
  · cases h

/-! ### What a registry holds -/

/-- The registry holds exactly these classes, each under its name and no two under one. -/
structure Holds (registry : Registry) (accepted : List HandleClass) : Prop where
  entries : registry.classes.entries = accepted.map fun made => (made.name, made)
  distinct : (accepted.map HandleClass.name).Nodup

theorem holds_empty : empty.Holds [] := ⟨rfl, List.nodup_nil⟩

namespace Holds

theorem keys_eq (h : registry.Holds accepted) :
    registry.classes.keys = accepted.map HandleClass.name := by
  rw [Table.keys, h.entries, List.map_map]
  rfl

theorem get?_eq_find? (h : registry.Holds accepted) (name : String) :
    registry.get? name = accepted.find? fun made => made.name = name := by
  rw [get?, Table.get?, h.entries,
    Table.lookupEntry_map_eq_find? HandleClass.name (fun made => made), Option.map_id']

theorem get?_eq_some_iff (h : registry.Holds accepted) {made : HandleClass} :
    registry.get? name = some made ↔ made ∈ accepted ∧ made.name = name := by
  rw [h.get?_eq_find?]
  constructor
  · intro hfind
    exact ⟨List.mem_of_find?_eq_some hfind, by simpa using List.find?_some hfind⟩
  · rintro ⟨hmem, rfl⟩
    exact Table.find?_of_nodup_map h.distinct hmem

theorem get?_eq_none_iff (h : registry.Holds accepted) :
    registry.get? name = none ↔ name ∉ accepted.map HandleClass.name := by
  rw [h.get?_eq_find?, List.find?_eq_none]
  simp

theorem registerAll (h : registry.Holds accepted)
    (hfilled : registry.registerAll batch = .ok filled) : filled.Holds (accepted ++ batch) where
  entries := by rw [entries_registerAll hfilled, h.entries, List.map_append]
  distinct := by
    obtain ⟨hdistinct, hnew⟩ := exists_registerAll_iff_admits.mp ⟨filled, hfilled⟩
    rw [List.map_append, List.nodup_append']
    refine ⟨h.distinct, hdistinct, ?_⟩
    intro name hold hnamed
    obtain ⟨made, hmade, rfl⟩ := List.mem_map.mp hnamed
    exact h.get?_eq_none_iff.mp (hnew made hmade) hold

theorem mem_names_iff (h : registry.Holds accepted) :
    name ∈ registry.names ↔ name ∈ accepted.map HandleClass.name := by
  rw [names, List.mem_mergeSort, h.keys_eq]

theorem pairwise_names (h : registry.Holds accepted) : registry.names.Pairwise (· < ·) := by
  have hsorted : registry.names.Pairwise fun first second => decide (first ≤ second) = true := by
    apply List.pairwise_mergeSort
    · intro first second third
      simpa using String.le_trans
    · intro first second
      simpa using String.le_total first second
  have hdistinct : registry.names.Nodup := by
    rw [names, (List.mergeSort_perm _ _).nodup_iff, h.keys_eq]
    exact h.distinct
  refine (hsorted.and hdistinct).imp fun {first second} hpair => String.not_le.mp fun hge => ?_
  exact hpair.2 (String.le_antisymm (of_decide_eq_true hpair.1) hge)

end Holds

end Registry

/-! ### What an engine hands in -/

namespace Engine

variable {engine : Engine} {registry : Registry} {sequence : Sequence}
  {read : SharedHandle → Handle} {agent : AgentId} {operation : Operation} {made : List HandleClass}

/-- The classes of the plan, once a new version is ready. -/
def submission? (engine : Engine) (sequence : Sequence) (read : SharedHandle → Handle)
    (operation : Operation) : Option (List HandleClass) :=
  if operation.status = .queued then
    match engine.planFor read operation with
    | .error _ => none
    | .ok plan =>
        match operation.populate read ⟨sequence.next⟩ plan.handleClass with
        | .error _ => none
        | .ok _ => some plan.made
  else none

theorem exists_of_submission? (h : engine.submission? sequence read operation = some made) :
    operation.status = .queued ∧ ∃ plan handle, engine.planFor read operation = .ok plan ∧
      operation.populate read ⟨sequence.next⟩ plan.handleClass = .ok handle ∧ made = plan.made := by
  unfold submission? at h
  split at h
  · rename_i hqueued
    split at h
    · cases h
    · rename_i plan hplan
      split at h
      · cases h
      · rename_i handle hpopulate
        exact ⟨hqueued, plan, handle, hplan, hpopulate, (Option.some.inj h).symm⟩
  · cases h

theorem registry_of_submission?_eq_none (h : engine.submission? sequence read operation = none) :
    (engine.compose registry sequence read agent operation).registry = registry := by
  cases hresult : (engine.compose registry sequence read agent operation).result with
  | error error => exact (compose_of_eq_error hresult).2
  | ok handle =>
      obtain ⟨plan, hcomposes⟩ := exists_of_compose_ok hresult
      simp [submission?, hcomposes.queued, hcomposes.planned, hcomposes.populated] at h

/-- What becomes of the classes handed in decides how the composition ends. -/
theorem compose_of_submission? (registry : Registry) (agent : AgentId)
    (h : engine.submission? sequence read operation = some made) :
    (∃ filled handle, registry.registerAll made = .ok filled ∧
      (engine.compose registry sequence read agent operation).result = .ok handle ∧
      (engine.compose registry sequence read agent operation).registry = filled) ∨
    (∃ name, registry.registerAll made = .error name ∧
      (engine.compose registry sequence read agent operation).result =
        .error (.failed operation.target.identity operation.injection operation.role.name
          (.nameCollision name)) ∧
      (engine.compose registry sequence read agent operation).registry = registry) := by
  obtain ⟨hqueued, plan, handle, hplan, hpopulate, rfl⟩ := exists_of_submission? h
  rw [compose_of_plan_eq_ok hqueued hplan, carryOut, hpopulate]
  cases hregister : registry.registerAll plan.made with
  | error name => exact .inr ⟨name, rfl, rfl, rfl⟩
  | ok filled => exact .inl ⟨filled, handle, rfl, rfl, rfl⟩

end Engine

/-! ### Runs -/

/-- What may bring classes into registries: a batch that is handed in, or a composition by one of the
engines. There may be more and more engines, and handles of any class and state to work on. -/
inductive Filing where
  | batch (registry : Ref Registry) (classes : List HandleClass)
  | handle (handle : Handle)
  | engine (config : EngineConfig) (registry : Option (Ref Registry))
      (dispatcher : Option (Ref Dispatcher))
  | composition (workshop : Ref Workshop) (agent : AgentId) (operation : Operation)

namespace Session

variable {session : Session} {registry target : Ref Registry} {held : Registry}
  {accepted batch : List HandleClass} {filing : Filing}

/-- The batch that a registry is asked to take in, if it comes to that. -/
def submission? (session : Session) : Filing → Option (Ref Registry × List HandleClass)
  | .batch registry classes => some (registry, classes)
  | .handle _ | .engine .. => none
  | .composition workshop _ operation =>
      (session.workshops.get? workshop).bind fun found =>
        (found.engine.submission? session.identities session.read operation).map fun made =>
          (found.registry, made)

/-- The cause of the failure, if there is one, stands before what is left. -/
def file (session : Session) : Filing → Option CompositionCause × Session
  | .batch registry classes =>
      match session.registerAll registry classes with
      | (.ok _, next) => (none, next)
      | (.error cause, next) => (some cause, next)
  | .handle handle => (none, (session.share handle).2)
  | .engine config registry dispatcher =>
      (none, (session.addWorkshop config registry dispatcher).2)
  | .composition workshop agent operation =>
      match session.compose workshop agent operation with
      | (.ok _, _, next) => (none, next)
      | (.error error, _, next) => (error.cause?, next)

theorem registerAll_eq (session : Session) (registry : Ref Registry) (batch : List HandleClass) :
    session.registerAll registry batch =
      match (session.registry registry).registerAll batch with
      | .error name => (.error (.nameCollision name), session)
      | .ok filled =>
          (.ok (), { session with registries := session.registries.set registry filled }) := by
  rw [registerAll, Registry.takeIn_eq]
  cases (session.registry registry).registerAll batch with
  | error name => simp only [set_registry, Except.mapError]
  | ok filled => rfl

/-- Every batch meets the registry in the same way, whoever hands it in. -/
theorem file_of_submission? (h : session.submission? filing = some (target, batch)) :
    (∃ filled, (session.registry target).registerAll batch = .ok filled ∧
      (session.file filing).1 = none ∧
      (session.file filing).2.registries = session.registries.set target filled) ∨
    (∃ name, (session.registry target).registerAll batch = .error name ∧
      (session.file filing).1 = some (.nameCollision name) ∧
      (session.file filing).2.registries = session.registries) := by
  cases filing with
  | batch registry classes =>
      obtain ⟨rfl, rfl⟩ := Prod.mk.inj (Option.some.inj h)
      rw [file, registerAll_eq]
      cases hregister : (session.registry registry).registerAll classes with
      | error name => exact .inr ⟨name, rfl, rfl, rfl⟩
      | ok filled => exact .inl ⟨filled, rfl, rfl, rfl⟩
  | handle | engine => cases h
  | composition workshop agent operation =>
      obtain ⟨found, hfound, hmade⟩ := Option.bind_eq_some_iff.mp h
      obtain ⟨made, hsubmission, hpair⟩ := Option.map_eq_some_iff.mp hmade
      obtain ⟨rfl, rfl⟩ := Prod.mk.inj hpair
      obtain ⟨board, hcompose⟩ := compose_eq hfound agent operation
      have hcomposition : session.composition found agent operation =
          found.engine.compose (session.registry found.registry) session.identities session.read
            agent operation := rfl
      rcases Engine.compose_of_submission? (session.registry found.registry) agent hsubmission with
        ⟨filled, handle, hregister, hresult, hregistry⟩ | ⟨name, hregister, hresult, hregistry⟩
      · refine .inl ⟨filled, hregister, ?_, ?_⟩ <;>
          simp only [file, hcompose, hcomposition, hresult, hregistry, Except.map, leftBy]
      · refine .inr ⟨name, hregister, ?_, ?_⟩ <;>
          simp only [file, hcompose, hcomposition, hresult, hregistry, Except.map, leftBy,
            set_registry, CompositionError.cause?]

theorem get?_registries_file (h : session.submission? filing = none)
    (hheld : session.registries.get? registry = some held) :
    (session.file filing).2.registries.get? registry = some held := by
  cases filing with
  | batch => cases h
  | handle => exact hheld
  | engine config given dispatcher =>
      obtain ⟨pin, strict⟩ := config
      rcases pin with _ | pin <;> rcases given with _ | given
      · exact Pool.get?_add_of_get? _ _ _ _ hheld
      · exact hheld
      · exact Pool.get?_add_of_get? _ _ _ _ hheld
      · exact hheld
  | composition workshop agent operation =>
      cases hworkshop : session.workshops.get? workshop with
      | none =>
          simp only [file, compose_of_get?_eq_none hworkshop]
          exact hheld
      | some found =>
          obtain ⟨board, hcompose⟩ := compose_eq hworkshop agent operation
          have hsubmission : found.engine.submission? session.identities session.read operation =
              none := by
            simpa [submission?, hworkshop] using h
          have hregistry : (session.composition found agent operation).registry =
              session.registry found.registry :=
            Engine.registry_of_submission?_eq_none hsubmission
          simp only [file, hcompose, leftBy, hregistry, set_registry]
          cases (session.composition found agent operation).result <;> exact hheld

/-- The classes that enter the registry. -/
def enters (session : Session) (registry : Ref Registry) (filing : Filing) : List HandleClass :=
  match (session.file filing).1, session.submission? filing with
  | none, some (target, batch) => if target = registry then batch else []
  | _, _ => []

def fileAll (session : Session) : List Filing → Session
  | [] => session
  | filing :: rest => (session.file filing).2.fileAll rest

/-- All classes that enter the registry, in order. -/
def entersAll (session : Session) (registry : Ref Registry) : List Filing → List HandleClass
  | [] => []
  | filing :: rest =>
      session.enters registry filing ++ (session.file filing).2.entersAll registry rest

/-- The registry is one of the session's and holds these classes. -/
def RegistryHolds (session : Session) (registry : Ref Registry) (accepted : List HandleClass) :
    Prop :=
  ∃ held, session.registries.get? registry = some held ∧ held.Holds accepted

theorem registry_eq_of_get? (h : session.registries.get? registry = some held) :
    session.registry registry = held := by
  rw [Session.registry, h]
  rfl

namespace RegistryHolds

theorem holds (h : session.RegistryHolds registry accepted) :
    (session.registry registry).Holds accepted := by
  obtain ⟨held, hheld, hholds⟩ := h
  rwa [registry_eq_of_get? hheld]

theorem file (h : session.RegistryHolds registry accepted) (filing : Filing) :
    (session.file filing).2.RegistryHolds registry (accepted ++ session.enters registry filing) := by
  obtain ⟨held, hheld, hholds⟩ := h
  cases hsubmission : session.submission? filing with
  | none =>
      refine ⟨held, get?_registries_file hsubmission hheld, ?_⟩
      simpa [enters, hsubmission] using hholds
  | some submission =>
      obtain ⟨target, batch⟩ := submission
      rcases file_of_submission? hsubmission with
        ⟨filled, hregister, hcause, hregistries⟩ | ⟨name, -, hcause, hregistries⟩
      · simp only [enters, hcause, hsubmission]
        rw [RegistryHolds, hregistries, Pool.get?_set]
        split
        · rename_i htarget
          subst htarget
          rw [registry_eq_of_get? hheld] at hregister
          exact ⟨filled, by rw [hheld]; rfl, hholds.registerAll hregister⟩
        · exact ⟨held, hheld, by rwa [List.append_nil]⟩
      · rw [RegistryHolds, hregistries]
        exact ⟨held, hheld, by simpa [enters, hcause] using hholds⟩

theorem fileAll (h : session.RegistryHolds registry accepted) (filings : List Filing) :
    (session.fileAll filings).RegistryHolds registry
      (accepted ++ session.entersAll registry filings) := by
  induction filings generalizing session accepted with
  | nil => simpa [Session.fileAll, entersAll] using h
  | cons filing rest ih =>
      rw [Session.fileAll, entersAll, ← List.append_assoc]
      exact ih (h.file filing)

end RegistryHolds

theorem registryHolds_of_empty (h : session.registries.get? registry = some Registry.empty) :
    session.RegistryHolds registry [] :=
  ⟨Registry.empty, h, Registry.holds_empty⟩

/-- The registry after a batch was handed in to it. -/
theorem RegistryHolds.registry_file (h : session.RegistryHolds registry accepted)
    (hsubmission : session.submission? filing = some (registry, batch)) :
    (∃ filled, (session.registry registry).registerAll batch = .ok filled ∧
      (session.file filing).1 = none ∧ (session.file filing).2.registry registry = filled) ∨
    (∃ name, (session.registry registry).registerAll batch = .error name ∧
      (session.file filing).1 = some (.nameCollision name) ∧
      (session.file filing).2.registry registry = session.registry registry) := by
  rcases file_of_submission? hsubmission with
    ⟨filled, hregister, hcause, hregistries⟩ | ⟨name, hregister, hcause, hregistries⟩
  · refine .inl ⟨filled, hregister, hcause, registry_eq_of_get? ?_⟩
    obtain ⟨held, hheld, -⟩ := h
    rw [hregistries, Pool.get?_set, if_pos rfl, hheld, Option.map_some]
  · refine .inr ⟨name, hregister, hcause, ?_⟩
    rw [Session.registry, hregistries, Session.registry]

/-- A registry that starts empty holds exactly the classes that entered it. A batch enters if and
only if it fits in as a whole, and otherwise is refused for the first class that does not, with
nothing changed. What entered once is found ever after. -/
theorem registry_grows_by_whole_batches {session : Session} {registry : Ref Registry}
    (h : session.registries.get? registry = some Registry.empty) (filings : List Filing) :
    let reached := session.fileAll filings
    let accepted := session.entersAll registry filings
    let held := reached.registry registry
    (∀ name made, held.get? name = some made ↔ made ∈ accepted ∧ made.name = name) ∧
    held.names.Pairwise (· < ·) ∧
    (∀ name, name ∈ held.names ↔ name ∈ accepted.map HandleClass.name) ∧
    (∀ filing batch, reached.submission? filing = some (registry, batch) →
      let cause := (reached.file filing).1
      let next := (reached.file filing).2.registry registry
      (cause = none ↔
        (batch.map HandleClass.name).Nodup ∧ ∀ made ∈ batch, held.get? made.name = none) ∧
      (cause = none → ∀ name made, next.get? name = some made ↔
        made ∈ batch ∧ made.name = name ∨ held.get? name = some made) ∧
      (cause ≠ none → next = held ∧
        ∃ front made rest, batch = front ++ made :: rest ∧
          ((front.map HandleClass.name).Nodup ∧ ∀ other ∈ front, held.get? other.name = none) ∧
          (made.name ∈ front.map HandleClass.name ∨ held.get? made.name ≠ none) ∧
          cause = some (.nameCollision made.name))) ∧
    (∀ later name made, held.get? name = some made →
      ((reached.fileAll later).registry registry).get? name = some made) := by
  intro reached accepted held
  have hreached : reached.RegistryHolds registry accepted :=
    (registryHolds_of_empty h).fileAll filings
  have hholds : held.Holds accepted := hreached.holds
  refine ⟨fun name made => hholds.get?_eq_some_iff, hholds.pairwise_names,
    fun name => hholds.mem_names_iff, ?_, ?_⟩
  · intro filing batch hsubmission cause next
    rcases hreached.registry_file hsubmission with
      ⟨filled, hregister, hcause, hnext⟩ | ⟨name, hregister, hcause, hnext⟩
    · have hadmits := Registry.exists_registerAll_iff_admits.mp ⟨filled, hregister⟩
      refine ⟨iff_of_true hcause hadmits, fun _ name made => ?_, fun hne => absurd hcause hne⟩
      change ((reached.file filing).2.registry registry).get? name = some made ↔ _
      rw [hnext, (hholds.registerAll hregister).get?_eq_some_iff, hholds.get?_eq_some_iff,
        List.mem_append]
      tauto
    · have hrefused : ¬held.Admits batch := by
        rw [← Registry.exists_registerAll_iff_admits, hregister]
        simp
      have hne : cause ≠ none := fun hnone => nomatch hcause.symm.trans hnone
      obtain ⟨front, made, rest, hbatch, hfront, htaken, rfl⟩ :=
        Registry.exists_of_registerAll_eq_error hregister
      exact ⟨iff_of_false hne hrefused, fun hnone => absurd hnone hne,
        fun _ => ⟨hnext, front, made, rest, hbatch, hfront, htaken, hcause⟩⟩
  · intro later name made hfound
    rw [hholds.get?_eq_some_iff] at hfound
    rw [(hreached.fileAll later).holds.get?_eq_some_iff, List.mem_append]
    exact ⟨.inl hfound.1, hfound.2⟩

section Forestalled

/-- A session with one handle of a database. -/
def oneDatabase : Session :=
  let (handle, session) := Session.start.instantiate .database
  (session.share handle).2

def forestalling : HandleClass := .base "DBProxy_roled_1_1" Table.empty [] none

/-- The name of the first class that the engine would make is registered before. -/
def forestall : List Filing :=
  [.batch ⟨0⟩ [forestalling], .engine ⟨some 1, false⟩ (some ⟨0⟩) none]

def assumeForestalled : Filing :=
  .composition ⟨0⟩ .zero
    (ChangeKind.assume.operation ⟨⟨0⟩, ⟨1⟩⟩ ((Role.administrator true []).reference ⟨0⟩))

/-- The engine is refused, and the class that was there first stays. -/
theorem registry_grows_by_whole_batches_forestalled :
    let registry := oneDatabase.addRegistry.1
    let reached := oneDatabase.addRegistry.2.fileAll forestall
    ∃ made, made.name = "DBProxy_roled_1_1" ∧
      reached.submission? assumeForestalled = some (registry, [made]) ∧
      (reached.registry registry).get? "DBProxy_roled_1_1" = some forestalling ∧
      (reached.file assumeForestalled).1 = some (.nameCollision "DBProxy_roled_1_1") ∧
      ∀ later, ((reached.fileAll later).registry registry).get? "DBProxy_roled_1_1" =
        some forestalling := by
  intro registry reached
  have hnames : ((reached.submission? assumeForestalled).map fun submission =>
      (submission.1, submission.2.map HandleClass.name)) =
        some (registry, ["DBProxy_roled_1_1"]) := by decide +kernel
  obtain ⟨⟨_, batch⟩, hsubmission, hpair⟩ := Option.map_eq_some_iff.mp hnames
  obtain ⟨rfl, hbatch⟩ := Prod.mk.inj hpair
  obtain ⟨made, rfl, hname⟩ := List.map_eq_singleton_iff.mp hbatch
  have hheld : (reached.registry registry).get? "DBProxy_roled_1_1" = some forestalling := rfl
  have hempty : oneDatabase.addRegistry.2.registries.get? registry = some Registry.empty := rfl
  obtain ⟨-, -, -, hfile, hlater⟩ := registry_grows_by_whole_batches hempty forestall
  obtain ⟨henters, -, hrefused⟩ := hfile assumeForestalled [made] hsubmission
  have hcause : (reached.file assumeForestalled).1 ≠ none := by
    intro hnone
    have hfree := (henters.mp hnone).2 made List.mem_cons_self
    rw [hname, hheld] at hfree
    cases hfree
  obtain ⟨-, front, refused, rest, hparts, -, -, hcollision⟩ := hrefused hcause
  have hrefused : refused = made := by
    rw [← List.mem_singleton, hparts]
    simp
  rw [hrefused, hname] at hcollision
  exact ⟨made, hname, hsubmission, hheld, hcollision, fun later => hlater later _ _ hheld⟩

end Forestalled

end Session

end RoleStack

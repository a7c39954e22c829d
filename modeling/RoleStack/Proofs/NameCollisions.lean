import RoleStack.Proofs.Restacking

/-!
# Names that are taken

A batch of classes goes to the end of a registry. Only registering finds that a name is taken, and an
engine that is ahead of its registry never does, unless a generator fails with that cause by itself.
-/

namespace RoleStack

/-! ### Batches of new names -/

theorem Table.foldl_insert_of_new {batch : List HandleClass} {classes : Table String HandleClass}
    (hdistinct : (batch.map HandleClass.name).Nodup)
    (hnew : ∀ made ∈ batch, classes.contains made.name = false) :
    batch.foldl (fun classes made => classes.insert made.name made) classes =
      ⟨classes.entries ++ batch.map fun made => (made.name, made)⟩ := by
  induction batch generalizing classes with
  | nil => simp
  | cons made rest ih =>
      obtain ⟨hhead, htail⟩ := List.nodup_cons.mp hdistinct
      rw [List.foldl_cons, ih htail, insert_of_contains_eq_false (hnew made List.mem_cons_self)]
      · simp
      · intro other hother
        have hname : made.name ≠ other.name := by
          intro hsame
          exact hhead (hsame ▸ List.mem_map_of_mem hother)
        rw [contains_insert, decide_eq_false hname, hnew other (List.mem_cons_of_mem _ hother)]
        rfl

/-- A batch goes to the end, in its order. -/
theorem Registry.entries_registerAll {registry filled : Registry} {batch : List HandleClass}
    (h : registry.registerAll batch = .ok filled) :
    filled.classes.entries =
      registry.classes.entries ++ batch.map fun made => (made.name, made) := by
  unfold registerAll at h
  split at h
  · cases h
  · rename_i hfree
    obtain rfl := Except.ok.inj h
    obtain ⟨hdistinct, hnew⟩ := (registry.collision?_eq_none_iff batch []).mp hfree
    rw [Table.foldl_insert_of_new hdistinct fun made hmade => (hnew made hmade).2]

/-! ### Causes of failures -/

/-- The generator does not fail with a taken name, which is a matter of registries. -/
def Generator.NeverCollides (generator : Generator) : Prop :=
  match generator.style with
  | .custom answer _ => ∀ calls name, answer calls ≠ .error (.other (.nameCollision name))
  | _ => True

namespace Generator.NeverCollides

variable {generator next : Generator} {table : ForwarderTable} {error : ForwardingError}

theorem prepare (h : generator.NeverCollides) (contract : Contract) (key : Key) :
    (generator.prepare contract key).NeverCollides := by
  obtain ⟨style, prepared⟩ := generator
  cases style with
  | custom answer calls => exact h
  | delegating | unprepared | only | rekeyed | limited => trivial

theorem generate (h : generator.NeverCollides) (hgenerate : generator.generate = .ok (table, next)) :
    next.NeverCollides := by
  obtain ⟨style, prepared⟩ := generator
  cases style with
  | custom answer calls =>
      obtain ⟨given, -, hnext⟩ := exists_of_bind_eq_ok hgenerate
      obtain rfl := (Prod.mk.inj (Except.ok.inj hnext)).2
      exact h
  | limited remaining =>
      cases remaining with
      | zero => cases hgenerate
      | succ remaining =>
          obtain ⟨given, -, hnext⟩ := exists_of_bind_eq_ok hgenerate
          obtain rfl := (Prod.mk.inj (Except.ok.inj hnext)).2
          trivial
  | delegating | unprepared | only | rekeyed =>
      obtain ⟨given, -, hnext⟩ := exists_of_bind_eq_ok hgenerate
      obtain rfl := (Prod.mk.inj (Except.ok.inj hnext)).2
      trivial

theorem ne_other (h : generator.NeverCollides) (hgenerate : generator.generate = .error error)
    (name : String) : error ≠ .other (.nameCollision name) := by
  obtain ⟨style, prepared⟩ := generator
  cases style with
  | custom answer calls =>
      rcases cases_of_bind_eq_error hgenerate with hanswer | ⟨given, -, hnext⟩
      · rintro rfl
        exact h calls name hanswer
      · cases hnext
  | limited remaining =>
      cases remaining with
      | zero =>
          obtain rfl := Except.error.inj hgenerate
          exact ForwardingError.noConfusion
      | succ remaining =>
          rcases cases_of_bind_eq_error hgenerate with hdelegate | ⟨given, -, hnext⟩
          · exact delegate_ne_other hdelegate _
          · cases hnext
  | delegating | unprepared | only | rekeyed =>
      rcases cases_of_bind_eq_error hgenerate with hdelegate | ⟨given, -, hnext⟩
      · exact delegate_ne_other hdelegate _
      · cases hnext

end Generator.NeverCollides

section Causes

variable {cause : CompositionCause}

theorem CompositionCause.ofForwarding_ne_nameCollision {error : ForwardingError} {name : String}
    (h : error ≠ .other (.nameCollision name)) : ofForwarding error ≠ .nameCollision name := by
  cases error with
  | duplicateOperation | notPrepared => exact CompositionCause.noConfusion
  | other cause => exact fun hsame => h (congrArg ForwardingError.other hsame)

theorem Stacking.stackRole_ne_nameCollision {stacking : Stacking} {contract : Contract} {key : Key}
    (hnever : stacking.generator.NeverCollides)
    (h : stacking.stackRole contract key = .error cause) (name : String) :
    cause ≠ .nameCollision name := by
  unfold stackRole at h
  split at h
  · rename_i error hgenerate
    obtain rfl := Except.error.inj h
    exact CompositionCause.ofForwarding_ne_nameCollision
      ((hnever.prepare contract key).ne_other hgenerate name)
  · cases h

theorem Stacking.neverCollides_restack {stacking next : Stacking} {layer : HandleClass}
    (hnever : stacking.generator.NeverCollides) (h : stacking.restack layer = .ok next) :
    next.generator.NeverCollides := by
  cases layer with
  | base =>
      obtain rfl := Except.ok.inj h
      exact hnever
  | roleLayer name parent contract key forwarders =>
      obtain ⟨generated, generator, hgenerate, rfl⟩ := Stacking.exists_of_stackRole h
      exact (hnever.prepare contract key).generate hgenerate
  | markerLayer =>
      obtain rfl := Except.ok.inj h
      exact hnever

theorem Stacking.restackAll_ne_nameCollision {stacking : Stacking} {layers : List HandleClass}
    (hnever : stacking.generator.NeverCollides)
    (h : stacking.restackAll layers = .error cause) (name : String) :
    cause ≠ .nameCollision name := by
  induction layers generalizing stacking with
  | nil => cases h
  | cons layer rest ih =>
      rcases cases_of_bind_eq_error h with hlayer | ⟨next, hnext, hrest⟩
      · cases layer with
        | base => cases hlayer
        | roleLayer => exact stackRole_ne_nameCollision hnever hlayer name
        | markerLayer => cases hlayer
      · exact ih (neverCollides_restack hnever hnext) hrest

namespace Operation

variable {operation : Operation} {reservation : Reservation} {current : HandleClass}

theorem requireContract_ne_nameCollision (h : operation.requireContract = .error cause)
    (name : String) : cause ≠ .nameCollision name := by
  unfold requireContract at h
  split at h
  · cases h
  · obtain rfl := Except.error.inj h
    simp

theorem requireMarker_ne_nameCollision (h : operation.requireMarker = .error cause)
    (name : String) : cause ≠ .nameCollision name := by
  unfold requireMarker at h
  split at h
  · cases h
  · obtain rfl := Except.error.inj h
    simp

theorem planWithout_ne_nameCollision {declares : HandleClass → Bool} {target : String}
    (hnever : operation.generator.NeverCollides)
    (h : operation.planWithout reservation current declares target = .error cause)
    (name : String) : cause ≠ .nameCollision name := by
  unfold planWithout at h
  split at h
  · obtain rfl := Except.error.inj h
    simp
  · rcases cases_of_bind_eq_error h with hlayers | ⟨stacking, -, hplan⟩
    · exact Stacking.restackAll_ne_nameCollision hnever hlayers name
    · cases hplan

/-- Only registering finds names that are taken. -/
theorem plan_ne_nameCollision {strict : Bool} (hnever : operation.generator.NeverCollides)
    (h : operation.plan strict reservation current = .error cause) (name : String) :
    cause ≠ .nameCollision name := by
  unfold Operation.plan at h
  split at h
  · rcases cases_of_bind_eq_error h with hrequire | ⟨contract, -, h⟩
    · exact requireContract_ne_nameCollision hrequire name
    split at h
    · obtain rfl := Except.error.inj h
      simp
    · rcases cases_of_bind_eq_error h with hrole | ⟨stacking, -, hplan⟩
      · exact Stacking.stackRole_ne_nameCollision hnever hrole name
      · cases hplan
  · rcases cases_of_bind_eq_error h with hrequire | ⟨contract, -, h⟩
    · exact requireContract_ne_nameCollision hrequire name
    split at h
    · exact planWithout_ne_nameCollision hnever h name
    · split at h
      · cases h
      · obtain rfl := Except.error.inj h
        simp
  · rcases cases_of_bind_eq_error h with hrequire | ⟨marker, -, h⟩
    · exact requireMarker_ne_nameCollision hrequire name
    split at h
    · obtain rfl := Except.error.inj h
      simp
    · cases h
  · rcases cases_of_bind_eq_error h with hrequire | ⟨marker, -, h⟩
    · exact requireMarker_ne_nameCollision hrequire name
    · exact planWithout_ne_nameCollision hnever h name

end Operation

theorem Engine.cause_ne_nameCollision {engine : Engine} {registry : Registry}
    {sequence : Sequence} {read : SharedHandle → Handle} {agent : AgentId} {operation : Operation}
    {error : CompositionError} (hahead : engine.namer.AheadOf registry)
    (hnever : operation.generator.NeverCollides)
    (h : (engine.compose registry sequence read agent operation).result = .error error)
    (name : String) : error.cause? ≠ some (.nameCollision name) := by
  by_cases hqueued : operation.status = .queued
  · cases hplan : engine.planFor read operation with
    | error cause =>
        rw [compose_of_plan_eq_error hqueued hplan] at h
        obtain rfl := Except.error.inj h
        rw [CompositionError.cause?, ne_eq, Option.some.injEq]
        exact Operation.plan_ne_nameCollision hnever hplan name
    | ok plan =>
        obtain ⟨filled, hfilled⟩ := (Operation.numbered_plan hplan).exists_registerAll hahead
        rw [compose_of_plan_eq_ok hqueued hplan, carryOut] at h
        cases hpopulate : operation.populate read ⟨sequence.next⟩ plan.handleClass with
        | error transferError =>
            rw [hpopulate] at h
            obtain rfl := Except.error.inj h
            simp [CompositionError.cause?]
        | ok handle =>
            rw [hpopulate] at h
            simp only [hfilled] at h
            cases h
  · rw [compose_of_not_queued hqueued] at h
    obtain rfl := Except.error.inj h
    simp [CompositionError.cause?]

end Causes

end RoleStack

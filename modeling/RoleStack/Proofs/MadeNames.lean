import RoleStack.Proofs.Failures
import RoleStack.Proofs.Tallies

/-!
# The names of all made classes

Engines of different numbers, on registries of their own or on shared ones, never give one name
twice, whatever the classes that they extend are called.
-/

namespace RoleStack

/-! ### Compositions -/

namespace Session

/-- The classes that a composition makes, if it succeeds. -/
def makes (session : Session) (workshop : Ref Workshop) (agent : AgentId)
    (operation : Operation) : List Made :=
  match session.workshops.get? workshop with
  | none => []
  | some found =>
      match (session.composition found agent operation).result,
          found.engine.planFor session.read operation with
      | .ok _, .ok plan => plan.made.map (Made.mk workshop)
      | _, _ => []

variable {session : Session} {made : List Made} {workshop : Ref Workshop}
  {agent : AgentId} {operation : Operation}

theorem makes_of_eq_error {error : CompositionError}
    (h : (session.compose workshop agent operation).1 = .error error) :
    session.makes workshop agent operation = [] := by
  unfold makes
  cases hworkshop : session.workshops.get? workshop with
  | none => rfl
  | some found =>
      obtain ⟨board, hcompose⟩ := compose_eq hworkshop agent operation
      rw [hcompose] at h
      cases hresult : (session.composition found agent operation).result with
      | error failure => simp only [hresult]
      | ok handle =>
          rw [hresult] at h
          cases h

/-- A composition that succeeds commits what it makes. -/
theorem exists_commits {shared : SharedHandle}
    (h : (session.compose workshop agent operation).1 = .ok shared) :
    ∃ found layers reservation filled,
      session.makes workshop agent operation = layers.map (Made.mk workshop) ∧
        Commits session (session.compose workshop agent operation).2.2 workshop found layers
          reservation filled := by
  obtain ⟨found, handle, hworkshop, hresult, -⟩ := exists_of_compose_ok h
  obtain ⟨plan, hcomposes⟩ := Engine.exists_of_compose_ok hresult
  obtain ⟨board, hcompose⟩ := compose_eq hworkshop agent operation
  refine ⟨found, plan.made, plan.reservation, (session.composition found agent operation).registry,
    ?_, hworkshop, Operation.numbered_plan hcomposes.planned, hcomposes.registered, ?_, ?_⟩
  · simp only [makes, hworkshop, hresult, hcomposes.planned]
  · rw [hcompose]
    simp only [leftBy, Workshop.commit]
    rw [composition, hcomposes.engine]
  · rw [hcompose]
    rfl

theorem Tallies.compose (h : session.Tallies made) (workshop : Ref Workshop) (agent : AgentId)
    (operation : Operation) :
    (session.compose workshop agent operation).2.2.Tallies
      (made ++ session.makes workshop agent operation) := by
  cases hresult : (session.compose workshop agent operation).1 with
  | error error =>
      obtain ⟨hworkshops, hregistries, -⟩ := compose_of_eq_error hresult
      rw [makes_of_eq_error hresult, List.append_nil]
      exact h.of_eq hworkshops hregistries
  | ok shared =>
      obtain ⟨found, layers, reservation, filled, hmakes, hcommits⟩ := exists_commits hresult
      rw [hmakes]
      exact h.commit hcommits

theorem Tallies.compose_ne_nameCollision (h : session.Tallies made)
    (hnever : operation.generator.NeverCollides) {error : CompositionError}
    (herror : (session.compose workshop agent operation).1 = .error error) (name : String) :
    error.cause? ≠ some (.nameCollision name) := by
  cases hworkshop : session.workshops.get? workshop with
  | none =>
      rw [compose_of_get?_eq_none hworkshop] at herror
      obtain rfl := Except.error.inj herror
      simp [CompositionError.cause?]
  | some found =>
      obtain ⟨board, hcompose⟩ := compose_eq hworkshop agent operation
      rw [hcompose] at herror
      cases hresult : (session.composition found agent operation).result with
      | ok handle =>
          rw [hresult] at herror
          cases herror
      | error failure =>
          rw [hresult] at herror
          obtain rfl := Except.error.inj herror
          exact Engine.cause_ne_nameCollision (h.aheadOf hworkshop) hnever hresult name

end Session

/-! ### Whole runs -/

def Order.NeverCollides : Order → Prop
  | .instantiate _ => True
  | .compose _ _ _ operation => operation.generator.NeverCollides

namespace Run

def makes (run : Run) : Order → List Made
  | .instantiate _ => []
  | .compose workshop place agent operation =>
      match run.obtained[place]? with
      | none => []
      | some target => run.session.makes workshop agent (operation.aimedAt target)

/-- The classes made when all orders are fulfilled in turn. -/
def makesAll (run : Run) : List Order → List Made
  | [] => []
  | order :: rest => run.makes order ++ (run.fulfil order).2.makesAll rest

variable {run : Run} {made : List Made}

theorem tallies_fulfil (h : run.session.Tallies made) (order : Order) :
    (run.fulfil order).2.session.Tallies (made ++ run.makes order) := by
  cases order with
  | instantiate handleClass =>
      rw [makes, List.append_nil]
      exact h.of_eq rfl rfl
  | compose workshop place agent operation =>
      cases hplace : run.obtained[place]? with
      | none =>
          simp only [fulfil, makes, hplace, List.append_nil]
          exact h
      | some target =>
          simp only [fulfil_compose hplace, makes, hplace]
          exact h.compose workshop agent (operation.aimedAt target)

theorem tallies_fulfilAll (h : run.session.Tallies made) (orders : List Order) :
    (run.fulfilAll orders).session.Tallies (made ++ run.makesAll orders) := by
  induction orders generalizing run made with
  | nil =>
      rw [makesAll, List.append_nil]
      exact h
  | cons order rest ih =>
      rw [makesAll, ← List.append_assoc]
      exact ih (tallies_fulfil h order)

theorem fulfil_ne_nameCollision (h : run.session.Tallies made) {order : Order}
    (hnever : order.NeverCollides) {error : CompositionError}
    (herror : (run.fulfil order).1 = some (.error error))
    (name : String) : error.cause? ≠ some (.nameCollision name) := by
  cases order with
  | instantiate handleClass => cases herror
  | compose workshop place agent operation =>
      cases hplace : run.obtained[place]? with
      | none =>
          rw [fulfil, hplace] at herror
          cases herror
      | some target =>
          rw [fulfil_compose hplace] at herror
          have hnever : (operation.aimedAt target).generator.NeverCollides := hnever
          exact h.compose_ne_nameCollision hnever (Option.some.inj herror) name

/-- On unused engines no composition ever meets a name that is taken, if its generator does not fail with
one by itself. No two classes made have one name, and the registered names of each engine are numbered
from one to the count of its classes. -/
theorem made_names_numbered (hunused : run.session.Unused) (orders : List Order) :
    (∀ order error name, order.NeverCollides →
      ((run.fulfilAll orders).fulfil order).1 = some (.error error) →
        error.cause? ≠ some (.nameCollision name)) ∧
    ((run.makesAll orders).map fun one => one.handleClass.name).Nodup ∧
    ∀ workshop found, (run.fulfilAll orders).session.workshops.get? workshop = some found →
      (madeBy workshop (run.makesAll orders)).length = found.engine.manipulations ∧
      (∀ index layer, (madeBy workshop (run.makesAll orders))[index]? = some layer →
        ∃ parent, layer.parent? = some parent ∧
          layer.name = (ClassName.mk parent.name (index + 1) found.engine.id).display) ∧
      ∃ registry,
        (run.fulfilAll orders).session.registries.get? found.registry = some registry ∧
        registry.classes.entries =
          (run.fulfilAll orders).session.registered found.registry (run.makesAll orders) ∧
        (∀ base counter,
          registry.contains (ClassName.mk base counter found.engine.id).display = true →
            1 ≤ counter ∧ counter ≤ found.engine.manipulations) ∧
        ∀ counter, 1 ≤ counter → counter ≤ found.engine.manipulations →
          ∃! base, registry.contains (ClassName.mk base counter found.engine.id).display = true := by
  have h : (run.fulfilAll orders).session.Tallies (run.makesAll orders) :=
    tallies_fulfilAll hunused.tallies orders
  refine ⟨fun order error name hnever herror => fulfil_ne_nameCollision h hnever herror name,
    h.nodup, ?_⟩
  intro workshop found hworkshop
  obtain ⟨registry, hregistry, hentries⟩ := h.filled workshop found hworkshop
  refine ⟨h.length_madeBy hworkshop, h.named workshop found hworkshop, registry, hregistry,
    hentries, ?_, ?_⟩
  · intro base counter hcontains
    exact h.counter_le hworkshop hentries hcontains
  · intro counter hpositive hle
    obtain ⟨base, hbase⟩ := h.exists_base hworkshop hentries hpositive hle
    exact ⟨base, hbase, fun other hother => h.base_unique hworkshop hentries hother hbase⟩

/-! ### Two engines on one registry -/

section Sharing

/-- Both are to extend a class whose own name looks made. -/
def sharing : Run :=
  let session := (Session.start.addWorkshop ⟨some 1, false⟩ none none).2
  let session := (session.addWorkshop ⟨some 2, false⟩ (some ⟨0⟩) none).2
  ((Run.mk session []).fulfil
    (.instantiate (.base "DBProxy_roled_1_2" Table.empty [] none))).2

def assumeAgain (workshop : Ref Workshop) (place : Nat) : Order :=
  .compose workshop place .zero
    (ChangeKind.assume.operation ⟨⟨0⟩, ⟨1⟩⟩ ((Role.administrator true []).reference ⟨0⟩))

/-- The last one fails, as the contract is there already. -/
def sharedOrders : List Order := [assumeAgain ⟨0⟩ 0, assumeAgain ⟨1⟩ 0, assumeAgain ⟨1⟩ 1]

theorem unused_sharing : sharing.session.Unused := by
  have hworkshops : sharing.session.workshops = ⟨#[
      ⟨Engine.start ⟨1⟩ ⟨some 1, false⟩, ⟨0⟩, none⟩, ⟨Engine.start ⟨2⟩ ⟨some 2, false⟩, ⟨0⟩, none⟩]⟩ :=
    rfl
  have hfound : ∀ workshop found, sharing.session.workshops.get? workshop = some found →
      workshop = ⟨0⟩ ∧ found = ⟨Engine.start ⟨1⟩ ⟨some 1, false⟩, ⟨0⟩, none⟩ ∨
        workshop = ⟨1⟩ ∧ found = ⟨Engine.start ⟨2⟩ ⟨some 2, false⟩, ⟨0⟩, none⟩ := by
    rintro ⟨index⟩ found h
    rw [hworkshops, Pool.get?] at h
    rcases index with _ | _ | index
    · exact .inl ⟨rfl, (Option.some.inj h).symm⟩
    · exact .inr ⟨rfl, (Option.some.inj h).symm⟩
    · cases h
  refine ⟨?_, ?_, ?_⟩
  · intro workshop found h
    rcases hfound workshop found h with ⟨rfl, rfl⟩ | ⟨rfl, rfl⟩ <;> rfl
  · intro workshop found h
    rcases hfound workshop found h with ⟨rfl, rfl⟩ | ⟨rfl, rfl⟩ <;> rfl
  · intro workshop other found found' h h' hsame
    rcases hfound workshop found h with ⟨rfl, rfl⟩ | ⟨rfl, rfl⟩ <;>
      rcases hfound other found' h' with ⟨rfl, rfl⟩ | ⟨rfl, rfl⟩
    · rfl
    · cases hsame
    · cases hsame
    · rfl

theorem made_names_numbered_sharing :
    (sharing.makesAll sharedOrders).map (fun one => one.handleClass.name) =
        ["DBProxy_roled_1_2_roled_1_1", "DBProxy_roled_1_2_roled_1_2"] ∧
      ((sharing.makesAll sharedOrders).map fun one => one.handleClass.name).Nodup ∧
      (∀ order error name, order.NeverCollides →
        ((sharing.fulfilAll sharedOrders).fulfil order).1 = some (.error error) →
          error.cause? ≠ some (.nameCollision name)) ∧
      ∃ error, ((sharing.fulfilAll sharedOrders).fulfil (assumeAgain ⟨1⟩ 1)).1 = some (.error error) ∧
        ∀ name, error.cause? ≠ some (.nameCollision name) := by
  obtain ⟨hcollision, hnodup, -⟩ := made_names_numbered unused_sharing sharedOrders
  have hfails : ((sharing.fulfilAll sharedOrders).fulfil (assumeAgain ⟨1⟩ 1)).1 =
      some (.error (.failed ⟨1⟩ .addRole "admin"
        (.contractPresent "DBProxy_roled_1_2_roled_1_1" "IAdmin"))) := by
    decide +kernel
  exact ⟨by decide +kernel, hnodup, hcollision, _, hfails,
    fun name => hcollision (assumeAgain ⟨1⟩ 1) _ name trivial hfails⟩

end Sharing

end Run

end RoleStack

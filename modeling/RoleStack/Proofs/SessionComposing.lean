import RoleStack.Session.Basic
import RoleStack.Proofs.Composing
import Mathlib.Data.List.Forall2

/-!
# Compositions in a session

A composition in a session is that of the engine, with the new version shared and the outcome
announced. Handles that were shared before stay as they are, and coordinators, directors and workers
are not touched.
-/

namespace RoleStack

namespace Pool

variable {Object : Type} {pool : Pool Object} {reference : Ref Object} {object : Object}

theorem get?_set_self (pool : Pool Object) (reference : Ref Object) (object : Object) :
    (pool.set reference object).get? reference = some object ∨
      (pool.set reference object).get? reference = none := by
  rw [get?_set, if_pos rfl]
  cases pool.get? reference with
  | none => exact .inr rfl
  | some present => exact .inl rfl

theorem set_of_get?_eq_none (h : pool.get? reference = none) (object : Object) :
    pool.set reference object = pool := by
  unfold get? at h
  rw [Array.getElem?_eq_none_iff] at h
  rw [set, Array.setIfInBounds_eq_of_size_le h]

theorem set_of_get?_eq_some (h : pool.get? reference = some object) :
    pool.set reference object = pool := by
  obtain ⟨objects⟩ := pool
  simp only [get?] at h
  rw [set, Pool.mk.injEq]
  apply Array.ext_getElem?
  intro index
  rw [Array.getElem?_setIfInBounds]
  split
  · rename_i hindex
    subst hindex
    rw [h]
    split
    · rfl
    · rename_i hbound
      rw [Array.getElem?_eq_none (Nat.le_of_not_lt hbound)] at h
      cases h
  · rfl

end Pool

namespace Session

variable {session : Session} {workshop : Ref Workshop} {found : Workshop} {agent : AgentId}
  {operation : Operation}

def composition (session : Session) (found : Workshop) (agent : AgentId) (operation : Operation) :
    Composition :=
  found.engine.compose (session.registry found.registry) session.identities session.read agent
    operation

theorem exists_announce_eq (session : Session) (dispatcher : Option (Ref Dispatcher))
    (event : RoleEvent) : ∃ board, session.announce dispatcher event = { session with board := board } := by
  cases dispatcher with
  | none => exact ⟨session.board, rfl⟩
  | some dispatcher => exact ⟨_, rfl⟩

def handlesAfter (session : Session) : Except CompositionError Handle → Pool Handle
  | .ok handle => session.handles.add handle
  | .error _ => session.handles

/-- What a composition leaves, before its result is shared. -/
def leftBy (session : Session) (workshop : Ref Workshop) (found : Workshop)
    (composition : Composition) (board : NoticeBoard) : Session :=
  { session with
    identities := composition.sequence
    registries := session.registries.set found.registry composition.registry
    workshops := session.workshops.set workshop { found with engine := composition.engine }
    board := board }

theorem compose_eq (h : session.workshops.get? workshop = some found) (agent : AgentId)
    (operation : Operation) :
    ∃ board, session.compose workshop agent operation =
      ((session.composition found agent operation).result.map fun handle =>
          ⟨session.handles.next, handle.identity⟩,
        (session.composition found agent operation).operation,
        { session.leftBy workshop found (session.composition found agent operation) board with
          handles := session.handlesAfter (session.composition found agent operation).result }) := by
  unfold compose composition
  rw [h]
  simp only
  generalize found.engine.compose (session.registry found.registry) session.identities
    session.read agent operation = composition
  obtain ⟨engine, registry, sequence, operation, result, event⟩ := composition
  cases result with
  | error error =>
      cases event with
      | none => exact ⟨session.board, rfl⟩
      | some event =>
          simp only [shareResult]
          obtain ⟨board, hboard⟩ := exists_announce_eq
            { session with
              identities := sequence
              registries := session.registries.set found.registry registry
              workshops := session.workshops.set workshop { found with engine := engine } }
            found.dispatcher event
          exact ⟨board, by rw [hboard]; rfl⟩
  | ok handle =>
      cases event with
      | none => exact ⟨session.board, rfl⟩
      | some event =>
          simp only [shareResult, share]
          obtain ⟨board, hboard⟩ := exists_announce_eq
            { session with
              identities := sequence
              handles := session.handles.add handle
              registries := session.registries.set found.registry registry
              workshops := session.workshops.set workshop { found with engine := engine } }
            found.dispatcher event
          exact ⟨board, by rw [hboard]; rfl⟩

theorem compose_of_get?_eq_none (h : session.workshops.get? workshop = none) (agent : AgentId)
    (operation : Operation) :
    session.compose workshop agent operation =
      (.error (.operation (.notQueued operation.status)), operation, session) := by
  unfold compose
  rw [h]

theorem exists_of_compose_ok {shared : SharedHandle}
    (h : (session.compose workshop agent operation).1 = .ok shared) :
    ∃ found handle, session.workshops.get? workshop = some found ∧
      (session.composition found agent operation).result = .ok handle ∧
      shared = ⟨session.handles.next, handle.identity⟩ := by
  cases hworkshop : session.workshops.get? workshop with
  | none =>
      rw [compose_of_get?_eq_none hworkshop] at h
      cases h
  | some found =>
      obtain ⟨board, hcompose⟩ := compose_eq hworkshop agent operation
      rw [hcompose] at h
      cases hresult : (session.composition found agent operation).result with
      | error error =>
          rw [hresult] at h
          cases h
      | ok handle =>
          rw [hresult] at h
          exact ⟨found, handle, rfl, hresult, (Except.ok.inj h).symm⟩

/-- Coordinators, directors and workers have no part in a composition. -/
theorem compose_frame (session : Session) (workshop : Ref Workshop) (agent : AgentId)
    (operation : Operation) :
    (session.compose workshop agent operation).2.2.coordinators = session.coordinators ∧
      (session.compose workshop agent operation).2.2.directors = session.directors ∧
      (session.compose workshop agent operation).2.2.activities = session.activities := by
  cases hworkshop : session.workshops.get? workshop with
  | none =>
      rw [compose_of_get?_eq_none hworkshop]
      exact ⟨rfl, rfl, rfl⟩
  | some found =>
      obtain ⟨board, hcompose⟩ := compose_eq hworkshop agent operation
      rw [hcompose]
      exact ⟨rfl, rfl, rfl⟩

theorem set_registry (session : Session) (reference : Ref Registry) :
    session.registries.set reference (session.registry reference) = session.registries := by
  unfold registry
  cases hfound : session.registries.get? reference with
  | none => exact Pool.set_of_get?_eq_none hfound _
  | some found => exact Pool.set_of_get?_eq_some hfound

/-- The engine of a workshop keeps its settings and stays ahead of its registry. -/
theorem exists_workshop_compose (h : session.workshops.get? workshop = some found)
    (hahead : found.engine.namer.AheadOf (session.registry found.registry)) (agent : AgentId)
    (operation : Operation) :
    ∃ later, (session.compose workshop agent operation).2.2.workshops.get? workshop = some later ∧
      later.engine.config = found.engine.config ∧
      later.engine.namer.AheadOf
        ((session.compose workshop agent operation).2.2.registry later.registry) := by
  obtain ⟨board, hcompose⟩ := compose_eq h agent operation
  rw [hcompose]
  refine ⟨{ found with engine := (session.composition found agent operation).engine }, ?_,
    Engine.config_compose, ?_⟩
  · exact Pool.get?_set_of_get? h _
  · have hlater : (session.composition found agent operation).engine.namer.AheadOf
        (session.composition found agent operation).registry := Engine.aheadOf_compose hahead
    simp only [registry, leftBy]
    rcases Pool.get?_set_self session.registries found.registry
      (session.composition found agent operation).registry with hfilled | hnone
    · rw [hfilled]
      exact hlater
    · rw [hnone]
      exact Namer.aheadOf_empty _

theorem get?_handles_compose {cell : Ref Handle} {handle : Handle}
    (h : session.handles.get? cell = some handle) (workshop : Ref Workshop) (agent : AgentId)
    (operation : Operation) :
    (session.compose workshop agent operation).2.2.handles.get? cell = some handle := by
  cases hworkshop : session.workshops.get? workshop with
  | none =>
      rw [compose_of_get?_eq_none hworkshop]
      exact h
  | some found =>
      obtain ⟨board, hcompose⟩ := compose_eq hworkshop agent operation
      rw [hcompose]
      cases hresult : (session.composition found agent operation).result with
      | error error =>
          simp only [handlesAfter]
          exact h
      | ok made =>
          simp only [handlesAfter]
          exact Pool.get?_add_of_get? _ _ _ _ h

theorem read_of_get? {shared : SharedHandle} {handle : Handle}
    (h : session.handles.get? shared.cell = some handle) : session.read shared = handle := by
  unfold read
  rw [h]
  rfl

end Session

/-! ### Runs of compositions -/

theorem forall₂_getElem? {First Second : Type} {relation : First → Second → Prop}
    {firsts : List First} {seconds : List Second} (h : List.Forall₂ relation firsts seconds)
    (place : Nat) :
    (firsts[place]? = none ∧ seconds[place]? = none) ∨
      ∃ first second, firsts[place]? = some first ∧ seconds[place]? = some second ∧
        relation first second := by
  induction h generalizing place with
  | nil => exact .inl ⟨rfl, rfl⟩
  | cons hhead htail ih =>
      cases place with
      | zero => exact .inr ⟨_, _, rfl, rfl, hhead⟩
      | succ place => exact ih place

def Operation.aimedAt (operation : Operation) (target : SharedHandle) : Operation :=
  { operation with target := target }

inductive Order where
  | instantiate (handleClass : HandleClass)
  /-- The target of the operation is the handle that was obtained in this place of the run. -/
  | compose (workshop : Ref Workshop) (place : Nat) (agent : AgentId) (operation : Operation)

/-- A session with the handles that a run of orders obtained in it. -/
structure Run where
  session : Session
  obtained : List SharedHandle

namespace Run

/-- An order for a handle that was not obtained is passed over. -/
def fulfil (run : Run) : Order → Option (Except CompositionError SharedHandle) × Run
  | .instantiate handleClass =>
      let (handle, session) := run.session.instantiate handleClass
      let (shared, session) := session.share handle
      (some (.ok shared), ⟨session, run.obtained ++ [shared]⟩)
  | .compose workshop place agent operation =>
      match run.obtained[place]? with
      | none => (none, run)
      | some target =>
          let (result, _, session) :=
            run.session.compose workshop agent (operation.aimedAt target)
          (some result, ⟨session, run.obtained ++ result.toOption.toList⟩)

theorem fulfil_compose {run : Run} {place : Nat} {target : SharedHandle}
    (h : run.obtained[place]? = some target) (workshop : Ref Workshop) (agent : AgentId)
    (operation : Operation) :
    run.fulfil (.compose workshop place agent operation) =
      let composed := run.session.compose workshop agent (operation.aimedAt target)
      (some composed.1, ⟨composed.2.2, run.obtained ++ composed.1.toOption.toList⟩) := by
  rw [fulfil, h]

end Run

end RoleStack

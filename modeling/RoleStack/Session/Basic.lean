import RoleStack.Coordinator.Call
import RoleStack.Director
import RoleStack.Notice

/-!
A session holds all shared objects: handles, roles, registries, dispatchers, engines, coordinators
and directors, with the two sequences that number handles and engines. Results stand before the
session that they leave.
-/

namespace RoleStack

/-- An engine with the registry it fills and the dispatcher it reports to. -/
structure Workshop where
  engine : Engine
  registry : Ref Registry
  dispatcher : Option (Ref Dispatcher)

structure Director where
  workshop : Ref Workshop
  coordinator : Ref Coordinator
  writers : Writers

inductive Activity where
  | calling (coordinator : Ref Coordinator) (call : Coordinator.Call) (stage : Coordinator.Stage)
      (timeout : Option UInt64)
  | changing (director : Ref Director) (change : Change) (stage : Change.Stage)

structure Session where
  identities : Sequence
  engineIds : Sequence
  handles : Pool Handle
  roles : Pool Role
  registries : Pool Registry
  board : NoticeBoard
  workshops : Pool Workshop
  coordinators : Pool Coordinator
  directors : Pool Director
  activities : Table Worker Activity

namespace Session

def start : Session :=
  { identities := Sequence.start
    engineIds := Sequence.start
    handles := Pool.empty
    roles := Pool.empty
    registries := Pool.empty
    board := NoticeBoard.empty
    workshops := Pool.empty
    coordinators := Pool.empty
    directors := Pool.empty
    activities := Table.empty }

def takeIdentity (session : Session) : Identity × Session :=
  (⟨session.identities.next⟩, { session with identities := session.identities.advance })

def takeEngineId (session : Session) : EngineId × Session :=
  (⟨session.engineIds.next⟩, { session with engineIds := session.engineIds.advance })

/-! ### Roles -/

def addRole (session : Session) (role : Role) : RoleRef × Session :=
  (role.reference session.roles.next, { session with roles := session.roles.add role })

def callRole (session : Session) (role : RoleRef) (operation : String) (arguments : List Json) :
    Except RoleError Json × Session :=
  match session.roles.get? role.cell with
  | none => (.error (.unknownOperation operation), session)
  | some found =>
      let (answer, next) := found.invoke operation arguments
      (answer, { session with roles := session.roles.set role.cell next })

/-! ### Handles -/

def instantiate (session : Session) (handleClass : HandleClass) : Handle × Session :=
  let (identity, session) := session.takeIdentity
  (Handle.blank identity handleClass, session)

def share (session : Session) (handle : Handle) : SharedHandle × Session :=
  (⟨session.handles.next, handle.identity⟩, { session with handles := session.handles.add handle })

/-- The present state of a shared handle. A reference that was never handed out reads as blank. -/
def read (session : Session) (handle : SharedHandle) : Handle :=
  (session.handles.get? handle.cell).getD
    (Handle.blank handle.identity (.base "" Table.empty [] none))

def write (session : Session) (handle : SharedHandle) (state : Handle) : Session :=
  { session with handles := session.handles.set handle.cell state }

def setField (session : Session) (handle : SharedHandle) (field : String) (value : Json) :
    Except HandleError Json × Session :=
  match (session.read handle).setField field value with
  | .error error => (.error error, session)
  | .ok (previous, state) => (.ok previous, session.write handle state)

def recordUse (session : Session) (handle : SharedHandle) (operation : String) :
    Option Nat × Session :=
  let state := (session.read handle).recordUse operation
  (state.useCount? operation, session.write handle state)

def invoke (session : Session) (handle : SharedHandle) (operation : String)
    (arguments : List Json) : Except HandleError Json × Session :=
  match (session.read handle).dispatch operation arguments.length with
  | .error error => (.error error, session)
  | .ok (role, target) =>
      let (answer, session) := session.callRole role target arguments
      (answer.mapError HandleError.role, session)

/-! ### Engines -/

def addRegistry (session : Session) : Ref Registry × Session :=
  (session.registries.next, { session with registries := session.registries.add Registry.empty })

def registry (session : Session) (registry : Ref Registry) : Registry :=
  (session.registries.get? registry).getD Registry.empty

def registerAll (session : Session) (registry : Ref Registry) (batch : List HandleClass) :
    Except CompositionCause Unit × Session :=
  let (result, filled) := (session.registry registry).takeIn batch
  (result.mapError .nameCollision,
    { session with registries := session.registries.set registry filled })

def addDispatcher (session : Session) (dispatcher : Dispatcher) : Ref Dispatcher × Session :=
  (session.board.dispatchers.next, { session with board := session.board.addDispatcher dispatcher })

def subscribe (session : Session) (dispatcher : Ref Dispatcher) (subscription : Subscription)
    (child : Option String) : Nat × Session :=
  let board := session.board.subscribe dispatcher subscription child
  (board.subscriptionCount dispatcher, { session with board := board })

def fire (session : Session) (dispatcher : Ref Dispatcher) (identity : Identity)
    (notice : Notice) : Nat × Session :=
  let (count, board) := session.board.fire dispatcher identity notice
  (count, { session with board := board })

/-- An engine takes a number from the sequence unless its settings pin one, and a registry of its
own unless it is given one. -/
def addWorkshop (session : Session) (config : EngineConfig) (registry : Option (Ref Registry))
    (dispatcher : Option (Ref Dispatcher)) : Ref Workshop × Session :=
  let (id, session) := match config.instanceId with
    | some id => (EngineId.mk id, session)
    | none => session.takeEngineId
  let (registry, session) := match registry with
    | some registry => (registry, session)
    | none => session.addRegistry
  (session.workshops.next,
    { session with
      workshops := session.workshops.add ⟨Engine.start id config, registry, dispatcher⟩ })

/-- Tells the dispatcher of an engine, if it has one. -/
def announce (session : Session) (dispatcher : Option (Ref Dispatcher)) (event : RoleEvent) :
    Session :=
  match dispatcher with
  | none => session
  | some dispatcher => (session.fire dispatcher event.identity ⟨event.kind, event⟩).2

def shareResult (session : Session) :
    Except CompositionError Handle → Except CompositionError SharedHandle × Session
  | .error error => (.error error, session)
  | .ok handle =>
      let (shared, session) := session.share handle
      (.ok shared, session)

/-- Runs an operation on an engine, and announces how it ended. -/
def compose (session : Session) (workshop : Ref Workshop) (agent : AgentId)
    (operation : Operation) :
    Except CompositionError SharedHandle × Operation × Session :=
  match session.workshops.get? workshop with
  | none => (.error (.operation (.notQueued operation.status)), operation, session)
  | some found =>
      let composition := found.engine.compose (session.registry found.registry)
        session.identities session.read agent operation
      let (result, session) :=
        { session with
          identities := composition.sequence
          registries := session.registries.set found.registry composition.registry
          workshops := session.workshops.set workshop
            { found with engine := composition.engine } }.shareResult composition.result
      let session := match composition.event with
        | some event => session.announce found.dispatcher event
        | none => session
      (result, composition.operation, session)

/-! ### Coordinators and directors -/

def addCoordinator (session : Session) (config : CoordinatorConfig) :
    Ref Coordinator × Session :=
  (session.coordinators.next,
    { session with coordinators := session.coordinators.add (Coordinator.start config) })

def addDirector (session : Session) (workshop : Ref Workshop) (coordinator : Ref Coordinator) :
    Ref Director × Session :=
  (session.directors.next,
    { session with directors := session.directors.add ⟨workshop, coordinator, Writers.empty⟩ })

/-- A director announces changes through the dispatcher that it is given. -/
def setDispatcher (session : Session) (workshop : Ref Workshop) (dispatcher : Ref Dispatcher) :
    Session :=
  match session.workshops.get? workshop with
  | none => session
  | some found =>
      { session with
        workshops := session.workshops.set workshop { found with dispatcher := some dispatcher } }

def coordinator (session : Session) (coordinator : Ref Coordinator) : Coordinator :=
  (session.coordinators.get? coordinator).getD (Coordinator.start ⟨0⟩)

def register (session : Session) (director : Ref Director) (handle : SharedHandle) :
    Identity × Session :=
  match session.directors.get? director with
  | none => (handle.identity, session)
  | some found =>
      let (_, coordinator) := (session.coordinator found.coordinator).store handle
      (handle.identity,
        { session with coordinators := session.coordinators.set found.coordinator coordinator })

end Session

end RoleStack

import RoleStack.ClassName
import RoleStack.HandleClass.Removal
import RoleStack.Operation
import RoleStack.Registry

/-!
Engines make the next version of a handle: they plan its class, move the state across and register
the classes made on the way. What a step changed before a failure stays changed, so their order matters.
-/

namespace RoleStack

/-- What a composition comes to: the class of the new version, and the classes made for it. -/
structure Plan where
  handleClass : HandleClass
  made : List HandleClass
  reservation : Reservation

structure Stacking where
  top : HandleClass
  made : List HandleClass
  generator : Generator
  reservation : Reservation

namespace Stacking

def start (base : HandleClass) (generator : Generator) (reservation : Reservation) : Stacking :=
  ⟨base, [], generator, reservation⟩

def plan (stacking : Stacking) : Plan :=
  ⟨stacking.top, stacking.made, stacking.reservation⟩

def push (stacking : Stacking) (layer : HandleClass) (generator : Generator) : Stacking :=
  { top := layer
    made := stacking.made ++ [layer]
    generator := generator
    reservation := stacking.reservation.advance }

def nextName (stacking : Stacking) : String :=
  stacking.reservation.nextName stacking.top.name

/-- Puts a role layer on top, its forwarders newly generated. -/
def stackRole (stacking : Stacking) (contract : Contract) (key : Key) :
    Except CompositionCause Stacking :=
  match (stacking.generator.prepare contract key).generate with
  | .error error => .error (.ofForwarding error)
  | .ok (forwarders, generator) =>
      .ok (stacking.push
        (.roleLayer stacking.nextName stacking.top contract key forwarders) generator)

def stackMarker (stacking : Stacking) (marker : Marker) : Stacking :=
  stacking.push (.markerLayer stacking.nextName stacking.top marker) stacking.generator

def restack (stacking : Stacking) : HandleClass → Except CompositionCause Stacking
  | .base .. => .ok stacking
  | .roleLayer _ _ contract key _ => stacking.stackRole contract key
  | .markerLayer _ _ marker => .ok (stacking.stackMarker marker)

def restackAll (stacking : Stacking) : List HandleClass → Except CompositionCause Stacking
  | [] => .ok stacking
  | layer :: rest => do
      let stacking ← stacking.restack layer
      stacking.restackAll rest

end Stacking

namespace Operation

def requireContract (operation : Operation) : Except CompositionCause Contract :=
  match operation.role.contract with
  | some contract => .ok contract
  | none => .error (.missingContract operation.role.name)

def requireMarker (operation : Operation) : Except CompositionCause Marker :=
  match operation.role.marker with
  | some marker => .ok marker
  | none => .error (.missingMarker operation.role.name)

/-- Drops one layer and stacks those over it again. -/
def planWithout (operation : Operation) (reservation : Reservation) (current : HandleClass)
    (declares : HandleClass → Bool) (target : String) : Except CompositionCause Plan :=
  match current.splitAt? declares with
  | none => .error (.ancestryNotFound current.name target)
  | some split => do
      let stacking ← (Stacking.start split.base operation.generator reservation).restackAll
        split.retained
      return stacking.plan

/-- The class that the operation leads to from the current one. -/
def plan (operation : Operation) (strict : Bool) (reservation : Reservation)
    (current : HandleClass) : Except CompositionCause Plan :=
  let stacking := Stacking.start current operation.generator reservation
  match operation.injection with
  | .addRole => do
      let contract ← operation.requireContract
      if current.implements contract.name then
        .error (.contractPresent current.name contract.name)
      else
        let stacking ← stacking.stackRole contract (Key.ofContract contract.name)
        return stacking.plan
  | .removeRole => do
      let contract ← operation.requireContract
      match operation.scope with
      | .layer =>
          operation.planWithout reservation current (HandleClass.declaresContract contract.name)
            contract.name
      | .until =>
          match current.fallback? strict contract.name with
          | some ancestor => .ok ⟨ancestor, [], reservation⟩
          | none => .error (.ancestryNotFound current.name contract.name)
  | .addMarker => do
      let marker ← operation.requireMarker
      if current.hasMarker marker.name then .error (.markerPresent current.name marker.name)
      else return (stacking.stackMarker marker).plan
  | .removeMarker => do
      let marker ← operation.requireMarker
      operation.planWithout reservation current (HandleClass.declaresMarker marker.name)
        marker.name

/-- A new role is bound before the state moves, so that it wins over what the source has. -/
def blankDestination (operation : Operation) (identity : Identity) (handleClass : HandleClass) :
    Handle :=
  let blank := Handle.blank identity handleClass
  match operation.injection, operation.role.contract with
  | .addRole, some contract => blank.bind (Key.ofContract contract.name) operation.role
  | _, _ => blank

/-- A new instance of the class with the state of the target. -/
def populate (operation : Operation) (read : SharedHandle → Handle) (identity : Identity)
    (handleClass : HandleClass) : Except TransferError Handle := do
  let transfer ← operation.transfer.setSource operation.target
  let transfer ← transfer.setDestination (operation.blankDestination identity handleClass)
  let transfer ← transfer.perform read
  let (handle, _) ← transfer.takeDestination
  return handle

end Operation

structure EngineConfig where
  instanceId : Option UInt64
  strictRemoveUntil : Bool
deriving DecidableEq

structure Engine where
  id : EngineId
  config : EngineConfig
  namer : Namer

namespace Engine

def start (id : EngineId) (config : EngineConfig) : Engine := ⟨id, config, Namer.start id⟩

def manipulations (engine : Engine) : Nat := engine.namer.next - 1

end Engine

structure Composition where
  engine : Engine
  registry : Registry
  sequence : Sequence
  operation : Operation
  result : Except CompositionError Handle
  event : Option RoleEvent

/-! ### Attempts -/

/-- What an attempt at a composition changes. -/
structure Attempt where
  namer : Namer
  registry : Registry
  sequence : Sequence

/-- Steps that change it in place: what was changed before an error stays changed. -/
abbrev Attempting := ExceptT CompositionCause (StateM Attempt)

namespace Attempting

def takeIdentity : Attempting Identity := do
  let ⟨namer, registry, sequence⟩ ← get
  set (Attempt.mk namer registry sequence.advance)
  return ⟨sequence.next⟩

def register (made : List HandleClass) : Attempting Unit := do
  let ⟨namer, registry, sequence⟩ ← get
  let (result, registry) := registry.takeIn made
  set (Attempt.mk namer registry sequence)
  ofExcept (result.mapError .nameCollision)

def commit (reservation : Reservation) : Attempting Unit := do
  let ⟨namer, registry, sequence⟩ ← get
  set (Attempt.mk (namer.commit reservation) registry sequence)

end Attempting

namespace Operation

/-- Carries out a plan, where `read` gives the present state of a shared handle. The new version takes a
number from the sequence first. The classes are registered when it is ready, and their names are used up
last of all. -/
def realize (operation : Operation) (read : SharedHandle → Handle) (plan : Plan) :
    Attempting Handle := do
  let identity ← Attempting.takeIdentity
  match operation.populate read identity plan.handleClass with
  | .error error => throw (.transfer error)
  | .ok handle =>
      Attempting.register plan.made
      Attempting.commit plan.reservation
      return handle

def attempt (operation : Operation) (strict : Bool) (read : SharedHandle → Handle) :
    Attempting Handle := do
  let reservation := (← get).namer.reserve
  match operation.plan strict reservation (read operation.target).handleClass with
  | .error cause => throw cause
  | .ok plan => operation.realize read plan

end Operation

namespace Engine

/-- What is told of a completed operation. -/
def eventOf (agent : AgentId) (operation : Operation) : RoleEvent :=
  { identity := operation.target.identity
    agent := agent
    injection := operation.injection
    role := operation.role.name
    outcome := operation.outcome
    className := operation.resultClass }

/-- Runs a queued operation to its end, where `read` gives the present state of a shared handle. -/
def compose (engine : Engine) (registry : Registry) (sequence : Sequence)
    (read : SharedHandle → Handle) (agent : AgentId) (operation : Operation) : Composition :=
  match operation.start with
  | .error error => ⟨engine, registry, sequence, operation, .error (.operation error), none⟩
  | .ok started =>
      let (result, ⟨namer, registry, sequence⟩) :=
        (started.attempt engine.config.strictRemoveUntil read).run.run
          ⟨engine.namer, registry, sequence⟩
      let ended := match result with
        | .error cause => started.fail cause
        | .ok handle => started.succeed handle.className
      { engine := { engine with namer := namer }
        registry := registry
        sequence := sequence
        operation := ended
        result := result.mapError fun cause =>
          .failed operation.target.identity operation.injection operation.role.name cause
        event := some (eventOf agent ended) }

end Engine

end RoleStack

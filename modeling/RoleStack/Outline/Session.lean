import RoleStack.Outline.Basic
import RoleStack.Session.Basic

/-!
The outlines of handles, class levels, roles, operations, engines, coordinators and dispatchers.
-/

namespace RoleStack

mutual

def Json.outline : Json → Outline
  | .null => .word "Null"
  | .bool value => .parts "Bool" [.ofBool value]
  | .integer value => .parts "Number" [.word (toString value)]
  | .real value => .parts "Number" [.word (value.text?.getD "null")]
  | .string value => .parts "String" [.quoted value]
  | .array elements => .labelled "Array" (.list (elementOutlines elements))
  | .object members => .labelled "Object" (.map (memberOutlines members))

def elementOutlines : List Json → List Outline
  | [] => []
  | element :: rest => element.outline :: elementOutlines rest

def memberOutlines : List (String × Json) → List (String × Outline)
  | [] => []
  | (name, value) :: rest => (name, value.outline) :: memberOutlines rest

end

def Identity.outline (identity : Identity) : Outline :=
  .parts "ProxyId" [.ofNat identity.value.toNat]

def EngineId.outline (engine : EngineId) : Outline :=
  .parts "EngineId" [.ofNat engine.value.toNat]

def Key.outline (key : Key) : Outline := .parts "BindingKey" [.quoted key.text]

def Marker.outline (marker : Marker) : Outline := .parts "VisibilityMarker" [.quoted marker.name]

def Handle.outline (handle : Handle) : Outline :=
  .record "Proxy"
    [("id", handle.identity.outline),
     ("class", .quoted handle.className),
     ("fields", .map (handle.fields.entries.map fun entry => (entry.1, entry.2.outline))),
     ("bindings", .list (handle.bindings.keys.map Key.outline)),
     ("extended", .ofBool handle.extension.isSome)]

def HandleClass.layerOutline : HandleClass → Outline
  | .base _ layout contracts _ =>
      .record "Base"
        [("fields", .list (layout.keys.map .quoted)), ("contracts", .list (contracts.map .quoted))]
  | .roleLayer _ _ contract key _ =>
      .record "Role" [("contract", .quoted contract.name), ("key", key.outline)]
  | .markerLayer _ _ marker => .record "Marker" [("marker", marker.outline)]

def RoleRef.outline (role : RoleRef) : Outline :=
  .record "Role"
    [("name", .quoted role.name),
     ("contract", .ofOption (fun contract => .quoted contract.name) role.contract),
     ("marker", .ofOption (fun marker => .quoted marker.name) role.marker)]

def Reservation.outline (reservation : Reservation) : Outline :=
  .record "NameReservation"
    [("engine", reservation.engine.outline),
     ("first", .ofNat reservation.first),
     ("issued", .ofNat reservation.issued)]

def RoleError.outline : RoleError → Outline
  | .unknownOperation operation => .record "UnknownOperation" [("operation", .quoted operation)]
  | .invalidArguments operation message =>
      .record "InvalidArguments" [("operation", .quoted operation), ("message", .quoted message)]
  | .failed operation message =>
      .record "Failed" [("operation", .quoted operation), ("message", .quoted message)]

def HandleError.outline : HandleError → Outline
  | .unknownOperation className operation =>
      .record "UnknownOperation" [("class", .quoted className), ("operation", .quoted operation)]
  | .arityMismatch operation expected actual =>
      .record "ArityMismatch"
        [("operation", .quoted operation), ("expected", .ofNat expected), ("actual", .ofNat actual)]
  | .unbound identity key =>
      .record "Unbound" [("proxy", identity.outline), ("key", .quoted key.text)]
  | .unknownField className field =>
      .record "UnknownField" [("class", .quoted className), ("field", .quoted field)]
  | .extendedState message => .record "ExtendedState" [("message", .quoted message)]
  | .role error => .parts "Role" [error.outline]

def TransferError.outline : TransferError → Outline
  | .sourceSetTwice => .parts "ProtocolViolation" [.word "SourceSetTwice"]
  | .destinationSetTwice => .parts "ProtocolViolation" [.word "DestinationSetTwice"]
  | .sourceUnset => .parts "ProtocolViolation" [.word "SourceUnset"]
  | .destinationUnset => .parts "ProtocolViolation" [.word "DestinationUnset"]
  | .alreadyTransferred => .parts "ProtocolViolation" [.word "AlreadyTransferred"]
  | .notTransferred => .parts "ProtocolViolation" [.word "NotTransferred"]
  | .extendedState source => .record "ExtendedState" [("source", source.outline)]

def CompositionCause.outline : CompositionCause → Outline
  | .missingContract role => .record "MissingContract" [("role", .quoted role)]
  | .missingMarker role => .record "MissingMarker" [("role", .quoted role)]
  | .contractPresent className contract =>
      .record "ContractAlreadyPresent" [("class", .quoted className), ("contract", .quoted contract)]
  | .markerPresent className marker =>
      .record "MarkerAlreadyPresent" [("class", .quoted className), ("marker", .quoted marker)]
  | .ancestryNotFound className target =>
      .record "AncestryNotFound" [("class", .quoted className), ("target", .quoted target)]
  | .duplicateOperation contract operation =>
      .record "DuplicateOperation"
        [("contract", .quoted contract), ("operation", .quoted operation)]
  | .forwardersNotPrepared => .word "ForwardersNotPrepared"
  | .nameCollision name => .record "NameCollision" [("name", .quoted name)]
  | .transfer error => .parts "Transfer" [error.outline]

def Status.name : Status → String
  | .queued => "Queued"
  | .started => "Started"
  | .completedSuccess => "CompletedSuccess"
  | .completedFailure => "CompletedFailure"

def Operation.outline (operation : Operation) : Outline :=
  .record "CompositionOperation"
    [("kind", .word operation.injection.name),
     ("scope", .word operation.scope.name),
     ("target", operation.target.identity.outline),
     ("role", .quoted operation.role.name),
     ("status", .word operation.status.name),
     ("cause", .ofOption CompositionCause.outline operation.cause)]

def EngineConfig.outline (config : EngineConfig) : Outline :=
  .record "EngineConfig"
    [("instance_id", .ofOption (fun id => .ofNat id.toNat) config.instanceId),
     ("strict_remove_until", .ofBool config.strictRemoveUntil)]

def Session.workshopOutline (session : Session) (workshop : Workshop) : Outline :=
  .record "CompositionEngine"
    [("id", workshop.engine.id.outline),
     ("config", workshop.engine.config.outline),
     ("manipulations", .ofNat workshop.engine.manipulations),
     ("registered", .ofNat (session.registry workshop.registry).size),
     ("dispatcher", .ofBool workshop.dispatcher.isSome)]

def Coordinator.outline (coordinator : Coordinator) : Outline :=
  .record "ProxyCoordinator"
    [("stats",
       .record "CoordinatorStats"
         [("entries", .ofNat coordinator.stats.entries),
          ("locked", .ofNat coordinator.stats.locked),
          ("manipulations", .ofNat coordinator.stats.manipulations.toNat)]),
     ("config",
       .record "CoordinatorConfig"
         [("default_lock_timeout_ms", .ofNat coordinator.config.defaultLockTimeout.toNat)])]

def Dispatcher.outline (dispatcher : Dispatcher) : Outline :=
  .record "ListenerDispatcher" [("listeners", .ofNat dispatcher.subscriptions.length)]

end RoleStack

import RoleStack.Report.Error
import RoleStack.Schema.Contract
import RoleStack.Schema.Event
import RoleStack.Session.Basic

/-!
Reports on classes, roles, handles, operations, events and coordinators. Names that have no order of
their own are listed in alphabetical order.
-/

namespace RoleStack

def Json.texts (values : List String) : Json := .ofList .string values

def Json.sortedTexts (values : List String) : Json :=
  .texts (values.mergeSort fun first second => first ≤ second)

def Json.ofEntry (entry : String × Json) : Json := .array [.string entry.1, entry.2]

def Table.report (table : Table String Json) : Json := .ofList Json.ofEntry table.entries

def Forwarder.report (forwarder : Forwarder) : Json :=
  .ofMembers
    [("contract", .string forwarder.contract),
     ("operation", .string forwarder.operation),
     ("arity", .ofNat forwarder.arity),
     ("key", .string forwarder.key.text)]

def Signature.report (signature : Signature) : Json :=
  .ofMembers
    [("name", .string signature.name),
     ("arity", .ofNat signature.arity),
     ("returns", signature.returns.toJson),
     ("parameters", .ofList Parameter.toJson signature.parameters)]

def ClassName.report (name : ClassName) : Json :=
  .ofMembers
    [("base", .string name.base),
     ("counter", .ofNat name.counter),
     ("engine", name.engine.toJson),
     ("display", .string name.display)]

namespace HandleClass

def layerName : HandleClass → String
  | .base .. => "base"
  | .roleLayer .. => "role"
  | .markerLayer .. => "marker"

def levelReport (level : HandleClass) : Json :=
  .ofMembers
    [("name", .string level.name),
     ("layer", .string level.layerName),
     ("declares", .texts level.declaredInterfaces),
     ("forwarders", .ofList Forwarder.report level.ownForwarders.values)]

def report (handleClass : HandleClass) : Json :=
  .ofMembers
    [("name", .string handleClass.name),
     ("is_base", .bool handleClass.isBase),
     ("depth", .ofNat handleClass.depth),
     ("root", .string handleClass.root.name),
     ("parent", .ofOption (fun parent => .string parent.name) handleClass.parent?),
     ("levels", .ofList levelReport handleClass.levels),
     ("keys", .sortedTexts (handleClass.referencedKeys.map Key.text)),
     ("layout", handleClass.layout.report),
     ("extension", .bool handleClass.extension?.isSome)]

/-- What the class says about a name of a contract, a marker or an operation. -/
def nameReport (handleClass : HandleClass) (name : String) : Json :=
  .ofMembers
    [("implements", .bool (handleClass.implements name)),
     ("has_marker", .bool (handleClass.hasMarker name)),
     ("declares_contract", .bool (handleClass.declaresContract name)),
     ("declares_marker", .bool (handleClass.declaresMarker name)),
     ("forwarder", .ofOption Forwarder.report (handleClass.findForwarder? name))]

def Split.report (split : Split) : Json :=
  .ofMembers
    [("base", .string split.base.name),
     ("removed", .string split.removed.name),
     ("retained", .texts (split.retained.map HandleClass.name))]

end HandleClass

namespace Role

def report (role : Role) : Json :=
  .ofMembers
    [("descriptor", role.descriptor.toJson),
     ("contract", .ofOption (fun contract => .string contract.name) role.contract?),
     ("marker", .ofOption (fun marker => .string marker.name) role.marker?)]

def memoryReport : Role → Json
  | .administrator _ created => .ofMembers [("created", .texts created)]
  | .auditor journal => .ofMembers [("journal", .texts journal)]
  | .announcer _ => .ofMembers []
  | .scripted _ calls =>
      .ofMembers [("calls", .ofList (fun call => .ofEntry (call.1, .array call.2)) calls)]

end Role

namespace Handle

def bindingsReport (bindings : Table Key RoleRef) : Json :=
  let names := bindings.entries.map fun entry => (entry.1.text, entry.2.name)
  .ofList (fun pair => .texts [pair.1, pair.2])
    (names.mergeSort fun first second => first.1 ≤ second.1)

def report (handle : Handle) : Json :=
  .ofMembers
    [("id", handle.identity.toJson),
     ("class", .string handle.className),
     ("fields", handle.fields.report),
     ("bindings", bindingsReport handle.bindings),
     ("extended", .bool handle.extension.isSome)]

end Handle

def Transfer.report (transfer : Transfer) : Json :=
  .ofMembers
    [("transferred", .bool transfer.transferred),
     ("source", .ofOption (fun source => source.identity.toJson) transfer.source),
     ("destination", .ofOption Handle.report transfer.destination)]

def Status.report (status : Status) : Json :=
  .ofMembers [("status", .string status.display), ("terminal", .bool status.isTerminal)]

def Operation.report (operation : Operation) : Json :=
  .ofMembers
    [("kind", .string operation.injection.display),
     ("scope", .string operation.scope.name),
     ("target", operation.target.identity.toJson),
     ("role", .string operation.role.name),
     ("contract", .ofOption (fun contract => .string contract.name) operation.role.contract),
     ("marker", .ofOption (fun marker => .string marker.name) operation.role.marker),
     ("status", operation.status.report),
     ("cause", .ofOption CompositionCause.report operation.cause),
     ("result_class", .ofOption .string operation.resultClass),
     ("succeeded", .bool operation.succeeded)]

def Notice.report (notice : Notice) : Json := .array [notice.kind.toJson, notice.event.toJson]

/-- With an identity, the events of that identity are listed apart. -/
def Dispatcher.report (identity : Option Identity) : Dispatcher → Json
  | .passing subscriptions => .ofMembers [("listeners", .ofNat subscriptions.length)]
  | .recording notices =>
      let events := identity.map fun identity => (Dispatcher.recording notices).eventsOf identity
      .ofMembers
        [("events", .ofList Notice.report notices),
         ("kinds", .ofList (fun notice => notice.kind.toJson) notices),
         ("len", .ofNat notices.length),
         ("empty", .bool notices.isEmpty),
         ("for", .ofOption (.ofList RoleEvent.toJson) events)]

def Entry.report (entry : Entry) : Json :=
  .ofMembers
    [("locked", .bool entry.isLocked),
     ("count", .ofNat entry.lockCount),
     ("manipulations", .ofNat entry.manipulations.toNat),
     ("retired", .bool entry.retired)]

namespace Coordinator

def identityReport (coordinator : Coordinator) (identity : Identity) : Json :=
  .ofMembers
    [("contains", .bool (coordinator.contains identity)),
     ("locked", .bool (coordinator.isLocked identity)),
     ("count", .ofNat (coordinator.lockCount identity)),
     ("manipulations", .ofNat (coordinator.manipulationsOf identity).toNat)]

def report (coordinator : Coordinator) : Json :=
  .ofMembers
    [("stats", .ofMembers
       [("entries", .ofNat coordinator.stats.entries),
        ("locked", .ofNat coordinator.stats.locked),
        ("manipulations", .ofNat coordinator.stats.manipulations.toNat)]),
     ("identities", .ofList Identity.toJson coordinator.identities)]

end Coordinator

namespace Config

/-- The settings, the time limit they come to, and whether they are valid. -/
def report (config : Config) : Json :=
  .ofMembers
    [("config", config.toJson),
     ("lock_timeout_ms",
       .ofOption (fun limit => .string (toString limit.toNat)) config.coordinator.lockTimeout?),
     ("valid", .bool config.validate.isOk)]

end Config

end RoleStack

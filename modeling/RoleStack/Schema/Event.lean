import RoleStack.Event
import RoleStack.Schema.Field

/-!
The JSON forms of identities and of role events.
-/

namespace RoleStack

open Schema

namespace Identity

def toJson (identity : Identity) : Json := .ofWord identity.value

def ofJson? (json : Json) : Option Identity := json.word?.map Identity.mk

end Identity

namespace EngineId

def toJson (engine : EngineId) : Json := .ofWord engine.value

def ofJson? (json : Json) : Option EngineId := json.word?.map EngineId.mk

end EngineId

namespace AgentId

variable [AgentFormat]

def toJson (agent : AgentId) : Json := .string (AgentFormat.text agent)

def ofJson? (json : Json) : Option AgentId := json.string?.bind AgentFormat.parse?

end AgentId

namespace Injection

def all : List Injection := [.addRole, .removeRole, .addMarker, .removeMarker]

def ofName? (name : String) : Option Injection :=
  all.find? fun injection => injection.name = name

def toJson (injection : Injection) : Json := .string injection.name

def ofJson? : Json → Option Injection := choiceOf ofName?

end Injection

namespace EventKind

def all : List EventKind := [.roleAssumed, .roleReleased, .compositionFailed]

def ofName? (name : String) : Option EventKind := all.find? fun kind => kind.name = name

def toJson (kind : EventKind) : Json := .string kind.name

def ofJson? : Json → Option EventKind := choiceOf ofName?

end EventKind

namespace Outcome

def toJson : Outcome → Json
  | .success => .string "Success"
  | .failure reason => .object [("Failure", .object [("reason", .string reason)])]

/-- What a failure holds is always an object. -/
def ofJson? : Json → Option Outcome
  | .string "Success" => some .success
  | .object [("Success", .null)] => some .success
  | .object [("Failure", .object members)] =>
      ((memberField members "reason").required Json.string?).map Outcome.failure
  | _ => none

end Outcome

namespace RoleEvent

variable [AgentFormat]

def toJson (event : RoleEvent) : Json :=
  .object
    [("agent", event.agent.toJson),
     ("class_name", .ofOption Json.string event.className),
     ("identity", event.identity.toJson),
     ("injection", event.injection.toJson),
     ("outcome", event.outcome.toJson),
     ("role", .string event.role)]

def fieldNames : List String :=
  ["identity", "agent", "injection", "role", "outcome", "class_name"]

def ofJson? (json : Json) : Option RoleEvent := do
  match ← fieldsOf .refused fieldNames json with
  | [identity, agent, injection, role, outcome, className] =>
      return ⟨← identity.required Identity.ofJson?, ← agent.required AgentId.ofJson?,
        ← injection.required Injection.ofJson?, ← role.required Json.string?,
        ← outcome.required Outcome.ofJson?, ← className.optional Json.string?⟩
  | _ => none

end RoleEvent

end RoleStack

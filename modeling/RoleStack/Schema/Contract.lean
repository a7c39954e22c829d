import RoleStack.Contract
import RoleStack.Schema.Field

/-!
The JSON forms of contracts and role descriptors.
-/

namespace RoleStack

open Schema

namespace ValueKind

def ofName? (name : String) : Option ValueKind :=
  all.find? fun kind => kind.name = name

def toJson (kind : ValueKind) : Json := .string kind.name

def ofJson? : Json → Option ValueKind := choiceOf ofName?

end ValueKind

namespace Parameter

def toJson (parameter : Parameter) : Json :=
  .object [("kind", parameter.kind.toJson), ("name", .string parameter.name)]

def ofJson? (json : Json) : Option Parameter := do
  match ← fieldsOf .refused ["name", "kind"] json with
  | [name, kind] => return ⟨← name.required Json.string?, ← kind.required ValueKind.ofJson?⟩
  | _ => none

end Parameter

namespace Signature

def toJson (signature : Signature) : Json :=
  .object
    [("name", .string signature.name),
     ("parameters", .ofList Parameter.toJson signature.parameters),
     ("returns", signature.returns.toJson)]

def ofJson? (json : Json) : Option Signature := do
  match ← fieldsOf .refused ["name", "parameters", "returns"] json with
  | [name, parameters, returns] =>
      return ⟨← name.required Json.string?, ← parameters.required (listOf Parameter.ofJson?),
        ← returns.required ValueKind.ofJson?⟩
  | _ => none

end Signature

namespace Contract

def toJson (contract : Contract) : Json :=
  .object
    [("name", .string contract.name), ("operations", .ofList Signature.toJson contract.operations)]

def ofJson? (json : Json) : Option Contract := do
  match ← fieldsOf .refused ["name", "operations"] json with
  | [name, operations] =>
      return ⟨← name.required Json.string?, ← operations.required (listOf Signature.ofJson?)⟩
  | _ => none

end Contract

namespace Marker

def toJson (marker : Marker) : Json := .string marker.name

def ofJson? (json : Json) : Option Marker := json.string?.map Marker.mk

end Marker

namespace Task

def toJson (task : Task) : Json :=
  .object
    [("name", .string task.name),
     ("parameters", .ofList Parameter.toJson task.parameters),
     ("returns", task.returns.toJson)]

def ofJson? (json : Json) : Option Task := do
  match ← fieldsOf .refused ["name", "parameters", "returns"] json with
  | [name, parameters, returns] =>
      return ⟨← name.required Json.string?, ← parameters.required (listOf Parameter.ofJson?),
        ← returns.required ValueKind.ofJson?⟩
  | _ => none

end Task

namespace RoleDescriptor

def toJson (descriptor : RoleDescriptor) : Json :=
  .object
    [("contract", .ofOption Json.string descriptor.contract),
     ("marker", .ofOption Json.string descriptor.marker),
     ("operations", .ofList Json.string descriptor.operations),
     ("role", .string descriptor.role),
     ("tasks", .ofList Task.toJson descriptor.tasks)]

def ofJson? (json : Json) : Option RoleDescriptor := do
  match ← fieldsOf .refused ["role", "contract", "marker", "operations", "tasks"] json with
  | [role, contract, marker, operations, tasks] =>
      return ⟨← role.required Json.string?, ← contract.optional Json.string?,
        ← marker.optional Json.string?, ← operations.required (listOf Json.string?),
        ← tasks.required (listOf Task.ofJson?)⟩
  | _ => none

end RoleDescriptor

end RoleStack

import RoleStack.Generator
import RoleStack.Json.Member
import RoleStack.Role
import RoleStack.Schema.Contract

/-!
Descriptions: short JSON forms from which contracts, forwarders, roles and generators are made.
-/

namespace RoleStack

namespace Parameter

def described? (json : Json) : Option Parameter := do
  let (name, kind) ← json.pair?
  return ⟨name, ← ValueKind.ofJson? kind⟩

end Parameter

namespace Signature

/-- An operation takes nothing and returns null unless the description says otherwise. -/
def described? (json : Json) : Option Signature := do
  return { name := ← json.text? "name"
           parameters := ← Json.itemsOf? Parameter.described? json "params"
           returns := (← Json.optional? ValueKind.ofJson? json "returns").getD .null }

end Signature

namespace Contract

def described? (json : Json) : Option Contract := do
  return ⟨← json.text? "name", ← Json.itemsOf? Signature.described? json "operations"⟩

end Contract

namespace Forwarder

/-- A forwarder of a contract with the operation that it stands for. It calls that same operation
through the contract's own key unless the description says otherwise. -/
def described? (contract : String) (json : Json) : Option (String × Forwarder) := do
  let operation ← json.text? "operation"
  return (operation,
    { contract := contract
      operation := (json.text? "calls").getD operation
      arity := (← json.number? "arity").toNat
      key := Key.ofContract ((json.text? "key").getD contract) })

end Forwarder

namespace Extension

def described? : Json → Option Extension
  | .string "usage" => some .fresh
  | json => (json.text? "refuse").map Extension.refusing

end Extension

namespace ScriptedAnswer

def described (json : Json) : ScriptedAnswer :=
  match json.member? "value", json.text? "fail", json.text? "invalid" with
  | some value, _, _ => .returning value
  | none, some message, _ => .failing message
  | none, none, some message => .refusing message
  | none, none, none => .echoing

end ScriptedAnswer

namespace Script

def described? (json : Json) : Option Script := do
  let answers := ((json.given? "answers").map Json.members).getD []
  return { name := ← json.text? "name"
           contract := ← Json.optional? Contract.described? json "contract"
           marker := (json.text? "marker").map Marker.mk
           tasks := ← Json.itemsOf? Task.ofJson? json "tasks"
           answers := Table.ofList <|
             answers.map fun answer => (answer.1, ScriptedAnswer.described answer.2) }

end Script

namespace Role

/-- An administrator answers true unless the description says otherwise. -/
def described? (json : Json) : Option Role := do
  match ← json.text? "type" with
  | "admin" => return .administrator ((← Json.optional? Json.bool? json "outcome").getD true) []
  | "auditor" => return .auditor []
  | "marker" => return .announcer ⟨← json.text? "marker"⟩
  | "script" => return .scripted (← Script.described? json) []
  | _ => none

end Role

namespace Generator

def described? (json : Json) : Option Generator := do
  match ← json.text? "type" with
  | "delegating" => return ofStyle .delegating
  | "unprepared" => return ofStyle .unprepared
  | "only" => return ofStyle (.only (← json.texts? "operations"))
  | "rekey" => return ofStyle (.rekeyed (← json.text? "contract"))
  | "limit" => return ofStyle (.limited (← json.number? "count").toNat)
  | _ => none

end Generator

end RoleStack

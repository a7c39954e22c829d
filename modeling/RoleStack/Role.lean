import RoleStack.CallError
import RoleStack.Pool

/-!
Roles: what a role offers is fixed, and what it remembers grows with the calls on it.
-/

namespace RoleStack

/-- What a scripted role does when an operation is called. -/
inductive ScriptedAnswer where
  | returning (value : Json)
  | failing (message : String)
  | refusing (message : String)
  | echoing

def ScriptedAnswer.give (operation : String) (arguments : List Json) :
    ScriptedAnswer → Except RoleError Json
  | .returning value => .ok value
  | .failing message => .error (.failed operation message)
  | .refusing message => .error (.invalidArguments operation message)
  | .echoing => .ok (.array arguments)

structure Script where
  name : String
  contract : Option Contract
  marker : Option Marker
  tasks : List Task
  answers : Table String ScriptedAnswer

inductive Role where
  /-- Creates databases and answers `outcome`. -/
  | administrator (outcome : Bool) (created : List String)
  | auditor (journal : List String)
  /-- Shows a marker and offers nothing else. -/
  | announcer (marker : Marker)
  /-- Answers as written and remembers every call. -/
  | scripted (script : Script) (calls : List (String × List Json))

namespace Role

def administration : Contract :=
  { name := "IAdmin"
    operations := [⟨"createDatabase", [⟨"name", .string⟩], .bool⟩] }

def auditing : Contract :=
  { name := "IAuditor"
    operations := [⟨"record", [⟨"entry", .string⟩], .integer⟩, ⟨"auditCount", [], .integer⟩] }

def name : Role → String
  | .administrator .. => "admin"
  | .auditor _ => "auditor"
  | .announcer marker => marker.name
  | .scripted script _ => script.name

def contract? : Role → Option Contract
  | .administrator .. => some administration
  | .auditor _ => some auditing
  | .announcer _ => none
  | .scripted script _ => script.contract

def marker? : Role → Option Marker
  | .administrator .. | .auditor _ => none
  | .announcer marker => some marker
  | .scripted script _ => script.marker

def tasks : Role → List Task
  | .administrator .. => [⟨"vacuum", [], .null⟩]
  | .auditor _ | .announcer _ => []
  | .scripted script _ => script.tasks

def descriptor (role : Role) : RoleDescriptor :=
  { role := role.name
    contract := role.contract?.map Contract.name
    marker := role.marker?.map Marker.name
    operations := (role.contract?.map Contract.operationNames).getD []
    tasks := role.tasks }

def firstText? (arguments : List Json) : Option String :=
  arguments.head?.bind Json.string?

/-- The answer to a call, with the role afterwards. -/
def invoke (operation : String) (arguments : List Json) : Role → Except RoleError Json × Role
  | .administrator outcome created =>
      let role := administrator outcome created
      if operation = "createDatabase" then
        match firstText? arguments with
        | none => (.error (.invalidArguments operation "expected a name"), role)
        | some "" => (.error (.failed operation "database name is empty"), role)
        | some database => (.ok (.bool outcome), administrator outcome (created ++ [database]))
      else (.error (.unknownOperation operation), role)
  | .auditor journal =>
      if operation = "record" then
        match firstText? arguments with
        | none => (.error (.invalidArguments operation "expected an entry"), auditor journal)
        | some entry => (.ok (.ofNat (journal.length + 1)), auditor (journal ++ [entry]))
      else if operation = "auditCount" then (.ok (.ofNat journal.length), auditor journal)
      else (.error (.unknownOperation operation), auditor journal)
  | .announcer marker => (.error (.unknownOperation operation), announcer marker)
  | .scripted script calls =>
      let answer := match script.answers.get? operation with
        | none => .error (.unknownOperation operation)
        | some answer => answer.give operation arguments
      (answer, scripted script (calls ++ [(operation, arguments)]))

end Role

/-- A role in use: which one it is, and what it offers. -/
structure RoleRef where
  cell : Ref Role
  name : String
  contract : Option Contract
  marker : Option Marker
deriving DecidableEq

def Role.reference (role : Role) (cell : Ref Role) : RoleRef :=
  ⟨cell, role.name, role.contract?, role.marker?⟩

end RoleStack

import RoleStack.CallError
import RoleStack.Json.Value
import RoleStack.Table

/-!
State that a handle carries beside its fields. How it is copied is up to the state itself.
-/

namespace RoleStack

inductive ExtensionContent where
  /-- How often each operation was used. -/
  | usage (counts : Table String Nat)
  | other (value : Json)

structure Extension where
  content : ExtensionContent
  /-- What a destination with the second content holds after the first was copied into it. -/
  copy : ExtensionContent → ExtensionContent → Except HandleError ExtensionContent

namespace Extension

def copyUsage : ExtensionContent → ExtensionContent → Except HandleError ExtensionContent
  | .usage counts, .usage _ => .ok (.usage counts)
  | _, _ => .error (.extendedState "destination does not hold UsageCounters")

def usage (counts : Table String Nat) : Extension := ⟨.usage counts, copyUsage⟩

/-- State that cannot be copied. -/
def refusing (message : String) : Extension :=
  ⟨.other .null, fun _ _ => .error (.extendedState message)⟩

/-- State whose copying leaves the destination as it is. -/
def inert : Extension := ⟨.other .null, fun _ destination => .ok destination⟩

def fresh : Extension := .usage Table.empty

/-- The destination after the source's content was copied into it. -/
def copyInto (source destination : Extension) : Except HandleError Extension :=
  match source.copy source.content destination.content with
  | .error error => .error error
  | .ok content => .ok { destination with content := content }

def count? (extension : Extension) (operation : String) : Option Nat :=
  match extension.content with
  | .usage counts => some ((counts.get? operation).getD 0)
  | .other _ => none

def record (extension : Extension) (operation : String) : Extension :=
  match extension.content with
  | .usage counts =>
      { extension with
        content := .usage (counts.insert operation ((counts.get? operation).getD 0 + 1)) }
  | .other _ => extension

end Extension

end RoleStack

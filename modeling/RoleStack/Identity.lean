import RoleStack.Json.Writer
import RoleStack.Text.Reader

/-!
The numbers that name handles and engines, the sequences that give them out, and the agents on
whose behalf roles change.
-/

namespace RoleStack

/-- Names one handle through all its versions. -/
structure Identity where
  value : UInt64
deriving DecidableEq

/-- Names one engine in the classes it makes. -/
structure EngineId where
  value : UInt64
deriving DecidableEq

/-- An agent's number of 128 bits, the most significant first. -/
structure AgentId where
  bits : BitVec 128
deriving DecidableEq

def Identity.display (identity : Identity) : String :=
  "proxy-" ++ toString identity.value.toNat

def EngineId.display (engine : EngineId) : String :=
  toString engine.value.toNat

/-- Gives out consecutive numbers, starting at one. -/
structure Sequence where
  next : UInt64
deriving DecidableEq

def Sequence.start : Sequence := ⟨1⟩

def Sequence.advance (sequence : Sequence) : Sequence := ⟨sequence.next + 1⟩

namespace AgentId

def zero : AgentId := ⟨0⟩

/-- The hexadecimal digits, the most significant first. -/
def digits (agent : AgentId) : List Nat :=
  (List.range 32).map fun place => agent.bits.toNat / Nat.pow 16 (31 - place) % 16

/-- Hyphens stand after 8, 12, 16 and 20 digits. -/
def text (agent : AgentId) : String :=
  let chars := agent.digits.map Json.hexDigit
  let group (start size : Nat) : String := String.ofList ((chars.drop start).take size)
  "-".intercalate [group 0 8, group 8 4, group 12 4, group 16 4, group 20 12]

def ofDigits (digits : List Char) : Option AgentId :=
  if digits.length = 32 ∧ digits.all Reader.isHexDigit then
    some ⟨BitVec.ofNat 128 (Reader.digitsValue 16 digits)⟩
  else none

def ofHyphenated (text : List Char) : Option AgentId :=
  let group (start size : Nat) : List Char := (text.drop start).take size
  if text.length = 36 ∧ text[8]? = some '-' ∧ text[13]? = some '-' ∧ text[18]? = some '-' ∧
      text[23]? = some '-' then
    ofDigits (group 0 8 ++ group 9 4 ++ group 14 4 ++ group 19 4 ++ group 24 12)
  else none

def nameSpace : List Char := "urn:uuid:".toList

/-- Reads 32 digits, or the hyphenated form, which may stand in braces or after its name space. Case
does not matter, in the name space neither. -/
def parse? (text : String) : Option AgentId :=
  match text.toList with
  | '\x7b' :: rest =>
      if rest.getLast? = some '\x7d' then ofHyphenated rest.dropLast else none
  | chars =>
      if chars.length = 32 then ofDigits chars
      else if (chars.take nameSpace.length).map Char.toLower = nameSpace then
        ofHyphenated (chars.drop nameSpace.length)
      else ofHyphenated chars

end AgentId

/-- How agents are written, and which texts are read as agents. -/
class AgentFormat where
  text : AgentId → String
  parse? : String → Option AgentId

instance AgentFormat.hexadecimal : AgentFormat := ⟨AgentId.text, AgentId.parse?⟩

def AgentId.display [AgentFormat] (agent : AgentId) : String := "agent-" ++ AgentFormat.text agent

end RoleStack

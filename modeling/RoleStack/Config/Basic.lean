import RoleStack.Coordinator.Basic
import RoleStack.Engine
import RoleStack.Schema.Field
import RoleStack.Toml.Reader

/-!
Settings of engines and coordinators, and reading them from JSON values and TOML documents.
-/

namespace RoleStack

inductive ConfigError where
  | unreadable (path : String)
  | malformed
  | invalid (key message : String)
deriving DecidableEq

namespace ConfigError

/-- A malformed document has no text that says what is wrong with it. -/
def message? : ConfigError → Option String
  | .unreadable path => some s!"Failed to read config file {path}"
  | .malformed => none
  | .invalid key message => some s!"Invalid config value for {key}: {message}"

end ConfigError

structure Config where
  engine : EngineConfig
  coordinator : CoordinatorConfig
deriving DecidableEq

open Schema

namespace EngineConfig

def default : EngineConfig := ⟨none, false⟩

def toJson (config : EngineConfig) : Json :=
  .object
    [("instance_id", .ofOption Json.ofWord config.instanceId),
     ("strict_remove_until", .bool config.strictRemoveUntil)]

def read (surplus : Surplus) (json : Json) : Option EngineConfig := do
  match ← fieldsOf surplus ["instance_id", "strict_remove_until"] json with
  | [instanceId, strict] =>
      return ⟨← instanceId.defaulting none (Field.nullable Json.word?),
        ← strict.defaulting false Json.bool?⟩
  | _ => none

end EngineConfig

namespace CoordinatorConfig

def default : CoordinatorConfig := ⟨0⟩

def toJson (config : CoordinatorConfig) : Json :=
  .object [("default_lock_timeout_ms", .ofWord config.defaultLockTimeout)]

def read (surplus : Surplus) (json : Json) : Option CoordinatorConfig := do
  match ← fieldsOf surplus ["default_lock_timeout_ms"] json with
  | [timeout] => return ⟨← timeout.defaulting 0 Json.word?⟩
  | _ => none

end CoordinatorConfig

namespace Config

def default : Config := ⟨EngineConfig.default, CoordinatorConfig.default⟩

def toJson (config : Config) : Json :=
  .object [("coordinator", config.coordinator.toJson), ("engine", config.engine.toJson)]

def read (surplus : Surplus) (json : Json) : Option Config := do
  match ← fieldsOf surplus ["engine", "coordinator"] json with
  | [engine, coordinator] =>
      return ⟨← engine.defaulting EngineConfig.default (EngineConfig.read surplus),
        ← coordinator.defaulting CoordinatorConfig.default (CoordinatorConfig.read surplus)⟩
  | _ => none

def validate (config : Config) : Except ConfigError Unit :=
  if config.engine.instanceId = some 0 then
    .error (.invalid "engine.instance_id" "engine ids start at 1")
  else .ok ()

/-- Reads a TOML document, where an array that is too long for its structure is no error. -/
def parse (text : String) : Except ConfigError Config :=
  match (Toml.parse? text).bind (read .ignored) with
  | none => .error .malformed
  | some config => config.validate.map fun _ => config

/-- Reads the bytes of a file, which must be UTF-8 text. -/
def parseBytes (path : String) (bytes : ByteArray) : Except ConfigError Config :=
  match String.fromUTF8? bytes with
  | none => .error (.unreadable path)
  | some text => parse text

end Config

end RoleStack

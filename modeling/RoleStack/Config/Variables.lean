import RoleStack.Config.Basic
import RoleStack.Text.Blank
import RoleStack.Text.Word

/-!
Variables that override settings. They are applied one by one, so those before a faulty one keep
their effect; the settings are validated at the end.
-/

namespace RoleStack.Config

inductive Setting where
  | instanceId
  | strictRemoveUntil
  | defaultLockTimeout
deriving DecidableEq

namespace Setting

def key : Setting → String
  | .instanceId => "engine.instance_id"
  | .strictRemoveUntil => "engine.strict_remove_until"
  | .defaultLockTimeout => "coordinator.default_lock_timeout_ms"

def variableName : Setting → String
  | .instanceId => "PERSONA_ENGINE_INSTANCE_ID"
  | .strictRemoveUntil => "PERSONA_ENGINE_STRICT_REMOVE_UNTIL"
  | .defaultLockTimeout => "PERSONA_COORDINATOR_DEFAULT_LOCK_TIMEOUT_MS"

def all : List Setting := [.instanceId, .strictRemoveUntil, .defaultLockTimeout]

def ofVariable? (name : String) : Option Setting :=
  all.find? fun setting => setting.variableName = name

end Setting

def readFlag (text : List Char) : Except String Bool :=
  if text = ['t', 'r', 'u', 'e'] then .ok true
  else if text = ['f', 'a', 'l', 's', 'e'] then .ok false
  else .error "provided string was not \x60true\x60 or \x60false\x60"

/-- The settings with one of them read from text, around which blanks do not count. -/
def apply (config : Config) (setting : Setting) (value : String) : Except ConfigError Config :=
  let text := trimBlanks value.toList
  let invalid (message : String) : ConfigError := .invalid setting.key message
  match setting with
  | .instanceId =>
      match readWord text with
      | .ok id => .ok { config with engine := { config.engine with instanceId := some id } }
      | .error error => .error (invalid error.message)
  | .strictRemoveUntil =>
      match readFlag text with
      | .ok strict => .ok { config with engine := { config.engine with strictRemoveUntil := strict } }
      | .error message => .error (invalid message)
  | .defaultLockTimeout =>
      match readWord text with
      | .ok timeout => .ok { config with coordinator := ⟨timeout⟩ }
      | .error error => .error (invalid error.message)

/-- The result of applying the variables, with the settings it leaves, also after an error. -/
def merge (config : Config) : List (String × String) → Except ConfigError Unit × Config
  | [] => (config.validate, config)
  | (name, value) :: rest =>
      match Setting.ofVariable? name with
      | none => config.merge rest
      | some setting =>
          match config.apply setting value with
          | .error error => (.error error, config)
          | .ok next => next.merge rest

/-- Applies an environment, which has one value for each name. -/
def mergeEnvironment (config : Config) (environment : Table String String) :
    Except ConfigError Unit × Config :=
  config.merge environment.entries

end RoleStack.Config

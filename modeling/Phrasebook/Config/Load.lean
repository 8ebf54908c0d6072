import Phrasebook.Config.Document
import Phrasebook.Config.Validation
import Phrasebook.Document.Json
import Phrasebook.Document.Toml
import Phrasebook.Number.Integer

/-!
# Loading configurations

A configuration is read from a TOML text, then single settings are overridden from the environment,
and then it is validated.

## Main definitions

- `ConfigError` with its wording.
- `Environment` and `Config.override`.
- `Config.parse` reads a text, `Config.loadFile` a file, and `Config.load` the file that the
  environment names or one of the two defaults.
-/

namespace Phrasebook

/-- Why a configuration cannot be used. -/
inductive ConfigError where
  | file (fault : FileFault)
  | parse
  | invalid (faults : List ConfigFault)
  | environment (name : String) (fault : Number.IntegerFault)
  | load (error : LoadError)
  deriving DecidableEq, Repr

/-- The wording of an error. -/
def ConfigError.message : ConfigError → String
  | file fault => "Failed to read configuration file: " ++ fault.message
  | parse => "Failed to parse TOML configuration"
  | invalid faults =>
    "Configuration validation failed: " ++ "; ".intercalate (faults.map ConfigFault.message)
  | environment name fault =>
    "Failed to parse environment variable '" ++ name ++ "': " ++ fault.message
  | load error => "Failed to build from configuration: " ++ error.message

/-- The variables of an environment. -/
abbrev Environment := String → Option String

namespace Config

/-- The variable that names the configuration file. -/
def pathVariable : String := "POLYGLOT_CONFIG_PATH"

/-- The variable with the default language. -/
def languageVariable : String := "POLYGLOT_DEFAULT_LANGUAGE"

/-- The variable with the directory of the message files. -/
def directoryVariable : String := "POLYGLOT_MESSAGES_DIR"

/-- The variable with the number of seconds for which messages are kept. -/
def lifetimeVariable : String := "POLYGLOT_CACHE_TTL_SECS"

/-- The variable with the level of the log. -/
def levelVariable : String := "POLYGLOT_LOG_LEVEL"

/-- The configuration file in the working directory. -/
def defaultFile : String := "polyglot.toml"

/-- Reads the number of seconds for which messages are kept; white space around it does not
matter. -/
def readLifetime (written : String) : Except ConfigError UInt64 :=
  match Number.readNatural 0xFFFFFFFFFFFFFFFF (Text.strip written.toList) with
  | .ok seconds => .ok (UInt64.ofNat seconds)
  | .error fault => .error (.environment lifetimeVariable fault)

/-- The number of seconds that an environment asks for, if it does. -/
def lifetimeOf (environment : Environment) : Except ConfigError (Option UInt64) :=
  match environment lifetimeVariable with
  | none => .ok none
  | some written => (readLifetime written).map some

/-- Replaces the settings that an environment has variables for. -/
def override (config : Config) (environment : Environment) : Except ConfigError Config := do
  let lifetime ← lifetimeOf environment
  pure
    { config with
      defaultLanguage := (environment languageVariable).getD config.defaultLanguage
      directory := (environment directoryVariable).getD config.directory
      cache := { config.cache with lifetime := lifetime.getD config.cache.lifetime }
      log := { config.log with level := (environment levelVariable).getD config.log.level } }

/-- Answers a configuration without faults. -/
def validate (config : Config) : Except ConfigError Config :=
  match config.faults with
  | [] => .ok config
  | faults => .error (.invalid faults)

/-- Reads a TOML text. -/
def ofToml (text : String) : Except ConfigError Config :=
  match (Document.ofToml? text).bind (ofDocument? .toml) with
  | some config => .ok config
  | none => .error .parse

/-- Reads a JSON text. -/
def ofJson? (text : String) : Option Config := (Document.ofJson? text).bind (ofDocument? .json)

/-- Reads and validates a TOML text. -/
def parse (text : String) : Except ConfigError Config := do
  validate (← ofToml text)

/-- Reads a TOML text, overrides settings from an environment, and validates the whole. -/
def loadText (text : String) (environment : Environment) : Except ConfigError Config := do
  let config ← ofToml text
  let config ← config.override environment
  config.validate

/-- Loads a configuration file. -/
def loadFile (tree : FileTree) (working : List String) (path : String) (environment : Environment) :
    Except ConfigError Config :=
  match tree.readText working path with
  | .error fault => .error (.file fault)
  | .ok text => loadText text environment

/-- Loads the configuration file that the environment names.  Without one, loads the configuration
file of the working directory, and without that starts from the standard configuration. -/
def load (tree : FileTree) (working : List String) (environment : Environment) :
    Except ConfigError Config :=
  match environment pathVariable with
  | some path => loadFile tree working path environment
  | none =>
    match tree.resolve working defaultFile with
    | .ok _ => loadFile tree working defaultFile environment
    | .error _ => do
      let config ← standard.override environment
      config.validate

end Config

end Phrasebook

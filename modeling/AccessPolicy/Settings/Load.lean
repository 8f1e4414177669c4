/-
Loading a configuration from its layers: the defaults, a file of settings and the environment. Each
field of a section is taken from the highest layer that has it; what no field goes by is of no
account. A loaded configuration is valid.
-/

import AccessPolicy.Settings.Config
import AccessPolicy.Settings.Environment
import AccessPolicy.Settings.Toml
import AccessPolicy.Settings.Yaml
import AccessPolicy.Json.Reader

namespace AccessPolicy

/-- A file of settings: the extension of its name tells its format. A file without content is not
there. -/
structure SettingsFile where
  extension : String
  content : Option String

namespace SettingsFile

def fault {α : Type} (message : String) : Except Error α :=
  .error (.configSource (.message message))

/-- A document that is no table has no settings. -/
def rootTable : Setting → Setting
  | .table entries => .table entries
  | _ => .table []

def parse (extension content : String) : Except Error Setting :=
  let table (document : Option Setting) : Except Error Setting :=
    match document with
    | some document => .ok (rootTable document)
    | none => fault "syntax error in the settings file"
  if extension = "json" then table ((Json.read content).toOption.map Setting.ofJson)
  else if extension = "toml" then table (Toml.read? content)
  else if extension = "yaml" || extension = "yml" then table (Yaml.read? content)
  else fault "settings file of an unknown format"

def read (file : SettingsFile) : Except Error Setting :=
  match file.content with
  | some content => parse file.extension content
  | none => fault "settings file not found"

end SettingsFile

namespace Config

def toSetting (config : Config) : Setting :=
  .table
    [("engine", .table [("default_bias", .text config.engine.defaultBias.name)]),
      ("telemetry", .table
        [("enabled", .bool config.telemetry.enabled),
          ("service_name", .text config.telemetry.serviceName)]),
      ("logging", .table
        [("level", .text config.logging.level), ("json", .bool config.logging.json)])]

/-! ### Fields -/

/-- A field of a section; in a section that is a list it stands at its place. -/
def field? (name : String) (place : Nat) : Setting → Option Setting
  | .table entries => entries.lookup name
  | .list items => items[place]?
  | _ => none

def isSection : Setting → Bool
  | .table _ => true
  | .list _ => true
  | _ => false

/-- A field that is there has to convert; one that is not keeps its default. -/
def readField {α : Type} (name : String) (place : Nat) (convert : Setting → Option α) (default : α)
    (found : Setting) : Except Error α :=
  match field? name place found with
  | none => .ok default
  | some setting =>
    match convert setting with
    | some value => .ok value
    | none => SettingsFile.fault ("invalid value for " ++ Text.quote name)

def readSection {α : Type} (name : String) (place : Nat) (read : Setting → Except Error α)
    (default : α) (root : Setting) : Except Error α :=
  match field? name place root with
  | none => .ok default
  | some setting =>
    if isSection setting then read setting
    else SettingsFile.fault ("invalid section " ++ Text.quote name)

/-- A decision type goes by its exact name. -/
def decisionType? : Setting → Option DecisionType
  | .text name =>
    [DecisionType.permit, DecisionType.deny, DecisionType.notApplicable].find? fun type =>
      type.name = name
  | _ => none

def readEngine (found : Setting) : Except Error EngineConfig := do
  return { defaultBias := ← readField "default_bias" 0 decisionType? .deny found }

def readTelemetry (found : Setting) : Except Error TelemetryConfig := do
  return {
    enabled := ← readField "enabled" 0 Setting.bool? true found
    serviceName := ← readField "service_name" 1 Setting.text? engineName found }

def readLogging (found : Setting) : Except Error LoggingConfig := do
  return {
    level := ← readField "level" 0 Setting.text? "info" found
    json := ← readField "json" 1 Setting.bool? false found }

def ofSetting (root : Setting) : Except Error Config := do
  return {
    engine := ← readSection "engine" 0 readEngine {} root
    telemetry := ← readSection "telemetry" 1 readTelemetry {} root
    logging := ← readSection "logging" 2 readLogging {} root }

/-! ### Loading -/

def layers (file : Setting) (environment : List (String × String)) : Setting :=
  Setting.layered
    ([toSetting {}, file] ++ Environment.layers environment)

def fromSettings (file : Setting) (environment : List (String × String)) : Except Error Config := do
  let config ← ofSetting (layers file environment)
  config.validate
  return config

def fromEnvironment (environment : List (String × String)) : Except Error Config :=
  fromSettings (.table []) environment

def fromFile (file : SettingsFile) (environment : List (String × String)) : Except Error Config := do
  fromSettings (← file.read) environment

end Config

end AccessPolicy

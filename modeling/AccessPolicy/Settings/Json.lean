/-
The JSON form of a configuration. A field or a section that is left out keeps its default.
-/

import AccessPolicy.Policy.Json
import AccessPolicy.Settings.Config

namespace AccessPolicy

open Json (Mismatch Decoder Shape Slot)

namespace EngineConfig

def toJson (engine : EngineConfig) : Json := .object [("default_bias", engine.defaultBias.toJson)]

def shape : Shape EngineConfig where
  name := "struct EngineConfig"
  full := false
  fields := [
    { name := "default_bias"
      put := fun engine value =>
        (DecisionType.ofJson value).map fun defaultBias => { engine with defaultBias } }]

def ofJson (value : Json) : Except Mismatch EngineConfig := shape.read {} value

end EngineConfig

namespace TelemetryConfig

def toJson (telemetry : TelemetryConfig) : Json :=
  .object
    [("enabled", .bool telemetry.enabled), ("service_name", .text telemetry.serviceName)]

def shape : Shape TelemetryConfig where
  name := "struct TelemetryConfig"
  full := false
  fields := [
    { name := "enabled"
      put := fun telemetry value =>
        (Decoder.bool value).map fun enabled => { telemetry with enabled } },
    { name := "service_name"
      put := fun telemetry value =>
        (Decoder.text value).map fun serviceName => { telemetry with serviceName } }]

def ofJson (value : Json) : Except Mismatch TelemetryConfig := shape.read {} value

end TelemetryConfig

namespace LoggingConfig

def toJson (logging : LoggingConfig) : Json :=
  .object [("level", .text logging.level), ("json", .bool logging.json)]

def shape : Shape LoggingConfig where
  name := "struct LoggingConfig"
  full := false
  fields := [
    { name := "level"
      put := fun logging value =>
        (Decoder.text value).map fun level => { logging with level } },
    { name := "json"
      put := fun logging value =>
        (Decoder.bool value).map fun json => { logging with json } }]

def ofJson (value : Json) : Except Mismatch LoggingConfig := shape.read {} value

end LoggingConfig

namespace Config

def toJson (config : Config) : Json :=
  .object
    [("engine", config.engine.toJson), ("telemetry", config.telemetry.toJson),
      ("logging", config.logging.toJson)]

def shape : Shape Config where
  name := "struct Config"
  full := false
  fields := [
    { name := "engine"
      put := fun config value =>
        (EngineConfig.ofJson value).map fun engine => { config with engine } },
    { name := "telemetry"
      put := fun config value =>
        (TelemetryConfig.ofJson value).map fun telemetry => { config with telemetry } },
    { name := "logging"
      put := fun config value =>
        (LoggingConfig.ofJson value).map fun logging => { config with logging } }]

def ofJson (value : Json) : Except Mismatch Config := shape.read {} value

end Config

end AccessPolicy

/-
The settings of an engine, their defaults and their validity. The checks come in a fixed order, and
the first one that fails is reported.
-/

import AccessPolicy.Policy.Decision

namespace AccessPolicy

/-- The name of this engine, which is also the name of its service unless told otherwise. -/
def engineName : String := "abac-policy-engine"

def engineVersion : String := "0.1.0"

structure EngineConfig where
  defaultBias : DecisionType := .deny
  deriving DecidableEq, Repr

structure TelemetryConfig where
  enabled : Bool := true
  serviceName : String := engineName
  deriving DecidableEq, Repr

structure LoggingConfig where
  level : String := "info"
  json : Bool := false
  deriving DecidableEq, Repr

structure Config where
  engine : EngineConfig := {}
  telemetry : TelemetryConfig := {}
  logging : LoggingConfig := {}
  deriving DecidableEq, Repr

def EngineConfig.bias (engine : EngineConfig) : Except Error Bias := Bias.ofType engine.defaultBias

def TelemetryConfig.check (telemetry : TelemetryConfig) : Except Error Unit :=
  if telemetry.serviceName.isEmpty then
    .error (.config "service name cannot be empty" "telemetry.service_name")
  else .ok ()

def logLevels : List String := ["trace", "debug", "info", "warn", "error"]

def LoggingConfig.check (logging : LoggingConfig) : Except Error Unit :=
  if Text.lower logging.level ∈ logLevels then .ok ()
  else .error (.config ("unknown log level '" ++ logging.level ++ "'") "logging.level")

def EngineConfig.check (engine : EngineConfig) : Except Error Unit :=
  match engine.bias with
  | .ok _ => .ok ()
  | .error _ => .error (.config "default bias must be 'permit' or 'deny'" "engine.default_bias")

def Config.validate (config : Config) : Except Error Unit := do
  config.engine.check
  config.telemetry.check
  config.logging.check

end AccessPolicy

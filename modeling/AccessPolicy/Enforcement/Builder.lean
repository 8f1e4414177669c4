/-
Building enforcement points. A builder collects a configuration and choices that go before it; an
enforcement point comes out of it only where the settings that result are valid. A decision point is
given by a handle, as several enforcement points may share it.
-/

import AccessPolicy.Enforcement.DecisionPoint
import AccessPolicy.Policy.Policy
import AccessPolicy.Telemetry.Meter

namespace AccessPolicy

def EnforcementPoint.new (bias : DecisionType) : Except Error EnforcementPoint :=
  (Bias.ofType bias).map fun bias => { bias }

def EnforcementPoint.debug (point : EnforcementPoint) (decisionPoint : DecisionPoint) : String :=
  showFields "PolicyEnforcementPoint"
    [("bias", point.bias.debug), ("pdp", decisionPoint.debug),
      ("telemetry", showBool point.meter.isSome)]

structure Assembly (δ : Type) where
  bias : Bias
  decisionPoint : δ
  meter : Option Meter

structure Builder (δ : Type) where
  config : Config := {}
  bias : Option DecisionType := none
  decisionPoint : Option δ := none
  telemetryEnabled : Option Bool := none

namespace Builder

variable {δ : Type}

def withConfig (builder : Builder δ) (config : Config) : Builder δ := { builder with config }

def withBias (builder : Builder δ) (bias : DecisionType) : Builder δ :=
  { builder with bias := some bias }

def withDecisionPoint (builder : Builder δ) (decisionPoint : δ) : Builder δ :=
  { builder with decisionPoint := some decisionPoint }

def withTelemetryEnabled (builder : Builder δ) (enabled : Bool) : Builder δ :=
  { builder with telemetryEnabled := some enabled }

def effective (builder : Builder δ) : Config :=
  { builder.config with
    engine.defaultBias := builder.bias.getD builder.config.engine.defaultBias
    telemetry.enabled := builder.telemetryEnabled.getD builder.config.telemetry.enabled }

def meter (telemetry : TelemetryConfig) : Except Error (Option Meter) :=
  if telemetry.enabled then (Meter.new telemetry).map some else .ok none

/-- `fresh` is the decision point for a builder that has been given none. -/
def build (builder : Builder δ) (fresh : δ) : Except Error (Assembly δ) := do
  let config := builder.effective
  let bias ← config.engine.bias
  config.validate
  let meter ← meter config.telemetry
  return { bias, decisionPoint := builder.decisionPoint.getD fresh, meter }

end Builder

end AccessPolicy

/-
What the check of a configuration says. Its three parts come in a fixed order, and each has an error of its own.
-/

import AccessPolicy.Settings.Config

namespace AccessPolicy.Config

def openBias : Error := .config "default bias must be 'permit' or 'deny'" "engine.default_bias"

def namelessService : Error := .config "service name cannot be empty" "telemetry.service_name"

def unknownLevel (level : String) : Error :=
  .config ("unknown log level '" ++ level ++ "'") "logging.level"

theorem check_telemetry (telemetry : TelemetryConfig) :
    telemetry.check = if telemetry.serviceName = "" then .error namelessService else .ok () := by
  unfold TelemetryConfig.check
  by_cases nameless : telemetry.serviceName = ""
  · simp [nameless, namelessService]
  · simp [nameless]

section

variable {config : Config} {bias : Bias} (chosen : config.engine.defaultBias = bias.type)

include chosen

theorem bias_of_chosen : config.engine.bias = .ok bias := by
  unfold EngineConfig.bias
  rw [chosen]
  cases bias with
  | permit => rfl
  | deny => rfl

/-- What the check of the bias would say is never said where the bias has been found good. -/
theorem validate_of_chosen :
    config.validate =
      if config.telemetry.serviceName = "" then .error namelessService
      else if Text.lower config.logging.level ∈ logLevels then .ok ()
      else .error (unknownLevel config.logging.level) := by
  have good : config.engine.check = .ok () := by
    unfold EngineConfig.check
    rw [bias_of_chosen chosen]
  unfold Config.validate
  rw [good, check_telemetry]
  by_cases nameless : config.telemetry.serviceName = ""
  · rw [if_pos nameless, if_pos nameless]
    rfl
  · rw [if_neg nameless, if_neg nameless]
    rfl

end

theorem validate_of_open {config : Config}
    (undecided : config.engine.defaultBias = .notApplicable) : config.validate = .error openBias := by
  unfold validate EngineConfig.check EngineConfig.bias
  rw [undecided]
  rfl

theorem validate_eq_ok_iff {config : Config} : config.validate = .ok () ↔
    (∃ bias : Bias, config.engine.defaultBias = bias.type) ∧ config.telemetry.serviceName ≠ "" ∧
      Text.lower config.logging.level ∈ logLevels := by
  constructor
  · intro valid
    obtain ⟨bias, chosen⟩ : ∃ bias : Bias, config.engine.defaultBias = bias.type := by
      cases type : config.engine.defaultBias with
      | permit => exact ⟨.permit, rfl⟩
      | deny => exact ⟨.deny, rfl⟩
      | notApplicable =>
          rw [validate_of_open type] at valid
          cases valid
    rw [validate_of_chosen chosen] at valid
    split at valid
    · cases valid
    · rename_i named
      split at valid
      · rename_i known
        exact ⟨⟨bias, chosen⟩, named, known⟩
      · cases valid
  · rintro ⟨⟨bias, chosen⟩, named, known⟩
    rw [validate_of_chosen chosen, if_neg named, if_pos known]

end AccessPolicy.Config

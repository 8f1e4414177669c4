/-
What comes out of a builder. Only the last call of each kind counts, wherever it stands, and the choices go
before the configuration. The checks overlap: the bias is looked at twice and the name of the service too, and
of such two it is always the first that refuses.
-/

import AccessPolicy.Enforcement.Builder
import AccessPolicy.Proofs.Settings.Validity
import Mathlib.Data.List.Induction

namespace AccessPolicy.Builder

open Config (openBias namelessService unknownLevel check_telemetry bias_of_chosen validate_of_chosen
  validate_eq_ok_iff)

variable {δ : Type}

inductive Call (δ : Type)
  | config (given : Config)
  | bias (given : DecisionType)
  | decisionPoint (given : δ)
  | telemetryEnabled (given : Bool)

namespace Call

def apply (builder : Builder δ) : Call δ → Builder δ
  | .config given => builder.withConfig given
  | .bias given => builder.withBias given
  | .decisionPoint given => builder.withDecisionPoint given
  | .telemetryEnabled given => builder.withTelemetryEnabled given

def config? : Call δ → Option Config
  | .config given => some given
  | _ => none

def bias? : Call δ → Option DecisionType
  | .bias given => some given
  | _ => none

def decisionPoint? : Call δ → Option δ
  | .decisionPoint given => some given
  | _ => none

def telemetryEnabled? : Call δ → Option Bool
  | .telemetryEnabled given => some given
  | _ => none

end Call

def applyAll (calls : List (Call δ)) : Builder δ := calls.foldl Call.apply {}

/-! ### The last call of a kind -/

def last {α : Type} (given? : Call δ → Option α) (calls : List (Call δ)) : Option α :=
  (calls.filterMap given?).getLast?

theorem last_concat {α : Type} (given? : Call δ → Option α) (calls : List (Call δ)) (call : Call δ) :
    last given? (calls ++ [call]) = (given? call).or (last given? calls) := by
  unfold last
  rw [List.filterMap_append]
  cases given : given? call with
  | none => simp [given]
  | some value => simp [given]

/-- The last configuration, with the last bias and the last choice about telemetry put in. -/
def settings (calls : List (Call δ)) : Config :=
  let config := (last Call.config? calls).getD {}
  { config with
    engine.defaultBias := (last Call.bias? calls).getD config.engine.defaultBias
    telemetry.enabled := (last Call.telemetryEnabled? calls).getD config.telemetry.enabled }

theorem applyAll_concat (calls : List (Call δ)) (call : Call δ) :
    applyAll (calls ++ [call]) = call.apply (applyAll calls) := by
  unfold applyAll
  rw [List.foldl_append]
  rfl

theorem applyAll_eq (calls : List (Call δ)) :
    applyAll calls =
      { config := (last Call.config? calls).getD {}
        bias := last Call.bias? calls
        decisionPoint := last Call.decisionPoint? calls
        telemetryEnabled := last Call.telemetryEnabled? calls } := by
  induction calls using List.reverseRecOn with
  | nil => rfl
  | append_singleton calls call ih =>
      rw [applyAll_concat, ih]
      simp only [last_concat]
      cases call with
      | config given => rfl
      | bias given => rfl
      | decisionPoint given => rfl
      | telemetryEnabled given => rfl

theorem effective_applyAll (calls : List (Call δ)) : (applyAll calls).effective = settings calls := by
  rw [applyAll_eq]
  rfl

theorem decisionPoint_applyAll (calls : List (Call δ)) :
    (applyAll calls).decisionPoint = last Call.decisionPoint? calls := by
  rw [applyAll_eq]

/-! ### The checks -/

/-- The meter's own check is one that the configuration has been put to before. -/
theorem meter_of_named {telemetry : TelemetryConfig} (named : telemetry.serviceName ≠ "") :
    meter telemetry =
      .ok (if telemetry.enabled then some { service := telemetry.serviceName } else none) := by
  unfold meter
  by_cases enabled : telemetry.enabled = true
  · rw [if_pos enabled, if_pos enabled]
    unfold Meter.new
    rw [check_telemetry, if_neg named]
    rfl
  · rw [if_neg enabled, if_neg enabled]

/-! ### What is built -/

section

variable (calls : List (Call δ)) (fresh : δ)

theorem build_of_open (chosen : (settings calls).engine.defaultBias = .notApplicable) :
    (applyAll calls).build fresh = .error .invalidBias := by
  have refused : (settings calls).engine.bias = .error .invalidBias := by
    unfold EngineConfig.bias
    rw [chosen]
    rfl
  simp only [build, effective_applyAll, refused]
  rfl

variable {calls} {bias : Bias} (chosen : (settings calls).engine.defaultBias = bias.type)

include chosen

theorem build_of_refused {error : Error} (refused : (settings calls).validate = .error error) :
    (applyAll calls).build fresh = .error error := by
  simp only [build, effective_applyAll, bias_of_chosen chosen, refused]
  rfl

theorem build_of_valid (valid : (settings calls).validate = .ok ()) :
    (applyAll calls).build fresh = .ok
      { bias
        decisionPoint := (last Call.decisionPoint? calls).getD fresh
        meter :=
          if (settings calls).telemetry.enabled then
            some { service := (settings calls).telemetry.serviceName }
          else none } := by
  simp only [build, effective_applyAll, decisionPoint_applyAll, bias_of_chosen chosen, valid,
    meter_of_named (validate_eq_ok_iff.mp valid).2.1]
  rfl

/-- Of the two checks of the bias the second one has nothing to refuse. -/
theorem build_ne_openBias : (applyAll calls).build fresh ≠ .error openBias := by
  have checked := validate_of_chosen chosen
  by_cases nameless : (settings calls).telemetry.serviceName = ""
  · rw [if_pos nameless] at checked
    rw [build_of_refused fresh chosen checked]
    simp [namelessService, openBias]
  · rw [if_neg nameless] at checked
    by_cases known : Text.lower (settings calls).logging.level ∈ logLevels
    · rw [if_pos known] at checked
      rw [build_of_valid fresh chosen checked]
      simp
    · rw [if_neg known] at checked
      rw [build_of_refused fresh chosen checked]
      simp [unknownLevel, openBias]

end

/-- `fresh` is the empty decision point that a builder without another one makes for itself. -/
theorem build_applyAll (calls : List (Call δ)) (fresh : δ) :
    let config := settings calls
    let result := (applyAll calls).build fresh
    (config.engine.defaultBias = .notApplicable → result = .error .invalidBias) ∧
    (∀ bias : Bias, config.engine.defaultBias = bias.type →
      (config.telemetry.serviceName = "" → result = .error namelessService) ∧
      (config.telemetry.serviceName ≠ "" → Text.lower config.logging.level ∉ logLevels →
        result = .error (unknownLevel config.logging.level)) ∧
      (config.telemetry.serviceName ≠ "" → Text.lower config.logging.level ∈ logLevels →
        result = .ok
          { bias
            decisionPoint := (last Call.decisionPoint? calls).getD fresh
            meter :=
              if config.telemetry.enabled then some { service := config.telemetry.serviceName }
              else none })) ∧
    result ≠ .error openBias ∧
    (config.validate = .ok () → ∃ meter, Builder.meter config.telemetry = .ok meter) := by
  intro config result
  refine ⟨build_of_open calls fresh, ?_, ?_, ?_⟩
  · intro bias chosen
    have checked := validate_of_chosen chosen
    refine ⟨?_, ?_, ?_⟩
    · intro nameless
      rw [if_pos nameless] at checked
      exact build_of_refused fresh chosen checked
    · intro named unknown
      rw [if_neg named, if_neg unknown] at checked
      exact build_of_refused fresh chosen checked
    · intro named known
      rw [if_neg named, if_pos known] at checked
      exact build_of_valid fresh chosen checked
  · cases chosen : config.engine.defaultBias with
    | permit =>
        have checked : config.engine.defaultBias = Bias.permit.type := chosen
        exact build_ne_openBias fresh checked
    | deny =>
        have checked : config.engine.defaultBias = Bias.deny.type := chosen
        exact build_ne_openBias fresh checked
    | notApplicable =>
        rw [show result = .error .invalidBias from build_of_open calls fresh chosen]
        simp [openBias]
  · intro valid
    exact ⟨_, meter_of_named (validate_eq_ok_iff.mp valid).2.1⟩

/-- A later configuration takes the name and the level of an earlier one away, and not the choices. -/
theorem build_applyAll_reconfigured :
    let installed : DecisionPoint := {}
    let nameless : Config := { telemetry := { serviceName := "" }, logging := { level := "loud" } }
    let gateway : Config :=
      { engine := { defaultBias := .notApplicable }
        telemetry := { enabled := false, serviceName := "gateway" }
        logging := { level := "WARN" } }
    (applyAll [.config nameless, .bias .deny, .telemetryEnabled true, .bias .permit,
        .config gateway]).build installed =
      .ok { bias := .permit, decisionPoint := installed, meter := some { service := "gateway" } } := by
  intro installed nameless gateway
  obtain ⟨_, decided, _, _⟩ := build_applyAll
    [.config nameless, .bias .deny, .telemetryEnabled true, .bias .permit, .config gateway] installed
  exact (decided .permit rfl).2.2 (by decide) (by decide)

end AccessPolicy.Builder

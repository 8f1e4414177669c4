/-
The hit rate of a meter. A snapshot divides the hits by the exact number of all requests, so its rate is a
share in per cent; where this number is no word, there is no snapshot.
-/

import AccessPolicy.Proofs.Telemetry.Counters
import AccessPolicy.Proofs.Telemetry.Floats

namespace AccessPolicy

/-! ### Recordings -/

inductive Recording
  | enforced (own decision : Decision) (milliseconds : Float) (stats : ResolutionStats)
  | failed (error : Error)

namespace Recording

def record (meter : Meter) : Recording → Meter
  | .enforced own decision milliseconds stats =>
    meter.recordEvaluation own decision milliseconds stats
  | .failed error => meter.recordError error

def requests (kind : RequestKind) : Recording → Nat
  | .enforced _ _ _ stats => kind.recorded stats
  | .failed _ => 0

def decided (test : Decision → Bool) : Recording → Nat
  | .enforced _ decision _ _ => (test decision).toNat
  | .failed _ => 0

end Recording

namespace Meter

def recordAll (meter : Meter) (recordings : List Recording) : Meter :=
  recordings.foldl Recording.record meter

/-- A counter that every recording raises by some amount is raised by all of these together. -/
theorem recordAll_adds {counter : Meter → UInt64} {amount : Recording → Nat}
    (evaluation : ∀ meter own decision milliseconds stats,
      counter (meter.recordEvaluation own decision milliseconds stats) =
        counter meter + UInt64.ofNat (amount (.enforced own decision milliseconds stats)))
    (failure : ∀ meter error, counter (meter.recordError error) =
      counter meter + UInt64.ofNat (amount (.failed error)))
    (meter : Meter) (recordings : List Recording) :
    counter (meter.recordAll recordings) =
      counter meter + UInt64.ofNat (recordings.map amount).sum := by
  induction recordings generalizing meter with
  | nil => exact (UInt64.add_zero _).symm
  | cons recording recordings ih =>
      have adds : counter (recording.record meter) = counter meter + UInt64.ofNat (amount recording) := by
        cases recording with
        | enforced own decision milliseconds stats => exact evaluation ..
        | failed error => exact failure meter error
      change counter ((recording.record meter).recordAll recordings) = _
      rw [ih, adds, List.map_cons, List.sum_cons, UInt64.ofNat_add, UInt64.add_assoc]

theorem counter_recordAll (kind : RequestKind) (meter : Meter) (recordings : List Recording) :
    kind.counter (meter.recordAll recordings) =
      kind.counter meter + UInt64.ofNat (recordings.map (Recording.requests kind)).sum := by
  refine recordAll_adds ?_ ?_ meter recordings
  · intro meter own decision milliseconds stats
    exact kind.counter_recordEvaluation meter own decision milliseconds stats
  · intro meter error
    cases kind <;> exact (UInt64.add_zero _).symm

theorem permits_recordAll (meter : Meter) (recordings : List Recording) :
    (meter.recordAll recordings).permits =
      meter.permits + UInt64.ofNat (recordings.map (Recording.decided Decision.isPermit)).sum :=
  recordAll_adds permits_recordEvaluation (fun _ _ => (UInt64.add_zero _).symm) meter recordings

theorem denies_recordAll (meter : Meter) (recordings : List Recording) :
    (meter.recordAll recordings).denies =
      meter.denies + UInt64.ofNat (recordings.map (Recording.decided Decision.isDeny)).sum :=
  recordAll_adds denies_recordEvaluation (fun _ _ => (UInt64.add_zero _).symm) meter recordings

theorem eq_of_new {config : TelemetryConfig} {meter : Meter} (made : Meter.new config = .ok meter) :
    meter = { service := config.serviceName } := by
  unfold Meter.new at made
  cases checked : config.check with
  | error error =>
      rw [checked] at made
      cases made
  | ok =>
      rw [checked] at made
      cases made
      rfl

theorem bounds_of_sum {hits misses requests : UInt64}
    (whole : requests.toNat = hits.toNat + misses.toNat) :
    hits ≤ requests ∧ misses ≤ requests ∧ (requests = 0 → hits = 0 ∧ misses = 0) := by
  refine ⟨?_, ?_, ?_⟩
  · apply UInt64.le_iff_toNat_le.mpr
    omega
  · apply UInt64.le_iff_toNat_le.mpr
    omega
  · intro none
    have zero : requests.toNat = 0 := congrArg UInt64.toNat none
    constructor
    · apply UInt64.toNat_inj.mp
      change _ = 0
      omega
    · apply UInt64.toNat_inj.mp
      change _ = 0
      omega

/-! ### Rates -/

open Rounding

theorem rounded_hundred : rounded 100 = 100 := by
  have whole : (100 : ℚ) = (100 * 2 ^ 46 : ℕ) * 2 ^ (-46 : ℤ) := by norm_num
  rw [whole]
  exact rounded_of_digits (by norm_num) (by norm_num)

theorem percent_le {share : ℚ} (positive : 0 < share) (part : share ≤ 1) :
    rounded (rounded share * 100) ≤ 100 := by
  have whole : rounded share ≤ 1 := by
    rw [← rounded_one]
    exact rounded_mono positive part
  have scaled : 0 < rounded share * 100 := mul_pos (rounded_pos positive) (by norm_num)
  calc rounded (rounded share * 100) ≤ rounded 100 := rounded_mono scaled (by linarith)
    _ = 100 := rounded_hundred

section

variable {hits requests : UInt64}

theorem rounded_word {word : UInt64} (some : word ≠ 0) :
    1 ≤ rounded word.toNat ∧ rounded word.toNat ≤ 2 ^ (64 : ℤ) := by
  have positive : word.toNat ≠ 0 := fun zero => some (UInt64.toNat_inj.mp zero)
  have least : (1 : ℚ) ≤ word.toNat := by exact_mod_cast Nat.pos_of_ne_zero positive
  have most : (word.toNat : ℚ) ≤ 2 ^ (64 : ℤ) := by exact_mod_cast word.toNat_lt.le
  constructor
  · rw [← rounded_one]
    exact rounded_mono one_pos least
  · rw [← rounded_zpow]
    exact rounded_mono (one_pos.trans_le least) most

theorem quotient_bounds (some : hits ≠ 0) (more : requests ≠ 0) :
    let quotient := rounded hits.toNat / rounded requests.toNat
    2 ^ (-64 : ℤ) ≤ quotient ∧ quotient ≤ 2 ^ (64 : ℤ) := by
  obtain ⟨low, high⟩ := rounded_word some
  obtain ⟨least, most⟩ := rounded_word more
  have positive : (0 : ℚ) < rounded requests.toNat := one_pos.trans_le least
  constructor
  · calc (2 : ℚ) ^ (-64 : ℤ) = 1 / 2 ^ (64 : ℤ) := by rw [zpow_neg, one_div]
      _ ≤ rounded hits.toNat / rounded requests.toNat :=
          div_le_div₀ (one_pos.trans_le low).le low positive most
  · calc rounded hits.toNat / rounded requests.toNat ≤ 2 ^ (64 : ℤ) / 1 :=
          div_le_div₀ (by positivity) high one_pos least
      _ = 2 ^ (64 : ℤ) := div_one _

theorem moderate_of_bounds {x : ℚ} (lower : 2 ^ (-64 : ℤ) ≤ x) (upper : x ≤ 2 ^ (71 : ℤ)) :
    Moderate x where
  lower := (zpow_le_zpow_right₀ (by norm_num) (by norm_num)).trans lower
  upper := upper.trans (zpow_le_zpow_right₀ (by norm_num) (by norm_num))

theorem shows_rate (some : hits ≠ 0) (more : requests ≠ 0) :
    Shows (hits.toFloat / requests.toFloat * 100.0)
      (rounded (rounded (rounded hits.toNat / rounded requests.toNat) * 100)) := by
  obtain ⟨lower, upper⟩ := quotient_bounds some more
  have first : Moderate (rounded hits.toNat / rounded requests.toNat) :=
    moderate_of_bounds lower (upper.trans (zpow_le_zpow_right₀ (by norm_num) (by norm_num)))
  have low := rounded_mono (by positivity) lower
  have high := rounded_mono first.positive upper
  rw [rounded_zpow] at low high
  have second : Moderate (rounded (rounded hits.toNat / rounded requests.toNat) * 100) := by
    apply moderate_of_bounds
    · linarith [rounded_pos first.positive]
    · calc rounded (rounded hits.toNat / rounded requests.toNat) * 100 ≤ 2 ^ (64 : ℤ) * 2 ^ (7 : ℤ) :=
            mul_le_mul high (by norm_num) (by norm_num) (by positivity)
        _ = 2 ^ (71 : ℤ) := by rw [← zpow_add₀ (by norm_num)]; norm_num
  exact ((Shows.ofWord some).div (.ofWord more) first).mul .hundred second

theorem rounded_word_mono (some : hits ≠ 0) (ordered : hits ≤ requests) :
    rounded hits.toNat ≤ rounded requests.toNat := by
  have positive : 0 < hits.toNat := Nat.pos_of_ne_zero fun zero => some (UInt64.toNat_inj.mp zero)
  have below : hits.toNat ≤ requests.toNat := UInt64.le_iff_toNat_le.mp ordered
  exact rounded_mono (by exact_mod_cast positive) (by exact_mod_cast below)

theorem rate_le (some : hits ≠ 0) (more : requests ≠ 0) (ordered : hits ≤ requests) :
    hits.toFloat / requests.toFloat * 100.0 ≤ 100.0 := by
  have positive : 0 < rounded requests.toNat := one_pos.trans_le (rounded_word more).1
  apply (shows_rate some more).le .hundred
  apply percent_le
  · exact div_pos (one_pos.trans_le (rounded_word some).1) positive
  · exact (div_le_one positive).mpr (rounded_word_mono some ordered)

theorem rate_of_no_hits (more : requests ≠ 0) :
    (0 : UInt64).toFloat / requests.toFloat * 100.0 = 0.0 := by
  have nothing : (0 : UInt64).toFloat / requests.toFloat = 0.0 := (Shows.ofWord more).zero_div
  rw [nothing]
  decide

theorem hitRate_le (ordered : hits ≤ requests) : hitRate hits requests ≤ 100.0 := by
  unfold hitRate
  by_cases none : requests = 0
  · rw [if_pos none]
    decide
  · rw [if_neg none]
    -- Zero is not given by all of its digits, so it is computed apart.
    by_cases some : hits = 0
    · rw [some, rate_of_no_hits none]
      decide
    · exact rate_le some none ordered

theorem hitRate_pos (some : hits ≠ 0) (more : requests ≠ 0) : 0.0 < hitRate hits requests := by
  unfold hitRate
  rw [if_neg more]
  exact (shows_rate some more).zero_lt

end

/-- The counters are what has been recorded, in words. There is a snapshot just if the decisions and the
requests each add up to a word. The number that it divides the hits by is then that of all requests, so it is at
least the hits and at least the misses, and zero only if both are; and the rate is at most a hundred, and above
zero if there were hits. -/
theorem hitRate_of_recordAll {config : TelemetryConfig} {meter : Meter}
    (made : Meter.new config = .ok meter) (recordings : List Recording) :
    let after := meter.recordAll recordings
    (∀ kind : RequestKind, kind.counter after =
      UInt64.ofNat (recordings.map (Recording.requests kind)).sum) ∧
    after.permits = UInt64.ofNat (recordings.map (Recording.decided Decision.isPermit)).sum ∧
    after.denies = UInt64.ofNat (recordings.map (Recording.decided Decision.isDeny)).sum ∧
    ((∃ metrics, after.metrics = some metrics) ↔
      after.permits.toNat + after.denies.toNat < 2 ^ 64 ∧
        after.cacheHits.toNat + after.cacheMisses.toNat < 2 ^ 64) ∧
    ∀ metrics, after.metrics = some metrics →
      (∀ kind : RequestKind, kind.shown metrics = kind.counter after) ∧
      ∃ requests : UInt64,
        requests.toNat = metrics.cacheHits.toNat + metrics.cacheMisses.toNat ∧
        metrics.hitRate = (if requests = 0 then 0.0
          else metrics.cacheHits.toFloat / requests.toFloat * 100.0) ∧
        metrics.cacheHits ≤ requests ∧ metrics.cacheMisses ≤ requests ∧
        (requests = 0 → metrics.cacheHits = 0 ∧ metrics.cacheMisses = 0) ∧
        metrics.hitRate ≤ 100.0 ∧ (metrics.cacheHits ≠ 0 → 0.0 < metrics.hitRate) := by
  intro after
  have fresh := eq_of_new made
  refine ⟨?_, ?_, ?_, metrics_isSome_iff, ?_⟩
  · intro kind
    have zero : kind.counter meter = 0 := by
      rw [fresh]
      cases kind <;> rfl
    rw [counter_recordAll, zero, UInt64.zero_add]
  · rw [permits_recordAll, fresh, UInt64.zero_add]
  · rw [denies_recordAll, fresh, UInt64.zero_add]
  · intro metrics taken
    refine ⟨shown_of_metrics taken, ?_⟩
    obtain ⟨evaluations, requests, -, asked, rfl⟩ := metrics_eq_some_iff.mp taken
    have whole := checkedSum_eq_some_iff.mp asked
    obtain ⟨hitsBound, missesBound, empty⟩ := bounds_of_sum whole
    exact ⟨requests, whole, rfl, hitsBound, missesBound, empty, hitRate_le hitsBound,
      fun some => hitRate_pos some fun none => some (empty none).1⟩

theorem hitRate_of_recordAll_answered :
    let meter : Meter := { service := engineName }
    let recordings : List Recording :=
      [.enforced .permit .permit 0.0 { cacheHits := 3, cacheMisses := 1 },
        .failed (.missingInformationPoint "age"),
        .enforced (.notApplicable "closed") (.deny "closed" "CLOSED") 0.0 { cacheMisses := 2 }]
    Meter.new {} = .ok meter ∧
      ∃ metrics, (meter.recordAll recordings).metrics = some metrics ∧
        metrics.cacheHits = 3 ∧ metrics.cacheMisses = 3 ∧
        0.0 < metrics.hitRate ∧ metrics.hitRate ≤ 100.0 := by
  intro meter recordings
  have made : Meter.new {} = .ok meter := by rfl
  obtain ⟨told, permits, denies, taken_iff, rate⟩ := hitRate_of_recordAll made recordings
  have hits : (meter.recordAll recordings).cacheHits = 3 := told .hit
  have misses : (meter.recordAll recordings).cacheMisses = 3 := told .miss
  have fits : (meter.recordAll recordings).permits.toNat + (meter.recordAll recordings).denies.toNat <
      2 ^ 64 := by
    rw [permits, denies]
    decide
  obtain ⟨metrics, taken⟩ := taken_iff.mpr ⟨fits, by rw [hits, misses]; decide⟩
  obtain ⟨shown, requests, -, -, -, -, -, most, least⟩ := rate metrics taken
  have seen : metrics.cacheHits = 3 := (shown .hit).trans hits
  refine ⟨made, metrics, taken, seen, (shown .miss).trans misses, least ?_, most⟩
  rw [seen]
  decide

/-- Half of the requests have hit, and no snapshot tells so. -/
theorem not_hitRate_of_all :
    ¬ ∀ (meter : Meter) (recordings : List Recording), Meter.new {} = .ok meter →
      ∃ metrics requests, (meter.recordAll recordings).metrics = some metrics ∧
        (meter.recordAll recordings).requests = some requests ∧
        metrics.cacheHits ≤ requests ∧ metrics.cacheMisses ≤ requests ∧
        (requests = 0 → metrics.cacheHits = 0 ∧ metrics.cacheMisses = 0) ∧
        metrics.hitRate ≤ 100.0 ∧ (metrics.cacheHits ≠ 0 → metrics.hitRate ≠ 0.0) := by
  intro law
  let half : ResolutionStats := { cacheHits := 2 ^ 63, cacheMisses := 2 ^ 63 }
  obtain ⟨metrics, requests, -, asked, -⟩ :=
    law { service := engineName } [.enforced .permit .permit 0.0 half] rfl
  have whole := checkedSum_eq_some_iff.mp asked
  have small := requests.toNat_lt
  rw [whole] at small
  exact absurd small (by decide)

end Meter

end AccessPolicy

/-
The counters of a meter. An enforcement that comes to a decision moves the counters of decisions and of
requests, one that fails moves those of errors, and neither moves the others. A snapshot shows the counters
as they are; there is one just if the decisions and the requests each add up to a word.
-/

import AccessPolicy.Telemetry.Meter
import Mathlib.Algebra.Ring.Nat

namespace AccessPolicy

inductive RequestKind
  | hit
  | miss

namespace RequestKind

def recorded : RequestKind → ResolutionStats → Nat
  | .hit, stats => stats.cacheHits
  | .miss, stats => stats.cacheMisses

def counter : RequestKind → Meter → UInt64
  | .hit, meter => meter.cacheHits
  | .miss, meter => meter.cacheMisses

def shown : RequestKind → Metrics → UInt64
  | .hit, metrics => metrics.cacheHits
  | .miss, metrics => metrics.cacheMisses

end RequestKind

/-! ### Decisions -/

section

variable (meter : Meter) (own decision : Decision) (milliseconds : Float) (stats : ResolutionStats)

theorem RequestKind.counter_recordEvaluation (kind : RequestKind) :
    kind.counter (meter.recordEvaluation own decision milliseconds stats) =
      kind.counter meter + UInt64.ofNat (kind.recorded stats) := by
  unfold Meter.recordEvaluation Meter.countBias
  cases kind <;> cases decision <;> split <;> rfl

namespace Meter

theorem permits_recordEvaluation :
    (meter.recordEvaluation own decision milliseconds stats).permits =
      meter.permits + UInt64.ofNat decision.isPermit.toNat := by
  unfold recordEvaluation countBias
  cases decision <;> split <;> first | rfl | exact (UInt64.add_zero _).symm

theorem denies_recordEvaluation :
    (meter.recordEvaluation own decision milliseconds stats).denies =
      meter.denies + UInt64.ofNat decision.isDeny.toNat := by
  unfold recordEvaluation countBias
  cases decision <;> split <;> first | rfl | exact (UInt64.add_zero _).symm

theorem biasApplied_recordEvaluation :
    (meter.recordEvaluation own decision milliseconds stats).biasApplied =
      meter.biasApplied + UInt64.ofNat own.isNotApplicable.toNat := by
  unfold recordEvaluation countBias
  cases decision <;> cases own <;> first | rfl | exact (UInt64.add_zero _).symm

theorem errors_recordEvaluation :
    (meter.recordEvaluation own decision milliseconds stats).errors = meter.errors ∧
      (meter.recordEvaluation own decision milliseconds stats).errorsByCategory =
        meter.errorsByCategory := by
  unfold recordEvaluation countBias
  cases decision <;> split <;> exact ⟨rfl, rfl⟩

end Meter

end

/-! ### Errors -/

namespace Meter

theorem lookup_cons_of_ne {α β : Type} [BEq α] [LawfulBEq α] {key other : α}
    (apart : other ≠ key) (value : β) (entries : List (α × β)) :
    ((key, value) :: entries).lookup other = entries.lookup other := by
  rw [List.lookup_cons, beq_false_of_ne apart]

theorem lookup_countCategory_self (category : Error.Category)
    (entries : List (Error.Category × UInt64)) :
    (countCategory category entries).lookup category =
      some ((entries.lookup category).getD 0 + 1) := by
  induction entries with
  | nil => exact List.lookup_cons_self
  | cons entry rest ih =>
      obtain ⟨known, count⟩ := entry
      unfold countCategory
      by_cases found : known = category
      · subst found
        rw [if_pos rfl, List.lookup_cons_self, List.lookup_cons_self]
        rfl
      · rw [if_neg found, lookup_cons_of_ne (Ne.symm found), lookup_cons_of_ne (Ne.symm found)]
        exact ih

theorem lookup_countCategory_of_ne {category other : Error.Category} (apart : other ≠ category)
    (entries : List (Error.Category × UInt64)) :
    (countCategory category entries).lookup other = entries.lookup other := by
  induction entries with
  | nil => exact lookup_cons_of_ne apart 1 []
  | cons entry rest ih =>
      obtain ⟨known, count⟩ := entry
      unfold countCategory
      by_cases found : known = category
      · subst found
        rw [if_pos rfl, lookup_cons_of_ne apart, lookup_cons_of_ne apart]
      · rw [if_neg found, List.lookup_cons, List.lookup_cons, ih]

/-- Between two states of a meter one error has been counted, under its category, and nothing else. -/
structure CountsError (error : Error) (before after : Meter) : Prop where
  errors : after.errors = before.errors + 1
  category : after.errorsByCategory.lookup error.category =
    some ((before.errorsByCategory.lookup error.category).getD 0 + 1)
  others : ∀ category, category ≠ error.category →
    after.errorsByCategory.lookup category = before.errorsByCategory.lookup category
  rest : { after with errors := before.errors, errorsByCategory := before.errorsByCategory } = before

theorem countsError_recordError (meter : Meter) (error : Error) :
    CountsError error meter (meter.recordError error) where
  errors := rfl
  category := lookup_countCategory_self error.category meter.errorsByCategory
  others _ apart := lookup_countCategory_of_ne apart meter.errorsByCategory
  rest := rfl

/-! ### Snapshots -/

theorem checkedSum_eq_some_iff {first second total : UInt64} :
    checkedSum first second = some total ↔ total.toNat = first.toNat + second.toNat := by
  unfold checkedSum
  by_cases fits : first.toNat + second.toNat < UInt64.size
  · have sum : (first + second).toNat = first.toNat + second.toNat := by
      rw [UInt64.toNat_add]
      exact Nat.mod_eq_of_lt fits
    rw [if_pos fits, Option.some.injEq, ← sum, ← UInt64.toNat_inj]
    exact eq_comm
  · have small := total.toNat_lt
    rw [if_neg fits]
    exact iff_of_false nofun fun whole => fits (whole ▸ small)

theorem checkedSum_isSome_iff {first second : UInt64} :
    (∃ total, checkedSum first second = some total) ↔ first.toNat + second.toNat < 2 ^ 64 := by
  constructor
  · rintro ⟨total, whole⟩
    rw [← checkedSum_eq_some_iff.mp whole]
    exact total.toNat_lt
  · intro fits
    exact ⟨first + second, if_pos fits⟩

variable {meter : Meter}

theorem metrics_eq_some_iff {metrics : Metrics} :
    meter.metrics = some metrics ↔ ∃ evaluations requests,
      meter.totalEvaluations = some evaluations ∧ meter.requests = some requests ∧
        metrics = meter.snapshot evaluations requests := by
  unfold Meter.metrics
  cases meter.totalEvaluations <;> cases meter.requests <;> simp [eq_comm]

theorem metrics_isSome_iff :
    (∃ metrics, meter.metrics = some metrics) ↔
      meter.permits.toNat + meter.denies.toNat < 2 ^ 64 ∧
        meter.cacheHits.toNat + meter.cacheMisses.toNat < 2 ^ 64 := by
  rw [← checkedSum_isSome_iff, ← checkedSum_isSome_iff]
  constructor
  · rintro ⟨metrics, taken⟩
    obtain ⟨evaluations, requests, decided, asked, -⟩ := metrics_eq_some_iff.mp taken
    exact ⟨⟨evaluations, decided⟩, ⟨requests, asked⟩⟩
  · rintro ⟨⟨evaluations, decided⟩, ⟨requests, asked⟩⟩
    exact ⟨_, metrics_eq_some_iff.mpr ⟨evaluations, requests, decided, asked, rfl⟩⟩

theorem shown_of_metrics {metrics : Metrics} (taken : meter.metrics = some metrics)
    (kind : RequestKind) : kind.shown metrics = kind.counter meter := by
  obtain ⟨evaluations, requests, -, -, rfl⟩ := metrics_eq_some_iff.mp taken
  cases kind <;> rfl

end Meter

end AccessPolicy

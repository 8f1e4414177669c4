/-
Meters: the counters of enforcements. A meter adds up what it is told in words of 64 bits, so its
counters wrap. A snapshot derives from them the totals, the hit rate and the average time; its sums do
not wrap, and there is no snapshot of counters that do not add up to a word. The entry of a category wraps
like a counter; no run comes to so many errors.
-/

import AccessPolicy.Attribute.Debug
import AccessPolicy.Program
import AccessPolicy.Settings.Config

namespace AccessPolicy

structure Meter where
  service : String
  permits : UInt64 := 0
  denies : UInt64 := 0
  biasApplied : UInt64 := 0
  cacheHits : UInt64 := 0
  cacheMisses : UInt64 := 0
  errors : UInt64 := 0
  errorsByCategory : List (Error.Category × UInt64) := []
  microseconds : UInt64 := 0
  deriving DecidableEq, Repr

structure Metrics where
  totalEvaluations : UInt64
  permits : UInt64
  denies : UInt64
  biasApplied : UInt64
  cacheHits : UInt64
  cacheMisses : UInt64
  /-- In per cent. -/
  hitRate : Float
  averageMilliseconds : Float
  errors : UInt64
  errorsByCategory : List (String × UInt64)

namespace Meter

def new (config : TelemetryConfig) : Except Error Meter := do
  config.check
  return { service := config.serviceName }

def countDecision (meter : Meter) : DecisionType → Meter
  | .permit => { meter with permits := meter.permits + 1 }
  | .deny => { meter with denies := meter.denies + 1 }
  | .notApplicable => meter

def countBias (meter : Meter) (own : Decision) : Meter :=
  if own.isNotApplicable then { meter with biasApplied := meter.biasApplied + 1 } else meter

/-- Whole microseconds; a time below zero or no number counts nothing, and one too long for a word
counts as the longest. -/
def wholeMicroseconds (milliseconds : Float) : UInt64 := (milliseconds * 1000.0).toUInt64

/-- A finished enforcement: the policy's own decision, the decision after the bias, the time it took
and the requests it made. -/
def recordEvaluation (meter : Meter) (own decision : Decision) (milliseconds : Float)
    (stats : ResolutionStats) : Meter :=
  let meter := (meter.countDecision decision.type).countBias own
  { meter with
    cacheHits := meter.cacheHits + UInt64.ofNat stats.cacheHits
    cacheMisses := meter.cacheMisses + UInt64.ofNat stats.cacheMisses
    microseconds := meter.microseconds + wholeMicroseconds milliseconds }

def countCategory (category : Error.Category) :
    List (Error.Category × UInt64) → List (Error.Category × UInt64)
  | [] => [(category, 1)]
  | entry :: entries =>
    if entry.1 = category then (category, entry.2 + 1) :: entries
    else entry :: countCategory category entries

def recordError (meter : Meter) (error : Error) : Meter :=
  { meter with
    errors := meter.errors + 1
    errorsByCategory := countCategory error.category meter.errorsByCategory }

def checkedSum (first second : UInt64) : Option UInt64 :=
  if first.toNat + second.toNat < UInt64.size then some (first + second) else none

def totalEvaluations (meter : Meter) : Option UInt64 := checkedSum meter.permits meter.denies

def requests (meter : Meter) : Option UInt64 := checkedSum meter.cacheHits meter.cacheMisses

def hitRate (hits requests : UInt64) : Float :=
  if requests = 0 then 0.0 else hits.toFloat / requests.toFloat * 100.0

def averageMilliseconds (microseconds evaluations : UInt64) : Float :=
  if evaluations = 0 then 0.0 else microseconds.toFloat / evaluations.toFloat / 1000.0

def snapshot (meter : Meter) (evaluations requests : UInt64) : Metrics where
  totalEvaluations := evaluations
  permits := meter.permits
  denies := meter.denies
  biasApplied := meter.biasApplied
  cacheHits := meter.cacheHits
  cacheMisses := meter.cacheMisses
  hitRate := hitRate meter.cacheHits requests
  averageMilliseconds := averageMilliseconds meter.microseconds evaluations
  errors := meter.errors
  errorsByCategory := meter.errorsByCategory.map fun entry => (entry.1.name, entry.2)

def metrics (meter : Meter) : Option Metrics := do
  let evaluations ← meter.totalEvaluations
  let requests ← meter.requests
  return meter.snapshot evaluations requests

end Meter

namespace Metrics

def debugCategories (entries : List (String × UInt64)) : String :=
  if entries.isEmpty then "\x7b\x7d"
  else "\x7b" ++ showItems (entries.map fun entry =>
    Text.quote entry.1 ++ ": " ++ Text.natural entry.2.toNat) ++ "\x7d"

def debug (metrics : Metrics) : String :=
  let word (n : UInt64) : String := Text.natural n.toNat
  let float (x : Float) : String := Text.FloatForm.debug.write x
  showFields "TelemetryMetrics"
    [("total_evaluations", word metrics.totalEvaluations),
      ("permits", word metrics.permits),
      ("denies", word metrics.denies),
      ("bias_applied", word metrics.biasApplied),
      ("attribute_cache_hits", word metrics.cacheHits),
      ("attribute_cache_misses", word metrics.cacheMisses),
      ("attribute_cache_hit_rate", float metrics.hitRate),
      ("avg_evaluation_time_ms", float metrics.averageMilliseconds),
      ("errors", word metrics.errors),
      ("errors_by_category", debugCategories metrics.errorsByCategory)]

end Metrics

def Meter.debug (meter : Meter) : Option String := do
  let metrics ← meter.metrics
  return showFields "Telemetry"
    [("service_name", Text.quote meter.service), ("metrics", metrics.debug)]

end AccessPolicy

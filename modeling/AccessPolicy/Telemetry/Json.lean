/-
The JSON forms of resolution counts and of the metrics of a meter.
-/

import AccessPolicy.Json.Decoder
import AccessPolicy.Telemetry.Meter

namespace AccessPolicy

open Json (Mismatch Decoder Shape Slot)

def wordJson (n : UInt64) : Json := .integer n.toNat

namespace ResolutionStats

def toJson (stats : ResolutionStats) : Json :=
  .object
    [("cache_hits", .integer stats.cacheHits), ("cache_misses", .integer stats.cacheMisses)]

structure Draft where
  cacheHits : Option UInt64 := none
  cacheMisses : Option UInt64 := none

def shape : Shape Draft where
  name := "struct ResolutionStats"
  fields := [
    { name := "cache_hits"
      put := fun draft value =>
        (Decoder.word64 value).map fun cacheHits => { draft with cacheHits } },
    { name := "cache_misses"
      put := fun draft value =>
        (Decoder.word64 value).map fun cacheMisses => { draft with cacheMisses } }]

def ofJson (value : Json) : Except Mismatch ResolutionStats := do
  let draft ← shape.read {} value
  let cacheHits ← Json.require "cache_hits" draft.cacheHits
  let cacheMisses ← Json.require "cache_misses" draft.cacheMisses
  return { cacheHits := cacheHits.toNat, cacheMisses := cacheMisses.toNat }

end ResolutionStats

namespace Metrics

def toJson (metrics : Metrics) : Json :=
  .object
    [("total_evaluations", wordJson metrics.totalEvaluations),
      ("permits", wordJson metrics.permits), ("denies", wordJson metrics.denies),
      ("bias_applied", wordJson metrics.biasApplied),
      ("attribute_cache_hits", wordJson metrics.cacheHits),
      ("attribute_cache_misses", wordJson metrics.cacheMisses),
      ("attribute_cache_hit_rate", .real metrics.hitRate),
      ("avg_evaluation_time_ms", .real metrics.averageMilliseconds),
      ("errors", wordJson metrics.errors),
      ("errors_by_category",
        .object (metrics.errorsByCategory.map fun entry => (entry.1, wordJson entry.2)))]

structure Draft where
  totalEvaluations : Option UInt64 := none
  permits : Option UInt64 := none
  denies : Option UInt64 := none
  biasApplied : Option UInt64 := none
  cacheHits : Option UInt64 := none
  cacheMisses : Option UInt64 := none
  hitRate : Option Float := none
  averageMilliseconds : Option Float := none
  errors : Option UInt64 := none
  errorsByCategory : Option (List (String × UInt64)) := none

def wordSlot (name : String) (put : Draft → UInt64 → Draft) : Slot Draft where
  name := name
  put draft value := (Decoder.word64 value).map (put draft)

def floatSlot (name : String) (put : Draft → Float → Draft) : Slot Draft where
  name := name
  put draft value := (Decoder.float value).map (put draft)

def shape : Shape Draft where
  name := "struct TelemetryMetrics"
  fields := [
    wordSlot "total_evaluations" fun draft word => { draft with totalEvaluations := some word },
    wordSlot "permits" fun draft word => { draft with permits := some word },
    wordSlot "denies" fun draft word => { draft with denies := some word },
    wordSlot "bias_applied" fun draft word => { draft with biasApplied := some word },
    wordSlot "attribute_cache_hits" fun draft word => { draft with cacheHits := some word },
    wordSlot "attribute_cache_misses" fun draft word => { draft with cacheMisses := some word },
    floatSlot "attribute_cache_hit_rate" fun draft x => { draft with hitRate := some x },
    floatSlot "avg_evaluation_time_ms" fun draft x => { draft with averageMilliseconds := some x },
    wordSlot "errors" fun draft word => { draft with errors := some word },
    { name := "errors_by_category"
      put := fun draft value =>
        (Decoder.entries Decoder.word64 value).map fun entries =>
          { draft with errorsByCategory := some entries } }]

def ofJson (value : Json) : Except Mismatch Metrics := do
  let draft ← shape.read {} value
  return {
    totalEvaluations := ← Json.require "total_evaluations" draft.totalEvaluations
    permits := ← Json.require "permits" draft.permits
    denies := ← Json.require "denies" draft.denies
    biasApplied := ← Json.require "bias_applied" draft.biasApplied
    cacheHits := ← Json.require "attribute_cache_hits" draft.cacheHits
    cacheMisses := ← Json.require "attribute_cache_misses" draft.cacheMisses
    hitRate := ← Json.require "attribute_cache_hit_rate" draft.hitRate
    averageMilliseconds := ← Json.require "avg_evaluation_time_ms" draft.averageMilliseconds
    errors := ← Json.require "errors" draft.errors
    errorsByCategory := ← Json.require "errors_by_category" draft.errorsByCategory }

end Metrics

end AccessPolicy

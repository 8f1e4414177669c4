/-
The JSON form of records.
-/

import AccessPolicy.Audit.Record
import AccessPolicy.Json.Writer
import AccessPolicy.Policy.Json

namespace AccessPolicy

open Json (Mismatch Decoder Shape Slot)

def Identifier.ofJson : Decoder Identifier :=
  Decoder.parsed "a UUID string" fun text =>
    (Identifier.read text).mapError fun fault => "UUID parsing failed: " ++ fault.message

def Timestamp.ofJson : Decoder Timestamp :=
  Decoder.parsed "an RFC 3339 formatted date and time string" fun text =>
    (Timestamp.read text).mapError Timestamp.Fault.message

namespace EvaluationRecord

def toJson (record : EvaluationRecord) : Json :=
  .object
    [("id", .text record.id.write), ("policy", .text record.policy),
      ("decision", record.decision.toJson),
      ("original_decision", record.ownDecision.toJson),
      ("bias_applied", .bool record.biasApplied), ("report", .text record.report),
      ("evaluated_at", .text record.evaluatedAt.write),
      ("evaluation_time_ms", .real record.milliseconds)]

structure Draft where
  id : Option Identifier := none
  policy : Option String := none
  decision : Option Decision := none
  ownDecision : Option Decision := none
  biasApplied : Option Bool := none
  report : Option String := none
  evaluatedAt : Option Timestamp := none
  milliseconds : Option Float := none

def shape : Shape Draft where
  name := "struct EvaluationRecord"
  fields := [
    { name := "id"
      put := fun draft value => (Identifier.ofJson value).map fun id => { draft with id } },
    { name := "policy"
      put := fun draft value => (Decoder.text value).map fun policy => { draft with policy } },
    { name := "decision"
      put := fun draft value =>
        (Decision.ofJson value).map fun decision => { draft with decision } },
    { name := "original_decision"
      put := fun draft value =>
        (Decision.ofJson value).map fun ownDecision => { draft with ownDecision } },
    { name := "bias_applied"
      put := fun draft value =>
        (Decoder.bool value).map fun biasApplied => { draft with biasApplied } },
    { name := "report"
      put := fun draft value => (Decoder.text value).map fun report => { draft with report } },
    { name := "evaluated_at"
      put := fun draft value =>
        (Timestamp.ofJson value).map fun evaluatedAt => { draft with evaluatedAt } },
    { name := "evaluation_time_ms"
      put := fun draft value =>
        (Decoder.float value).map fun milliseconds => { draft with milliseconds } }]

def ofJson (value : Json) : Except Mismatch EvaluationRecord := do
  let draft ← shape.read {} value
  return {
    id := ← Json.require "id" draft.id
    policy := ← Json.require "policy" draft.policy
    decision := ← Json.require "decision" draft.decision
    ownDecision := ← Json.require "original_decision" draft.ownDecision
    biasApplied := ← Json.require "bias_applied" draft.biasApplied
    report := ← Json.require "report" draft.report
    evaluatedAt := ← Json.require "evaluated_at" draft.evaluatedAt
    milliseconds := ← Json.require "evaluation_time_ms" draft.milliseconds }

def write (record : EvaluationRecord) : String := record.toJson.write

end EvaluationRecord

end AccessPolicy

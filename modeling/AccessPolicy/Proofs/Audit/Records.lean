/-
Audit records in their written form. A record is read back from its text with all that it has, its time as that is read
back from a text of its own. The readers of numbers are not exact, so this can be another time: a record that has been
read and written then changes once more when that is done again.
-/

import AccessPolicy.Audit.Json
import AccessPolicy.Proofs.Audit.Identifiers
import AccessPolicy.Proofs.Audit.Timestamps
import AccessPolicy.Proofs.Policy.Canonical

namespace AccessPolicy

open Json (Decoder Shape Slot)

/-! ### Reading field by field -/

namespace Json.Shape

variable {σ : Type} {shape : Shape σ} {holds : σ → Prop}

def Keeps (holds : σ → Prop) (slot : Slot σ) : Prop :=
  ∀ state value next, holds state → slot.put state value = .ok next → holds next

theorem foldlM_putNamed_invariant (keeps : ∀ slot ∈ shape.fields, Keeps holds slot)
    {entries : List (String × Json)} {state next : σ} (first : holds state)
    (reads : entries.foldlM shape.putNamed state = .ok next) : holds next := by
  induction entries generalizing state with
  | nil =>
      cases reads
      exact first
  | cons entry entries ih =>
      rw [List.foldlM_cons, bind_eq_ok_iff] at reads
      obtain ⟨between, put, rest⟩ := reads
      refine ih ?_ rest
      unfold putNamed at put
      split at put
      · rename_i slot found
        exact keeps slot (List.mem_of_find?_eq_some found) _ _ _ first put
      · cases put
        exact first

theorem putItems_invariant {total : Nat} {fields : List (Slot σ)} {items : List Json}
    (keeps : ∀ slot ∈ fields, Keeps holds slot) {state next : σ} (first : holds state)
    (reads : shape.putItems total fields items state = .ok next) : holds next := by
  induction fields generalizing items state with
  | nil =>
      cases items with
      | nil =>
          cases reads
          exact first
      | cons item items => cases reads
  | cons field fields ih =>
      cases items with
      | nil =>
          unfold putItems at reads
          split at reads
          · cases reads
          · cases reads
            exact first
      | cons item items =>
          rw [putItems, bind_eq_ok_iff] at reads
          obtain ⟨between, put, rest⟩ := reads
          exact ih (fun slot member => keeps slot (List.mem_cons_of_mem _ member))
            (keeps field List.mem_cons_self _ _ _ first put) rest

theorem read_invariant (keeps : ∀ slot ∈ shape.fields, Keeps holds slot) {state next : σ}
    {value : Json} (first : holds state) (reads : shape.read state value = .ok next) :
    holds next := by
  unfold read at reads
  split at reads
  · exact foldlM_putNamed_invariant keeps first reads
  · exact putItems_invariant keeps first reads
  · cases reads

end Json.Shape

theorem Identifier.ofJson_write (id : Identifier) : Identifier.ofJson (.text id.write) = .ok id := by
  simp [ofJson, Decoder.parsed, read_write, Except.mapError]

theorem Timestamp.ofJson_write {moment : Timestamp} (reads : read moment.write = .ok moment) :
    Timestamp.ofJson (.text moment.write) = .ok moment := by
  simp [ofJson, Decoder.parsed, reads, Except.mapError]

theorem Timestamp.proper_of_ofJson {value : Json} {moment : Timestamp}
    (reads : ofJson value = .ok moment) : Proper moment := by
  unfold ofJson Decoder.parsed at reads
  split at reads
  · rename_i text
    dsimp only at reads
    cases outcome : read text with
    | error fault =>
        rw [outcome] at reads
        cases reads
    | ok found =>
        rw [outcome] at reads
        cases reads
        exact proper_of_read outcome
  · cases reads

namespace EvaluationRecord

variable (record : EvaluationRecord)

theorem sortFields_record (id policy decision own applied report moment time : Json) :
    Json.sortFields [("id", id), ("policy", policy), ("decision", decision),
      ("original_decision", own), ("bias_applied", applied), ("report", report),
      ("evaluated_at", moment), ("evaluation_time_ms", time)] =
    [("bias_applied", applied), ("decision", decision), ("evaluated_at", moment),
      ("evaluation_time_ms", time), ("id", id), ("original_decision", own), ("policy", policy),
      ("report", report)] := by
  simp +decide only [Json.sortFields, Json.insertField, List.foldl_cons, List.foldl_nil, if_true,
    if_false]

/-- A record as it is read back from its text, with the time read as `time`. -/
theorem reread_toJson (time : Json) :
    record.toJson.reread (fun _ => time) = .object
      [("bias_applied", .bool record.biasApplied),
        ("decision", .object (Json.sortFields record.decision.canonical)),
        ("evaluated_at", .text record.evaluatedAt.write), ("evaluation_time_ms", time),
        ("id", .text record.id.write),
        ("original_decision", .object (Json.sortFields record.ownDecision.canonical)),
        ("policy", .text record.policy), ("report", .text record.report)] := by
  rw [← sortFields_record, ← Decision.reread_toJson record.decision fun _ => time,
    ← Decision.reread_toJson record.ownDecision fun _ => time]
  rfl

theorem legible_toJson {time : Json}
    (reads : Json.read (Json.real record.milliseconds).write = .ok time) :
    record.toJson.Legible fun _ => time :=
  ⟨trivial, trivial, record.decision.legible_toJson _, record.ownDecision.legible_toJson _, trivial,
    trivial, trivial, reads, trivial⟩

theorem depth_toJson : record.toJson.depth = 2 := by
  change max 0 (max 0 (max record.decision.toJson.depth (max record.ownDecision.toJson.depth _))) +
    1 = 2
  rw [Decision.depth_toJson, Decision.depth_toJson]
  rfl

theorem read_write {time : Json} {milliseconds : Float}
    (moment : Timestamp.read record.evaluatedAt.write = .ok record.evaluatedAt)
    (reads : Json.read (Json.real record.milliseconds).write = .ok time)
    (number : Decoder.float time = .ok milliseconds) :
    ∃ value, Json.read record.write = .ok value ∧
      ofJson value = .ok { record with milliseconds } := by
  refine ⟨_, Json.read_write record.toJson (record.legible_toJson reads) ?_, ?_⟩
  · rw [depth_toJson]
    decide
  · rw [reread_toJson]
    simp [ofJson, Shape.read, Shape.putNamed, shape, number, Identifier.ofJson_write,
      Timestamp.ofJson_write moment, Decision.ofJson_sorted, Decoder.text,
      Decoder.bool, Except.map, bind, Except.bind, pure, Except.pure, Json.require]

def Draft.Proper (draft : Draft) : Prop := ∀ moment ∈ draft.evaluatedAt, moment.Proper

theorem keeps_proper : ∀ slot ∈ shape.fields, Shape.Keeps Draft.Proper slot := by
  intro slot member state value next proper put
  simp only [shape, List.mem_cons, List.not_mem_nil, or_false] at member
  rcases member with rfl | rfl | rfl | rfl | rfl | rfl | rfl | rfl
  all_goals
    obtain ⟨found, reads, rfl⟩ := map_eq_ok_iff.mp put
  case inr.inr.inr.inr.inr.inr.inl =>
    obtain ⟨moment, read, same⟩ := bind_eq_ok_iff.mp reads
    cases same
    intro other same
    cases same
    exact Timestamp.proper_of_ofJson read
  all_goals exact proper

theorem proper_of_ofJson {value : Json} {record : EvaluationRecord}
    (reads : ofJson value = .ok record) : record.evaluatedAt.Proper := by
  simp only [ofJson, bind_eq_ok_iff, Decision.require_eq_ok_iff] at reads
  obtain ⟨draft, fields, _, _, _, _, _, _, _, _, _, _, _, _, moment, found, _, _, same⟩ := reads
  cases same
  have first : Draft.Proper {} := fun _ none => by cases none
  exact Shape.read_invariant keeps_proper first fields moment found

theorem ofJson_toJson (moment : Timestamp.read record.evaluatedAt.write = .ok record.evaluatedAt) :
    ofJson record.toJson = .ok record := by
  simp [toJson, ofJson, Shape.read, Shape.putNamed, shape, Identifier.ofJson_write,
    Timestamp.ofJson_write moment, Decision.ofJson_toJson, Decoder.text, Decoder.bool,
    Decoder.float, Except.map, bind, Except.bind, pure, Except.pure, Json.require]

/-! ### Times -/

/-- A finite double equals itself; only what is no number does not. -/
theorem beq_self_of_isFinite {x : Float} (finite : x.isFinite = true) : (x == x) = true := by
  change (Float.Model.UnpackedFloat.compare x.toModel.unpack x.toModel.unpack ==
    some Ordering.eq) = true
  change x.toModel.unpack.isFinite = true at finite
  cases shape : x.toModel.unpack with
  | notANumber =>
      rw [shape] at finite
      cases finite
  | infinity sign =>
      rw [shape] at finite
      cases finite
  | zero sign => rfl
  | finite sign digits exponent positive =>
      have same : (compare exponent exponent).then (compare digits digits) = .eq := by simp
      cases sign with
      | positive =>
          change (some ((compare exponent exponent).then (compare digits digits)) ==
            some Ordering.eq) = true
          rw [same]
          rfl
      | negative =>
          change (some ((compare exponent exponent).then (compare digits digits)).swap ==
            some Ordering.eq) = true
          rw [same]
          rfl

theorem same_self (finite : record.milliseconds.isFinite = true) : record.same record = true := by
  simp [same, beq_self_of_isFinite finite]

theorem eq_of_toBits_eq {x y : Float} (same : x.toBits = y.toBits) : x = y := by
  obtain ⟨⟨bits, valid⟩⟩ := x
  obtain ⟨⟨others, valid'⟩⟩ := y
  cases same
  rfl

def scannedBits? (scanned : Json.Scanned) : Option UInt64 :=
  match scanned.token with
  | .scalar (.real x) => some x.toBits
  | _ => none

theorem read_real {x y : Float} (c : Char) (rest : List Char)
    (written : (Json.real x).chars = c :: rest) (number : Json.StartsNumber c)
    (bits : scannedBits? (Json.scan c rest) = some y.toBits)
    (whole : (Json.scan c rest).length = rest.length) :
    Json.read (Json.real x).write = .ok (.real y) := by
  have token : (Json.scan c rest).token = .scalar (.real y) := by
    unfold scannedBits? at bits
    split at bits
    · rename_i found scanned
      rw [scanned, eq_of_toBits_eq (Option.some.inj bits)]
    · cases bits
  unfold Json.read Json.write
  rw [String.toList_ofList, written, Json.tokens_cons number.shown, token, whole,
    List.drop_of_length_le le_rfl, Json.tokens]
  rfl

/-! ### Survival -/

theorem fieldChars_concat (first : String × Json) (fields : List (String × Json)) (name : String)
    (value : Json) : Json.fieldChars (first :: fields ++ [(name, value)]) =
      Json.fieldChars (first :: fields) ++ ',' :: (Json.quote name ++ ':' :: value.chars) := by
  induction fields generalizing first with
  | nil => simp [Json.fieldChars]
  | cons next fields ih =>
      have behind := ih next
      rw [List.cons_append] at behind ⊢
      rw [List.cons_append, Json.fieldChars_cons_cons, behind, Json.fieldChars_cons_cons]
      simp

theorem chars_object (fields : List (String × Json)) :
    (Json.object fields).chars = '\x7b' :: Json.fieldChars fields ++ ['\x7d'] := by
  rw [Json.chars]

/-- Records that differ in their times alone have the same text exactly if their times do. -/
theorem write_withTime_eq_iff (record : EvaluationRecord) (milliseconds : Float) :
    ({ record with milliseconds } : EvaluationRecord).write = record.write ↔
      (Json.real milliseconds).write = (Json.real record.milliseconds).write := by
  have shape (time : Float) : ({ record with milliseconds := time } : EvaluationRecord).toJson =
      .object (("id", .text record.id.write) ::
        [("policy", .text record.policy), ("decision", record.decision.toJson),
          ("original_decision", record.ownDecision.toJson),
          ("bias_applied", .bool record.biasApplied), ("report", .text record.report),
          ("evaluated_at", .text record.evaluatedAt.write)] ++
        [("evaluation_time_ms", .real time)]) := rfl
  unfold write Json.write
  rw [String.ofList_inj, String.ofList_inj, shape milliseconds,
    show record.toJson = _ from shape record.milliseconds, chars_object, chars_object,
    fieldChars_concat, fieldChars_concat]
  simp

/-- Decisions and records come back from their texts. A decision has an object of its own and is read
from every object with distinct names that has that object's fields among its own. A record comes
back whole where the text of its time does. A record that has been accepted comes back with the time
that its text is read as, and it has the same text again exactly if that time has. -/
theorem survives_json (record : EvaluationRecord) :
    (∀ decision : Decision, decision.toJson = .object decision.canonical ∧
      Decision.ofJson decision.toJson = .ok decision ∧
      ∃ value, Json.read decision.toJson.write = .ok value ∧
        Decision.ofJson value = .ok decision) ∧
    Function.Injective (fun decision : Decision => decision.toJson.write) ∧
    (∀ entries, Distinct entries → ∀ decision,
      Decision.ofJson (.object entries) = .ok decision ↔
        ∀ field ∈ decision.canonical, field ∈ entries) ∧
    (record.milliseconds.isFinite = true →
      Timestamp.read record.evaluatedAt.write = .ok record.evaluatedAt →
      Json.read (Json.real record.milliseconds).write = .ok (.real record.milliseconds) →
      ∃ value, Json.read record.write = .ok value ∧ ofJson value = .ok record ∧
        record.same record = true) ∧
    (∀ value time, ofJson value = .ok record →
      Json.read (Json.real record.milliseconds).write = .ok (.real time) →
      ∃ value' again, Json.read record.write = .ok value' ∧ ofJson value' = .ok again ∧
        again = { record with milliseconds := time } ∧
        (again.write = record.write ↔
          (Json.real time).write = (Json.real record.milliseconds).write)) := by
  refine ⟨fun decision => ⟨rfl, decision.ofJson_toJson, _, decision.read_write,
    decision.ofJson_sorted⟩, Decision.write_injective, fun entries distinct decision =>
      Decision.ofJson_eq_ok_iff decision distinct, ?_, ?_⟩
  · intro finite moment time
    obtain ⟨value, reads, decoded⟩ := record.read_write moment time rfl
    exact ⟨value, reads, decoded, record.same_self finite⟩
  · intro value time accepted found
    have moment := (proper_of_ofJson accepted).read_write
    obtain ⟨value', reads, decoded⟩ := record.read_write moment found rfl
    exact ⟨value', _, reads, decoded, rfl, record.write_withTime_eq_iff time⟩

def door (nanoseconds : Nat) : EvaluationRecord :=
  (new { bits := 0x67e5504410b1426f9247bb680e5fe0c8 }
    { days := 19782, second := 43200, nanosecond := 0 } "door" .permit .permit
    "door\n\tResult: Permit\n").withElapsed (.of 0 nanoseconds)

theorem proper_door (nanoseconds : Nat) : (door nanoseconds).evaluatedAt.Proper := by
  change Timestamp.Proper { days := 19782, second := 43200, nanosecond := 0 }
  exact ⟨by decide, by decide, nofun, by decide⟩

/-- A refusal whose fields stand in another order, with a note between them. -/
def annotated : List (String × Json) :=
  [("note", .null), ("code", .text "NO"), ("type", .text "DENY"), ("message", .text "\"")]

theorem read_door : Json.read (Json.real (door 2000000).milliseconds).write =
    .ok (.real (door 2000000).milliseconds) :=
  read_real '2' ['.', '0'] (by decide +kernel) (.inr rfl) (by decide +kernel) (by decide +kernel)

theorem survives_json_door :
    (Distinct annotated ∧ Decision.ofJson (.object annotated) = .ok (.deny "\"" "NO")) ∧
    (∃ value, Json.read (door 2000000).write = .ok value ∧
      ofJson value = .ok (door 2000000) ∧ (door 2000000).same (door 2000000) = true) ∧
    ∃ value again, Json.read (door 2000000).write = .ok value ∧ ofJson value = .ok again ∧
      again.write = (door 2000000).write := by
  have distinct : Distinct annotated := by simp [Distinct, annotated]
  have moment := (proper_door 2000000).read_write
  obtain ⟨_, _, decisions, whole, accepted⟩ := survives_json (door 2000000)
  refine ⟨⟨distinct, (decisions _ distinct _).mpr ?_⟩, ?_, ?_⟩
  · simp [Decision.canonical, Decision.type, DecisionType.tag, Decision.fields, annotated]
  · exact whole (by decide +kernel) moment read_door
  · obtain ⟨value, again, reads, decoded, _, stable⟩ :=
      accepted _ _ ((door 2000000).ofJson_toJson moment) read_door
    exact ⟨value, again, reads, decoded, stable.mpr rfl⟩

/-- The text of 15 microseconds is read as a smaller number, and that has a text of its own: a record
that has been accepted changes when it is written and read. -/
theorem not_survives_json : ∃ value again, ofJson (door 15000).toJson = .ok (door 15000) ∧
    Json.read (door 15000).write = .ok value ∧ ofJson value = .ok again ∧
    again.write ≠ (door 15000).write := by
  have time : Json.read (Json.real (door 15000).milliseconds).write =
      .ok (.real (Float.ofBits 4579800533065604792)) :=
    read_real '0' ".015000000000000001".toList (by decide +kernel) (.inr rfl)
      (by decide +kernel) (by decide +kernel)
  obtain ⟨value, reads, decoded⟩ := (door 15000).read_write (proper_door _).read_write time rfl
  refine ⟨value, _, (door 15000).ofJson_toJson (proper_door _).read_write, reads, decoded, ?_⟩
  intro same
  have shorter := ((door 15000).write_withTime_eq_iff _).mp same
  revert shorter
  decide +kernel

end EvaluationRecord

end AccessPolicy

/-
The name of the service in the environment. A variable is read before it is known that its field holds a text: what
reads as a truth value or a number comes back in the form that such a value is written in, and any other text as it is.
-/

import AccessPolicy.Proofs.Settings.Loading
import AccessPolicy.Proofs.Text.Numerals

namespace AccessPolicy.Environment

/-- What becomes of a text that is read from a variable into a field that holds a text. -/
def printed (text : String) : String :=
  match readBool? text, readInteger? text, Text.readFloat? text with
  | some value, _, _ => showBool value
  | none, some value, _ => Text.integer value.toInt
  | none, none, some value => Text.FloatForm.plain.write value
  | none, none, none => text

theorem text?_readValue (text : String) : (readValue text).text? = some (printed text) := by
  unfold readValue printed
  cases readBool? text <;> cases readInteger? text <;> cases Text.readFloat? text <;> rfl

/-! ### Nothing is printed as nothing -/

theorem showBool_ne_empty (value : Bool) : showBool value ≠ "" := by
  cases value <;> decide

theorem integer_ne_empty (value : Int) : Text.integer value ≠ "" := by
  intro empty
  obtain ⟨c, rest, shape, _⟩ := Text.integer_starts value
  rw [empty] at shape
  cases shape

theorem write_ne_empty (x : Float) : Text.FloatForm.plain.write x ≠ "" := by
  intro empty
  have none : (Text.FloatForm.plain.write x).toList = [] := by rw [empty]; rfl
  rw [Text.FloatForm.write, String.toList_ofList] at none
  split at none
  · cases none
  · exact List.append_ne_nil_of_right_ne_nil _ (List.cons_ne_nil _ _) none
  · exact List.append_ne_nil_of_right_ne_nil _ (List.cons_ne_nil _ _) none
  · rename_i negative binary _
    obtain ⟨c, rest, shape, _⟩ := Text.FloatForm.plain.finite_starts binary
    rw [shape] at none
    exact List.append_ne_nil_of_right_ne_nil _ (List.cons_ne_nil _ _) none

theorem printed_ne_empty {text : String} (given : text ≠ "") : printed text ≠ "" := by
  unfold printed
  split
  · exact showBool_ne_empty _
  · exact integer_ne_empty _
  · exact write_ne_empty _
  · exact given

/-! ### What is printed as it is -/

theorem readBool_showBool (value : Bool) : readBool? (showBool value) = some value := by
  cases value <;> rfl

theorem printed_showBool (value : Bool) : printed (showBool value) = showBool value := by
  unfold printed
  rw [readBool_showBool]

theorem lowerChar_of_low {c : Char} (low : c.toNat ≤ 57) : Text.lowerChar c = [c] := by
  have kelvin : c ≠ Text.kelvinSign := by
    rintro rfl
    exact absurd low (by decide)
  have dotted : c ≠ Text.dottedCapitalI := by
    rintro rfl
    exact absurd low (by decide)
  unfold Text.lowerChar
  rw [if_neg kelvin, if_neg dotted]
  have small : ¬ (c.val ≥ 'A'.val ∧ c.val ≤ 'Z'.val) := by
    rintro ⟨high, _⟩
    have above : 65 ≤ c.toNat := UInt32.le_iff_toNat_le.mp high
    omega
  unfold Char.toLower
  rw [dif_neg small]

/-- Lower case does not make a word of what starts as a number does. -/
theorem readBool_eq_none {text : String} {c : Char} {rest : List Char}
    (shape : text.toList = c :: rest) (number : c = '-' ∨ Text.isDigit c = true) :
    readBool? text = none := by
  have low : c.toNat ≤ 57 := by
    rcases number with rfl | digit
    · decide
    · exact (Text.isDigit_bounds digit).2
  have other (word : String) (d : Char) (letters : List Char) (starts : word.toList = d :: letters)
      (high : 57 < d.toNat) : Text.lower text ≠ word := by
    intro same
    have chars := congrArg String.toList same
    rw [Text.lower, String.toList_ofList, shape, List.flatMap_cons, lowerChar_of_low low,
      starts] at chars
    have first : c = d := (List.cons.inj chars).1
    rw [first] at low
    omega
  unfold readBool?
  dsimp only
  rw [if_neg (other "true" 't' _ rfl (by decide)), if_neg (other "false" 'f' _ rfl (by decide))]

theorem word?_toInt (value : Int64) : Setting.word? value.toInt = some value := by
  unfold Setting.word?
  have low := Int64.minValue_le_toInt value
  have high := Int64.toInt_le value
  have bounds :
      (Int64.minValue.toInt ≤ value.toInt && value.toInt ≤ Int64.maxValue.toInt) = true := by
    rw [decide_eq_true low, decide_eq_true high]
    rfl
  rw [if_pos bounds, Int64.ofInt_toInt]

theorem printed_integer (value : Int64) :
    printed (Text.integer value.toInt) = Text.integer value.toInt := by
  obtain ⟨c, rest, shape, number⟩ := Text.integer_starts value.toInt
  have reads : readInteger? (Text.integer value.toInt) = some value := by
    unfold readInteger?
    rw [Text.readInteger?_integer]
    exact word?_toInt value
  unfold printed
  rw [readBool_eq_none shape number, reads]

end AccessPolicy.Environment

namespace AccessPolicy.Config

open Environment (printed value? Regular)

def serviceVariable : String := "POLICY_ENGINE_TELEMETRY__SERVICE_NAME"

theorem path_serviceVariable :
    Environment.path? serviceVariable = some Field.serviceName.path := rfl

def ofService (service : String) : Config := { telemetry := { serviceName := service } }

theorem validate_ofService {service : String} (named : service ≠ "") :
    (ofService service).validate = .ok () :=
  have known : Text.lower "info" ∈ logLevels := by decide
  validate_eq_ok_iff.mpr ⟨⟨.deny, rfl⟩, named, known⟩

theorem regular_service (text : String) : Regular [(serviceVariable, text)] := by
  intro entry member group _ behind counts
  rw [List.mem_singleton.mp member] at counts
  exact ⟨.serviceName, Option.some.inj (counts.symm.trans path_serviceVariable)⟩

theorem value?_service (text : String) (field : Field) :
    value? field.path [(serviceVariable, text)] =
      if field = .serviceName then some (Environment.readValue text) else none := by
  rw [Environment.value?_cons, path_serviceVariable]
  cases field with
  | serviceName => rfl
  | _ => rw [if_neg (by decide)]; rfl

theorem fromEnvironment_service {text : String} (given : text ≠ "") :
    fromEnvironment [(serviceVariable, text)] = .ok (ofService (printed text)) := by
  unfold fromEnvironment
  rw [fromSettings_eq_ok_iff (regular_service text) fits_nil, given?_nil]
  refine ⟨⟨?_, ?_, ?_, ?_, ?_⟩, validate_ofService (Environment.printed_ne_empty given)⟩
  all_goals rw [value?_service]
  · rfl
  · rfl
  · exact Environment.text?_readValue text
  · rfl
  · rfl

def serviceFile (service : String) : SettingsFile :=
  jsonFile (.object [("telemetry", .object [("service_name", .text service)])])

theorem fromFile_service {service : String} (named : service ≠ "") :
    fromFile (serviceFile service) [] = .ok (ofService service) := by
  have holds : Holds (serviceFile service) _ := holds_jsonFile
    ⟨⟨trivial, trivial⟩, trivial⟩ (by simp [Json.depth, Json.fieldsDepth, Json.depthLimit]) rfl rfl
  have regular : Regular [] := nofun
  unfold fromFile
  rw [holds.1]
  exact (fromSettings_eq_ok_iff regular holds.fits).mpr
    ⟨⟨rfl, rfl, rfl, rfl, rfl⟩, validate_ofService named⟩

/-- A name in the environment is the name of the service in its printed form: the configuration is
the one that a file with that form gives. What reads as no truth value and no number is taken as it
is, and so is a truth value or an integer in its own form. -/
theorem service_of_variable :
    (∀ text, text ≠ "" →
      fromEnvironment [(serviceVariable, text)] = .ok (ofService (printed text)) ∧
      fromFile (serviceFile (printed text)) [] = fromEnvironment [(serviceVariable, text)]) ∧
    (∀ text, Environment.readBool? text = none → Environment.readInteger? text = none →
      Text.readFloat? text = none → printed text = text) ∧
    (∀ value : Bool, printed (showBool value) = showBool value) ∧
    ∀ value : Int64, printed (Text.integer value.toInt) = Text.integer value.toInt := by
  refine ⟨fun text given => ?_, ?_, Environment.printed_showBool, Environment.printed_integer⟩
  · rw [fromEnvironment_service given, fromFile_service (Environment.printed_ne_empty given)]
    exact ⟨rfl, rfl⟩
  · intro text noBool noInteger noFloat
    unfold printed
    rw [noBool, noInteger, noFloat]

/-- A version in the environment loses its zeros, and a name keeps its own. -/
theorem service_of_variable_gateway :
    fromEnvironment [(serviceVariable, "1.50")] = .ok (ofService "1.5") ∧
    fromEnvironment [(serviceVariable, "gate-07")] = .ok (ofService "gate-07") := by
  obtain ⟨loads, plain, _, _⟩ := service_of_variable
  constructor
  · have shorter : printed "1.50" = "1.5" := by decide +kernel
    rw [← shorter]
    exact (loads "1.50" (by decide)).1
  · have own : printed "gate-07" = "gate-07" :=
      plain "gate-07" (by decide +kernel) (by decide +kernel) (by decide +kernel)
    have named := (loads "gate-07" (by decide)).1
    rwa [own] at named

/-- Digits are taken for an integer: a file with the same text gives another name. -/
theorem service_of_digits : fromEnvironment [(serviceVariable, "007")] = .ok (ofService "7") ∧
    fromFile (serviceFile "007") [] = .ok (ofService "007") ∧ ofService "7" ≠ ofService "007" := by
  have seven : printed "007" = "7" := rfl
  refine ⟨?_, fromFile_service (by decide), by decide⟩
  rw [fromEnvironment_service (by decide), seven]

end AccessPolicy.Config

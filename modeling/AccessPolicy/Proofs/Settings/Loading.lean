/-
What a configuration is loaded from. Each field is taken by itself, from the environment, the file or the defaults, and
the configuration made of them is checked as a whole. Nothing else in the file or in the environment counts.
-/

import AccessPolicy.Proofs.Json.Rereading
import AccessPolicy.Proofs.Settings.Layers
import AccessPolicy.Proofs.Settings.Validity

namespace AccessPolicy.Config

open Environment (value? Regular)

/-! ### Reading the fields -/

section

variable {α : Type} (name : String) (place : Nat) (convert : Setting → Option α) (default : α)

def taken : Option Setting → Option α
  | none => some default
  | some setting => convert setting

def orFault : Option α → Except Error α
  | some value => .ok value
  | none => SettingsFile.fault ("invalid value for " ++ Text.quote name)

theorem orFault_eq_ok_iff {value? : Option α} {value : α} :
    orFault name value? = .ok value ↔ value? = some value := by
  cases value? with
  | none => exact ⟨nofun, nofun⟩
  | some found => simp [orFault]

theorem field?_table (entries : List (String × Setting)) :
    field? name place (.table entries) = entries.lookup name := rfl

theorem readField_eq (entries : List (String × Setting)) :
    readField name place convert default (.table entries) =
      orFault name (taken convert default (entries.lookup name)) := by
  unfold readField
  rw [field?_table]
  cases entries.lookup name with
  | none => rfl
  | some setting =>
      dsimp only [taken]
      cases convert setting <;> rfl

theorem readSection_eq {root : Setting} {inner : List (String × Setting)}
    (read : Setting → Except Error α) (here : root.at? [name] = some (.table inner)) :
    readSection name place read default root = read (.table inner) := by
  cases root with
  | table entries =>
      obtain ⟨found, present, same⟩ := Option.bind_eq_some_iff.mp here
      cases same
      unfold readSection
      rw [field?_table, show entries.lookup name = _ from present]
      rfl
  | _ => cases here

end

/-- The value of a field among the settings that are given. -/
def given {α : Type} (given? : Field → Option Setting) (field : Field)
    (convert : Setting → Option α) (default : α) : Except Error α :=
  orFault field.name (taken convert default (given? field))

/-- The configuration of the settings that are given for its fields. -/
def ofFields (given? : Field → Option Setting) : Except Error Config := do
  return {
    engine := { defaultBias := ← given given? .defaultBias decisionType? .deny }
    telemetry :=
      { enabled := ← given given? .enabled Setting.bool? true
        serviceName := ← given given? .serviceName Setting.text? engineName }
    logging :=
      { level := ← given given? .level Setting.text? "info"
        json := ← given given? .json Setting.bool? false } }

/-- Each field of a configuration comes from what is given for it. -/
structure TakenFrom (given? : Field → Option Setting) (config : Config) : Prop where
  defaultBias : taken decisionType? .deny (given? .defaultBias) = some config.engine.defaultBias
  enabled : taken Setting.bool? true (given? .enabled) = some config.telemetry.enabled
  serviceName :
    taken Setting.text? engineName (given? .serviceName) = some config.telemetry.serviceName
  level : taken Setting.text? "info" (given? .level) = some config.logging.level
  json : taken Setting.bool? false (given? .json) = some config.logging.json

theorem ofFields_eq_ok_iff {given? : Field → Option Setting} {config : Config} :
    ofFields given? = .ok config ↔ TakenFrom given? config := by
  unfold ofFields given
  simp only [bind_eq_ok_iff, orFault_eq_ok_iff]
  constructor
  · rintro ⟨_, bias, _, enabled, _, service, _, level, _, json, same⟩
    cases same
    exact ⟨bias, enabled, service, level, json⟩
  · rintro ⟨bias, enabled, service, level, json⟩
    exact ⟨_, bias, _, enabled, _, service, _, level, _, json, rfl⟩

theorem readField_given {α : Type} {root : Setting} (field : Field)
    {inner : List (String × Setting)} (here : root.at? [field.group] = some (.table inner))
    (place : Nat) (convert : Setting → Option α) (default : α) :
    readField field.name place convert default (.table inner) =
      given (fun field => root.at? field.path) field convert default := by
  obtain ⟨found, present, same⟩ := Option.bind_eq_some_iff.mp here
  cases same
  have leaf : root.at? field.path = inner.lookup field.name := by
    unfold Field.path Setting.at?
    rw [present]
    change (inner.lookup field.name).bind some = inner.lookup field.name
    cases inner.lookup field.name <;> rfl
  rw [readField_eq, given, leaf]

theorem ofSetting_eq {root : Setting} (sectioned : Sectioned root) :
    ofSetting root = ofFields fun field => root.at? field.path := by
  obtain ⟨engine, engineHere⟩ := sectioned .defaultBias
  obtain ⟨telemetry, telemetryHere⟩ := sectioned .enabled
  obtain ⟨logging, loggingHere⟩ := sectioned .level
  have bias := readField_given .defaultBias engineHere 0 decisionType? .deny
  have enabled := readField_given .enabled telemetryHere 0 Setting.bool? true
  have service := readField_given .serviceName telemetryHere 1 Setting.text? engineName
  have level := readField_given .level loggingHere 0 Setting.text? "info"
  have json := readField_given .json loggingHere 1 Setting.bool? false
  unfold ofSetting
  rw [readSection_eq "engine" 0 {} readEngine engineHere,
    readSection_eq "telemetry" 1 {} readTelemetry telemetryHere,
    readSection_eq "logging" 2 {} readLogging loggingHere]
  unfold readEngine readTelemetry readLogging ofFields
  rw [← bias, ← enabled, ← service, ← level, ← json]
  simp only [bind_assoc, pure_bind]
  rfl

/-! ### The layer of a field -/

/-- A table without entries, which leaves what is below it as it is. -/
def isHollow : Setting → Bool
  | .table [] => true
  | _ => false

/-- What a document states for a field. -/
def stated? (document : Setting) (field : Field) : Option Setting :=
  (document.at? field.path).filter fun found => !isHollow found

/-- What the environment gives for a field, or else the document. -/
def given? (document : Setting) (environment : List (String × String)) (field : Field) :
    Option Setting :=
  (value? field.path environment).or (stated? document field)

section

variable {α : Type} (convert : Setting → Option α) {default : α}
  (tables : ∀ entries, convert (.table entries) = none)

include tables

/-- A table that is laid over a default is as little a value as it is alone. -/
theorem taken_merged {base : Setting} (own : convert base = some default)
    (above? found? : Option Setting) :
    taken convert default
        (above?.or ((found?.map fun found => found.onto (some base)).or (some base))) =
      taken convert default (above?.or (found?.filter fun found => !isHollow found)) := by
  cases above? with
  | some above => rfl
  | none =>
      cases found? with
      | none => exact own
      | some found =>
          cases found with
          | table entries =>
              cases entries with
              | nil => exact own
              | cons entry rest =>
                  obtain ⟨merged, same⟩ := Setting.entriesOnto_cons_table entry rest (some base)
                  change convert (Setting.entriesOnto (entry :: rest) (some base)) = convert _
                  rw [same, tables, tables]
          | _ => rfl

variable {document : Setting} {environment : List (String × String)}
  (regular : Regular environment) (fits : Fits document)

include regular fits

theorem given_layers (field : Field) (own : convert field.base = some default) :
    given (fun field => (layers document environment).at? field.path) field convert default =
      given (given? document environment) field convert default := by
  unfold given given? stated?
  dsimp only
  rw [at?_layers regular fits, taken_merged convert tables own]

end

section

variable {document : Setting} {environment : List (String × String)}
  (regular : Regular environment) (fits : Fits document)

include regular fits

theorem fromSettings_eq : fromSettings document environment =
    ofFields (given? document environment) >>= fun config =>
      config.validate >>= fun _ => .ok config := by
  have merged : ofFields (fun field => (layers document environment).at? field.path) =
      ofFields (given? document environment) := by
    unfold ofFields
    rw [given_layers decisionType? (fun _ => rfl) regular fits .defaultBias rfl,
      given_layers Setting.bool? (fun _ => rfl) regular fits .enabled rfl,
      given_layers Setting.text? (fun _ => rfl) regular fits .serviceName rfl,
      given_layers Setting.text? (fun _ => rfl) regular fits .level rfl,
      given_layers Setting.bool? (fun _ => rfl) regular fits .json rfl]
  unfold fromSettings
  rw [ofSetting_eq (sectioned_layers regular fits), merged]
  rfl

theorem fromSettings_eq_ok_iff {config : Config} : fromSettings document environment = .ok config ↔
    TakenFrom (given? document environment) config ∧ config.validate = .ok () := by
  rw [fromSettings_eq regular fits, bind_eq_ok_iff]
  simp only [bind_eq_ok_iff, ofFields_eq_ok_iff]
  constructor
  · rintro ⟨_, from', _, valid, same⟩
    cases same
    exact ⟨from', valid⟩
  · rintro ⟨from', valid⟩
    exact ⟨config, from', (), valid, rfl⟩

end

/-! ### Loading -/

/-- The document of a file whose sections are tables. -/
def Holds (file : SettingsFile) (document : Setting) : Prop :=
  file.read = .ok document ∧ ∀ group ∈ groups, ∀ found, document.at? [group] = some found →
    ∃ entries, found = .table entries

theorem Holds.fits {file : SettingsFile} {document : Setting} (holds : Holds file document) :
    Fits document := by
  obtain ⟨reads, sections⟩ := holds
  obtain ⟨tidy, entries, rfl⟩ := SettingsFile.tidy_of_read reads
  refine ⟨tidy, fun field => ⟨entries, rfl, fun inner here => ?_⟩⟩
  obtain ⟨others, rfl⟩ := sections field.group field.group_mem inner (by
    rw [Setting.at?, Setting.entries_table, here]
    rfl)
  exact ⟨others, rfl, fun _ _ => trivial⟩

theorem fits_nil : Fits (.table []) :=
  ⟨Setting.tidy_nil, fun _ => ⟨[], rfl, nofun⟩⟩

theorem given?_nil (environment : List (String × String)) :
    given? (.table []) environment = fun field => value? field.path environment := by
  funext field
  exact Option.or_none

theorem validate_of_fromSettings {document : Setting} {environment : List (String × String)}
    {config : Config} (loads : fromSettings document environment = .ok config) :
    config.validate = .ok () := by
  unfold fromSettings at loads
  obtain ⟨found, _, loads⟩ := bind_eq_ok_iff.mp loads
  obtain ⟨_, valid, same⟩ := bind_eq_ok_iff.mp loads
  cases same
  exact valid

/-- Loading takes each field from the environment, from the file or from the defaults, in this order,
and succeeds exactly if each of the settings taken converts and the configuration made of them is
valid. A table without entries gives nothing for a field. What is not taken is of no account: two
loads that take the same come to the same. -/
theorem loads_iff_taken {environment : List (String × String)} (regular : Regular environment) :
    (∀ file document, Holds file document →
      (∀ config, fromFile file environment = .ok config ↔
        TakenFrom (given? document environment) config ∧ config.validate = .ok ()) ∧
      ∀ environment' file' document', Regular environment' → Holds file' document' →
        (∀ field : Field, value? field.path environment' = value? field.path environment) →
        (∀ field : Field, value? field.path environment = none →
          stated? document' field = stated? document field) →
        fromFile file' environment' = fromFile file environment) ∧
    (∀ config, fromEnvironment environment = .ok config ↔
      TakenFrom (fun field => value? field.path environment) config ∧
        config.validate = .ok ()) ∧
    (∀ environment', Regular environment' →
      (∀ field : Field, value? field.path environment' = value? field.path environment) →
      fromEnvironment environment' = fromEnvironment environment) ∧
    (∀ config, ((∃ file, fromFile file environment = .ok config) ∨
      fromEnvironment environment = .ok config) →
        ∃ bias : Bias, config.engine.defaultBias = bias.type) := by
  have fromDocument {file : SettingsFile} {document : Setting} (holds : Holds file document)
      (environment : List (String × String)) :
      fromFile file environment = fromSettings document environment := by
    unfold fromFile
    rw [holds.1]
    rfl
  refine ⟨fun file document holds => ⟨fun config => ?_, ?_⟩, fun config => ?_, ?_, ?_⟩
  · rw [fromDocument holds, fromSettings_eq_ok_iff regular holds.fits]
  · intro environment' file' document' regular' holds' alike stated
    have same : given? document' environment' = given? document environment := by
      funext field
      unfold given?
      rw [alike field]
      cases above : value? field.path environment with
      | none => rw [stated field above]
      | some value => rfl
    rw [fromDocument holds', fromDocument holds, fromSettings_eq regular' holds'.fits,
      fromSettings_eq regular holds.fits, same]
  · unfold fromEnvironment
    rw [fromSettings_eq_ok_iff regular fits_nil, given?_nil]
  · intro environment' regular' alike
    unfold fromEnvironment
    rw [fromSettings_eq regular' fits_nil, fromSettings_eq regular fits_nil, given?_nil, given?_nil]
    simp only [alike]
  · rintro config (⟨file, loads⟩ | loads)
    · obtain ⟨document, _, loads⟩ := bind_eq_ok_iff.mp loads
      exact (validate_eq_ok_iff.mp (validate_of_fromSettings loads)).1
    · exact (validate_eq_ok_iff.mp (validate_of_fromSettings loads)).1

def gateway : Json :=
  .object [("engine", .object [("default_bias", .text "never")]), ("note", .null),
    ("telemetry", .object [("enabled", .bool false), ("service_name", .text "gateway")])]

def openGateway : Json :=
  .object [("telemetry", .object [("enabled", .bool false), ("service_name", .text "gateway")])]

def jsonFile (value : Json) : SettingsFile := { extension := "json", content := some value.write }

def isTable : Setting → Bool
  | .table _ => true
  | _ => false

theorem holds_jsonFile {value : Json} {entries : List (String × Setting)}
    (legible : value.Legible id) (room : value.depth ≤ Json.depthLimit)
    (document : Setting.ofJson (value.reread id) = .table entries)
    (sections : (groups.all fun group => (entries.lookup group).all isTable) = true) :
    Holds (jsonFile value) (.table entries) := by
  constructor
  · have reads := Json.read_write value legible room
    change SettingsFile.parse "json" value.write = _
    unfold SettingsFile.parse
    dsimp only
    rw [if_pos rfl, reads]
    change Except.ok (SettingsFile.rootTable (Setting.ofJson (value.reread id))) = _
    rw [document]
    rfl
  · intro group member found here
    obtain ⟨inner, present, same⟩ := Option.bind_eq_some_iff.mp here
    cases same
    have checked := List.all_eq_true.mp sections group member
    rw [show entries.lookup group = _ from present, Option.all_some] at checked
    unfold isTable at checked
    split at checked
    · exact ⟨_, rfl⟩
    · cases checked

/-- Variables for the bias and the level, and one that is no setting. -/
def chosen : List (String × String) :=
  [("POLICY_ENGINE_ENGINE__DEFAULT_BIAS", "permit"), ("HOME", "/"),
    ("policy_engine_logging__level", "DEBUG")]

theorem regular_chosen : Regular chosen := by
  intro entry member group _ behind counts
  simp only [chosen, List.mem_cons, List.not_mem_nil, or_false] at member
  rcases member with rfl | rfl | rfl
  · exact ⟨.defaultBias, Option.some.inj (counts.symm.trans rfl)⟩
  · have other : Environment.path? "HOME" = none := rfl
    rw [other] at counts
    cases counts
  · exact ⟨.level, Option.some.inj (counts.symm.trans rfl)⟩

theorem loads_gateway :
    fromFile (jsonFile gateway) chosen = .ok
      { engine := { defaultBias := .permit }
        telemetry := { enabled := false, serviceName := "gateway" }
        logging := { level := "DEBUG" } } ∧
    fromFile (jsonFile openGateway) chosen = fromFile (jsonFile gateway) chosen ∧
    fromEnvironment chosen = .ok
      { engine := { defaultBias := .permit }, logging := { level := "DEBUG" } } := by
  have holds : Holds (jsonFile gateway) _ := holds_jsonFile
    (by simp [Json.Legible, Json.LegibleFields, gateway]) (by decide) rfl rfl
  have holds' : Holds (jsonFile openGateway) _ := holds_jsonFile
    (by simp [Json.Legible, Json.LegibleFields, openGateway]) (by decide) rfl rfl
  obtain ⟨files, variable', -, -⟩ := loads_iff_taken regular_chosen
  obtain ⟨loads, again⟩ := files _ _ holds
  refine ⟨(loads _).mpr ⟨⟨rfl, rfl, rfl, rfl, rfl⟩, by decide +kernel⟩, ?_, ?_⟩
  · refine again chosen _ _ regular_chosen holds' (fun _ => rfl) fun field free => ?_
    cases field with
    | defaultBias => cases free
    | level => cases free
    | _ => rfl
  · exact (variable' _).mpr ⟨⟨rfl, rfl, rfl, rfl, rfl⟩, by decide +kernel⟩

/-- A table without entries is no bias. -/
def hollow : Json := .object [("engine", .object [("default_bias", .object [])])]

/-- A setting in a file that does not convert does no harm if it is a table without entries. -/
theorem loads_hollow : hollow.write = "\x7b\"engine\":\x7b\"default_bias\":\x7b\x7d\x7d\x7d" ∧
    ∃ document, Holds (jsonFile hollow) document ∧
      document.at? Field.defaultBias.path = some (.table []) ∧
      decisionType? (.table []) = none ∧ fromFile (jsonFile hollow) [] = .ok {} ∧
      ¬ TakenFrom (fun field => (value? field.path []).or (document.at? field.path)) {} := by
  have holds : Holds (jsonFile hollow) _ := holds_jsonFile
    (by simp [Json.Legible, Json.LegibleFields, hollow]) (by decide) rfl rfl
  have regular : Regular [] := nofun
  refine ⟨rfl, _, holds, rfl, rfl, ?_, fun from' => nomatch from'.defaultBias⟩
  unfold fromFile
  rw [holds.1]
  exact (fromSettings_eq_ok_iff regular holds.fits).mpr
    ⟨⟨rfl, rfl, rfl, rfl, rfl⟩, by decide +kernel⟩

end AccessPolicy.Config

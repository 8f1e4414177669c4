/-
The layers of a configuration, field by field. Layers that have no setting but a table where a section stands leave the
sections tables; what a field is then comes from the last variable of its path, from the file or from the defaults.
-/

import AccessPolicy.Settings.Load
import AccessPolicy.Proofs.Settings.JsonDocuments
import AccessPolicy.Proofs.Settings.TomlDocuments
import AccessPolicy.Proofs.Settings.YamlDocuments

namespace AccessPolicy

/-! ### Files -/

namespace SettingsFile

open Setting (Tidy tidy_nil)

variable {file : SettingsFile} {document : Setting}

theorem tidy_rootTable {setting : Setting} (tidy : Tidy setting) :
    (rootTable setting).Tidy ∧ ∃ entries, rootTable setting = .table entries := by
  unfold rootTable
  split
  · exact ⟨tidy, _, rfl⟩
  · exact ⟨tidy_nil, _, rfl⟩

theorem tidy_of_read (reads : file.read = .ok document) :
    document.Tidy ∧ ∃ entries, document = .table entries := by
  unfold read at reads
  split at reads
  · rename_i content _
    unfold parse at reads
    dsimp only at reads
    split at reads
    · cases outcome : Json.read content with
      | error message =>
          rw [outcome] at reads
          cases reads
      | ok value =>
          rw [outcome] at reads
          cases reads
          exact tidy_rootTable (Json.tidy_of_read outcome)
    · split at reads
      · split at reads
        · rename_i found outcome
          cases reads
          exact tidy_rootTable (Toml.tidy_of_read outcome)
        · cases reads
      · split at reads
        · split at reads
          · rename_i found outcome
            cases reads
            exact tidy_rootTable (Yaml.tidy_of_read outcome)
          · cases reads
        · cases reads
  · cases reads

end SettingsFile

/-! ### Fields -/

namespace Config

inductive Field
  | defaultBias
  | enabled
  | serviceName
  | level
  | json
  deriving DecidableEq, Repr

namespace Field

def group : Field → String
  | .defaultBias => "engine"
  | .enabled => "telemetry"
  | .serviceName => "telemetry"
  | .level => "logging"
  | .json => "logging"

def name : Field → String
  | .defaultBias => "default_bias"
  | .enabled => "enabled"
  | .serviceName => "service_name"
  | .level => "level"
  | .json => "json"

def path (field : Field) : List String := [field.group, field.name]

/-- The setting that a field has by default. -/
def base : Field → Setting
  | .defaultBias => .text DecisionType.deny.name
  | .enabled => .bool true
  | .serviceName => .text engineName
  | .level => .text "info"
  | .json => .bool false

theorem at?_toSetting (field : Field) : (toSetting {}).at? field.path = some field.base := by
  cases field <;> rfl

end Field

def groups : List String := ["engine", "telemetry", "logging"]

theorem Field.group_mem (field : Field) : field.group ∈ groups := by
  cases field <;> decide

end Config

/-! ### Variables -/

namespace Environment

theorem splitPath_ne_nil (name : List Char) : splitPath name ≠ [] := by
  unfold splitPath
  split
  · exact nofun
  · exact nofun
  · exact nofun
  · split <;> exact nofun

theorem path_ne_nil {name : String} {path : List String} (counts : path? name = some path) :
    path ≠ [] := by
  unfold path? at counts
  dsimp only at counts
  split at counts
  · rw [← Option.some.inj counts]
    unfold pathOf
    dsimp only
    split
    · intro none
      exact splitPath_ne_nil _ (List.map_eq_nil_iff.mp none)
    · exact nofun
  · cases counts

theorem entries_readValue (text : String) : (readValue text).entries = [] := by
  unfold readValue
  split <;> rfl

theorem readValue_onto (text : String) (below : Option Setting) :
    (readValue text).onto below = readValue text := by
  unfold readValue
  split <;> rfl

/-- What the last variable of a path gives. -/
def value? (path : List String) (environment : List (String × String)) : Option Setting :=
  (environment.filterMap fun entry =>
    if path? entry.1 = some path then some (readValue entry.2) else none).getLast?

theorem value?_cons (path : List String) (entry : String × String)
    (environment : List (String × String)) : value? path (entry :: environment) =
      (value? path environment).or
        (if path? entry.1 = some path then some (readValue entry.2) else none) := by
  unfold value?
  rw [List.filterMap_cons]
  split
  · rename_i other
    rw [other, Option.or_none]
  · rename_i value same
    rw [same, List.getLast?_cons]
    cases List.getLast? _ <;> rfl

/-- A variable with a path into a section has the path of a field. -/
def Regular (environment : List (String × String)) : Prop :=
  ∀ entry ∈ environment, ∀ group ∈ Config.groups, ∀ behind,
    path? entry.1 = some (group :: behind) → ∃ field : Config.Field, group :: behind = field.path

end Environment

/-! ### Merged layers -/

namespace Config

open Environment (path? readValue value? Regular)

/-- A tidy table in which every section, if it is there, is a table. -/
structure Fits (layer : Setting) : Prop where
  tidy : layer.Tidy
  opens : ∀ field : Field, Setting.Opens field.path layer

theorem fits_atPath {path : List String} {text : String} (given : path ≠ [])
    (regular : ∀ group ∈ groups, ∀ behind, path = group :: behind →
      ∃ field : Field, path = field.path) : Fits ((readValue text).atPath path) := by
  refine ⟨Setting.tidy_atPath (Setting.tidy_of_entries_eq_nil (Environment.entries_readValue text)),
    fun field => ?_⟩
  obtain ⟨key, behind, rfl⟩ := List.exists_cons_of_ne_nil given
  by_cases member : key ∈ groups
  · obtain ⟨other, same⟩ := regular key member behind rfl
    rw [same]
    exact Setting.opens_atPath rfl
  · refine ⟨_, rfl, fun inner here => ?_⟩
    have apart : key ≠ field.group := fun same => member (same ▸ field.group_mem)
    have absent : ((readValue text).atPath (key :: behind)).entries.lookup field.group = none :=
      Setting.lookup_atPath_of_ne apart behind
    rw [Setting.atPath, Setting.entries_table, here] at absent
    cases absent

theorem at?_atPath {path : List String} {text : String} (given : path ≠ [])
    (regular : ∀ group ∈ groups, ∀ behind, path = group :: behind →
      ∃ field : Field, path = field.path) (field : Field) :
    ((readValue text).atPath path).at? field.path =
      if path = field.path then some (readValue text) else none := by
  obtain ⟨key, behind, rfl⟩ := List.exists_cons_of_ne_nil given
  by_cases member : key ∈ groups
  · obtain ⟨other, same⟩ := regular key member behind rfl
    rw [same]
    exact Setting.at?_atPath rfl
  · have apart : key ≠ field.group := fun same => member (same ▸ field.group_mem)
    have differs : key :: behind ≠ field.path := fun same => apart (List.cons.inj same).1
    rw [if_neg differs, Field.path, Setting.at?, Setting.lookup_atPath_of_ne apart,
      Option.bind_none]

def Sectioned (root : Setting) : Prop :=
  ∀ field : Field, ∃ inner, root.at? [field.group] = some (.table inner)

theorem Fits.sectioned {layer root : Setting} (fits : Fits layer) (sectioned : Sectioned root) :
    Sectioned (layer.onto (some root)) := by
  intro field
  obtain ⟨below, lower⟩ := sectioned field
  obtain ⟨entries, rfl, inside⟩ := fits.opens field
  have opens : Setting.Opens [field.group] (.table entries) := ⟨entries, rfl, fun _ _ => trivial⟩
  rw [Setting.at?_onto fits.tidy opens, Option.bind_some, lower]
  cases here : entries.lookup field.group with
  | none =>
      have absent : (Setting.table entries).at? [field.group] = none := by
        rw [Setting.at?, Setting.entries_table, here, Option.bind_none]
      rw [absent]
      exact ⟨below, rfl⟩
  | some found =>
      obtain ⟨inner, rfl, _⟩ := inside found here
      have present : (Setting.table entries).at? [field.group] = some (.table inner) := by
        rw [Setting.at?, Setting.entries_table, here]
        rfl
      obtain ⟨merged, same⟩ := Setting.entriesOnto_table inner below
      rw [present]
      exact ⟨merged, congrArg some same⟩

theorem sectioned_foldl {layers : List Setting} (fits : ∀ layer ∈ layers, Fits layer)
    {root : Setting} (sectioned : Sectioned root) :
    Sectioned (layers.foldl (fun below layer => layer.onto (some below)) root) := by
  induction layers generalizing root with
  | nil => exact sectioned
  | cons layer layers ih =>
      obtain ⟨first, others⟩ := List.forall_mem_cons.mp fits
      exact ih others (first.sectioned sectioned)

theorem sectioned_toSetting : Sectioned (toSetting {}) := by
  intro field
  cases field <;> exact ⟨_, rfl⟩

section

variable {environment : List (String × String)} (regular : Regular environment)

include regular

theorem regular_path {entry : String × String} (member : entry ∈ environment) {path : List String}
    (counts : path? entry.1 = some path) : ∀ group ∈ groups, ∀ behind, path = group :: behind →
      ∃ field : Field, path = field.path := by
  rintro group isGroup behind rfl
  exact regular entry member group isGroup behind counts

theorem fits_layers : ∀ layer ∈ Environment.layers environment, Fits layer := by
  intro layer member
  obtain ⟨entry, given, same⟩ := List.mem_filterMap.mp member
  obtain ⟨path, counts, rfl⟩ := Option.map_eq_some_iff.mp same
  exact fits_atPath (Environment.path_ne_nil counts) (regular_path regular given counts)

/-- The variables are laid in their order, so the last one of a path counts. -/
theorem at?_variables (root : Setting) (field : Field) :
    ((Environment.layers environment).foldl (fun below layer => layer.onto (some below)) root).at?
      field.path = (value? field.path environment).or (root.at? field.path) := by
  induction environment generalizing root with
  | nil => rfl
  | cons entry rest ih =>
      have others : Regular rest := fun entry member =>
        regular entry (List.mem_cons_of_mem _ member)
      rw [Environment.value?_cons]
      unfold Environment.layers at ih ⊢
      rw [List.filterMap_cons]
      cases counts : path? entry.1 with
      | none =>
          rw [if_neg nofun, Option.or_none]
          exact ih others root
      | some path =>
          have given := Environment.path_ne_nil counts
          have within := regular_path regular List.mem_cons_self counts
          have fits : Fits ((readValue entry.2).atPath path) := fits_atPath given within
          rw [Option.map_some, List.foldl_cons, ih others,
            Setting.at?_onto fits.tidy (fits.opens field), at?_atPath given within, Option.or_assoc,
            Option.bind_some]
          refine congrArg _ ?_
          by_cases same : path = field.path
          · rw [if_pos same, if_pos (congrArg some same), Option.map_some,
              Environment.readValue_onto]
          · rw [if_neg same, if_neg (fun whole => same (Option.some.inj whole))]
            rfl

variable {document : Setting} (fits : Fits document)

include fits

theorem sectioned_layers : Sectioned (layers document environment) := by
  have all : ∀ layer ∈ document :: Environment.layers environment, Fits layer :=
    List.forall_mem_cons.mpr ⟨fits, fits_layers regular⟩
  exact sectioned_foldl all sectioned_toSetting

/-- What a field comes to: the last variable of its path, or else what the file has there laid over
the default. -/
theorem at?_layers (field : Field) : (layers document environment).at? field.path =
    (value? field.path environment).or
      (((document.at? field.path).map fun found => found.onto (some field.base)).or
        (some field.base)) := by
  unfold layers Setting.layered
  rw [List.foldl_append, at?_variables regular]
  change (value? field.path environment).or
    ((document.onto (some (toSetting {}))).at? field.path) = _
  rw [Setting.at?_onto fits.tidy (fits.opens field), Option.bind_some, field.at?_toSetting]

end

end Config

end AccessPolicy

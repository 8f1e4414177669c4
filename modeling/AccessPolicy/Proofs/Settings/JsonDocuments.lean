/-
The settings that the reader of JSON makes are tidy: it puts the fields of an object into the order of their names, and
a name that comes again takes the place of the first one.
-/

import AccessPolicy.Json.Reader
import AccessPolicy.Proofs.Json.Scanning
import AccessPolicy.Proofs.Settings.Merging

namespace AccessPolicy.Json

theorem scanWord_flat {value found : Json} (flat : value.Flat) {length : Nat}
    {word rest : List Char} (scanned : (scanWord value length word rest).token = .scalar found) : found.Flat := by
  induction word generalizing rest with
  | nil =>
      cases scanned
      exact flat
  | cons expected word ih =>
      cases rest with
      | nil => cases scanned
      | cons c rest =>
          unfold scanWord at scanned
          split at scanned
          · exact ih scanned
          · cases scanned

theorem Numeric.flat {scanned : Scanned} {value : Json} (numeric : Numeric scanned)
    (scalar : scanned.token = .scalar value) : value.Flat := by
  rcases numeric with ⟨found, token, flat⟩ | ⟨failure, token⟩
  · rw [token] at scalar
    cases scalar
    exact flat
  · rw [token] at scalar
    cases scalar

theorem flat_null : Json.null.Flat := trivial

theorem flat_bool (value : Bool) : (Json.bool value).Flat := trivial

theorem scan_flat {c : Char} {rest : List Char} {value : Json}
    (scanned : (scan c rest).token = .scalar value) : value.Flat := by
  unfold scan at scanned
  split at scanned
  all_goals try cases scanned
  · unfold scanText at scanned
    split at scanned <;> cases scanned
  · exact scanWord_flat flat_null scanned
  · exact scanWord_flat (flat_bool true) scanned
  · exact scanWord_flat (flat_bool false) scanned
  · exact (scanNumber_numeric 0 rest true).flat scanned
  · split at scanned
    · exact (scanNumber_numeric 0 _ false).flat scanned
    · cases scanned

theorem tokens_flat {text : List Char} {value : Json} {left : Nat}
    (member : (.scalar value, left) ∈ tokens text) : value.Flat := by
  induction text using tokens.induct with
  | case1 =>
      rw [tokens] at member
      cases member
  | case2 c rest blank ih =>
      rw [tokens, if_pos blank] at member
      exact ih member
  | case3 c rest shown scanned ih =>
      rw [tokens, if_neg shown] at member
      rcases List.mem_cons.mp member with first | later
      · exact scan_flat (Prod.mk.inj first).1.symm
      · exact ih later

def Tidy (value : Json) : Prop := (Setting.ofJson value).Tidy

theorem Flat.tidy {value : Json} (flat : value.Flat) : value.Tidy := by
  apply Setting.tidy_of_entries_eq_nil
  cases value with
  | integer value =>
      unfold Setting.ofJson Setting.ofInteger
      split <;> rfl
  | object fields => exact flat.elim
  | _ => rfl

theorem ofFields_eq (fields : List (String × Json)) :
    Setting.ofFields fields = fields.map fun field => (field.1, Setting.ofJson field.2) := by
  induction fields with
  | nil => rfl
  | cons field fields ih => rw [Setting.ofFields, ih, List.map_cons]

def TidyFields (fields : List (String × Json)) : Prop := ∀ field ∈ fields, field.2.Tidy

theorem tidy_object {fields : List (String × Json)} (tidy : TidyFields fields) :
    Tidy (.object (sortFields fields)) := by
  unfold Tidy Setting.ofJson
  rw [ofFields_eq]
  refine Setting.tidy_table_iff.mpr ⟨?_, fun entry member => ?_⟩
  · unfold Distinct
    rw [List.map_map]
    exact (ascending_sortFields fields).distinct
  · obtain ⟨field, sorted, rfl⟩ := List.mem_map.mp member
    exact tidy field (mem_sortFields sorted)

theorem tidy_array (items : List Json) : (Json.array items).Tidy :=
  Setting.tidy_of_entries_eq_nil rfl

/-- The fields that are there by now of what is open. -/
def TidyOuter (outer : List Open) : Prop :=
  ∀ fields name, .object fields name ∈ outer → TidyFields fields

def TidyState : Expect → Prop
  | .value outer => TidyOuter outer
  | .listStart outer => TidyOuter outer
  | .item _ outer => TidyOuter outer
  | .listNext _ outer => TidyOuter outer
  | .objectStart outer => TidyOuter outer
  | .field fields outer => TidyFields fields ∧ TidyOuter outer
  | .objectNext fields outer => TidyFields fields ∧ TidyOuter outer
  | .colon fields _ outer => TidyFields fields ∧ TidyOuter outer
  | .finished value => value.Tidy

section

variable {value : Json} {fields : List (String × Json)} {name : String} {outer : List Open}
  {token : Token} {left : Nat} {expect next : Expect}

theorem tidyFields_nil : TidyFields [] := nofun

theorem tidyOuter_list (items : List Json) (around : TidyOuter outer) :
    TidyOuter (.list items :: outer) := by
  intro fields name member
  rcases List.mem_cons.mp member with same | inside
  · cases same
  · exact around fields name inside

theorem tidyOuter_object_iff :
    TidyOuter (.object fields name :: outer) ↔ TidyFields fields ∧ TidyOuter outer := by
  constructor
  · intro around
    exact ⟨around fields name List.mem_cons_self,
      fun others key member => around others key (List.mem_cons_of_mem _ member)⟩
  · rintro ⟨inside, around⟩ others key member
    rcases List.mem_cons.mp member with same | deeper
    · cases same
      exact inside
    · exact around others key deeper

theorem tidy_settle (tidy : value.Tidy) (around : TidyOuter outer) :
    TidyState (settle value outer) := by
  cases outer with
  | nil => exact tidy
  | cons frame outer =>
      cases frame with
      | list items =>
          exact fun fields name member => around fields name (List.mem_cons_of_mem _ member)
      | object fields name =>
          obtain ⟨inside, others⟩ := tidyOuter_object_iff.mp around
          exact ⟨List.forall_mem_cons.mpr ⟨tidy, inside⟩, others⟩

variable (flat : ∀ value, token = .scalar value → value.Flat)

include flat in
theorem tidy_startValue (around : TidyOuter outer)
    (starts : startValue outer token left = .ok next) : TidyState next := by
  unfold startValue at starts
  dsimp only at starts
  split at starts
  · cases starts
    exact tidy_settle (flat _ rfl).tidy around
  · rename_i text
    cases starts
    have plain : (Json.text text).Flat := trivial
    exact tidy_settle plain.tidy around
  · split at starts
    · cases starts
      exact around
    · cases starts
  · split at starts
    · cases starts
      exact around
    · cases starts
  all_goals cases starts

theorem tidy_startField (inside : TidyFields fields) (around : TidyOuter outer)
    (starts : startField fields outer token left = .ok next) : TidyState next := by
  unfold startField at starts
  split at starts
  · cases starts
    exact ⟨inside, around⟩
  all_goals cases starts

include flat in
theorem tidy_step (tidy : TidyState expect) (steps : step expect token left = .ok next) :
    TidyState next := by
  unfold step at steps
  dsimp only at steps
  split at steps
  · exact tidy_startValue flat tidy steps
  · cases steps
    exact tidy_settle (tidy_array _) tidy
  · exact tidy_startValue flat (tidyOuter_list _ tidy) steps
  · cases steps
  · exact tidy_startValue flat (tidyOuter_list _ tidy) steps
  · cases steps
    exact tidy_settle (tidy_array _) tidy
  · cases steps
    exact tidy
  · cases steps
  · cases steps
    exact tidy_settle (tidy_object tidyFields_nil) tidy
  · exact tidy_startField tidyFields_nil tidy steps
  · cases steps
  · exact tidy_startField tidy.1 tidy.2 steps
  · cases steps
    refine tidy_settle (tidy_object fun field member => ?_) tidy.2
    exact tidy.1 field (List.mem_reverse.mp member)
  · cases steps
    exact tidy
  · cases steps
  · cases steps
    exact tidyOuter_object_iff.mpr tidy
  · cases steps
  · cases steps

theorem tidy_run {tokens : List (Token × Nat)}
    (flat : ∀ value left, (.scalar value, left) ∈ tokens → value.Flat) (tidy : TidyState expect)
    (reads : run expect tokens = .ok value) : value.Tidy := by
  induction tokens generalizing expect with
  | nil =>
      unfold run finish at reads
      dsimp only at reads
      split at reads
      · cases reads
        exact tidy
      all_goals cases reads
  | cons entry rest ih =>
      obtain ⟨token, left⟩ := entry
      unfold run at reads
      split at reads
      · cases reads
      · rename_i next steps
        have first : ∀ value, token = .scalar value → value.Flat := by
          rintro value rfl
          exact flat value left List.mem_cons_self
        exact ih (fun value left member => flat value left (List.mem_cons_of_mem _ member))
          (tidy_step first tidy steps) reads

theorem tidy_of_read {text : String} (reads : read text = .ok value) : value.Tidy := by
  unfold read at reads
  split at reads
  · rename_i found outcome
    cases reads
    have start : TidyState (.value []) := nofun
    exact tidy_run (fun _ _ => tokens_flat) start outcome
  · cases reads

end

end AccessPolicy.Json

/-
Decisions as JSON objects. Each decision has one object of its own; an object is read as a decision exactly if that
object's fields are among its own, in whatever order they stand and whatever stands beside them.
-/

import AccessPolicy.Policy.Json
import AccessPolicy.Proofs.Json.Fields
import AccessPolicy.Proofs.Json.Rereading

namespace AccessPolicy.Decision

open Json (Mismatch Decoder Shape Slot)

def canonical (decision : Decision) : List (String × Json) :=
  ("type", .text decision.type.tag) :: decision.fields.map fun field => (field.1, .text field.2)

theorem distinct_canonical (decision : Decision) : Distinct decision.canonical := by
  cases decision with
  | permit => simp [Distinct, canonical, fields]
  | deny message code => simp [Distinct, canonical, fields]
  | notApplicable message => simp [Distinct, canonical, fields]

/-! ### The content -/

def contentNames : DecisionType → List String
  | .permit => []
  | .deny => ["message", "code"]
  | .notApplicable => ["message"]

theorem map_fst_fields (decision : Decision) :
    decision.fields.map Prod.fst = contentNames decision.type := by
  cases decision <;> rfl

def contentShape : DecisionType → Shape Draft
  | .permit => shape "Permit" []
  | .deny => shape "Deny" [messageSlot, codeSlot]
  | .notApplicable => shape "NotApplicable" [messageSlot]

theorem map_name_contentShape (type : DecisionType) :
    (contentShape type).fields.map Slot.name = contentNames type := by
  cases type <;> rfl

/-- The decision of a type with the texts that have been read. -/
def assemble (draft : Draft) : DecisionType → Except Mismatch Decision
  | .permit => .ok .permit
  | .deny => do
    return .deny (← Json.require "message" draft.message) (← Json.require "code" draft.code)
  | .notApplicable => do return .notApplicable (← Json.require "message" draft.message)

theorem readContent_eq (content : Json) (type : DecisionType) :
    readContent content type =
      (contentShape type).read {} content >>= fun draft => assemble draft type := by
  cases type with
  | permit =>
      unfold readContent contentShape
      cases (shape "Permit" []).read {} content <;> rfl
  | deny => rfl
  | notApplicable => rfl

def Draft.find? (draft : Draft) (name : String) : Option String :=
  if name = "message" then draft.message else if name = "code" then draft.code else none

def Draft.set (draft : Draft) (name text : String) : Draft :=
  if name = "message" then { draft with message := some text }
  else if name = "code" then { draft with code := some text }
  else draft

theorem mem_contentNames {type : DecisionType} {name : String} (known : name ∈ contentNames type) :
    name = "message" ∨ name = "code" := by
  cases type with
  | permit => exact absurd known List.not_mem_nil
  | deny => simpa [contentNames] using known
  | notApplicable => exact .inl (List.mem_singleton.mp known)

theorem Draft.find?_set (draft : Draft) {type : DecisionType} {name : String}
    (known : name ∈ contentNames type) (text other : String) :
    (draft.set name text).find? other = if other = name then some text else draft.find? other := by
  unfold find? set
  rcases mem_contentNames known with rfl | rfl
  · by_cases message : other = "message"
    · simp [message]
    · simp [message]
  · by_cases code : other = "code"
    · simp [code]
    · simp [code]

theorem assemble_eq_ok_iff {draft : Draft} {type : DecisionType} {decision : Decision} :
    assemble draft type = .ok decision ↔
      decision.type = type ∧ ∀ field ∈ decision.fields, draft.find? field.1 = some field.2 := by
  obtain ⟨message?, code?⟩ := draft
  cases type with
  | permit => cases decision <;> simp [assemble, fields, Decision.type]
  | deny =>
      cases message? with
      | none =>
          cases decision <;>
            simp [assemble, fields, Decision.type, Json.require, Draft.find?, bind, Except.bind]
      | some text =>
          cases code? <;> cases decision <;>
            simp [assemble, fields, Decision.type, Json.require, Draft.find?, bind, Except.bind,
              pure, Except.pure]
  | notApplicable =>
      cases message? <;> cases decision <;>
        simp [assemble, fields, Decision.type, Json.require, Draft.find?, bind, Except.bind, pure,
          Except.pure]

theorem putNamed_eq (type : DecisionType) (draft : Draft) (name : String) (value : Json) :
    (contentShape type).putNamed draft (name, value) =
      if name ∈ contentNames type then (Decoder.text value).map (draft.set name) else .ok draft := by
  by_cases message : name = "message"
  · subst message
    cases type <;> rfl
  · by_cases code : name = "code"
    · subst code
      cases type <;> rfl
    · have other : name ∉ contentNames type := fun known =>
        (mem_contentNames known).elim message code
      have missed : (contentShape type).fields.find? (fun slot => slot.name = name) = none := by
        rw [List.find?_eq_none]
        intro slot member same
        apply other
        rw [← map_name_contentShape, ← of_decide_eq_true same]
        exact List.mem_map_of_mem member
      rw [if_neg other, Shape.putNamed, missed]

/-- Whether the entries that count are texts, as `texts` has them. -/
def TextsOf (type : DecisionType) (texts : String → String) (entries : List (String × Json)) :
    Prop :=
  ∀ entry ∈ entries, entry.1 ∈ contentNames type → entry.2 = .text (texts entry.1)

theorem mem_names_cons {name other : String} (apart : other ≠ name) (value : Json)
    (entries : List (String × Json)) :
    other ∈ ((name, value) :: entries).map Prod.fst ↔ other ∈ entries.map Prod.fst := by
  rw [List.map_cons, List.mem_cons]
  exact or_iff_right apart

/-- Each text is read wherever it stands; what was read of it before counts no more. -/
theorem foldlM_of_textsOf {type : DecisionType} {texts : String → String}
    {entries : List (String × Json)} (textsOf : TextsOf type texts entries) (draft : Draft) :
    ∃ next, entries.foldlM (contentShape type).putNamed draft = .ok next ∧
      ∀ name ∈ contentNames type, next.find? name =
        if name ∈ entries.map Prod.fst then some (texts name) else draft.find? name := by
  induction entries generalizing draft with
  | nil => exact ⟨draft, rfl, fun name _ => by simp⟩
  | cons entry entries ih =>
      obtain ⟨name, value⟩ := entry
      have others : TextsOf type texts entries :=
        fun other member => textsOf other (List.mem_cons_of_mem _ member)
      rw [List.foldlM_cons, putNamed_eq]
      by_cases known : name ∈ contentNames type
      · have text : value = .text (texts name) := textsOf (name, value) List.mem_cons_self known
        obtain ⟨next, reads, found⟩ := ih others (draft.set name (texts name))
        refine ⟨next, by rw [if_pos known, text]; exact reads, fun other counts => ?_⟩
        rw [found other counts, Draft.find?_set draft known]
        by_cases same : other = name
        · simp [same]
        · rw [if_neg same, if_congr (mem_names_cons same value entries) rfl rfl]
      · obtain ⟨next, reads, found⟩ := ih others draft
        refine ⟨next, by rw [if_neg known]; exact reads, fun other counts => ?_⟩
        have apart : other ≠ name := fun same => known (same ▸ counts)
        rw [found other counts, if_congr (mem_names_cons apart value entries) rfl rfl]

theorem text_of_foldlM {type : DecisionType} {entries : List (String × Json)} {draft next : Draft}
    (reads : entries.foldlM (contentShape type).putNamed draft = .ok next) :
    ∀ entry ∈ entries, entry.1 ∈ contentNames type → ∃ text, entry.2 = .text text := by
  induction entries generalizing draft with
  | nil => nofun
  | cons entry entries ih =>
      obtain ⟨name, value⟩ := entry
      rw [List.foldlM_cons, putNamed_eq] at reads
      intro other member counts
      rcases List.mem_cons.mp member with rfl | later
      · rw [if_pos counts] at reads
        cases value with
        | text text => exact ⟨text, rfl⟩
        | _ => cases reads
      · split at reads
        · cases outcome : Decoder.text value with
          | error mismatch =>
              rw [outcome] at reads
              cases reads
          | ok text =>
              rw [outcome] at reads
              exact ih reads other later counts
        · exact ih reads other later counts

/-! ### The object -/

theorem readTag_eq_ok_iff {value : Json} {type : DecisionType} :
    readTag value = .ok type ↔ value = .text type.tag := by
  constructor
  · intro reads
    cases value with
    | text name =>
        cases found : DecisionType.tags.lookup name with
        | none =>
            rw [readTag, Decoder.variantNamed, found] at reads
            cases reads
        | some known =>
            rw [readTag, Decoder.variantNamed, found] at reads
            cases reads
            obtain ⟨before, after, shape, _⟩ := List.lookup_eq_some_iff.mp found
            have member : (name, type) ∈ DecisionType.tags := by simp [shape]
            obtain ⟨other, _, same⟩ := List.mem_map.mp member
            cases same
            rfl
    | _ => cases reads
  · rintro rfl
    cases type <;> rfl

section

variable {entries : List (String × Json)} (decision : Decision)

theorem require_eq_ok_iff {α : Type} {name : String} {found : Option α} {value : α} :
    Json.require name found = .ok value ↔ found = some value := by
  cases found <;> simp [Json.require]

/-- What has to be there for an object to be read as a decision. -/
theorem ofJson_object_eq_ok_iff : ofJson (.object entries) = .ok decision ↔
    entries.lookup "type" = some (.text decision.type.tag) ∧
      ∃ draft, entries.foldlM (contentShape decision.type).putNamed {} = .ok draft ∧
        ∀ field ∈ decision.fields, draft.find? field.1 = some field.2 := by
  simp only [ofJson, bind_eq_ok_iff, require_eq_ok_iff, readTag_eq_ok_iff, readContent_eq,
    assemble_eq_ok_iff, Shape.read]
  constructor
  · rintro ⟨tag, named, type, rfl, draft, reads, rfl, found⟩
    exact ⟨named, draft, reads, found⟩
  · rintro ⟨named, draft, reads, found⟩
    exact ⟨_, named, _, rfl, draft, reads, rfl, found⟩

def textUnder (entries : List (String × Json)) (name : String) : String :=
  match entries.lookup name with
  | some (.text text) => text
  | _ => ""

/-- An object is read as a decision exactly if the fields of the decision are among its own. -/
theorem ofJson_eq_ok_iff (distinct : Distinct entries) :
    ofJson (.object entries) = .ok decision ↔ ∀ field ∈ decision.canonical, field ∈ entries := by
  rw [ofJson_object_eq_ok_iff, distinct.lookup_eq_some_iff]
  unfold canonical
  rw [List.forall_mem_cons, List.forall_mem_map]
  refine and_congr_right fun _ => ⟨?_, fun among => ?_⟩
  · rintro ⟨draft, reads, found⟩ field member
    have counts : field.1 ∈ contentNames decision.type := by
      rw [← map_fst_fields]
      exact List.mem_map_of_mem member
    have textsOf : TextsOf decision.type (textUnder entries) entries := by
      rintro ⟨name, value⟩ present known
      obtain ⟨text, rfl⟩ := text_of_foldlM reads _ present known
      unfold textUnder
      rw [distinct.lookup_eq_some_iff.mpr present]
    obtain ⟨next, again, read⟩ := foldlM_of_textsOf textsOf {}
    obtain rfl : draft = next := Except.ok.inj (reads.symm.trans again)
    have shown := (read field.1 counts).symm.trans (found field member)
    by_cases present : field.1 ∈ entries.map Prod.fst
    · rw [if_pos present] at shown
      obtain ⟨⟨name, value⟩, entry, rfl⟩ := List.mem_map.mp present
      have text : value = .text (textUnder entries field.1) := textsOf _ entry counts
      rw [← Option.some.inj shown, ← text]
      exact entry
    · rw [if_neg present] at shown
      unfold Draft.find? at shown
      split_ifs at shown
  · have under (field : String × String) (member : field ∈ decision.fields) :
        entries.lookup field.1 = some (.text field.2) :=
      distinct.lookup_eq_some_iff.mpr (among field member)
    have textsOf : TextsOf decision.type (textUnder entries) entries := by
      rintro ⟨name, value⟩ present known
      rw [← map_fst_fields] at known
      obtain ⟨field, member, rfl⟩ := List.mem_map.mp known
      have text := (distinct.lookup_eq_some_iff.mpr present).symm.trans (under field member)
      unfold textUnder
      rw [under field member]
      exact Option.some.inj text
    obtain ⟨draft, reads, found⟩ := foldlM_of_textsOf textsOf {}
    refine ⟨draft, reads, fun field member => ?_⟩
    have counts : field.1 ∈ contentNames decision.type := by
      rw [← map_fst_fields]
      exact List.mem_map_of_mem member
    have present : field.1 ∈ entries.map Prod.fst :=
      List.mem_map.mpr ⟨_, among field member, rfl⟩
    rw [found field.1 counts, if_pos present, textUnder, under field member]

end

/-! ### Reading back -/

variable (decision : Decision)

theorem ofJson_toJson : ofJson decision.toJson = .ok decision :=
  (ofJson_eq_ok_iff decision decision.distinct_canonical).mpr fun _ member => member

theorem reread_toJson (turn : Json → Json) :
    decision.toJson.reread turn = .object (Json.sortFields decision.canonical) := by
  cases decision <;> rfl

theorem ofJson_sorted : ofJson (.object (Json.sortFields decision.canonical)) = .ok decision := by
  have same := Json.sortFields_perm decision.distinct_canonical
  rw [ofJson_eq_ok_iff decision (decision.distinct_canonical.perm same.symm)]
  exact fun field member => same.mem_iff.mpr member

theorem legible_toJson (turn : Json → Json) : decision.toJson.Legible turn := by
  cases decision with
  | permit => exact ⟨trivial, trivial⟩
  | deny message code => exact ⟨trivial, trivial, trivial, trivial⟩
  | notApplicable message => exact ⟨trivial, trivial, trivial⟩

theorem depth_toJson : decision.toJson.depth = 1 := by
  cases decision <;> rfl

theorem read_write :
    Json.read decision.toJson.write = .ok (.object (Json.sortFields decision.canonical)) := by
  rw [← reread_toJson decision id]
  apply Json.read_write
  · exact decision.legible_toJson id
  · rw [depth_toJson]
    decide

theorem write_injective : Function.Injective fun decision : Decision => decision.toJson.write := by
  intro left right same
  have texts : left.toJson.write = right.toJson.write := same
  have read := left.read_write
  rw [texts, right.read_write] at read
  have back := right.ofJson_sorted
  rw [Except.ok.inj read, left.ofJson_sorted] at back
  exact Except.ok.inj back

end AccessPolicy.Decision

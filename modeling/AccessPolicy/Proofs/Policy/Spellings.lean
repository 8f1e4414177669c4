/-
The spellings of a name. A text is lowered before it is compared with the names, and lower case reaches far beyond
ASCII. It makes an ASCII character of the kelvin sign, and several characters of some others; still no name is
spelled with any of them, because there is no k in a name, and what becomes of any other character is not all ASCII.
-/

import AccessPolicy.Policy.Algorithm
import Mathlib.Data.Bool.AllAny

namespace AccessPolicy

namespace Text

/-! ### Lower case -/

/-- A text and what it may be in lower case, as far as ASCII can tell: nothing is said of a character outside ASCII
but that it does not become ASCII alone, wherever it stands. -/
inductive Lowers : List Char → List Char → Prop
  | nil : Lowers [] []
  | ascii {c : Char} {text lowered : List Char} (within : c.toNat < 128)
      (behind : Lowers text lowered) : Lowers (c :: text) (c.toLower :: lowered)
  | kelvin {text lowered : List Char} (behind : Lowers text lowered) :
      Lowers (kelvinSign :: text) ('k' :: lowered)
  | foreign {c d : Char} {part text lowered : List Char} (outside : 128 ≤ c.toNat) (kept : d ∈ part)
      (still : 128 ≤ d.toNat) (behind : Lowers text lowered) : Lowers (c :: text) (part ++ lowered)

theorem toLower_of_foreign {c : Char} (outside : 128 ≤ c.toNat) : c.toLower = c := by
  have high : ¬(c.val ≥ 'A'.val ∧ c.val ≤ 'Z'.val) := by
    rintro ⟨-, small⟩
    have below : c.toNat ≤ 90 := UInt32.le_iff_toNat_le.mp small
    omega
  unfold Char.toLower
  rw [dif_neg high]

theorem lowerChar_of_ascii {c : Char} (within : c.toNat < 128) : lowerChar c = [c.toLower] := by
  have kelvin : c ≠ kelvinSign := by
    rintro rfl
    exact absurd within (by decide)
  have dotted : c ≠ dottedCapitalI := by
    rintro rfl
    exact absurd within (by decide)
  unfold lowerChar
  rw [if_neg kelvin, if_neg dotted]

theorem exists_foreign_of_lowerChar {c : Char} (outside : 128 ≤ c.toNat) (other : c ≠ kelvinSign) :
    ∃ d ∈ lowerChar c, 128 ≤ d.toNat := by
  unfold lowerChar
  rw [if_neg other]
  by_cases dotted : c = dottedCapitalI
  · rw [if_pos dotted]
    exact ⟨combiningDotAbove, by decide, by decide⟩
  · rw [if_neg dotted, toLower_of_foreign outside]
    exact ⟨c, List.mem_singleton_self c, outside⟩

theorem lowers_flatMap_lowerChar (text : List Char) : Lowers text (text.flatMap lowerChar) := by
  induction text with
  | nil => exact .nil
  | cons c text ih =>
      rw [List.flatMap_cons]
      by_cases within : c.toNat < 128
      · rw [lowerChar_of_ascii within]
        exact .ascii within ih
      · have outside : 128 ≤ c.toNat := Nat.le_of_not_lt within
        by_cases kelvin : c = kelvinSign
        · subst kelvin
          exact .kelvin ih
        · obtain ⟨d, kept, still⟩ := exists_foreign_of_lowerChar outside kelvin
          exact .foreign outside kept still ih

theorem lowers_map_toLower (text : List Char) : Lowers text (text.map Char.toLower) := by
  induction text with
  | nil => exact .nil
  | cons c text ih =>
      rw [List.map_cons]
      by_cases within : c.toNat < 128
      · exact .ascii within ih
      · have outside : 128 ≤ c.toNat := Nat.le_of_not_lt within
        rw [toLower_of_foreign outside]
        exact .foreign outside (List.mem_singleton_self c) outside ih

/-! ### Words -/

def replaced (old new c : Char) : Char := if c = old then new else c

/-- The text as it counts: ASCII letters have no case, and one sign is read as another one. -/
def spelling (old new : Char) (text : String) : String :=
  String.ofList (text.toList.map fun c => replaced old new c.toLower)

variable {old new : Char} {word : List Char}

theorem replaced_of_foreign (ascii : old.toNat < 128) {c : Char} (outside : 128 ≤ c.toNat) :
    replaced old new c = c := by
  refine if_neg ?_
  rintro rfl
  omega

theorem ne_of_foreign {c : Char} (plain : ∀ d ∈ word, d.toNat < 128) (outside : 128 ≤ c.toNat)
    {text : List Char} (member : c ∈ text) : text ≠ word := by
  rintro rfl
  have within := plain c member
  omega

/-- A word of ASCII characters without a k is in lower case what it is to ASCII alone. -/
theorem Lowers.map_eq_iff (ascii : old.toNat < 128) (keeps : replaced old new 'k' = 'k')
    (plain : ∀ c ∈ word, c.toNat < 128) (other : 'k' ∉ word) {text lowered : List Char}
    (lowers : Lowers text lowered) :
    lowered.map (replaced old new) = word ↔ text.map (fun c => replaced old new c.toLower) = word := by
  induction lowers generalizing word with
  | nil => exact Iff.rfl
  | @ascii c text lowered within behind ih =>
      cases word with
      | nil => exact iff_of_false (List.cons_ne_nil _ _) (List.cons_ne_nil _ _)
      | cons d word =>
          rw [List.map_cons, List.map_cons, List.cons.injEq, List.cons.injEq,
            ih (fun c member => plain c (List.mem_cons_of_mem _ member))
              fun member => other (List.mem_cons_of_mem _ member)]
  | @kelvin text lowered behind ih =>
      have outside : 128 ≤ kelvinSign.toNat := by decide
      refine iff_of_false ?_ (ne_of_foreign plain outside ?_)
      · rintro rfl
        apply other
        rw [List.map_cons, keeps]
        exact List.mem_cons_self
      · rw [List.map_cons, toLower_of_foreign outside, replaced_of_foreign ascii outside]
        exact List.mem_cons_self
  | @foreign c d part text lowered outside kept still behind ih =>
      refine iff_of_false (ne_of_foreign plain still ?_) (ne_of_foreign plain outside ?_)
      · rw [List.map_append, ← replaced_of_foreign ascii still]
        exact List.mem_append_left _ (List.mem_map_of_mem kept)
      · rw [List.map_cons, toLower_of_foreign outside, replaced_of_foreign ascii outside]
        exact List.mem_cons_self

theorem spelling_eq_iff {text name : String} : spelling old new text = name ↔
    text.toList.map (fun c => replaced old new c.toLower) = name.toList := by
  unfold spelling
  rw [← String.toList_inj, String.toList_ofList]

/-! ### Readers -/

variable {α : Type} {name : α → String} {unknown : String → Error} {read : String → Except Error α}

/-- How a reader of names goes about it: it lowers the text, replaces one sign and compares the result with each
name. -/
structure Compares (old new : Char) (name : α → String) (unknown : String → Error)
    (read : String → Except Error α) : Prop where
  outcome : ∀ text, let word := (lower text).toList.map (replaced old new)
    (∃ value, read text = .ok value ∧ word = (name value).toList) ∨
      read text = .error (unknown text) ∧ ∀ value, word ≠ (name value).toList
  distinct : Function.Injective name
  ascii : old.toNat < 128
  keepsK : replaced old new 'k' = 'k'
  plain : ∀ value, ∀ c ∈ (name value).toList, c.toNat < 128
  noK : ∀ value, 'k' ∉ (name value).toList
  own : ∀ value, spelling old new (name value) = name value

theorem outcome_of_three (name : α → String) (first second third : α)
    (all : ∀ value, value = first ∨ value = second ∨ value = third) (word : List Char) (error : Error) :
    let result : Except Error α :=
      if word = (name first).toList then .ok first
      else if word = (name second).toList then .ok second
      else if word = (name third).toList then .ok third
      else .error error
    (∃ value, result = .ok value ∧ word = (name value).toList) ∨
      result = .error error ∧ ∀ value, word ≠ (name value).toList := by
  intro result
  by_cases isFirst : word = (name first).toList
  · exact .inl ⟨first, if_pos isFirst, isFirst⟩
  · by_cases isSecond : word = (name second).toList
    · exact .inl ⟨second, (if_neg isFirst).trans (if_pos isSecond), isSecond⟩
    · by_cases isThird : word = (name third).toList
      · exact .inl ⟨third, (if_neg isFirst).trans ((if_neg isSecond).trans (if_pos isThird)), isThird⟩
      · refine .inr ⟨(if_neg isFirst).trans ((if_neg isSecond).trans (if_neg isThird)), fun value => ?_⟩
        rcases all value with rfl | rfl | rfl
        · exact isFirst
        · exact isSecond
        · exact isThird

/-- What such a reader takes: the spellings of its names and nothing else, and they are told by ASCII alone. -/
structure TakesSpellings (old new : Char) (name : α → String) (unknown : String → Error)
    (read : String → Except Error α) : Prop where
  taken : ∀ text value, read text = .ok value ↔ spelling old new text = name value
  refused : ∀ text, (∀ value, spelling old new text ≠ name value) → read text = .error (unknown text)
  foreign : ∀ text, ∀ c ∈ text.toList, 128 ≤ c.toNat → read text = .error (unknown text)
  again : ∀ text value, read text = .ok value → read (name value) = .ok value
  /-- Whatever the characters outside ASCII become in lower case, the reader takes the same texts. -/
  lowered : ∀ text lowered, Lowers text.toList lowered → ∀ value,
    read text = .ok value ↔ lowered.map (replaced old new) = (name value).toList

namespace Compares

theorem word_eq_iff (compares : Compares old new name unknown read) {text : String}
    {lowered : List Char} (lowers : Lowers text.toList lowered) (value : α) :
    (lower text).toList.map (replaced old new) = (name value).toList ↔
      lowered.map (replaced old new) = (name value).toList := by
  have ascii := compares.ascii
  have keeps := compares.keepsK
  have plain := compares.plain value
  have noK := compares.noK value
  unfold lower
  rw [String.toList_ofList,
    (lowers_flatMap_lowerChar text.toList).map_eq_iff ascii keeps plain noK,
    lowers.map_eq_iff ascii keeps plain noK]

theorem read_eq_ok_iff (compares : Compares old new name unknown read) {text : String}
    {lowered : List Char} (lowers : Lowers text.toList lowered) (value : α) :
    read text = .ok value ↔ lowered.map (replaced old new) = (name value).toList := by
  rw [← compares.word_eq_iff lowers]
  rcases compares.outcome text with ⟨other, reads, same⟩ | ⟨fails, apart⟩
  · rw [reads, same, String.toList_inj, compares.distinct.eq_iff, Except.ok.injEq]
  · rw [fails]
    exact iff_of_false nofun (apart value)

theorem read_eq_ok_iff_spelling (compares : Compares old new name unknown read) (text : String)
    (value : α) : read text = .ok value ↔ spelling old new text = name value := by
  rw [compares.read_eq_ok_iff (lowers_map_toLower text.toList), List.map_map, spelling_eq_iff]
  rfl

theorem refuses (compares : Compares old new name unknown read) {text : String}
    (apart : ∀ value, spelling old new text ≠ name value) : read text = .error (unknown text) := by
  rcases compares.outcome text with ⟨value, reads, -⟩ | ⟨fails, -⟩
  · exact absurd ((compares.read_eq_ok_iff_spelling text value).mp reads) (apart value)
  · exact fails

theorem spelling_ne_of_foreign (compares : Compares old new name unknown read) {text : String}
    {c : Char} (shown : c ∈ text.toList) (outside : 128 ≤ c.toNat) (value : α) :
    spelling old new text ≠ name value := by
  rw [Ne, spelling_eq_iff]
  have image := List.mem_map_of_mem (f := fun c => replaced old new c.toLower) shown
  rw [toLower_of_foreign outside, replaced_of_foreign compares.ascii outside] at image
  exact ne_of_foreign (compares.plain value) outside image

theorem takesSpellings (compares : Compares old new name unknown read) :
    TakesSpellings old new name unknown read where
  taken := compares.read_eq_ok_iff_spelling
  refused _ := compares.refuses
  foreign _ _ shown outside := compares.refuses (compares.spelling_ne_of_foreign shown outside)
  again _ value _ := (compares.read_eq_ok_iff_spelling (name value) value).mpr (compares.own value)
  lowered _ _ := compares.read_eq_ok_iff

end Compares

end Text

/-! ### Names -/

theorem Algorithm.parse_compares : Text.Compares '_' '-' name
    (fun text => .parse ("Unknown combining algorithm: " ++ text)) parse where
  outcome text := Text.outcome_of_three name permitOverride denyOverride firstApplicable
    (fun algorithm => by cases algorithm <;> decide) _ (.parse ("Unknown combining algorithm: " ++ text))
  distinct left right := by cases left <;> cases right <;> decide
  ascii := by decide
  keepsK := by decide
  plain algorithm := List.all_iff_forall_prop.mp (by cases algorithm <;> decide)
  noK algorithm := by cases algorithm <;> decide
  own algorithm := by cases algorithm <;> decide

theorem DecisionType.parse_compares : Text.Compares '-' '_' name
    (fun text => .parse ("Unknown decision type: " ++ text)) parse where
  outcome text := Text.outcome_of_three name permit deny notApplicable
    (fun type => by cases type <;> decide) _ (.parse ("Unknown decision type: " ++ text))
  distinct left right := by cases left <;> cases right <;> decide
  ascii := by decide
  keepsK := by decide
  plain type := List.all_iff_forall_prop.mp (by cases type <;> decide)
  noK type := by cases type <;> decide
  own type := by cases type <;> decide

/-- The names of algorithms and decision types are taken in their ASCII spellings and in no others. -/
theorem parsers_take_spellings :
    Text.TakesSpellings '_' '-' Algorithm.name
        (fun text => .parse ("Unknown combining algorithm: " ++ text)) Algorithm.parse ∧
      Text.TakesSpellings '-' '_' DecisionType.name
        (fun text => .parse ("Unknown decision type: " ++ text)) DecisionType.parse :=
  ⟨Algorithm.parse_compares.takesSpellings, DecisionType.parse_compares.takesSpellings⟩

/-- The dotted capital does not pass for an i, though its lower case begins with one. -/
example : DecisionType.parse "PERMİT" = .error (.parse "Unknown decision type: PERMİT") ∧
    DecisionType.parse "Not-Applicable" = .ok .notApplicable := ⟨rfl, rfl⟩

end AccessPolicy

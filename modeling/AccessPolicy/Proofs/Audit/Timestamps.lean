/-
Timestamps in their written form. A timestamp that has been read is a proper moment: it lies within the day and the
calendar, and a leap second only ends a minute. Every proper moment is read back from its text.
-/

import AccessPolicy.Proofs.Audit.Calendar
import AccessPolicy.Proofs.Json.Fields
import AccessPolicy.Proofs.Text.Numerals

namespace AccessPolicy.Timestamp

/-- What holds of every timestamp that has been read. -/
structure Proper (t : Timestamp) : Prop where
  second : t.second < 86400
  nanosecond : t.nanosecond < 2000000000
  /-- A leap second stands at the end of a minute. -/
  leap : 1000000000 ≤ t.nanosecond → t.second % 60 = 59
  year : hasYear (dateOfDays t.days).year = true

/-! ### Digits -/

def Stops (rest : List Char) : Prop := ∀ c ∈ rest.head?, Text.isDigit c = false

theorem takeWhile_digits {digits rest : List Char} (all : ∀ c ∈ digits, Text.isDigit c = true)
    (stops : Stops rest) : (digits ++ rest).takeWhile Text.isDigit = digits := by
  rw [List.takeWhile_append_of_pos all]
  cases rest with
  | nil => simp
  | cons c rest =>
      have other : Text.isDigit c = false := stops c rfl
      simp [other]

theorem readNumber_digits {most : Nat} {digits rest : List Char} (some : digits ≠ [])
    (all : ∀ c ∈ digits, Text.isDigit c = true) (short : digits.length ≤ most)
    (ends : digits.length = most ∨ Stops rest) :
    readNumber most (digits ++ rest) = .ok (Text.digitsValue digits, rest) := by
  have front : ((digits ++ rest).take most).takeWhile Text.isDigit = digits := by
    rw [List.take_append, List.take_of_length_le short]
    apply takeWhile_digits all
    intro c first
    rcases ends with full | stops
    · rw [full, Nat.sub_self, List.take_zero] at first
      cases first
    · apply stops c
      cases rest with
      | nil => rw [List.take_nil] at first; cases first
      | cons d rest =>
          cases length : most - digits.length with
          | zero =>
              rw [length] at first
              cases first
          | succ n =>
              rw [length] at first
              exact first
  obtain ⟨digit, others, rfl⟩ := List.exists_cons_of_ne_nil some
  unfold readNumber
  rw [front]
  simp

theorem toList_padded (width n : Nat) : (padded width n).toList =
    List.replicate (width - (Nat.toDigits 10 n).length) '0' ++ Nat.toDigits 10 n := by
  simp [padded]

theorem isDigit_of_mem_padded (width n : Nat) {c : Char} (member : c ∈ (padded width n).toList) :
    Text.isDigit c = true := by
  rw [toList_padded, List.mem_append] at member
  rcases member with zero | digit
  · rw [List.eq_of_mem_replicate zero]
    rfl
  · exact Text.isDigit_of_mem digit

theorem padded_ne_nil (width n : Nat) : (padded width n).toList ≠ [] := by
  rw [toList_padded]
  exact List.append_ne_nil_of_right_ne_nil _ Nat.toDigits_ne_nil

theorem digitsValue_padded (width n : Nat) : Text.digitsValue (padded width n).toList = n := by
  rw [toList_padded, Text.digitsValue_padded]

theorem length_padded {width n : Nat} (positive : 0 < width) (small : n < 10 ^ width) :
    (padded width n).toList.length = width := by
  have short := (Nat.length_toDigits_le_iff (by decide) positive).mpr small
  rw [toList_padded, List.length_append, List.length_replicate]
  omega

theorem readNumber_padded {width n : Nat} (positive : 0 < width) (small : n < 10 ^ width)
    (rest : List Char) : readNumber width ((padded width n).toList ++ rest) = .ok (n, rest) := by
  have length := length_padded positive small
  rw [readNumber_digits (padded_ne_nil width n) (fun _ => isDigit_of_mem_padded _ _) length.le
    (.inl length), digitsValue_padded]

theorem toList_mark {mark : String} {c : Char} (single : mark.toList = [c]) (text : String) :
    (mark ++ text).toList = c :: text.toList := by
  rw [String.toList_append, single, List.singleton_append]

/-! ### Blanks -/

/-- Nothing is skipped in front of a digit or a mark. -/
theorem skipWhiteSpace_cons {c : Char} (shown : Text.isWhiteSpace c = false) (rest : List Char) :
    Text.skipWhiteSpace (c :: rest) = c :: rest := by
  simp [Text.skipWhiteSpace, shown]

theorem isWhiteSpace_of_isDigit {c : Char} (digit : Text.isDigit c = true) :
    Text.isWhiteSpace c = false := by
  have bounds := Text.isDigit_bounds digit
  simp only [Text.isWhiteSpace, Text.whiteSpaceRanges, List.any_cons, List.any_nil, Bool.or_false,
    Bool.or_eq_false_iff, Bool.and_eq_false_iff, decide_eq_false_iff_not]
  omega

theorem skipWhiteSpace_padded (width n : Nat) (rest : List Char) :
    Text.skipWhiteSpace ((padded width n).toList ++ rest) = (padded width n).toList ++ rest := by
  obtain ⟨digit, others, shape⟩ := List.exists_cons_of_ne_nil (padded_ne_nil width n)
  have isDigit : Text.isDigit digit = true :=
    isDigit_of_mem_padded width n (by simp [shape])
  rw [shape, List.cons_append, skipWhiteSpace_cons (isWhiteSpace_of_isDigit isDigit)]

/-! ### Parts -/

theorem readLiteral_cons (literal : Char) (rest : List Char) :
    readLiteral literal (literal :: rest) = .ok rest := if_pos rfl

theorem readPart_eq_ok_iff {least most : Nat} {text : List Char} {part : Nat} {rest : List Char} :
    readPart least most text = .ok (part, rest) ↔
      readNumber 2 (Text.skipWhiteSpace text) = .ok (part, rest) ∧ least ≤ part ∧ part ≤ most := by
  unfold readPart
  simp only [bind_eq_ok_iff, unless_eq_ok_iff, Prod.exists]
  constructor
  · rintro ⟨found, behind, reads, inside, same⟩
    cases same
    simp only [Bool.or_eq_true, decide_eq_true_eq, not_or, Nat.not_lt] at inside
    exact ⟨reads, inside⟩
  · rintro ⟨reads, inside⟩
    refine ⟨part, rest, reads, ?_, rfl⟩
    simpa only [Bool.or_eq_true, decide_eq_true_eq, not_or, Nat.not_lt] using inside

theorem readPart_padded {least most n : Nat} (low : least ≤ n) (high : n ≤ most) (small : n < 100)
    (rest : List Char) : readPart least most ((padded 2 n).toList ++ rest) = .ok (n, rest) := by
  rw [readPart_eq_ok_iff, skipWhiteSpace_padded]
  exact ⟨readNumber_padded (by decide) small rest, low, high⟩

theorem stops_hyphen (rest : List Char) : Stops ('-' :: rest) := by
  intro c first
  cases first
  rfl

theorem readYear_digit {c : Char} (digit : Text.isDigit c = true) (rest : List Char) :
    readYear (c :: rest) = (readNumber 4 (c :: rest)).map fun (year, rest) => ((year : Int), rest) := by
  unfold readYear
  rw [skipWhiteSpace_cons (isWhiteSpace_of_isDigit digit)]
  split
  · rename_i same
    cases same
    cases digit
  · rename_i same
    cases same
    cases digit
  · rfl

/-- A year of more than four digits, or one before the year 0, has a sign. -/
theorem readYear_write (year : Int) (rest : List Char) :
    readYear ((writeYear year).toList ++ '-' :: rest) = .ok (year, '-' :: rest) := by
  have signed (n : Nat) : readNumber ((padded 4 n).toList ++ '-' :: rest).length
      ((padded 4 n).toList ++ '-' :: rest) = .ok (n, '-' :: rest) := by
    rw [readNumber_digits (padded_ne_nil 4 n) (fun _ => isDigit_of_mem_padded _ _)
      (by rw [List.length_append]; omega) (.inr (stops_hyphen rest)), digitsValue_padded]
  unfold writeYear
  split
  · rename_i plain
    simp only [Bool.and_eq_true, decide_eq_true_eq] at plain
    have reads : readNumber 4 ((padded 4 year.toNat).toList ++ '-' :: rest) =
        .ok (year.toNat, '-' :: rest) := readNumber_padded (by decide) (by omega) _
    obtain ⟨digit, others, shape⟩ := List.exists_cons_of_ne_nil (padded_ne_nil 4 year.toNat)
    have isDigit : Text.isDigit digit = true :=
      isDigit_of_mem_padded 4 year.toNat (by simp [shape])
    rw [shape, List.cons_append] at reads ⊢
    rw [readYear_digit isDigit, reads]
    change Except.ok ((year.toNat : Int), '-' :: rest) = _
    rw [Int.toNat_of_nonneg plain.1]
  · rename_i long
    simp only [Bool.and_eq_true, decide_eq_true_eq, not_and_or] at long
    split
    · rename_i negative
      rw [toList_mark (c := '-') rfl, List.cons_append]
      unfold readYear
      rw [skipWhiteSpace_cons rfl]
      simp only [signed]
      change Except.ok (-(year.natAbs : Int), '-' :: rest) = _
      congr 2
      omega
    · rw [toList_mark (c := '+') rfl, List.cons_append]
      unfold readYear
      rw [skipWhiteSpace_cons rfl]
      simp only [signed]
      change Except.ok ((year.natAbs : Int), '-' :: rest) = _
      congr 2
      omega

theorem readFraction_point {width n : Nat} (positive : 0 < width) (most : width ≤ 9)
    (small : n < 10 ^ width) :
    readFraction ('.' :: ((padded width n).toList ++ ['Z'])) = .ok (n * 10 ^ (9 - width), ['Z']) := by
  have length := length_padded positive small
  have stops : Stops ['Z'] := by
    intro c first
    cases first
    rfl
  have reads : readNumber 9 ((padded width n).toList ++ ['Z']) = .ok (n, ['Z']) := by
    rw [readNumber_digits (padded_ne_nil width n) (fun _ => isDigit_of_mem_padded _ _) (by omega)
      (.inr stops), digitsValue_padded]
  simp only [readFraction, reads, bind, Except.bind, List.length_append, length,
    Nat.add_sub_cancel]
  rfl

/-- The fraction of a second has as many groups of three digits as it needs. -/
theorem readFraction_write {nanosecond : Nat} (small : nanosecond < 1000000000) :
    readFraction ((writeFraction nanosecond).toList ++ ['Z']) = .ok (nanosecond, ['Z']) := by
  unfold writeFraction
  split
  · rename_i zero
    rw [zero]
    rfl
  · split
    · rw [toList_mark (c := '.') rfl, List.cons_append]
      rw [readFraction_point (by decide) (by decide) (by omega)]
      congr 2
      omega
    · split
      · rw [toList_mark (c := '.') rfl, List.cons_append]
        rw [readFraction_point (by decide) (by decide) (by omega)]
        congr 2
        omega
      · rw [toList_mark (c := '.') rfl, List.cons_append]
        rw [readFraction_point (by decide) (by decide) (by omega)]
        congr 2
        omega

/-! ### Moments -/

/-- The second as it is shown: the leap second is the sixtieth. -/
def shownSecond (t : Timestamp) : Nat := t.second % 60 + if 1000000000 ≤ t.nanosecond then 1 else 0

theorem toList_write (t : Timestamp) : t.write.toList =
    (writeYear (dateOfDays t.days).year).toList ++ '-' ::
      ((padded 2 (dateOfDays t.days).month).toList ++ '-' ::
        ((padded 2 (dateOfDays t.days).day).toList ++ 'T' ::
          ((padded 2 (t.second / 3600)).toList ++ ':' ::
            ((padded 2 (t.second / 60 % 60)).toList ++ ':' ::
              ((padded 2 t.shownSecond).toList ++
                ((writeFraction (t.nanosecond % 1000000000)).toList ++ ['Z'])))))) := by
  simp [write, shownSecond]

theorem shownSecond_le (t : Timestamp) : t.shownSecond ≤ 60 := by
  unfold shownSecond
  split <;> omega

section

variable {t : Timestamp} (proper : Proper t)

include proper

/-- The clock as it is shown leads back to the second and the nanosecond. -/
theorem Proper.ofLocal_eq :
    ofLocal (dateOfDays t.days) (t.second / 3600) (t.second / 60 % 60) t.shownSecond
      (t.nanosecond % 1000000000) 0 = t := by
  obtain ⟨second, nanosecond, leap, _⟩ := proper
  have clock : (t.second / 3600 * 3600 + t.second / 60 % 60 * 60 +
      if t.shownSecond = 60 then 59 else t.shownSecond) = t.second := by
    unfold shownSecond
    split_ifs <;> omega
  have whole : (t.nanosecond % 1000000000 + if t.shownSecond = 60 then 1000000000 else 0) =
      t.nanosecond := by
    unfold shownSecond
    split_ifs <;> omega
  have sameDay : (t.second : Int).fdiv 86400 = 0 := by
    rw [Int.fdiv_eq_ediv_of_nonneg _ (by decide)]
    omega
  have sameSecond : ((t.second : Int).fmod 86400).toNat = t.second := by
    rw [Int.fmod_eq_emod_of_nonneg _ (by decide)]
    omega
  unfold ofLocal
  simp only [clock, whole, sub_zero, daysOfDate_dateOfDays, sameDay, sameSecond, add_zero]

theorem Proper.read_write : read t.write = .ok t := by
  obtain ⟨monthLow, monthHigh⟩ := month_dateOfDays t.days
  obtain ⟨dayLow, dayHigh⟩ := day_dateOfDays t.days
  have second := proper.second
  have shown := t.shownSecond_le
  have days : (dateOfDays t.days).day ≤ 31 := by
    refine dayHigh.trans ?_
    unfold monthLength
    split <;> first | omega | (split <;> omega)
  simp only [read, bind_eq_ok_iff, unless_eq_ok_iff, Prod.exists, toList_write]
  refine ⟨_, _, readYear_write _ _, _, readLiteral_cons '-' _,
    _, _, readPart_padded monthLow monthHigh (by omega) _, _, readLiteral_cons '-' _,
    _, _, readPart_padded dayLow days (by omega) _, _, rfl,
    _, _, readPart_padded (by omega) (by omega) (by omega) _, _, readLiteral_cons ':' _,
    _, _, readPart_padded (by omega) (by omega) (by omega) _, _, readLiteral_cons ':' _,
    _, _, readPart_padded (by omega) shown (by omega) _,
    _, _, readFraction_write (by omega), _, _, rfl, ?_⟩
  refine ⟨nofun, by decide, Nat.not_lt.mpr dayHigh, ?_, ?_, ?_⟩
  · simp [proper.year]
  · rw [proper.ofLocal_eq]
    simp [proper.year]
  · rw [proper.ofLocal_eq]
    rfl

end

/-! ### What has been read -/

theorem readNumber_lt {most : Nat} {text rest : List Char} {n : Nat}
    (reads : readNumber most text = .ok (n, rest)) :
    n < 10 ^ (text.length - rest.length) ∧ text.length - rest.length ≤ most := by
  obtain ⟨digits, digitsDef⟩ : ∃ digits, digits = (text.take most).takeWhile Text.isDigit :=
    ⟨_, rfl⟩
  have short : digits.length ≤ (text.take most).length := by
    rw [digitsDef]
    exact (List.takeWhile_sublist _).length_le
  rw [List.length_take] at short
  have all : ∀ c ∈ digits, Text.isDigit c = true := by
    rw [digitsDef]
    exact List.all_eq_true.mp List.all_takeWhile
  unfold readNumber at reads
  rw [← digitsDef] at reads
  dsimp only at reads
  split at reads
  · cases reads
  · cases reads
  · cases reads
    rw [List.length_drop, Nat.sub_sub_self (by omega)]
    exact ⟨Text.digitsValue_lt all, by omega⟩

theorem readFraction_lt {text rest : List Char} {nanosecond : Nat}
    (reads : readFraction text = .ok (nanosecond, rest)) : nanosecond < 1000000000 := by
  unfold readFraction at reads
  split at reads
  · rename_i digits
    rw [bind_eq_ok_iff] at reads
    obtain ⟨⟨value, behind⟩, number, same⟩ := reads
    obtain ⟨small, short⟩ := readNumber_lt number
    obtain ⟨rfl, _⟩ := Prod.mk.inj (Except.ok.inj same)
    calc value * 10 ^ (9 - (digits.length - behind.length))
        < 10 ^ (digits.length - behind.length) * 10 ^ (9 - (digits.length - behind.length)) :=
          Nat.mul_lt_mul_of_pos_right small (Nat.pow_pos (by decide))
      _ = 10 ^ 9 := by rw [← Nat.pow_add, Nat.add_sub_cancel' short]
  · cases reads
    decide

/-- An offset is a number of whole minutes. -/
theorem readOffset_mod {text rest : List Char} {offset : Int}
    (reads : readOffset text = .ok (offset, rest)) : offset % 60 = 0 := by
  cases text with
  | nil => cases reads
  | cons c text =>
      unfold readOffset at reads
      dsimp only at reads
      split at reads
      · simp only [bind_eq_ok_iff, unless_eq_ok_iff, Prod.exists] at reads
        obtain ⟨hours, _, _, minutes, _, _, _, same⟩ := reads
        obtain ⟨rfl, _⟩ := Prod.mk.inj (Except.ok.inj same)
        simp only [Bool.false_eq_true, reduceIte]
        omega
      · split at reads
        · simp only [bind_eq_ok_iff, unless_eq_ok_iff, Prod.exists] at reads
          obtain ⟨hours, _, _, minutes, _, _, _, same⟩ := reads
          obtain ⟨rfl, _⟩ := Prod.mk.inj (Except.ok.inj same)
          simp only [reduceIte]
          omega
        · split at reads
          · cases reads
            rfl
          · split at reads
            · cases reads
              rfl
            · cases reads

theorem proper_of_read {text : String} {t : Timestamp} (reads : read text = .ok t) : Proper t := by
  simp only [read, bind_eq_ok_iff, unless_eq_ok_iff, Prod.exists, readPart_eq_ok_iff] at reads
  obtain ⟨year, _, _, _, _, month, _, _, _, _, day, _, _, _, _, hour, _, ⟨_, _, hours⟩, _, _, minute,
    _, ⟨_, _, minutes⟩, _, _, second, _, ⟨_, _, seconds⟩, nanosecond, _, fraction, offset, _, shift,
    _, _, _, _, inCalendar, same⟩ := reads
  obtain rfl := Except.ok.inj same
  have small := readFraction_lt fraction
  have whole := readOffset_mod shift
  constructor
  · unfold ofLocal
    dsimp only
    rw [Int.fmod_eq_emod_of_nonneg _ (by decide)]
    omega
  · unfold ofLocal
    dsimp only
    split <;> omega
  · unfold ofLocal
    dsimp only
    rw [Int.fmod_eq_emod_of_nonneg _ (by decide)]
    intro leap
    have sixty : second = 60 := by
      by_contra other
      rw [if_neg other] at leap
      omega
    rw [if_pos sixty]
    omega
  · simpa using inCalendar

end AccessPolicy.Timestamp

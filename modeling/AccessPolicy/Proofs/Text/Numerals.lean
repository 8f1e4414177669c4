/-
What is written in digits. The digits of a number, with zeros in front of them or not, stand for that number again;
the text of a double starts with a digit unless the double has a sign or a name.
-/

import AccessPolicy.Text.FloatText
import AccessPolicy.Json.Token
import Mathlib.Data.List.Basic
import Mathlib.Data.List.Induction
import Mathlib.Tactic.IntervalCases

namespace AccessPolicy.Text

/-! ### Decimal digits -/

theorem digitsValue_eq (digits : List Char) : digitsValue digits = Nat.ofDigitChars 10 digits 0 :=
  Nat.ofDigitChars_eq_foldl.symm

theorem isDigit_of_mem {n : Nat} {c : Char} (shown : c ∈ Nat.toDigits 10 n) : isDigit c = true :=
  Nat.isDigit_of_mem_toDigits (by decide) (by decide) shown

theorem digitsValue_toDigits (n : Nat) : digitsValue (Nat.toDigits 10 n) = n := by
  rw [digitsValue_eq, Nat.ofDigitChars_ten_toDigits]

theorem isDigit_bounds {c : Char} (digit : isDigit c = true) : 48 ≤ c.toNat ∧ c.toNat ≤ 57 := by
  simpa [isDigit, Char.le_def, UInt32.le_iff_toNat_le] using digit

theorem digitValue_le {digit : Char} (isDigit : Text.isDigit digit = true) : digitValue digit ≤ 9 := by
  have bounds := isDigit_bounds isDigit
  change digit.toNat - 48 ≤ 9
  omega

theorem digitsValue_lt {digits : List Char} (all : ∀ c ∈ digits, isDigit c = true) :
    digitsValue digits < 10 ^ digits.length := by
  induction digits using List.reverseRecOn with
  | nil => exact Nat.one_pos
  | append_singleton digits digit ih =>
      rw [List.forall_mem_append] at all
      have smaller := ih all.1
      have last := digitValue_le (all.2 digit (List.mem_singleton_self digit))
      unfold digitsValue at smaller ⊢
      rw [List.foldl_append, List.length_append, List.length_singleton, Nat.pow_succ]
      simp only [List.foldl_cons, List.foldl_nil]
      omega

theorem digitsValue_padded (zeros n : Nat) :
    digitsValue (List.replicate zeros '0' ++ Nat.toDigits 10 n) = n := by
  rw [digitsValue_eq, Nat.ofDigitChars_append, Nat.ofDigitChars_replicate_zero, Nat.mul_zero,
    Nat.ofDigitChars_ten_toDigits]

theorem exists_toDigits (n : Nat) :
    ∃ digit rest, Nat.toDigits 10 n = digit :: rest ∧ isDigit digit = true := by
  obtain ⟨digit, rest, shape⟩ := List.exists_cons_of_ne_nil (Nat.toDigits_ne_nil (n := n) (b := 10))
  exact ⟨digit, rest, shape, isDigit_of_mem (n := n) (by simp [shape])⟩

theorem integer_starts (value : Int) : ∃ c rest, (integer value).toList = c :: rest ∧
    (c = '-' ∨ isDigit c = true) := by
  cases value with
  | ofNat n =>
      obtain ⟨digit, rest, shape, isDigit⟩ := exists_toDigits n
      exact ⟨digit, rest, by simp [integer, natural, shape], .inr isDigit⟩
  | negSucc n =>
      exact ⟨'-', Nat.toDigits 10 (n + 1), by simp [integer, natural], .inl rfl⟩

theorem readNatural?_toDigits (n : Nat) : readNatural? (Nat.toDigits 10 n) = some n := by
  unfold readNatural?
  have some : (Nat.toDigits 10 n).isEmpty = false := by
    rw [List.isEmpty_eq_false_iff]
    exact Nat.toDigits_ne_nil
  have all : (Nat.toDigits 10 n).all isDigit = true := by
    rw [List.all_eq_true]
    exact fun _ => isDigit_of_mem
  rw [some, all, digitsValue_toDigits]
  rfl

theorem readInteger?_integer (value : Int) : readInteger? (integer value).toList = some value := by
  cases value with
  | ofNat n =>
      obtain ⟨digit, rest, shape, isDigit⟩ := exists_toDigits n
      have written : (integer (.ofNat n)).toList = Nat.toDigits 10 n := by simp [integer, natural]
      rw [written]
      unfold readInteger?
      split
      · rename_i behind same
        rw [shape] at same
        cases same
        cases isDigit
      · rename_i behind same
        rw [shape] at same
        cases same
        cases isDigit
      · rw [readNatural?_toDigits]
        rfl
  | negSucc n =>
      have written : (integer (.negSucc n)).toList = '-' :: Nat.toDigits 10 (n + 1) := by
        simp [integer, natural]
      rw [written, readInteger?, readNatural?_toDigits]
      rfl

/-! ### Hexadecimal digits -/

/-- The number that hexadecimal digits stand for. -/
def hexValueOf (digits : List Char) : Nat :=
  digits.foldl (fun value digit => 16 * value + (Json.hexValue? digit).getD 0) 0

theorem hexValue?_digitChar {n : Nat} (small : n < 16) : Json.hexValue? n.digitChar = some n := by
  interval_cases n <;> rfl

theorem hexValueOf_toDigits (n : Nat) : hexValueOf (Nat.toDigits 16 n) = n := by
  induction n using Nat.strongRecOn with
  | _ n ih =>
      by_cases small : n < 16
      · rw [Nat.toDigits_of_lt_base small]
        simp [hexValueOf, hexValue?_digitChar small]
      · have smaller : hexValueOf (Nat.toDigits 16 (n / 16)) = n / 16 := ih _ (by omega)
        unfold hexValueOf at smaller ⊢
        rw [Nat.toDigits_of_base_le (by decide) (by omega), List.foldl_append, smaller]
        simp only [List.foldl_cons, List.foldl_nil,
          hexValue?_digitChar (Nat.mod_lt n (by decide : 0 < 16)), Option.getD_some]
        omega

theorem hexValueOf_padded (zeros n : Nat) :
    hexValueOf (List.replicate zeros '0' ++ Nat.toDigits 16 n) = n := by
  induction zeros with
  | zero => exact hexValueOf_toDigits n
  | succ zeros ih => exact ih

theorem hexValue?_of_mem {n : Nat} {c : Char} (shown : c ∈ Nat.toDigits 16 n) :
    (Json.hexValue? c).isSome = true := by
  induction n using Nat.strongRecOn with
  | _ n ih =>
      by_cases small : n < 16
      · rw [Nat.toDigits_of_lt_base small, List.mem_singleton] at shown
        rw [shown, hexValue?_digitChar small, Option.isSome_some]
      · rw [Nat.toDigits_of_base_le (by decide) (by omega), List.mem_append] at shown
        rcases shown with earlier | last
        · exact ih _ (by omega) earlier
        · rw [List.mem_singleton.mp last, hexValue?_digitChar (Nat.mod_lt n (by decide)),
            Option.isSome_some]

/-! ### Doubles -/

theorem search_digits (interval : Shortest.Interval) (tie : Shortest.Tie) (count : Nat)
    (exponent : Int) :
    ∃ n, (Shortest.search interval tie count exponent).digits = Nat.toDigits 10 n := by
  induction count generalizing exponent with
  | zero => exact ⟨0, rfl⟩
  | succ count ih =>
      unfold Shortest.search
      cases interval.gridPoint? tie exponent with
      | none => exact ih _
      | some point => exact ⟨point, rfl⟩

theorem binary_digits (binary : Shortest.Binary) (tie : Shortest.Tie) :
    ∃ digit rest, (binary.digits tie).digits = digit :: rest ∧ isDigit digit = true := by
  obtain ⟨n, shown⟩ := search_digits binary.interval tie _ _
  obtain ⟨digit, rest, shape, isDigit⟩ := exists_toDigits n
  exact ⟨digit, rest, shown.trans shape, isDigit⟩

namespace FloatForm

variable (form : FloatForm)

theorem pointed_starts {d : Shortest.Digits} {digit : Char} {rest : List Char}
    (shape : d.digits = digit :: rest) (isDigit : Text.isDigit digit = true) :
    ∃ c more, form.pointed d = c :: more ∧ Text.isDigit c = true := by
  by_cases small : d.leading < 0
  · exact ⟨'0', _, if_pos small, rfl⟩
  · unfold pointed
    rw [if_neg small]
    simp only [shape, List.take_succ_cons, List.cons_append]
    split
    · split
      · exact ⟨digit, _, rfl, isDigit⟩
      · exact ⟨digit, _, rfl, isDigit⟩
    · exact ⟨digit, _, rfl, isDigit⟩

theorem finite_starts (binary : Shortest.Binary) :
    ∃ c more, form.finite binary = c :: more ∧ Text.isDigit c = true := by
  obtain ⟨digit, rest, shape, isDigit⟩ := binary_digits binary form.tie
  unfold finite
  cases form.positional with
  | none => exact form.pointed_starts shape isDigit
  | some range =>
      simp only
      split_ifs
      · exact form.pointed_starts shape isDigit
      · unfold scientific
        rw [shape]
        cases rest with
        | nil => exact ⟨digit, _, rfl, isDigit⟩
        | cons next rest => exact ⟨digit, _, rfl, isDigit⟩

end FloatForm

end AccessPolicy.Text

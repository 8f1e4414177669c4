/-
Text without ASCII control characters. A quoted text is plain whatever it quotes, for each of its characters
is shown as it is only if it is not one of them; numbers are made of digits, signs, points and letters.
-/

import AccessPolicy.Proofs.Text.Numerals
import AccessPolicy.Text.Quoted

namespace AccessPolicy.Text

/-- The control characters of ASCII, the newline and the tab among them. -/
def isControl (c : Char) : Bool := c.toNat < 0x20 || c.toNat = 0x7f

def Plain (text : List Char) : Prop := ∀ c ∈ text, isControl c = false

instance (text : List Char) : Decidable (Plain text) :=
  List.decidableBAll (fun c => isControl c = false) text

@[simp]
theorem plain_nil : Plain [] := nofun

@[simp]
theorem plain_cons {c : Char} {rest : List Char} :
    Plain (c :: rest) ↔ isControl c = false ∧ Plain rest :=
  List.forall_mem_cons

@[simp]
theorem plain_append {left right : List Char} : Plain (left ++ right) ↔ Plain left ∧ Plain right :=
  List.forall_mem_append

theorem plain_toList_append {left right : String} :
    Plain (left ++ right).toList ↔ Plain left.toList ∧ Plain right.toList := by
  rw [String.toList_append, plain_append]

theorem Plain.not_mem {text : List Char} (plain : Plain text) {c : Char}
    (control : isControl c = true) : c ∉ text := by
  intro member
  rw [plain c member] at control
  cases control

theorem Plain.replicate (count : Nat) {c : Char} (shown : isControl c = false) :
    Plain (List.replicate count c) := by
  intro other member
  rw [(List.mem_replicate.mp member).2]
  exact shown

theorem Plain.intercalate {separator : List Char} (between : Plain separator)
    {pieces : List (List Char)} (each : ∀ piece ∈ pieces, Plain piece) :
    Plain (separator.intercalate pieces) := by
  induction pieces with
  | nil => exact plain_nil
  | cons piece rest ih =>
      rw [List.forall_mem_cons] at each
      cases rest with
      | nil =>
          rw [List.intercalate_singleton]
          exact each.1
      | cons next rest =>
          rw [List.intercalate_cons_cons, plain_append, plain_append]
          exact ⟨⟨each.1, between⟩, ih each.2⟩

/-! ### Numbers -/

theorem isControl_of_isDigit {c : Char} (digit : isDigit c = true) : isControl c = false := by
  have bounds := isDigit_bounds digit
  simp only [isControl, Bool.or_eq_false_iff, decide_eq_false_iff_not]
  omega

theorem plain_toDigits (n : Nat) : Plain (Nat.toDigits 10 n) :=
  fun _ shown => isControl_of_isDigit (isDigit_of_mem shown)

theorem plain_natural (n : Nat) : Plain (natural n).toList := by
  rw [natural, String.toList_ofList]
  exact plain_toDigits n

theorem plain_integer (value : Int) : Plain (integer value).toList := by
  cases value with
  | ofNat n => exact plain_natural n
  | negSucc n =>
      rw [integer, plain_toList_append]
      exact ⟨by decide, plain_natural (n + 1)⟩

theorem isControl_of_hexValue? {c : Char} (digit : (Json.hexValue? c).isSome = true) :
    isControl c = false := by
  -- The letters are between the space and the delete character, as the digits are.
  have letters : 'a' ≤ c ∧ c ≤ 'f' ∨ 'A' ≤ c ∧ c ≤ 'F' → isControl c = false := by
    simp only [isControl, Char.le_def, UInt32.le_iff_toNat_le, Bool.or_eq_false_iff,
      decide_eq_false_iff_not]
    change 97 ≤ c.toNat ∧ c.toNat ≤ 102 ∨ 65 ≤ c.toNat ∧ c.toNat ≤ 70 → _
    omega
  unfold Json.hexValue? at digit
  split at digit
  · rename_i decimal
    exact isControl_of_isDigit decimal
  · split at digit
    · rename_i small
      exact letters (.inl (by simpa using small))
    · split at digit
      · rename_i capital
        exact letters (.inr (by simpa using capital))
      · cases digit

theorem plain_hexadecimal (n : Nat) : Plain (Nat.toDigits 16 n) :=
  fun _ shown => isControl_of_hexValue? (hexValue?_of_mem shown)

/-! ### Doubles -/

theorem plain_digits (binary : Shortest.Binary) (tie : Shortest.Tie) :
    Plain (binary.digits tie).digits := by
  obtain ⟨n, shown⟩ := search_digits binary.interval tie _ _
  have digits : (binary.digits tie).digits = Nat.toDigits 10 n := shown
  rw [digits]
  exact plain_toDigits n

namespace FloatForm

variable (form : FloatForm)

theorem plain_zeros (count : Nat) : Plain (zeros count) := .replicate count (by decide)

theorem plain_pointed {d : Shortest.Digits} (digits : Plain d.digits) : Plain (form.pointed d) := by
  unfold pointed
  split
  · rw [List.cons_append, List.cons_append, plain_cons, plain_cons, plain_append]
    exact ⟨by decide, by decide, plain_zeros _, digits⟩
  · have whole (places : Nat) :
        Plain (d.digits.take places ++ zeros (places - d.digits.length)) :=
      plain_append.mpr ⟨fun c member => digits c (List.mem_of_mem_take member), plain_zeros _⟩
    dsimp only
    split
    · split
      · exact plain_append.mpr ⟨whole _, by decide⟩
      · exact whole _
    · have fraction : Plain (d.digits.drop (d.leading.toNat + 1)) :=
        fun c member => digits c (List.mem_of_mem_drop member)
      exact plain_append.mpr ⟨whole _, plain_cons.mpr ⟨by decide, fraction⟩⟩

theorem plain_scientific {d : Shortest.Digits} (digits : Plain d.digits) : Plain (scientific d) := by
  have exponent : Plain ('e' :: (integer d.leading).toList) :=
    plain_cons.mpr ⟨by decide, plain_integer d.leading⟩
  unfold scientific
  dsimp only
  split
  · exact exponent
  · rename_i digit shape
    rw [shape] at digits
    exact plain_cons.mpr ⟨(plain_cons.mp digits).1, exponent⟩
  · rename_i digit rest _ shape
    rw [shape, plain_cons] at digits
    rw [List.cons_append, List.cons_append, plain_cons, plain_cons, plain_append]
    exact ⟨digits.1, by decide, digits.2, exponent⟩

theorem plain_finite (binary : Shortest.Binary) : Plain (form.finite binary) := by
  have digits := plain_digits binary form.tie
  unfold finite
  dsimp only
  split
  · exact form.plain_pointed digits
  · split
    · exact form.plain_pointed digits
    · exact plain_scientific digits

theorem plain_sign (negative : Bool) : Plain (sign negative) := by
  cases negative <;> decide

theorem plain_write (x : Float) : Plain (form.write x).toList := by
  rw [write, String.toList_ofList]
  cases Shortest.classify x with
  | nan => exact (by decide : Plain ['N', 'a', 'N'])
  | infinite negative => exact plain_append.mpr ⟨plain_sign negative, by decide⟩
  | zero negative =>
      refine plain_append.mpr ⟨plain_sign negative, ?_⟩
      split <;> decide
  | finite negative binary =>
      exact plain_append.mpr ⟨plain_sign negative, form.plain_finite binary⟩

end FloatForm

/-! ### Quoted text -/

theorem isControl_of_isShown {c : Char} (shown : isShown c = true) : isControl c = false := by
  unfold isShown at shown
  unfold isControl
  split at shown
  · rw [Bool.and_eq_true, decide_eq_true_eq, decide_eq_true_eq] at shown
    rw [Bool.or_eq_false_iff, decide_eq_false_iff_not, decide_eq_false_iff_not]
    exact ⟨Nat.not_lt.mpr shown.1, shown.2⟩
  · rw [Bool.or_eq_false_iff, decide_eq_false_iff_not, decide_eq_false_iff_not]
    omega

theorem plain_codePoint (c : Char) : Plain (codePoint c) := by
  rw [codePoint, List.cons_append, List.cons_append, List.cons_append, plain_cons, plain_cons,
    plain_cons, plain_append]
  exact ⟨by decide, by decide, by decide, plain_hexadecimal c.toNat, by decide⟩

/-- Whatever the character is: if it is a control character it is not shown as it is. -/
theorem plain_escapeChar {quote : Char} (shown : isControl quote = false) (c : Char) :
    Plain (escapeChar quote c) := by
  unfold escapeChar
  split
  · rename_i marked
    have plain : isControl c = false := by
      rw [Bool.or_eq_true, decide_eq_true_eq, decide_eq_true_eq] at marked
      rcases marked with same | same
      · rw [same]
        exact shown
      · rw [same]
        rfl
    exact plain_cons.mpr ⟨by decide, plain_cons.mpr ⟨plain, plain_nil⟩⟩
  -- Each of the named escapes is a backslash and a letter or a digit.
  iterate 4
    split
    · decide
  split
  · rename_i asIs
    exact plain_cons.mpr ⟨isControl_of_isShown asIs, plain_nil⟩
  · exact plain_codePoint c

theorem plain_quote (text : String) : Plain (quote text).toList := by
  rw [quote, String.toList_ofList, List.cons_append, plain_cons, plain_append]
  refine ⟨by decide, fun c member => ?_, by decide⟩
  obtain ⟨own, _, shown⟩ := List.mem_flatMap.mp member
  exact plain_escapeChar (by decide) own c shown

theorem plain_quoteChar (c : Char) : Plain (quoteChar c).toList := by
  rw [quoteChar, String.toList_ofList, List.cons_append, plain_cons, plain_append]
  exact ⟨by decide, plain_escapeChar (by decide) c, by decide⟩

end AccessPolicy.Text

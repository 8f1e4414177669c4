/-
Scanning what has been written. A quoted text comes back character by character, whatever its characters are.
A number comes back in front of a comma or a closing bracket just as it does alone.
-/

import AccessPolicy.Json.Token
import AccessPolicy.Json.Writer
import Mathlib.Data.List.Basic
import Mathlib.Tactic.IntervalCases

namespace AccessPolicy.Json

/-! ### Texts -/

def codeEscape (code : Nat) : List Char :=
  if code < 0x10 then ['u', '0', '0', '0'] ++ Nat.toDigits 16 code
  else ['u', '0', '0'] ++ Nat.toDigits 16 code

theorem codeEscape_eq {code : Nat} (control : code < 0x20) :
    ∃ high low, codeEscape code = ['u', '0', '0', high, low] ∧
      hexValue? high = some (code / 16) ∧ hexValue? low = some (code % 16) := by
  interval_cases code <;> exact ⟨_, _, rfl, rfl, rfl⟩

theorem readUnit_of_digits {a b c d : Char} {w x y z : Nat} (first : hexValue? a = some w)
    (second : hexValue? b = some x) (third : hexValue? c = some y) (fourth : hexValue? d = some z)
    (rest : List Char) :
    readUnit (a :: b :: c :: d :: rest) = .ok (16 * (16 * (16 * w + x) + y) + z) := by
  simp [readUnit, first, second, third, fourth]

theorem readUnitPair_of_small {rest : List Char} {unit : Nat} (read : readUnit rest = .ok unit)
    (small : unit < 0xd800) : readUnitPair rest = .ok (Char.ofNat unit, 4) := by
  have below : ¬ (0xdc00 ≤ unit) := by omega
  simp [readUnitPair, read, below, small, bind, Except.bind]

section

variable (c : Char) (rest : List Char)

/-- What has been read when one more character is read in front of it. -/
def Preceded (length : Nat) (read : Except Failure (List Char × Nat)) :
    Except Failure (List Char × Nat) :=
  read.map fun (chars, more) => (c :: chars, more + length)

theorem readText_escape (escape : List Char)
    (read : readEscape (escape ++ rest) = .ok (c, escape.length)) :
    readText ('\\' :: escape ++ rest) = Preceded c (escape.length + 1) (readText rest) := by
  rw [List.cons_append, readText]
  simp only [read, bind, Except.bind]
  rw [List.drop_left]
  cases readText rest with
  | error failure => rfl
  | ok found => rfl

theorem readText_plain (quote : c ≠ '"') (backslash : c ≠ '\\') (visible : 0x20 ≤ c.toNat) :
    readText (c :: rest) = Preceded c 1 (readText rest) := by
  rw [readText]
  · rw [if_neg (by omega)]
    simp only [bind, Except.bind]
    cases readText rest with
    | error failure => rfl
    | ok found => rfl
  · exact quote
  · exact backslash

theorem readEscape_code {code : Nat} (control : code < 0x20) :
    readEscape (codeEscape code ++ rest) = .ok (Char.ofNat code, (codeEscape code).length) := by
  obtain ⟨high, low, shape, first, second⟩ := codeEscape_eq control
  have unit : readUnit (['0', '0', high, low] ++ rest) = .ok code := by
    have value : 16 * (16 * (16 * 0 + 0) + code / 16) + code % 16 = code := by omega
    rw [← value]
    exact readUnit_of_digits rfl rfl first second rest
  rw [shape]
  change (readUnitPair (['0', '0', high, low] ++ rest)).map _ = _
  rw [readUnitPair_of_small unit (by omega)]
  rfl

/-- A character is written by a letter, as itself or by its code. -/
theorem escapeChar_cases :
    (∃ letter, escapeChar c = ['\\', letter] ∧ readEscape (letter :: rest) = .ok (c, 1)) ∨
      (escapeChar c = [c] ∧ c ≠ '"' ∧ c ≠ '\\' ∧ 0x20 ≤ c.toNat) ∨
      (escapeChar c = '\\' :: codeEscape c.toNat ∧ c.toNat < 0x20) := by
  unfold escapeChar
  split_ifs with mark backspace feed newline ret tab small control
  · rcases (by simpa using mark : c = '"' ∨ c = '\\') with rfl | rfl
    · exact .inl ⟨_, rfl, rfl⟩
    · exact .inl ⟨_, rfl, rfl⟩
  · subst backspace
    exact .inl ⟨_, rfl, rfl⟩
  · subst feed
    exact .inl ⟨_, rfl, rfl⟩
  · subst newline
    exact .inl ⟨_, rfl, rfl⟩
  · subst ret
    exact .inl ⟨_, rfl, rfl⟩
  · subst tab
    exact .inl ⟨_, rfl, rfl⟩
  · have written : codeEscape c.toNat = ['u', '0', '0', '0'] ++ Nat.toDigits 16 c.toNat :=
      if_pos small
    exact .inr (.inr ⟨by rw [written]; rfl, by omega⟩)
  · have written : codeEscape c.toNat = ['u', '0', '0'] ++ Nat.toDigits 16 c.toNat :=
      if_neg small
    exact .inr (.inr ⟨by rw [written]; rfl, control⟩)
  · have others : c ≠ '"' ∧ c ≠ '\\' := by simpa using mark
    exact .inr (.inl ⟨rfl, others.1, others.2, by omega⟩)

theorem readText_escapeChar :
    readText (escapeChar c ++ rest) = Preceded c (escapeChar c).length (readText rest) := by
  rcases escapeChar_cases c rest with
    ⟨letter, written, read⟩ | ⟨written, quote, backslash, visible⟩ | ⟨written, control⟩
  · rw [written]
    exact readText_escape c rest [letter] read
  · rw [written]
    exact readText_plain c rest quote backslash visible
  · have read := readEscape_code rest control
    rw [Char.ofNat_toNat] at read
    rw [written]
    exact readText_escape c rest _ read

end

/-- What is quoted is read up to the quote that closes it. -/
theorem readText_quoted (chars rest : List Char) :
    readText (chars.flatMap escapeChar ++ '"' :: rest) =
      .ok (chars, (chars.flatMap escapeChar).length + 1) := by
  induction chars with
  | nil =>
      rw [List.flatMap_nil, List.nil_append, readText]
      rfl
  | cons c chars ih =>
      rw [List.flatMap_cons, List.append_assoc, readText_escapeChar, ih, List.length_append]
      simp only [Preceded, Except.map]
      congr 2
      omega

theorem scanText_quoted (text : String) (rest : List Char) :
    scanText (text.toList.flatMap escapeChar ++ '"' :: rest) =
      { token := .text text, length := (text.toList.flatMap escapeChar).length + 1 } := by
  unfold scanText
  rw [readText_quoted]
  simp

/-! ### Numbers -/

/-- What may stand behind a value: nothing, a comma or the end of what the value is in. -/
def Closes (more : List Char) : Prop := ∀ c ∈ more.head?, c = ',' ∨ c = ']' ∨ c = '\x7d'

def front (text : List Char) : List Char := text.takeWhile Text.isDigit

theorem length_front_le (text : List Char) : (front text).length ≤ text.length :=
  (List.takeWhile_sublist _).length_le

theorem Closes.front_append {more : List Char} (closes : Closes more) (text : List Char) :
    front (text ++ more) = front text := by
  induction text with
  | nil =>
      cases more with
      | nil => rfl
      | cons c more =>
          have other : Text.isDigit c = false := by
            rcases closes c rfl with rfl | rfl | rfl <;> rfl
          simp [front, other]
  | cons c text ih =>
      unfold front at ih ⊢
      simp [List.takeWhile_cons, ih]

/-- A scanner whose numbers do not depend on what closes the value behind them; `lead` characters
are taken before it starts. -/
def Local (lead : Nat) (scan : Nat → List Char → Scanned) : Prop :=
  ∀ length total text value, scan length text = { token := .scalar value, length := total } →
    total ≤ length + lead + text.length ∧ ∀ more, Closes more →
      scan length (text ++ more) = { token := .scalar value, length := total }

theorem fail_ne_scalar {fault : Fault} {rest : List Char} {ahead : Bool} {value : Json}
    {total : Nat} : Scanned.fail fault rest ahead ≠ { token := .scalar value, length := total } := by
  simp [Scanned.fail]

/-- A scanner that takes the digits at the front, fails on those that are not accepted and goes on
with another scanner behind them. -/
structure TakesDigits (accepted : List Char → Prop) (lead : Nat)
    (behind : List Char → Nat → List Char → Scanned) (whole : Nat → List Char → Scanned) : Prop where
  accepts : ∀ length text, accepted (front text) →
    whole length text = behind (front text) (length + lead + (front text).length)
      (text.drop (front text).length)
  refuses : ∀ length text, ¬ accepted (front text) →
    ∀ value total, whole length text ≠ { token := .scalar value, length := total }

theorem TakesDigits.local {accepted : List Char → Prop} {lead : Nat}
    {behind : List Char → Nat → List Char → Scanned} {whole : Nat → List Char → Scanned}
    (takes : TakesDigits accepted lead behind whole) (after : ∀ digits, Local 0 (behind digits)) :
    Local lead whole := by
  intro length total text value scanned
  by_cases fine : accepted (front text)
  · have bound := length_front_le text
    rw [takes.accepts length text fine] at scanned
    obtain ⟨size, same⟩ := after _ _ _ _ _ scanned
    rw [List.length_drop] at size
    refine ⟨by omega, fun more closes => ?_⟩
    have kept := closes.front_append text
    rw [takes.accepts length (text ++ more) (kept ▸ fine), kept,
      List.drop_append_of_le_length bound]
    exact same more closes
  · exact absurd scanned (takes.refuses length text fine value total)

section

variable (n : Numeral)

theorem scanNumeral_eq_iff {length total : Nat} {text : List Char} {value : Json} :
    scanNumeral n length text = { token := .scalar value, length := total } ↔
      n.value? = some value ∧ length = total := by
  unfold scanNumeral
  cases n.value? with
  | none => simp [Scanned.fail]
  | some found => simp

theorem scanNumeral_local : Local 0 (scanNumeral n) := by
  intro length total text value scanned
  have found := (scanNumeral_eq_iff n).mp scanned
  refine ⟨by omega, fun more _ => ?_⟩
  exact (scanNumeral_eq_iff n).mpr found

def scanPlaces (negative : Bool) (length : Nat) (rest : List Char) : Scanned :=
  let digits := rest.takeWhile Text.isDigit
  match digits, rest with
  | [], [] => .fail .endInValue [] false
  | [], _ :: rest => .fail .invalidNumber rest false
  | _ :: _, _ =>
    let exponent : Int := Text.digitsValue digits
    scanNumeral { n with exponent := some (if negative then -exponent else exponent) }
      (length + digits.length) (rest.drop digits.length)

theorem scanPlaces_takes (negative : Bool) :
    TakesDigits (· ≠ []) 0
      (fun digits => scanNumeral
        { n with exponent := some (if negative then -(Text.digitsValue digits : Int)
                                   else (Text.digitsValue digits : Int)) })
      (scanPlaces n negative) := by
  constructor
  · intro length text digits
    unfold front at digits ⊢
    unfold scanPlaces
    cases found : text.takeWhile Text.isDigit with
    | nil => exact absurd found digits
    | cons digit more => rfl
  · intro length text none value total
    have empty : text.takeWhile Text.isDigit = [] := not_not.mp none
    unfold scanPlaces
    simp only [empty]
    cases text with
    | nil => exact fail_ne_scalar
    | cons c rest => exact fail_ne_scalar

theorem scanExponent_local : Local 0 (scanExponent n) := by
  have after (negative : Bool) : Local 0 (scanPlaces n negative) :=
    (scanPlaces_takes n negative).local fun _ => scanNumeral_local _
  have unsigned (c : Char) (minus : c ≠ '-') (plus : c ≠ '+') (length : Nat) (rest : List Char) :
      scanExponent n length (c :: rest) = scanPlaces n false length (c :: rest) := by
    unfold scanExponent
    split
    rename_i same
    split at same
    · rename_i sign
      exact absurd (List.cons.inj sign).1 minus
    · rename_i sign
      exact absurd (List.cons.inj sign).1 plus
    · cases same
      rfl
  intro length total text value scanned
  cases text with
  | nil => exact absurd scanned fail_ne_scalar
  | cons c rest =>
      by_cases minus : c = '-'
      · subst minus
        obtain ⟨size, same⟩ := after true (length + 1) total rest value scanned
        refine ⟨by rw [List.length_cons]; omega, same⟩
      · by_cases plus : c = '+'
        · subst plus
          obtain ⟨size, same⟩ := after false (length + 1) total rest value scanned
          refine ⟨by rw [List.length_cons]; omega, same⟩
        · rw [unsigned c minus plus] at scanned
          obtain ⟨size, same⟩ := after false length total (c :: rest) value scanned
          refine ⟨size, fun more closes => ?_⟩
          rw [List.cons_append, unsigned c minus plus]
          exact same more closes

/-- What may stand behind a value starts neither an exponent nor a fraction. -/
def isMark (c : Char) : Bool := c = 'e' || c = 'E' || c = '.'

theorem Closes.head_append_ne {c : Char} {text more : List Char} (closes : Closes more)
    (mark : isMark c = true) (other : text.head? ≠ some c) : (text ++ more).head? ≠ some c := by
  cases text with
  | nil =>
      intro first
      rcases closes c first with rfl | rfl | rfl
      · exact absurd mark (by decide)
      · exact absurd mark (by decide)
      · exact absurd mark (by decide)
  | cons d rest => exact other

theorem scanTail_other {text : List Char} (small : text.head? ≠ some 'e')
    (large : text.head? ≠ some 'E') (length : Nat) :
    scanTail n length text = scanNumeral n length text := by
  unfold scanTail
  split
  · exact absurd rfl small
  · exact absurd rfl large
  · rfl

theorem scanTail_local : Local 0 (scanTail n) := by
  intro length total text value scanned
  by_cases small : text.head? = some 'e'
  · obtain ⟨rest, rfl⟩ := List.head?_eq_some_iff.mp small
    obtain ⟨size, same⟩ := scanExponent_local n (length + 1) total rest value scanned
    exact ⟨by rw [List.length_cons]; omega, same⟩
  · by_cases large : text.head? = some 'E'
    · obtain ⟨rest, rfl⟩ := List.head?_eq_some_iff.mp large
      obtain ⟨size, same⟩ := scanExponent_local n (length + 1) total rest value scanned
      exact ⟨by rw [List.length_cons]; omega, same⟩
    · rw [scanTail_other n small large] at scanned
      obtain ⟨size, same⟩ := scanNumeral_local n length total text value scanned
      refine ⟨size, fun more closes => ?_⟩
      rw [scanTail_other n (closes.head_append_ne rfl small) (closes.head_append_ne rfl large)]
      exact same more closes

def scanPoint (length : Nat) (rest : List Char) : Scanned := scanFraction n length ('.' :: rest)

theorem scanPoint_takes :
    TakesDigits (· ≠ []) 1 (fun digits => scanTail { n with fraction := some digits })
      (scanPoint n) := by
  constructor
  · intro length text digits
    unfold front at digits ⊢
    simp only [scanPoint, scanFraction]
    cases found : text.takeWhile Text.isDigit with
    | nil => exact absurd found digits
    | cons digit more => rfl
  · intro length text none value total
    have empty : text.takeWhile Text.isDigit = [] := not_not.mp none
    unfold scanPoint scanFraction
    simp only [empty]
    cases text with
    | nil => exact fail_ne_scalar
    | cons c rest => exact fail_ne_scalar

theorem scanFraction_other {text : List Char} (point : text.head? ≠ some '.') (length : Nat) :
    scanFraction n length text = scanTail n length text := by
  unfold scanFraction
  split
  · exact absurd rfl point
  · rfl

theorem scanFraction_local : Local 0 (scanFraction n) := by
  intro length total text value scanned
  by_cases point : text.head? = some '.'
  · obtain ⟨rest, rfl⟩ := List.head?_eq_some_iff.mp point
    obtain ⟨size, same⟩ := (scanPoint_takes n).local (fun _ => scanTail_local _)
      length total rest value scanned
    exact ⟨by rw [List.length_cons]; omega, same⟩
  · rw [scanFraction_other n point] at scanned
    obtain ⟨size, same⟩ := scanTail_local n length total text value scanned
    refine ⟨size, fun more closes => ?_⟩
    rw [scanFraction_other n (closes.head_append_ne rfl point)]
    exact same more closes

end

def Leading : List Char → Prop
  | [] => False
  | digit :: digits => ¬ (digit = '0' ∧ digits ≠ [])

theorem scanNumber_takes (negative : Bool) :
    TakesDigits Leading 0
      (fun digits => scanFraction { negative, whole := digits, fraction := none, exponent := none })
      (scanNumber negative) := by
  constructor
  · intro length text leading
    cases text with
    | nil => exact leading.elim
    | cons c rest =>
        unfold front at leading ⊢
        by_cases digit : Text.isDigit c = true
        · simp only [List.takeWhile_cons, digit, if_true] at leading ⊢
          have alone : ¬ (c = '0' ∧ rest.takeWhile Text.isDigit ≠ []) := leading
          simp only [scanNumber, List.takeWhile_cons, digit, if_true]
          rw [if_neg (by simp), if_neg (by simpa [List.length_pos_iff] using alone), Nat.add_zero]
        · simp only [List.takeWhile_cons, digit] at leading
          exact leading.elim
  · intro length text leading value total
    cases text with
    | nil => exact fail_ne_scalar
    | cons c rest =>
        unfold front at leading
        by_cases digit : Text.isDigit c = true
        · simp only [List.takeWhile_cons, digit, if_true] at leading
          have zero : c = '0' ∧ rest.takeWhile Text.isDigit ≠ [] := not_not.mp leading
          simp only [scanNumber, List.takeWhile_cons, digit, if_true]
          rw [if_neg (by simp), if_pos (by simpa [List.length_pos_iff] using zero)]
          exact fail_ne_scalar
        · simp only [scanNumber, List.takeWhile_cons, digit]
          exact fail_ne_scalar

theorem scanNumber_local (negative : Bool) : Local 0 (scanNumber negative) :=
  (scanNumber_takes negative).local fun _ => scanFraction_local _

def Flat : Json → Prop
  | .array _ => False
  | .object _ => False
  | _ => True

def Numeric (scanned : Scanned) : Prop :=
  (∃ value, scanned.token = .scalar value ∧ value.Flat) ∨
    ∃ failure, scanned.token = .broken failure

theorem fail_numeric (fault : Fault) (rest : List Char) (ahead : Bool) :
    Numeric (Scanned.fail fault rest ahead) := .inr ⟨_, rfl⟩

section

variable (n : Numeral) (length : Nat) (text : List Char)

theorem flat_value {value : Json} (reads : n.value? = some value) : value.Flat := by
  unfold Numeral.value? at reads
  dsimp only at reads
  split at reads
  · split at reads
    · cases reads
      trivial
    · split at reads <;> cases reads <;> trivial
  · obtain ⟨x, _, rfl⟩ := Option.map_eq_some_iff.mp reads
    trivial

theorem scanNumeral_numeric : Numeric (scanNumeral n length text) := by
  unfold scanNumeral
  cases found : n.value? with
  | none => exact fail_numeric _ _ _
  | some value => exact .inl ⟨value, rfl, flat_value n found⟩

theorem scanExponent_numeric : Numeric (scanExponent n length text) := by
  unfold scanExponent
  split
  dsimp only
  split
  · exact fail_numeric _ _ _
  · exact fail_numeric _ _ _
  · exact scanNumeral_numeric _ _ _

theorem scanTail_numeric : Numeric (scanTail n length text) := by
  unfold scanTail
  split
  · exact scanExponent_numeric _ _ _
  · exact scanExponent_numeric _ _ _
  · exact scanNumeral_numeric _ _ _

theorem scanFraction_numeric : Numeric (scanFraction n length text) := by
  unfold scanFraction
  split
  · dsimp only
    split
    · exact fail_numeric _ _ _
    · exact fail_numeric _ _ _
    · exact scanTail_numeric _ _ _
  · exact scanTail_numeric _ _ _

theorem scanNumber_numeric (negative : Bool) : Numeric (scanNumber negative length text) := by
  unfold scanNumber
  split
  · exact fail_numeric _ _ _
  · dsimp only
    split
    · exact fail_numeric _ _ _
    · split
      · exact fail_numeric _ _ _
      · exact scanFraction_numeric _ _ _

end

def StartsNumber (c : Char) : Prop := c = '-' ∨ Text.isDigit c = true

theorem scan_minus (rest : List Char) : scan '-' rest = scanNumber true 0 rest := rfl

theorem scan_digit {c : Char} (digit : Text.isDigit c = true) (rest : List Char) :
    scan c rest = { token := (scanNumber false 0 (c :: rest)).token
                    length := (scanNumber false 0 (c :: rest)).length - 1 } := by
  unfold scan
  split
  case h_12 => simp only [digit, if_true]
  all_goals exact absurd digit (by decide)

theorem scan_numeric {c : Char} (number : StartsNumber c) (rest : List Char) :
    Numeric (scan c rest) := by
  rcases number with rfl | digit
  · exact scanNumber_numeric _ _ _
  · rw [scan_digit digit]
    exact scanNumber_numeric 0 (c :: rest) false

/-- A number has the same token in front of what closes it, and that ends before it. -/
theorem scan_local {c : Char} (number : StartsNumber c) {rest : List Char} {value : Json}
    (scanned : (scan c rest).token = .scalar value) :
    (scan c rest).length ≤ rest.length ∧
      ∀ more, Closes more → scan c (rest ++ more) = scan c rest := by
  rcases number with rfl | digit
  · rw [scan_minus] at scanned ⊢
    obtain ⟨size, same⟩ := scanNumber_local true 0 (scanNumber true 0 rest).length rest value
      (by rw [← scanned])
    refine ⟨by omega, fun more closes => ?_⟩
    rw [scan_minus, same more closes, ← scanned]
  · rw [scan_digit digit] at scanned ⊢
    obtain ⟨size, same⟩ := scanNumber_local false 0 (scanNumber false 0 (c :: rest)).length
      (c :: rest) value (by rw [← scanned])
    rw [List.length_cons] at size
    refine ⟨?_, fun more closes => ?_⟩
    · dsimp only
      omega
    · rw [scan_digit digit, ← List.cons_append, same more closes, ← scanned]

end AccessPolicy.Json

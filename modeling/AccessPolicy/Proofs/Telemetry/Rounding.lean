/-
Rounding to 53 binary digits. A number is taken in units of its last digit and rounded to the nearest whole one,
from the middle to the even one. This never changes the order of two numbers, and does nothing to a number
that has no more digits; both are used for bounds on what has been rounded several times.
-/

import Mathlib.Algebra.Order.Field.Power
import Mathlib.Data.Int.Log
import Mathlib.Data.Rat.Floor
import Mathlib.Tactic.Linarith
import Mathlib.Tactic.NormNum
import Mathlib.Tactic.Positivity
import Mathlib.Tactic.Ring

namespace AccessPolicy.Rounding

open Float.Model Float.Model.UnpackedFloat

/-! ### Whole numbers -/

/-- The nearest whole number, from the middle the even one. -/
def nearest (x : ℚ) : ℕ :=
  if x < ⌊x⌋₊ + 1 / 2 then ⌊x⌋₊
  else if x = ⌊x⌋₊ + 1 / 2 then ⌊x⌋₊ + ⌊x⌋₊ % 2
  else ⌊x⌋₊ + 1

theorem nearest_bounds (x : ℚ) : ⌊x⌋₊ ≤ nearest x ∧ nearest x ≤ ⌊x⌋₊ + 1 := by
  unfold nearest
  split
  · omega
  · split <;> omega

theorem nearest_mono {x y : ℚ} (ordered : x ≤ y) : nearest x ≤ nearest y := by
  rcases (Nat.floor_mono ordered).lt_or_eq with below | same
  · have upper := (nearest_bounds x).2
    have lower := (nearest_bounds y).1
    omega
  -- Between the same whole numbers, and the middle decides.
  · by_cases early : x < ⌊x⌋₊ + 1 / 2
    · rw [nearest, if_pos early, same]
      exact (nearest_bounds y).1
    · have late : ¬y < ⌊y⌋₊ + 1 / 2 := by
        rw [← same]
        linarith
      rw [nearest, nearest, if_neg early, if_neg late, same]
      by_cases middle : y = ⌊y⌋₊ + 1 / 2
      · have between : x = ⌊y⌋₊ + 1 / 2 := by
          rw [same] at early
          linarith
        rw [if_pos between, if_pos middle]
      · rw [if_neg middle]
        split <;> omega

theorem nearest_natCast (n : ℕ) : nearest n = n := by
  unfold nearest
  rw [Nat.floor_natCast]
  exact if_pos (by linarith)

/-! ### Fifty-three digits -/

def unit (x : ℚ) : ℚ := 2 ^ (Int.log 2 x - 52)

/-- The nearest number of fifty-three digits. -/
def rounded (x : ℚ) : ℚ := nearest (x / unit x) * unit x

theorem unit_pos (x : ℚ) : 0 < unit x := by
  unfold unit
  positivity

theorem log_eq {x : ℚ} {k : ℤ} (lower : 2 ^ k ≤ x) (upper : x < 2 ^ (k + 1)) : Int.log 2 x = k := by
  have positive : 0 < x := lt_of_lt_of_le (by positivity) lower
  have above : k ≤ Int.log 2 x := (Int.zpow_le_iff_le_log (by norm_num) positive).mp lower
  have below : Int.log 2 x < k + 1 := (Int.lt_zpow_iff_log_lt (by norm_num) positive).mp upper
  omega

section

variable {x y : ℚ}

theorem zpow_log_le (positive : 0 < x) : 2 ^ Int.log 2 x ≤ x := by
  have lower := Int.zpow_log_le_self (R := ℚ) (by norm_num : 1 < 2) positive
  exact_mod_cast lower

theorem lt_zpow_log (x : ℚ) : x < 2 ^ (Int.log 2 x + 1) := by
  have upper := Int.lt_zpow_succ_log_self (R := ℚ) (by norm_num : 1 < 2) x
  exact_mod_cast upper

theorem pow_mul_unit (x : ℚ) : (2 : ℚ) ^ 52 * unit x = 2 ^ Int.log 2 x := by
  unfold unit
  rw [← zpow_natCast, ← zpow_add₀ (by norm_num)]
  congr 1
  push_cast
  omega

theorem pow_succ_mul_unit (x : ℚ) : (2 : ℚ) ^ 53 * unit x = 2 ^ (Int.log 2 x + 1) := by
  rw [zpow_add_one₀ (by norm_num), ← pow_mul_unit]
  ring

/-- The units that there are between a power of two and the next one. -/
theorem scaled_bounds (positive : 0 < x) :
    (2 : ℚ) ^ 52 ≤ x / unit x ∧ x / unit x < 2 ^ 53 := by
  constructor
  · rw [le_div_iff₀ (unit_pos x), pow_mul_unit]
    exact zpow_log_le positive
  · rw [div_lt_iff₀ (unit_pos x), pow_succ_mul_unit]
    exact lt_zpow_log x

theorem digits_bounds (positive : 0 < x) :
    2 ^ 52 ≤ nearest (x / unit x) ∧ nearest (x / unit x) ≤ 2 ^ 53 := by
  obtain ⟨lower, upper⟩ := scaled_bounds positive
  constructor
  · calc 2 ^ 52 = nearest ((2 ^ 52 : ℕ) : ℚ) := (nearest_natCast _).symm
      _ ≤ nearest (x / unit x) := nearest_mono (by exact_mod_cast lower)
  · calc nearest (x / unit x) ≤ nearest ((2 ^ 53 : ℕ) : ℚ) := nearest_mono (by exact_mod_cast upper.le)
      _ = 2 ^ 53 := nearest_natCast _

theorem zpow_log_le_rounded (positive : 0 < x) : 2 ^ Int.log 2 x ≤ rounded x := by
  have digits : (2 : ℚ) ^ 52 ≤ nearest (x / unit x) := by exact_mod_cast (digits_bounds positive).1
  rw [← pow_mul_unit]
  exact mul_le_mul_of_nonneg_right digits (unit_pos x).le

theorem rounded_le_zpow_log (positive : 0 < x) : rounded x ≤ 2 ^ (Int.log 2 x + 1) := by
  have digits : (nearest (x / unit x) : ℚ) ≤ 2 ^ 53 := by exact_mod_cast (digits_bounds positive).2
  rw [← pow_succ_mul_unit]
  exact mul_le_mul_of_nonneg_right digits (unit_pos x).le

theorem rounded_mono (positive : 0 < x) (ordered : x ≤ y) : rounded x ≤ rounded y := by
  have logs : Int.log 2 x ≤ Int.log 2 y := Int.log_mono_right positive ordered
  rcases logs.lt_or_eq with below | same
  -- A power of two stands between them, and rounding does not pass it.
  · calc rounded x ≤ 2 ^ (Int.log 2 x + 1) := rounded_le_zpow_log positive
      _ ≤ 2 ^ Int.log 2 y := zpow_le_zpow_right₀ (by norm_num) below
      _ ≤ rounded y := zpow_log_le_rounded (positive.trans_le ordered)
  · have units : unit x = unit y := by
      unfold unit
      rw [same]
    unfold rounded
    rw [units]
    have scaled : x / unit y ≤ y / unit y := div_le_div_of_nonneg_right ordered (unit_pos y).le
    have digits : ((nearest (x / unit y) : ℕ) : ℚ) ≤ nearest (y / unit y) := by
      exact_mod_cast nearest_mono scaled
    exact mul_le_mul_of_nonneg_right digits (unit_pos y).le

theorem rounded_pos (positive : 0 < x) : 0 < rounded x :=
  lt_of_lt_of_le (by positivity) (zpow_log_le_rounded positive)

section

variable {digits : ℕ} {exponent : ℤ} (lower : 2 ^ 52 ≤ digits) (upper : digits < 2 ^ 53)

include lower upper

theorem log_of_digits : Int.log 2 (digits * 2 ^ exponent : ℚ) = 52 + exponent := by
  have scale : (0 : ℚ) < 2 ^ exponent := by positivity
  have low : (2 : ℚ) ^ 52 ≤ digits := by exact_mod_cast lower
  have high : (digits : ℚ) < 2 ^ 53 := by exact_mod_cast upper
  apply log_eq
  · rw [zpow_add₀ (by norm_num)]
    exact mul_le_mul_of_nonneg_right low scale.le
  · rw [show 52 + exponent + 1 = 53 + exponent by omega, zpow_add₀ (by norm_num)]
    exact mul_lt_mul_of_pos_right high scale

theorem rounded_of_digits : rounded (digits * 2 ^ exponent) = digits * 2 ^ exponent := by
  have last : unit (digits * 2 ^ exponent) = 2 ^ exponent := by
    unfold unit
    rw [log_of_digits lower upper, add_sub_cancel_left]
  unfold rounded
  rw [last, mul_div_cancel_right₀ _ (by positivity), nearest_natCast]

end

theorem rounded_zpow (exponent : ℤ) : rounded (2 ^ exponent) = 2 ^ exponent := by
  have whole : (2 : ℚ) ^ exponent = (2 ^ 52 : ℕ) * 2 ^ (exponent - 52) := by
    rw [Nat.cast_pow, Nat.cast_ofNat, ← zpow_natCast, ← zpow_add₀ (by norm_num)]
    congr 1
    push_cast
    omega
  rw [whole]
  exact rounded_of_digits le_rfl (by norm_num)

theorem rounded_one : rounded 1 = 1 := by
  simpa using rounded_zpow 0

end

/-! ### Digits that are cut off -/

/-- What the digits before the cut and the first one after it stand for. -/
def shown (cut : ExtendedMantissa) : ℚ := cut.mantissa + if cut.roundBit then 1 / 2 else 0

theorem shown_shiftRightOne (cut : ExtendedMantissa) :
    shown cut.shiftRightOne = cut.mantissa / 2 := by
  have split : ((cut.mantissa / 2 : ℕ) : ℚ) * 2 + (cut.mantissa % 2 : ℕ) = cut.mantissa := by
    exact_mod_cast Nat.div_add_mod' cut.mantissa 2
  unfold shown ExtendedMantissa.shiftRightOne
  rcases Nat.mod_two_eq_zero_or_one cut.mantissa with last | last
  · simp [last] at split ⊢
    linarith
  · simp [last] at split ⊢
    linarith

/-- The digits before a cut, and what is known of those after it: the first, and whether there are others. -/
def CutOf (cut : ExtendedMantissa) (x : ℚ) : Prop :=
  if cut.stickyBit then shown cut < x ∧ x < shown cut + 1 / 2 else x = shown cut

namespace CutOf

variable {cut : ExtendedMantissa} {x : ℚ}

theorem within (cutOf : CutOf cut x) : (cut.mantissa : ℚ) ≤ x ∧ x < cut.mantissa + 1 := by
  obtain ⟨digits, first, others⟩ := cut
  cases first <;> cases others <;>
    simp only [CutOf, shown, if_true, Bool.false_eq_true, if_false] at cutOf ⊢ <;>
    constructor <;> linarith

theorem floor (cutOf : CutOf cut x) : ⌊x⌋₊ = cut.mantissa := by
  have natural : (0 : ℚ) ≤ cut.mantissa := Nat.cast_nonneg _
  exact (Nat.floor_eq_iff (natural.trans cutOf.within.1)).mpr cutOf.within

theorem roundedMantissa (cutOf : CutOf cut x) : cut.roundedMantissa = nearest x := by
  have whole := cutOf.floor
  obtain ⟨digits, first, others⟩ := cut
  unfold nearest
  rw [whole]
  cases first <;> cases others <;> simp only [CutOf, shown, if_true, Bool.false_eq_true, if_false] at cutOf
  · rw [if_pos (by linarith)]
    rfl
  · rw [if_pos (by linarith)]
    rfl
  · rw [if_neg (by linarith), if_pos cutOf]
    rfl
  · rw [if_neg (by linarith), if_neg (by linarith)]
    rfl

theorem shiftRightOne (cutOf : CutOf cut x) : CutOf cut.shiftRightOne (x / 2) := by
  unfold CutOf at cutOf ⊢
  rw [shown_shiftRightOne]
  obtain ⟨digits, first, others⟩ := cut
  cases first <;> cases others <;>
    simp only [shown, ExtendedMantissa.shiftRightOne, Bool.or_true, Bool.or_false, if_true,
      Bool.false_eq_true, if_false] at cutOf ⊢
  · linarith
  · constructor <;> linarith
  · constructor <;> linarith
  · constructor <;> linarith

theorem shiftRight (cutOf : CutOf cut x) (places : ℕ) : CutOf (cut >>> places) (x / 2 ^ places) := by
  induction places with
  | zero =>
      rw [pow_zero, div_one]
      exact cutOf
  | succ places ih =>
      have further := ih.shiftRightOne
      rwa [div_div, ← pow_succ] at further

theorem exact (digits : ℕ) : CutOf (.ofMantissaAndAccuracy digits .exact) digits := by
  unfold CutOf
  exact (add_zero _).symm

theorem fraction (digits : ℕ) {rest divisor : ℕ} (below : rest < divisor) :
    CutOf (.ofMantissaAndAccuracy digits (accuracyOfFraction rest divisor))
      (digits + rest / divisor) := by
  have scale : (0 : ℚ) < divisor := by exact_mod_cast Nat.zero_lt_of_lt below
  unfold accuracyOfFraction
  by_cases even : rest = 0
  · rw [if_pos even, even, Nat.cast_zero, zero_div, add_zero]
    exact exact digits
  · rw [if_neg even]
    rcases lt_trichotomy (2 * rest) divisor with less | half | more
    · have some : (0 : ℚ) < rest / divisor :=
        div_pos (by exact_mod_cast Nat.pos_of_ne_zero even) scale
      have early : (rest : ℚ) / divisor < 1 / 2 := by
        have cast : (2 : ℚ) * rest < divisor := by exact_mod_cast less
        rw [div_lt_iff₀ scale]
        linarith
      rw [compare_lt_iff_lt.mpr less]
      simp only [CutOf, shown, ExtendedMantissa.ofMantissaAndAccuracy, if_true, Bool.false_eq_true,
        if_false]
      constructor <;> linarith
    · have middle : (rest : ℚ) / divisor = 1 / 2 := by
        have cast : (2 : ℚ) * rest = divisor := by exact_mod_cast half
        rw [div_eq_iff scale.ne']
        linarith
      rw [compare_eq_iff_eq.mpr half, middle]
      rfl
    · have late : 1 / 2 < (rest : ℚ) / divisor := by
        have cast : (divisor : ℚ) < 2 * rest := by exact_mod_cast more
        rw [lt_div_iff₀ scale]
        linarith
      have part : (rest : ℚ) / divisor < 1 := (div_lt_one scale).mpr (by exact_mod_cast below)
      rw [compare_gt_iff_gt.mpr more]
      simp only [CutOf, shown, ExtendedMantissa.ofMantissaAndAccuracy, if_true]
      constructor <;> linarith

theorem quotient (dividend : ℕ) {divisor : ℕ} (positive : 0 < divisor) :
    CutOf (.ofMantissaAndAccuracy (dividend / divisor)
      (accuracyOfFraction (dividend % divisor) divisor)) (dividend / divisor) := by
  have scale : (0 : ℚ) < divisor := by exact_mod_cast positive
  have value : (dividend : ℚ) / divisor =
      (dividend / divisor : ℕ) + (dividend % divisor : ℕ) / (divisor : ℚ) := by
    rw [div_eq_iff scale.ne', add_mul, div_mul_cancel₀ _ scale.ne']
    exact_mod_cast (Nat.div_add_mod' dividend divisor).symm
  rw [value]
  exact fraction _ (Nat.mod_lt dividend positive)

end CutOf

end AccessPolicy.Rounding

/-
Positive floats in the range where they have all their digits. What an operation makes of two of them is the
rounded result, so bounds on exact numbers carry over to it.
-/

import AccessPolicy.Proofs.Telemetry.Rounding

namespace AccessPolicy.Rounding

open Float.Model Float.Model.UnpackedFloat

/-- A positive number that is given by all of its digits. -/
def Holds (number : UnpackedFloat) (x : ℚ) : Prop :=
  ∃ digits exponent positive, number = .finite .positive digits exponent positive ∧
    2 ^ 52 ≤ digits ∧ digits < 2 ^ 53 ∧ x = digits * 2 ^ exponent

/-! ### Rounding -/

theorem targetExponent_eq (total : ℤ) :
    Format.binary64.targetExponent total = max (total - 53) (-1074) := rfl

section

variable {digits places : ℕ} {exponent : ℤ} {accuracy : Accuracy} {x : ℚ}

theorem log2_of_digits (lower : 2 ^ 52 ≤ digits) (upper : digits < 2 ^ 53) : digits.log2 = 52 :=
  (Nat.log2_eq_iff (by omega)).mpr ⟨lower, upper⟩

theorem shiftToTargetExponent_eq (accuracy : Accuracy) (log : digits.log2 = 52 + places)
    (normal : -1074 ≤ exponent + places) :
    shiftToTargetExponent .binary64 digits exponent accuracy =
      (ExtendedMantissa.ofMantissaAndAccuracy digits accuracy >>> places, exponent + places) := by
  have target : Format.binary64.targetExponent (totalExponent digits exponent) = exponent + places := by
    simp only [targetExponent_eq, totalExponent, log]
    omega
  unfold shiftToTargetExponent shiftToExponent
  simp only [target, add_sub_cancel_left, Int.toNat_natCast]

/-- Fifty-three digits stay as they are; where the rounding has carried over into one more, the last goes. -/
theorem shift_again (lower : 2 ^ 52 ≤ digits) (upper : digits ≤ 2 ^ 53) (normal : -1074 ≤ exponent) :
    let shifted := shiftToTargetExponent .binary64 digits exponent .exact
    2 ^ 52 ≤ shifted.1.mantissa ∧ shifted.1.mantissa < 2 ^ 53 ∧
      (shifted.1.mantissa * 2 ^ shifted.2 : ℚ) = digits * 2 ^ exponent := by
  rcases upper.lt_or_eq with within | carried
  · have log : digits.log2 = 52 + 0 := log2_of_digits lower within
    rw [shiftToTargetExponent_eq .exact log (by simpa using normal)]
    refine ⟨lower, within, ?_⟩
    rw [Nat.cast_zero, add_zero]
    rfl
  · have log : digits.log2 = 52 + 1 := by rw [carried, Nat.log2_two_pow]
    have halved : (ExtendedMantissa.ofMantissaAndAccuracy digits .exact >>> 1).mantissa = 2 ^ 52 := by
      rw [carried]
      rfl
    rw [shiftToTargetExponent_eq .exact log (by push_cast; omega)]
    dsimp only
    rw [halved]
    refine ⟨le_rfl, by norm_num, ?_⟩
    rw [carried, Nat.cast_one, zpow_add_one₀ (by norm_num)]
    push_cast
    ring

theorem mantissa_ofMantissaAndAccuracy (digits : ℕ) (accuracy : Accuracy) :
    (ExtendedMantissa.ofMantissaAndAccuracy digits accuracy).mantissa = digits := by
  cases accuracy with
  | exact => rfl
  | inexact order => cases order <;> rfl

theorem log_of_cutOf (exponent : ℤ) (cutOf : CutOf (.ofMantissaAndAccuracy digits accuracy) x)
    (some : digits ≠ 0) : Int.log 2 (x * 2 ^ exponent) = digits.log2 + exponent := by
  obtain ⟨low, high⟩ := cutOf.within
  rw [mantissa_ofMantissaAndAccuracy] at low high
  have scale : (0 : ℚ) < 2 ^ exponent := by positivity
  have lower : (2 : ℚ) ^ digits.log2 ≤ digits := by exact_mod_cast Nat.log2_self_le some
  have upper : (digits : ℚ) + 1 ≤ 2 ^ (digits.log2 + 1) := by exact_mod_cast Nat.lt_log2_self
  apply log_eq
  · rw [zpow_add₀ (by norm_num), zpow_natCast]
    exact mul_le_mul_of_nonneg_right (lower.trans low) scale.le
  · rw [add_right_comm, zpow_add₀ (by norm_num)]
    apply mul_lt_mul_of_pos_right _ scale
    exact_mod_cast high.trans_le upper

theorem scaled_of_cutOf (exponent : ℤ) (cutOf : CutOf (.ofMantissaAndAccuracy digits accuracy) x)
    (log : digits.log2 = 52 + places) :
    unit (x * 2 ^ exponent) = 2 ^ (exponent + places) ∧
      x * 2 ^ exponent / unit (x * 2 ^ exponent) = x / 2 ^ places := by
  have some : digits ≠ 0 := by
    intro zero
    rw [zero, Nat.log2_zero] at log
    omega
  have last : unit (x * 2 ^ exponent) = 2 ^ (exponent + places) := by
    unfold unit
    rw [log_of_cutOf exponent cutOf some, log]
    congr 1
    push_cast
    omega
  refine ⟨last, ?_⟩
  rw [last, zpow_add₀ (by norm_num), zpow_natCast]
  field_simp

theorem CutOf.positive (cutOf : CutOf (.ofMantissaAndAccuracy digits accuracy) x)
    (some : 0 < digits) : 0 < x := by
  have low := cutOf.within.1
  rw [mantissa_ofMantissaAndAccuracy] at low
  have natural : (0 : ℚ) < digits := by exact_mod_cast some
  exact natural.trans_le low

theorem holds_roundWithAccuracy (cutOf : CutOf (.ofMantissaAndAccuracy digits accuracy) x)
    (enough : 2 ^ 52 ≤ digits) (normal : -1022 ≤ Int.log 2 (x * 2 ^ exponent)) :
    Holds (roundWithAccuracy .binary64 .positive digits exponent accuracy)
      (rounded (x * 2 ^ exponent)) := by
  obtain ⟨places, log⟩ := Nat.exists_eq_add_of_le ((Nat.le_log2 (by omega)).mpr enough)
  have fits : -1074 ≤ exponent + places := by
    rw [log_of_cutOf exponent cutOf (by omega), log] at normal
    push_cast at normal
    omega
  obtain ⟨last, scaled⟩ := scaled_of_cutOf exponent cutOf log
  have rounds := (cutOf.shiftRight places).roundedMantissa
  have value : rounded (x * 2 ^ exponent) = nearest (x / 2 ^ places) * 2 ^ (exponent + places) := by
    unfold rounded
    rw [scaled, last]
  -- The rounding can carry over into one more digit, so there is a second shift.
  obtain ⟨lower, upper⟩ := digits_bounds (mul_pos (cutOf.positive (by omega))
    (by positivity : (0 : ℚ) < 2 ^ exponent))
  rw [scaled, ← rounds] at lower upper
  obtain ⟨low, high, same⟩ := shift_again lower upper fits
  unfold roundWithAccuracy
  rw [shiftToTargetExponent_eq accuracy log fits]
  dsimp only
  rw [dif_neg (by omega)]
  refine ⟨_, _, _, rfl, low, high, ?_⟩
  rw [value, same, rounds]

end

/-! ### Words -/

theorem sign_of_components (exponent : BitVec 11) (digits : BitVec 52) :
    Sign.ofBitVec (unpackSign (packComponents .binary64 .positive exponent digits)) = .positive := by
  unfold unpackSign packComponents BitVec.extractLsb
  rw [BitVec.extractLsb'_append_eq_of_le (by decide), BitVec.extractLsb'_append_eq_of_le (by decide)]
  rfl

theorem toNat_append_ofNat {digits : ℕ} (lower : 2 ^ 52 ≤ digits) (upper : digits < 2 ^ 53) :
    (1#1 ++ BitVec.ofNat 52 digits).toNat = digits := by
  rw [BitVec.toNat_append, ← Nat.shiftLeft_add_eq_or_of_lt (BitVec.isLt _), BitVec.toNat_ofNat]
  change 1 <<< 52 + digits % 2 ^ 52 = digits
  omega

/-- Exponents are written with a bias; the least word and the greatest one have other meanings. -/
theorem unpack_components {digits biased : ℕ} {exponent : ℤ} (positive : 0 < digits)
    (lower : 2 ^ 52 ≤ digits) (upper : digits < 2 ^ 53) (shifted : exponent + 1075 = biased)
    (small : 1 ≤ biased) (large : biased ≤ 2046) :
    unpack .binary64 (packComponents .binary64 .positive (BitVec.ofNat 11 biased)
      (BitVec.ofNat 52 digits)) = .finite .positive digits exponent positive := by
  have word : (BitVec.ofNat 11 biased).toNat = biased := by
    rw [BitVec.toNat_ofNat]
    exact Nat.mod_eq_of_lt (by omega)
  have notLast : BitVec.ofNat 11 biased ≠ -1#11 := by
    intro same
    have words : _ = 2047 := congrArg BitVec.toNat same
    omega
  have notFirst : BitVec.ofNat 11 biased ≠ 0#11 := by
    intro same
    have words : _ = 0 := congrArg BitVec.toNat same
    omega
  unfold UnpackedFloat.unpack
  dsimp only
  rw [unpackExponent_packComponents, if_neg notLast, if_neg notFirst, UnpackedFloat.finite.injEq]
  refine ⟨sign_of_components _ _, ?_, ?_⟩
  · rw [unpackMantissa_packComponents]
    exact toNat_append_ofNat lower upper
  · rw [word]
    change (biased : ℤ) - (1023 + 52) = exponent
    omega

theorem unpack_pack {digits : ℕ} {exponent : ℤ} (positive : 0 < digits) (lower : 2 ^ 52 ≤ digits)
    (upper : digits < 2 ^ 53) (small : -1074 ≤ exponent) (large : exponent ≤ 971) :
    (Float.Model.pack (.finite .positive digits exponent positive)).unpack =
      .finite .positive digits exponent positive := by
  obtain ⟨biased, shifted⟩ := Int.eq_ofNat_of_zero_le (by omega : 0 ≤ exponent + 1075)
  have packed : UnpackedFloat.pack .binary64 (.finite .positive digits exponent positive) =
      packComponents .binary64 .positive (BitVec.ofNat 11 biased) (BitVec.ofNat 52 digits) := by
    have bias : (exponent + Format.binary64.exponentBias +
        Format.binary64.mantissaBitsWithoutImplicit).toNat = biased := by
      change (exponent + 1023 + 52).toNat = biased
      omega
    have bits : digits.log2 + 1 = Format.binary64.mantissaBits := by
      rw [log2_of_digits lower upper]
      rfl
    have finite : ¬ 2 ^ Format.binary64.exponentBits ≤ biased + 1 := by
      change ¬ 2 ^ 11 ≤ biased + 1
      omega
    unfold UnpackedFloat.pack
    dsimp only
    rw [bias, if_pos bits, if_neg finite]
  change UnpackedFloat.unpack .binary64 (UnpackedFloat.pack .binary64 _) = _
  rw [packed]
  exact unpack_components positive lower upper shifted (by omega) (by omega)

/-! ### Numbers far from the limits -/

/-- Neither too small nor too large to be given by all digits. -/
structure Moderate (x : ℚ) : Prop where
  lower : 2 ^ (-1000 : ℤ) ≤ x
  upper : x ≤ 2 ^ (1000 : ℤ)

namespace Moderate

variable {x : ℚ}

theorem positive (moderate : Moderate x) : 0 < x :=
  lt_of_lt_of_le (by positivity) moderate.lower

theorem log (moderate : Moderate x) : -1000 ≤ Int.log 2 x ∧ Int.log 2 x ≤ 1000 := by
  constructor
  · exact (Int.zpow_le_iff_le_log (by norm_num) moderate.positive).mp moderate.lower
  · have below := (zpow_log_le moderate.positive).trans moderate.upper
    exact (zpow_le_zpow_iff_right₀ (by norm_num)).mp below

theorem rounded (moderate : Moderate x) : Moderate (rounded x) := by
  constructor
  · rw [← rounded_zpow]
    exact rounded_mono (by positivity) moderate.lower
  · rw [← rounded_zpow]
    exact rounded_mono moderate.positive moderate.upper

end Moderate

/-! ### Quotients -/

section

variable {digits others : ℕ} {exponent power : ℤ}

/-- Fifty-three digits more, so that the whole part of the quotient has enough of them. -/
theorem quotient_eq (digits : ℕ) (positive : 0 < others) (exponent power : ℤ) :
    (digits * 2 ^ exponent / (others * 2 ^ power) : ℚ) =
      (digits <<< 53 : ℕ) / others * 2 ^ (exponent - power - 53) := by
  have scale : (0 : ℚ) < others := by exact_mod_cast positive
  rw [Nat.shiftLeft_eq, Nat.cast_mul, Nat.cast_pow, Nat.cast_ofNat, zpow_sub₀ (by norm_num),
    zpow_sub₀ (by norm_num), show ((2 : ℚ) ^ (53 : ℤ)) = 2 ^ 53 from zpow_natCast 2 53]
  field_simp

theorem exponents_apart (upper : digits < 2 ^ 53) (low : 2 ^ 52 ≤ others)
    (moderate : Moderate (digits * 2 ^ exponent / (others * 2 ^ power))) :
    -1002 ≤ exponent - power := by
  have scale : (0 : ℚ) < others := by exact_mod_cast (by omega : 0 < others)
  have double : (digits : ℚ) < 2 * others := by exact_mod_cast (by omega : digits < 2 * others)
  have less : (digits * 2 ^ exponent / (others * 2 ^ power) : ℚ) < 2 ^ (exponent - power + 1) := by
    rw [zpow_add_one₀ (by norm_num), zpow_sub₀ (by norm_num), mul_div_mul_comm, mul_comm]
    apply mul_lt_mul_of_pos_left _ (by positivity)
    rwa [div_lt_iff₀ scale]
  have powers := (zpow_lt_zpow_iff_right₀ (by norm_num : (1 : ℚ) < 2)).mp (moderate.lower.trans_lt less)
  omega

theorem divCore_eq (lower : 2 ^ 52 ≤ digits) (upper : digits < 2 ^ 53) (low : 2 ^ 52 ≤ others)
    (high : others < 2 ^ 53) (apart : -1002 ≤ exponent - power) :
    divCore .binary64 digits exponent others power =
      (digits <<< 53 / others, exponent - power - 53,
        accuracyOfFraction (digits <<< 53 % others) others) := by
  have target : min (exponent - power) (Format.binary64.targetExponent
      (totalExponent digits exponent - totalExponent others power)) = exponent - power - 53 := by
    simp only [targetExponent_eq, totalExponent, log2_of_digits lower upper, log2_of_digits low high]
    omega
  have places : (exponent - power - (exponent - power - 53)).toNat = 53 := by omega
  unfold divCore
  simp only [target, places]

end

/-! ### Operations -/

namespace Holds

variable {first second : UnpackedFloat} {x y : ℚ}

theorem pack (held : Holds first x) (moderate : Moderate x) :
    Holds (Float.Model.pack first).unpack x := by
  obtain ⟨digits, exponent, positive, rfl, lower, upper, rfl⟩ := held
  have log := moderate.log
  rw [log_of_digits lower upper] at log
  rw [unpack_pack positive lower upper (by omega) (by omega)]
  exact ⟨digits, exponent, positive, rfl, lower, upper, rfl⟩

theorem ofNat {n : ℕ} (some : n ≠ 0) (moderate : Moderate n) :
    Holds (UnpackedFloat.ofNat .binary64 n) (Rounding.rounded n) := by
  have more : compare (n : ℤ) 0 = .gt := compare_gt_iff_gt.mpr (by omega)
  have target : Format.binary64.targetExponent (totalExponent n 0) = n.log2 - 52 := by
    simp only [targetExponent_eq, totalExponent]
    omega
  have places : (0 - ((n.log2 : ℤ) - 52)).toNat = 52 - n.log2 := by omega
  have value : ((n <<< (52 - n.log2) : ℕ) : ℚ) * 2 ^ (0 - ((52 - n.log2 : ℕ) : ℤ)) = n := by
    rw [Nat.shiftLeft_eq, Nat.cast_mul, Nat.cast_pow, Nat.cast_ofNat, zero_sub, zpow_neg,
      zpow_natCast]
    field_simp
  have enough : 2 ^ 52 ≤ n <<< (52 - n.log2) := by
    rw [Nat.shiftLeft_eq]
    calc 2 ^ 52 ≤ 2 ^ n.log2 * 2 ^ (52 - n.log2) := by
          rw [← pow_add]
          exact Nat.pow_le_pow_right (by norm_num) (by omega)
      _ ≤ n * 2 ^ (52 - n.log2) := Nat.mul_le_mul_right _ (Nat.log2_self_le some)
  have log := moderate.log.1
  rw [← value] at log ⊢
  unfold UnpackedFloat.ofNat UnpackedFloat.ofInt UnpackedFloat.normalize
  rw [more]
  dsimp only
  unfold UnpackedFloat.round decreaseExponent
  simp only [Int.toNat_natCast, target, places]
  exact holds_roundWithAccuracy (.exact _) enough (by omega)

theorem mul (left : Holds first x) (right : Holds second y) (moderate : Moderate (x * y)) :
    Holds (UnpackedFloat.mul .binary64 first second) (Rounding.rounded (x * y)) := by
  obtain ⟨digits, exponent, positive, rfl, lower, upper, rfl⟩ := left
  obtain ⟨others, power, alsoPositive, rfl, low, high, rfl⟩ := right
  have product : (digits * 2 ^ exponent * (others * 2 ^ power) : ℚ) =
      (digits * others : ℕ) * 2 ^ (exponent + power) := by
    rw [zpow_add₀ (by norm_num)]
    push_cast
    ring
  have enough : 2 ^ 52 ≤ digits * others := lower.trans (Nat.le_mul_of_pos_right _ (by omega))
  have log := moderate.log.1
  rw [product] at log ⊢
  exact holds_roundWithAccuracy (.exact (digits * others)) enough (by omega)

theorem div (left : Holds first x) (right : Holds second y) (moderate : Moderate (x / y)) :
    Holds (UnpackedFloat.div .binary64 first second) (Rounding.rounded (x / y)) := by
  obtain ⟨digits, exponent, positive, rfl, lower, upper, rfl⟩ := left
  obtain ⟨others, power, alsoPositive, rfl, low, high, rfl⟩ := right
  have core := divCore_eq lower upper low high (exponents_apart upper low moderate)
  have value := quotient_eq digits alsoPositive exponent power
  have enough : 2 ^ 52 ≤ digits <<< 53 / others := by
    rw [Nat.shiftLeft_eq, Nat.le_div_iff_mul_le alsoPositive]
    omega
  -- From here on the number that is divided need not be looked into.
  generalize digits <<< 53 = dividend at value core enough
  have log := moderate.log.1
  rw [value] at log ⊢
  have normal : -1022 ≤ Int.log 2 ((dividend : ℚ) / others * 2 ^ (exponent - power - 53)) := by omega
  have rounds := holds_roundWithAccuracy (.quotient dividend alsoPositive) enough normal
  unfold UnpackedFloat.div
  simp only [core]
  exact rounds

end Holds

/-! ### Floats -/

def Shows (float : Float) (x : ℚ) : Prop := Holds float.toModel.unpack x

namespace Shows

variable {first second : Float} {x y : ℚ}

theorem ofWord {word : UInt64} (some : word ≠ 0) : Shows word.toFloat (rounded word.toNat) := by
  have positive : word.toNat ≠ 0 := fun zero => some (UInt64.toNat_inj.mp zero)
  have moderate : Moderate (word.toNat : ℚ) := by
    have least : (1 : ℚ) ≤ word.toNat := by exact_mod_cast Nat.pos_of_ne_zero positive
    have most : (word.toNat : ℚ) ≤ 2 ^ 64 := by exact_mod_cast word.toNat_lt.le
    constructor
    · exact le_trans (zpow_le_one_of_nonpos₀ (by norm_num) (by norm_num)) least
    · apply most.trans
      rw [← zpow_natCast]
      exact zpow_le_zpow_right₀ (by norm_num) (by norm_num)
  exact (Holds.ofNat positive moderate).pack moderate.rounded

theorem mul (left : Shows first x) (right : Shows second y) (moderate : Moderate (x * y)) :
    Shows (first * second) (rounded (x * y)) :=
  (Holds.mul left right moderate).pack moderate.rounded

theorem div (left : Shows first x) (right : Shows second y) (moderate : Moderate (x / y)) :
    Shows (first / second) (rounded (x / y)) :=
  (Holds.div left right moderate).pack moderate.rounded

theorem zero_div (shown : Shows first x) : 0.0 / first = 0.0 := by
  obtain ⟨digits, exponent, positive, same, _, _, _⟩ := shown
  have zero : (0.0 : Float).toModel.unpack = .zero .positive := rfl
  change Float.ofModel (Float.Model.pack (UnpackedFloat.div .binary64 (0.0 : Float).toModel.unpack
    first.toModel.unpack)) = 0.0
  rw [same, zero]
  rfl

theorem hundred : Shows 100.0 100 := by
  refine ⟨100 * 2 ^ 46, -46, by norm_num, ?_, by norm_num, by norm_num, by norm_num⟩
  rfl

theorem zero_lt (shown : Shows first x) : 0.0 < first := by
  obtain ⟨digits, exponent, positive, same, _, _, _⟩ := shown
  have zero : (0.0 : Float).toModel.unpack = .zero .positive := by rfl
  change decide (UnpackedFloat.lt (0.0 : Float).toModel.unpack first.toModel.unpack = true) = true
  rw [same, zero]
  rfl

theorem le (left : Shows first x) (right : Shows second y) (ordered : x ≤ y) : first ≤ second := by
  obtain ⟨digits, exponent, positive, same, lower, upper, rfl⟩ := left
  obtain ⟨others, power, alsoPositive, alike, low, high, rfl⟩ := right
  change decide (UnpackedFloat.le first.toModel.unpack second.toModel.unpack = true) = true
  rw [decide_eq_true_iff, same, alike]
  change ((compare exponent power).then (compare digits others)).isLE = true
  have logs : 52 + exponent ≤ 52 + power := by
    rw [← log_of_digits lower upper, ← log_of_digits low high]
    exact Int.log_mono_right (by positivity) ordered
  rcases (by omega : exponent < power ∨ exponent = power) with below | level
  · rw [compare_lt_iff_lt.mpr below]
    rfl
  · subst level
    have digitsOrdered : digits ≤ others := by
      have scaled := le_of_mul_le_mul_right ordered (by positivity)
      exact_mod_cast scaled
    rw [compare_eq_iff_eq.mpr rfl]
    exact Nat.isLE_compare.mpr digitsOrdered

end Shows

end AccessPolicy.Rounding

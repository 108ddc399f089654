import Mathlib.Data.Int.Log
import Mathlib.Data.Rat.Floor
import TestDeclaration.Proofs.Number.Rounding

/-!
# Decimals out of reach

Before a decimal is rounded its exponent is cut, so that no power is computed which the format
cannot hold. This changes nothing: whatever lies below half of the least positive number is
rounded to zero, and a decimal that is cut from below lies there, before and after.
-/

namespace TestDeclaration.Number

variable {f : Format} {negative : Bool} {num den : Nat} {k : Int}

namespace Binary

/-- A quotient below a power of two has its leading bit below that power. -/
theorem leadingBit_lt (hnum : 0 < num) (hden : 0 < den) (h : (num / den : ℚ) < 2 ^ k) :
    leadingBit num den < k := by
  have hpos : (0 : ℚ) < num / den := by positivity
  have hlow : (2 : ℚ) ^ Int.log 2 (num / den : ℚ) ≤ num / den :=
    Int.zpow_log_le_self (by decide) hpos
  have hhigh : (num / den : ℚ) < 2 ^ (Int.log 2 (num / den : ℚ) + 1) :=
    Int.lt_zpow_succ_log_self (by decide) _
  rw [leadingBit_eq hnum hden hlow hhigh]
  exact (zpow_lt_zpow_iff_right₀ one_lt_two).mp (hlow.trans_lt h)

/-- A quotient below one half is rounded to zero. -/
theorem roundQuotient_of_lt (h : 2 * num < den) : roundQuotient num den = 0 := by
  have hlt : num < den := by omega
  simp only [roundQuotient, Nat.mod_eq_of_lt hlt, Nat.div_eq_of_lt hlt]
  rw [if_pos h]

/-- What lies below half of the least positive number is rounded to zero. -/
theorem ofRatio_of_lt (hden : 0 < den) (h : (num / den : ℚ) < 2 ^ (f.minExponent - 1)) :
    ofRatio f negative num den = zero negative := by
  rw [ofRatio]
  split
  · rfl
  · next hnum =>
    have hbit := leadingBit_lt (Nat.pos_of_ne_zero hnum) hden h
    have hexponent :
        max (leadingBit num den - (f.precision - 1 : Nat)) f.minExponent = f.minExponent := by
      omega
    have htwice : ((2 * num : Nat) / den : ℚ) < 2 ^ f.minExponent := by
      rw [Nat.cast_mul, Nat.cast_two, mul_div_assoc]
      calc (2 * (num / den) : ℚ) < 2 * 2 ^ (f.minExponent - 1) := by gcongr
        _ = 2 ^ f.minExponent := by
          rw [mul_comm, ← zpow_add_one₀ two_ne_zero, sub_add_cancel]
    have hhalf := (scaled_lt_iff hden f.minExponent).mpr htwice
    rw [mul_assoc] at hhalf
    simp only [hexponent, roundQuotient_of_lt hhalf]
    rfl

end Binary

/-- A number lies below the power of ten with as many zeros as it has digits. -/
theorem lt_pow_digitCount (n : Nat) : n < 10 ^ digitCount n :=
  (Nat.length_toDigits_le_iff (by decide) (List.length_pos_iff.mpr (digits_ne_nil n))).mp
    (Nat.le_refl _)

namespace Decimal

variable {d : Decimal}

/-- A decimal without a positive exponent is rounded to zero below half of the least positive
number. -/
theorem toBinary_of_lt (he : d.exponent ≤ 0)
    (h : (d.coefficient * 10 ^ d.exponent : ℚ) < 2 ^ (f.minExponent - 1)) :
    d.toBinary f = Binary.zero d.negative := by
  refine Binary.ofRatio_of_lt (by positivity) ?_
  rw [Int.toNat_of_nonpos he, pow_zero, mul_one]
  push_cast
  rwa [← zpow_natCast, Int.toNat_of_nonneg (by omega), zpow_neg, div_inv_eq_mul]

/-- An exponent that is cut from below makes a decimal less than half of the least positive
number. -/
theorem lt_of_exponent_le (hf : 0 < f.precision) {c : Nat} {e : Int}
    (he : e ≤ -(reach f + digitCount c : Nat)) :
    (c * 10 ^ e : ℚ) < 2 ^ (f.minExponent - 1) := by
  have hc : (c : ℚ) < 10 ^ (digitCount c : Int) := by
    rw [zpow_natCast]
    exact_mod_cast lt_pow_digitCount c
  have hreach : (1 : Int) ≤ reach f ∧ -(reach f : Int) ≤ f.minExponent := by
    unfold reach
    omega
  calc (c * 10 ^ e : ℚ) < 10 ^ (digitCount c : Int) * 10 ^ e := by gcongr
    _ = 10 ^ (digitCount c + e) := (zpow_add₀ (by norm_num) _ _).symm
    _ ≤ 10 ^ (-(reach f : Int)) := zpow_le_zpow_right₀ (by norm_num) (by omega)
    _ ≤ 4 ^ (-(reach f : Int)) := by
      rw [zpow_neg, zpow_neg, zpow_natCast, zpow_natCast]
      gcongr
      norm_num
    _ = 2 ^ (2 * -(reach f : Int)) := by
      rw [zpow_mul]
      norm_num
    _ ≤ 2 ^ (f.minExponent - 1) := zpow_le_zpow_right₀ one_le_two (by omega)

/-- Cutting the exponent of a decimal without a positive exponent does not change what it is
rounded to. -/
theorem toBinary_within (hf : 0 < f.precision) (he : d.exponent ≤ 0) :
    (d.within f).toBinary f = d.toBinary f := by
  have hcut : (d.within f).exponent =
      max (-((reach f + digitCount d.coefficient : Nat) : Int)) d.exponent := by
    simp only [within]
    omega
  by_cases hlow : -((reach f + digitCount d.coefficient : Nat) : Int) ≤ d.exponent
  · rw [max_eq_right hlow] at hcut
    have hsame : d.within f = d := congrArg (Decimal.mk d.negative d.coefficient) hcut
    rw [hsame]
  · have hle : d.exponent ≤ -((reach f + digitCount d.coefficient : Nat) : Int) := by omega
    rw [max_eq_left hle] at hcut
    rw [toBinary_of_lt he (lt_of_exponent_le hf hle)]
    refine toBinary_of_lt (d := d.within f) (by omega) ?_
    exact lt_of_exponent_le hf (Int.le_of_eq hcut)

end Decimal

end TestDeclaration.Number

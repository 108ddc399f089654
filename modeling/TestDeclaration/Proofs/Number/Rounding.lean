import Mathlib.Algebra.Order.Field.Power
import Mathlib.Data.Rat.Cast.Order
import Mathlib.Tactic.FieldSimp
import Mathlib.Tactic.Positivity
import Mathlib.Tactic.Ring
import TestDeclaration.Number.Shortest

/-!
# Rounding is exact on the numbers of a format

A quotient that is a number of the format is rounded to this number. So the decimal that `shortest`
picks always rounds back: each candidate is tried first, and the last resort has all digits.
-/

namespace TestDeclaration.Number

/-- A power with an integer exponent, over the powers with natural exponents that stand for it. -/
theorem pow_toNat (b : ℚ) (hb : b ≠ 0) (k : Int) : b ^ k.toNat = b ^ k * b ^ (-k).toNat := by
  rw [← zpow_natCast, ← zpow_natCast, ← zpow_add₀ hb]
  congr 1
  omega

/-- A quotient is compared with a power of two by scaling one of its sides. -/
theorem scaled_lt_iff {num den : Nat} (hden : 0 < den) (k : Int) :
    num * 2 ^ (-k).toNat < den * 2 ^ k.toNat ↔ (num / den : ℚ) < 2 ^ k := by
  have hpos : (0 : ℚ) < 2 ^ (-k).toNat := by positivity
  have hd : (0 : ℚ) < den := by exact_mod_cast hden
  rw [← Nat.cast_lt (α := ℚ), div_lt_iff₀ hd]
  push_cast
  rw [pow_toNat 2 two_ne_zero k, ← mul_assoc, mul_lt_mul_iff_left₀ hpos, mul_comm (den : ℚ)]

/-- A positive quotient between two powers of two has the lower one as its leading bit. -/
theorem Binary.leadingBit_eq {num den : Nat} {k : Int} (hnum : 0 < num) (hden : 0 < den)
    (hlow : (2 : ℚ) ^ k ≤ num / den) (hhigh : (num / den : ℚ) < 2 ^ (k + 1)) :
    leadingBit num den = k := by
  have hd : (0 : ℚ) < den := by exact_mod_cast hden
  -- The logarithms of numerator and denominator give the leading bit up to one.
  have hone : (1 : ℚ) < 2 := one_lt_two
  have hbelow : (2 : ℚ) ^ ((num.log2 : Int) - den.log2 - 1) < num / den := by
    rw [lt_div_iff₀ hd]
    have h₁ : (den : ℚ) < 2 ^ (den.log2 + 1) := by exact_mod_cast Nat.lt_log2_self
    have h₂ : (2 : ℚ) ^ num.log2 ≤ num := by exact_mod_cast Nat.log2_self_le hnum.ne'
    calc (2 : ℚ) ^ ((num.log2 : Int) - den.log2 - 1) * den
        < 2 ^ ((num.log2 : Int) - den.log2 - 1) * 2 ^ (den.log2 + 1) := by gcongr
      _ = 2 ^ num.log2 := by
        rw [← zpow_natCast, ← zpow_natCast, ← zpow_add₀ two_ne_zero]
        congr 1
        push_cast
        ring
      _ ≤ num := h₂
  have habove : (num / den : ℚ) < 2 ^ ((num.log2 : Int) - den.log2 + 1) := by
    rw [div_lt_iff₀ hd]
    have h₁ : (num : ℚ) < 2 ^ (num.log2 + 1) := by exact_mod_cast Nat.lt_log2_self
    have h₂ : (2 : ℚ) ^ den.log2 ≤ den := by exact_mod_cast Nat.log2_self_le hden.ne'
    calc (num : ℚ) < 2 ^ (num.log2 + 1) := h₁
      _ = 2 ^ ((num.log2 : Int) - den.log2 + 1) * 2 ^ den.log2 := by
        rw [← zpow_natCast, ← zpow_natCast, ← zpow_add₀ two_ne_zero]
        congr 1
        push_cast
        ring
      _ ≤ 2 ^ ((num.log2 : Int) - den.log2 + 1) * den := by gcongr
  have hk := (zpow_lt_zpow_iff_right₀ hone).mp (hlow.trans_lt habove)
  have hk' := (zpow_lt_zpow_iff_right₀ hone).mp (hbelow.trans hhigh)
  simp only [leadingBit, scaled_lt_iff hden]
  split
  · next hlt =>
    have := (zpow_lt_zpow_iff_right₀ hone).mp (hlow.trans_lt hlt)
    omega
  · next hle =>
    have := (zpow_lt_zpow_iff_right₀ hone).mp ((not_lt.mp hle).trans_lt hhigh)
    omega

/-- A whole quotient is not rounded. -/
theorem Binary.roundQuotient_mul (n : Nat) {den : Nat} (hden : 0 < den) :
    roundQuotient (n * den) den = n := by
  simp only [roundQuotient, Nat.mul_mod_left, Nat.mul_div_left n hden]
  rw [if_pos (by omega)]

namespace Binary

variable {f : Format} {negative : Bool} {m : Nat} {e : Int}

/-- A quotient that is a number of the format is rounded to this number. -/
theorem ofRatio_of_eq {num den : Nat} (h : f.Canonical m e) (hm : 0 < m) (hden : 0 < den)
    (hq : (num / den : ℚ) = m * 2 ^ e) :
    ofRatio f negative num den = .finite negative m e h := by
  obtain ⟨hprec, hmin, hmax, hform⟩ := id h
  have hd : (0 : ℚ) < den := by exact_mod_cast hden
  have hnum : 0 < num := by
    rw [Nat.pos_iff_ne_zero]
    rintro rfl
    rw [Nat.cast_zero, zero_div, eq_comm, mul_eq_zero] at hq
    rcases hq with hq | hq
    · exact hm.ne' (by exact_mod_cast hq)
    · exact zpow_ne_zero e two_ne_zero hq
  have hbit : leadingBit num den = m.log2 + e := by
    have h₁ : (2 : ℚ) ^ m.log2 ≤ m := by exact_mod_cast Nat.log2_self_le hm.ne'
    have h₂ : (m : ℚ) < 2 ^ (m.log2 + 1) := by exact_mod_cast Nat.lt_log2_self
    refine leadingBit_eq hnum hden ?_ ?_
    · rw [hq, zpow_add₀ two_ne_zero, zpow_natCast]
      gcongr
    · rw [hq, add_right_comm, zpow_add₀ two_ne_zero]
      gcongr
      exact_mod_cast h₂
  have hlog : m.log2 < f.precision := (Nat.log2_lt hm.ne').mpr hprec
  have hexp : max ((m.log2 : Int) + e - (f.precision - 1 : Nat)) f.minExponent = e := by
    rcases hform with hfull | hleast
    · have hle : f.precision - 1 ≤ m.log2 := (Nat.le_log2 hm.ne').mpr hfull
      omega
    · omega
  have hscaled : num * 2 ^ (-e).toNat = m * (den * 2 ^ e.toNat) := by
    rw [div_eq_iff hd.ne'] at hq
    rw [← Nat.cast_inj (R := ℚ)]
    push_cast
    rw [hq, pow_toNat 2 two_ne_zero e]
    ring
  rw [ofRatio, if_neg hnum.ne', hbit, hexp]
  simp only [hscaled, roundQuotient_mul m (show 0 < den * 2 ^ e.toNat by positivity)]
  rw [ofParts, dif_pos h]

/-- Zero has the least exponent. -/
theorem exponent_of_canonical_zero (h : f.Canonical 0 e) : e = f.minExponent :=
  h.2.2.2.resolve_left (by simp)

/-- All digits of a number round back to it. -/
theorem toBinary_exactDecimal (h : f.Canonical m e) (hm : 0 < m) :
    (exactDecimal negative m e).toBinary f = .finite negative m e h := by
  have hexp : (min e 0).toNat = 0 := by omega
  have hexp' : (-min e 0).toNat = (-e).toNat := by omega
  refine ofRatio_of_eq h hm (by positivity) ?_
  simp only [exactDecimal, hexp, hexp', pow_zero, mul_one]
  push_cast
  rw [pow_toNat 2 two_ne_zero e, show (10 : ℚ) = 2 * 5 by norm_num, mul_pow]
  field_simp

/-- A candidate rounds back. -/
theorem toBinary_of_candidate? {x : Binary f} {num den count : Nat} {d : Decimal}
    (hd : candidate? x negative num den count = some d) : d.toBinary f = x := by
  simp only [candidate?] at hd
  split at hd
  · next hbelow =>
    split at hd
    · next habove =>
      cases hd
      exact habove.1
    · cases hd
      exact hbelow
  · split at hd
    · next habove =>
      cases hd
      exact habove
    · cases hd

/-- The shortest decimal of a number rounds back to it. -/
theorem toBinary_shortest (h : f.Canonical m e) :
    (shortest (.finite negative m e h) negative m e).toBinary f = .finite negative m e h := by
  unfold shortest
  split
  · next hm =>
    subst hm
    obtain rfl := exponent_of_canonical_zero h
    rw [Decimal.toBinary, ofRatio, if_pos (by rw [Nat.zero_mul]), zero, ofParts, dif_pos h]
  · next hm =>
    simp only
    cases hfound : (List.range (sufficientDigits f)).findSome? fun i ↦ candidate?
        (.finite negative m e h) negative (numerator m e) (denominator e) (i + 1) with
    | none => exact toBinary_exactDecimal h (Nat.pos_of_ne_zero hm)
    | some d =>
      obtain ⟨_, i, _, _, hd, _⟩ := List.findSome?_eq_some_iff.mp hfound
      exact toBinary_of_candidate? hd

end Binary

end TestDeclaration.Number

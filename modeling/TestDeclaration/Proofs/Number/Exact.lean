import Mathlib.Data.Nat.Cast.Field
import TestDeclaration.Number.Operand
import TestDeclaration.Proofs.Number.Rounding

/-!
# Exact values of numbers

Numbers of all kinds denote nothing, an infinity, or an exact dyadic fraction. Numbers of one
format are equal exactly if they denote the same. A double has room for every single, so the
conversion changes nothing. And a number that converts to a whole one strictly inside a range
has a value inside the range: the ends, to which greater numbers convert, are not met.
-/

namespace TestDeclaration.Number

/-! ### Signs, significands and exponents -/

/-- The rational number `± significand * 2 ^ exponent`. -/
def signedValue (negative : Bool) (significand : Nat) (exponent : Int) : ℚ :=
  (if negative then -(significand : ℚ) else significand) * 2 ^ exponent

private theorem abs_signedValue (a : Bool) (m : Nat) (e : Int) :
    |signedValue a m e| = m * 2 ^ e := by
  have hpow : (0 : ℚ) < 2 ^ e := by positivity
  rw [signedValue, abs_mul, abs_of_pos hpow]
  cases a <;> simp

@[simp] private theorem signedValue_zero (a : Bool) (e : Int) : signedValue a 0 e = 0 := by
  simp [signedValue]

/-- The value is determined by the sign and the magnitude. -/
theorem signedValue_congr (a : Bool) {m n : Nat} {e k : Int} (h : (m * 2 ^ e : ℚ) = n * 2 ^ k) :
    signedValue a m e = signedValue a n k := by
  cases a
  · exact h
  · simp only [signedValue, if_true, neg_mul, h]

/-- A value other than zero determines the sign. -/
theorem sign_eq_of_signedValue_eq {a b : Bool} {m : Nat} {e : Int} (hm : 0 < m)
    (h : signedValue a m e = signedValue b m e) : a = b := by
  have hpos : (0 : ℚ) < m * 2 ^ e := by positivity
  have hne : -(m : ℚ) * 2 ^ e ≠ m * 2 ^ e := by
    rw [neg_mul]
    exact (neg_lt_self hpos).ne
  cases a <;> cases b
  · rfl
  · exact absurd h.symm hne
  · exact absurd h hne
  · rfl

/-- A greater significand with a smaller exponent. -/
theorem shift_eq (m : Nat) (e : Int) (s : Nat) :
    (m * 2 ^ e : ℚ) = (m * 2 ^ s : Nat) * 2 ^ (e - s) := by
  push_cast
  rw [zpow_sub₀ two_ne_zero, zpow_natCast]
  field_simp

/-- A format with room for more bits and smaller exponents has every number of a format. -/
theorem Format.Canonical.shift {f g : Format} {m : Nat} {e : Int} (hp : f.precision ≤ g.precision)
    (hmin : g.minExponent + g.precision ≤ f.minExponent + 1) (hmax : f.maxExponent ≤ g.maxExponent)
    (h : f.Canonical m e) (hm : 0 < m) :
    g.Canonical (m * 2 ^ (g.precision - 1 - m.log2)) (e - (g.precision - 1 - m.log2 : Nat)) := by
  obtain ⟨hprec, hleast, hgreatest, -⟩ := h
  have hlog : m.log2 < f.precision := (Nat.log2_lt hm.ne').mpr hprec
  have hlow : 2 ^ m.log2 ≤ m := Nat.log2_self_le hm.ne'
  have hhigh : m < 2 ^ (m.log2 + 1) := Nat.lt_log2_self
  have hsum : m.log2 + (g.precision - 1 - m.log2) = g.precision - 1 := by omega
  refine ⟨?_, by omega, by omega, .inl ?_⟩
  · calc m * 2 ^ (g.precision - 1 - m.log2)
        < 2 ^ (m.log2 + 1) * 2 ^ (g.precision - 1 - m.log2) := by gcongr
      _ = 2 ^ g.precision := by
        rw [← pow_add]
        congr 1
        omega
  · calc 2 ^ (g.precision - 1)
      _ = 2 ^ m.log2 * 2 ^ (g.precision - 1 - m.log2) := by rw [← pow_add, hsum]
      _ ≤ m * 2 ^ (g.precision - 1 - m.log2) := by gcongr

/-! ### What numbers denote -/

/-- What a number denotes. -/
inductive Extended where
  | nan
  | infinity (negative : Bool)
  | finite (value : Dyadic)
  deriving DecidableEq

namespace Extended

/-- A whole number. -/
def ofInt (i : Int) : Extended := .finite (Dyadic.ofIntWithPrec i 0)

/-- A number of a binary format. -/
def ofBinary {f : Format} : Binary f → Extended
  | .nan => .nan
  | .infinity negative => .infinity negative
  | .finite negative m e _ =>
    .finite (Dyadic.ofIntWithPrec (if negative then -(m : Int) else m) (-e))

variable {f g : Format} {a b : Bool} {m n : Nat} {e k : Int}

private theorem toRat_ofIntWithPrec (a : Bool) (m : Nat) (e : Int) :
    (Dyadic.ofIntWithPrec (if a then -(m : Int) else m) (-e)).toRat = signedValue a m e := by
  rw [Dyadic.toRat_ofIntWithPrec_eq_mul_two_pow, neg_neg, signedValue]
  cases a <;> simp

/-- Two finite numbers denote the same if their values are equal. -/
theorem ofBinary_finite_eq_iff {hm : f.Canonical m e} {hn : g.Canonical n k} :
    ofBinary (.finite a m e hm) = ofBinary (.finite b n k hn) ↔
      signedValue a m e = signedValue b n k := by
  rw [ofBinary, ofBinary, Extended.finite.injEq, ← Dyadic.toRat_inj, toRat_ofIntWithPrec,
    toRat_ofIntWithPrec]

/-- A whole number and a finite number denote the same if their values are equal. -/
theorem ofInt_eq_ofBinary_finite_iff {i : Int} {hm : f.Canonical m e} :
    ofInt i = ofBinary (.finite a m e hm) ↔ (i : ℚ) = signedValue a m e := by
  rw [ofInt, ofBinary, Extended.finite.injEq, ← Dyadic.toRat_inj, toRat_ofIntWithPrec,
    Dyadic.toRat_ofIntWithPrec_eq_mul_two_pow, neg_zero, zpow_zero, mul_one]

/-- Whole numbers are told apart among the extended numbers. -/
theorem ofInt_inj {i j : Int} : ofInt i = ofInt j ↔ i = j := by
  rw [ofInt, ofInt, Extended.finite.injEq, ← Dyadic.toRat_inj,
    Dyadic.toRat_ofIntWithPrec_eq_mul_two_pow, Dyadic.toRat_ofIntWithPrec_eq_mul_two_pow,
    neg_zero, zpow_zero, mul_one, mul_one, Int.cast_inj]

end Extended

namespace Binary

variable {f : Format} {a b : Bool} {m n : Nat} {e k : Int}

/-! ### Equal numbers of one format -/

/-- Binary numbers are the same if they are one or compare as equal. -/
theorem same_iff {x y : Binary f} : x.same y ↔ x = y ∨ x.numEq y := by
  rw [same, Bool.or_eq_true, Bool.and_eq_true, beq_iff_eq, beq_iff_eq]
  constructor
  · rintro (h | ⟨rfl, rfl⟩)
    · exact .inr h
    · exact .inl rfl
  · rintro (rfl | h)
    · cases x <;> simp [numEq]
    · exact .inl h

private theorem quotient_eq (m : Nat) (e : Int) :
    ((m * 2 ^ e.toNat : Nat) / (2 ^ (-e).toNat : Nat) : ℚ) = m * 2 ^ e := by
  push_cast
  rw [pow_toNat 2 two_ne_zero e]
  field_simp

/-- Numbers of a format with one magnitude have one form. -/
theorem eq_of_mul_eq (hm : f.Canonical m e) (hn : f.Canonical n k) (hpos : 0 < m)
    (h : (m * 2 ^ e : ℚ) = n * 2 ^ k) : m = n ∧ e = k := by
  have hpos' : 0 < n := by
    rw [Nat.pos_iff_ne_zero]
    rintro rfl
    rw [Nat.cast_zero, zero_mul, mul_eq_zero] at h
    rcases h with h | h
    · exact hpos.ne' (by exact_mod_cast h)
    · exact zpow_ne_zero e two_ne_zero h
  have hfirst : ofRatio f false (m * 2 ^ e.toNat) (2 ^ (-e).toNat) = .finite false m e hm :=
    ofRatio_of_eq hm hpos (by positivity) (quotient_eq m e)
  have hsecond : ofRatio f false (m * 2 ^ e.toNat) (2 ^ (-e).toNat) = .finite false n k hn :=
    ofRatio_of_eq hn hpos' (by positivity) ((quotient_eq m e).trans h)
  have heq := hfirst.symm.trans hsecond
  simp only [finite.injEq, true_and] at heq
  exact heq

/-- Numbers of one format are the same exactly if they denote the same. -/
theorem same_iff_ofBinary_eq {x y : Binary f} :
    x.same y ↔ Extended.ofBinary x = Extended.ofBinary y := by
  cases x with
  | nan => cases y <;> simp [same, numEq, Extended.ofBinary]
  | infinity => cases y <;> simp [same, numEq, Extended.ofBinary]
  | finite a m e hm =>
    cases y with
    | nan => simp [same, numEq, Extended.ofBinary]
    | infinity => simp [same, numEq, Extended.ofBinary]
    | finite b n k hn =>
      rw [Extended.ofBinary_finite_eq_iff, same_iff, numEq, finite.injEq, Bool.and_eq_true,
        Bool.and_eq_true, Bool.or_eq_true, beq_iff_eq, beq_iff_eq, beq_iff_eq, beq_iff_eq]
      constructor
      · rintro (⟨rfl, rfl, rfl⟩ | ⟨⟨rfl, rfl⟩, rfl | rfl⟩)
        · rfl
        · rfl
        · simp
      · intro h
        have habs : (m * 2 ^ e : ℚ) = n * 2 ^ k := by
          rw [← abs_signedValue a, h, abs_signedValue]
        rcases Nat.eq_zero_or_pos m with rfl | hpos
        · have hzero : n = 0 := by
            rw [Nat.cast_zero, zero_mul, zero_eq_mul] at habs
            exact_mod_cast habs.resolve_right (zpow_ne_zero k two_ne_zero)
          subst hzero
          exact .inr ⟨⟨rfl, (exponent_of_canonical_zero hm).trans
            (exponent_of_canonical_zero hn).symm⟩, .inr rfl⟩
        · obtain ⟨rfl, rfl⟩ := eq_of_mul_eq hm hn hpos habs
          exact .inl ⟨sign_eq_of_signedValue_eq hpos h, rfl, rfl⟩

/-! ### Conversions -/

/-- A single converts to a double of the same value. -/
theorem ofBinary_convert (x : Binary .single) :
    Extended.ofBinary (x.convert .double) = Extended.ofBinary x := by
  cases x with
  | nan | infinity => rfl
  | finite a m e hm =>
    rw [convert]
    rcases Nat.eq_zero_or_pos m with rfl | hpos
    · rw [ofRatio, if_pos (Nat.zero_mul _), zero, ofParts, dif_pos (by decide),
        Extended.ofBinary_finite_eq_iff, signedValue_zero, signedValue_zero]
    · have hwide := hm.shift (g := .double) (by decide) (by decide) (by decide) hpos
      rw [ofRatio_of_eq hwide (by positivity) (by positivity)
          ((quotient_eq m e).trans (shift_eq m e _)),
        Extended.ofBinary_finite_eq_iff, signedValue_congr a (shift_eq m e _)]

/-- A number without a fraction is its whole part. -/
theorem wholePart_eq (hwhole : m % 2 ^ (-e).toNat = 0) :
    (wholePart a m e : ℚ) = signedValue a m e := by
  have hdvd : 2 ^ (-e).toNat ∣ m * 2 ^ e.toNat :=
    Dvd.dvd.mul_right (Nat.dvd_of_mod_eq_zero hwhole) _
  have hquotient : ((m * 2 ^ e.toNat / 2 ^ (-e).toNat : Nat) : ℚ) = m * 2 ^ e := by
    rw [Nat.cast_div hdvd (by positivity), quotient_eq]
  rw [wholePart, signedValue]
  cases a
  · simp only [Bool.false_eq_true, if_false, Int.cast_natCast, hquotient]
  · simp only [if_true, Int.cast_neg, Int.cast_natCast, hquotient, neg_mul]

/-- A number that is an integer has no fraction. -/
theorem mod_eq_zero_of_eq {i : Int} (h : (i : ℚ) = signedValue a m e) :
    m % 2 ^ (-e).toNat = 0 := by
  have habs : (i.natAbs : ℚ) = m * 2 ^ e := by
    rw [Nat.cast_natAbs, Int.cast_abs, h, abs_signedValue]
  have hscaled : i.natAbs * 2 ^ (-e).toNat = m * 2 ^ e.toNat := by
    rw [← Nat.cast_inj (R := ℚ)]
    push_cast
    rw [habs, pow_toNat 2 two_ne_zero e, mul_assoc]
  -- Only one of the two powers is not one.
  rcases le_total 0 e with he | he
  · rw [show (-e).toNat = 0 by omega, pow_zero, Nat.mod_one]
  · rw [show e.toNat = 0 by omega, pow_zero, mul_one] at hscaled
    rw [← hscaled, Nat.mul_mod_left]

/-- An integer strictly inside a range is what a number converts to exactly if the number has no
fraction and is this integer. -/
theorem toInt_eq_iff {r : Range} {i : Int} {x : Binary f} (hlow : r.least < i)
    (hhigh : i < r.greatest) :
    (x.isWhole && x.isFinite && x.toInt r == i) ↔ Extended.ofInt i = Extended.ofBinary x := by
  cases x with
  | nan => simp [isWhole, Extended.ofInt, Extended.ofBinary]
  | infinity => simp [isWhole, Extended.ofInt, Extended.ofBinary]
  | finite a m e hm =>
    rw [Extended.ofInt_eq_ofBinary_finite_iff, isWhole, isFinite, toInt, Bool.and_true,
      Bool.and_eq_true, beq_iff_eq, beq_iff_eq]
    constructor
    · rintro ⟨hwhole, hclamp⟩
      -- The ends of the range are not met, so nothing was saturated.
      have hpart : wholePart a m e = i := by
        rw [Range.clamp] at hclamp
        omega
      rw [← hpart, wholePart_eq hwhole]
    · intro h
      have hwhole := mod_eq_zero_of_eq h
      have hpart : wholePart a m e = i := by
        rw [← Int.cast_inj (α := ℚ), wholePart_eq hwhole, h]
      refine ⟨hwhole, ?_⟩
      rw [hpart, Range.clamp]
      omega

end Binary

end TestDeclaration.Number

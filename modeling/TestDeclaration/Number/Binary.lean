/-!
# Binary floating-point numbers

A format fixes how many bits a significand has and how far its exponents reach. `Binary f`
holds the numbers of the format `f`: each finite one is `± significand * 2 ^ exponent` in the
one form that the format allows, so two finite numbers of one sign are the same number exactly
when they are the same data. `ofRatio` rounds a quotient to the nearest number, and a quotient
halfway between two to the one whose significand is even.
-/

namespace TestDeclaration.Number

/-- The powers of natural numbers, by a name that no other library takes over. -/
abbrev natPow : Pow Nat Nat := instPowNat

/-- The powers of integers. -/
abbrev intPow : Pow Int Nat := instPowNat

attribute [local instance] natPow

/-- A binary floating-point format. -/
structure Format where
  /-- The number of bits of a significand. -/
  precision : Nat
  /-- The least exponent, that of the subnormal numbers. -/
  minExponent : Int
  /-- The greatest exponent of a finite number. -/
  maxExponent : Int
  deriving DecidableEq, Repr

namespace Format

/-- Numbers of thirty-two bits. -/
def single : Format := ⟨24, -149, 104⟩

/-- Numbers of sixty-four bits. -/
def double : Format := ⟨53, -1074, 971⟩

/-- The form of a finite number: the significand fills the precision, unless the exponent
is the least one. -/
def Canonical (f : Format) (significand : Nat) (exponent : Int) : Prop :=
  significand < 2 ^ f.precision ∧ f.minExponent ≤ exponent ∧ exponent ≤ f.maxExponent ∧
    (2 ^ (f.precision - 1) ≤ significand ∨ exponent = f.minExponent)

instance (f : Format) (significand : Nat) (exponent : Int) :
    Decidable (f.Canonical significand exponent) :=
  inferInstanceAs (Decidable (_ ∧ _ ∧ _ ∧ _))

end Format

/-- A number of the format `f`. -/
inductive Binary (f : Format) where
  /-- No number. -/
  | nan
  | infinity (negative : Bool)
  | finite (negative : Bool) (significand : Nat) (exponent : Int)
      (canonical : f.Canonical significand exponent)
  deriving DecidableEq

namespace Binary

variable {f : Format}

/-- Whether a number is neither an infinity nor absent. -/
def isFinite : Binary f → Bool
  | .finite .. => true
  | _ => false

/-- The number `± significand * 2 ^ exponent`. A significand one past the precision moves to the
next exponent, and a number past the greatest exponent is infinite. -/
def ofParts (negative : Bool) (significand : Nat) (exponent : Int) : Binary f :=
  if h : f.Canonical significand exponent then .finite negative significand exponent h
  else if h : f.Canonical (significand / 2) (exponent + 1) then
    .finite negative (significand / 2) (exponent + 1) h
  else .infinity negative

/-- Zero with a sign. -/
def zero (negative : Bool) : Binary f := ofParts negative 0 f.minExponent

/-- The whole number nearest to a quotient; of two equally near ones the even one. -/
def roundQuotient (num den : Nat) : Nat :=
  let below := num / den
  let rest := num % den
  if 2 * rest < den then below
  else if den < 2 * rest then below + 1
  else below + below % 2

/-- The greatest `k` with `2 ^ k ≤ num / den`, for a positive quotient. -/
def leadingBit (num den : Nat) : Int :=
  let k : Int := num.log2 - den.log2
  if num * 2 ^ (-k).toNat < den * 2 ^ k.toNat then k - 1 else k

/-- The number nearest to `± num / den`. -/
def ofRatio (f : Format) (negative : Bool) (num den : Nat) : Binary f :=
  if num = 0 then zero negative
  else
    let exponent := max (leadingBit num den - (f.precision - 1 : Nat)) f.minExponent
    ofParts negative
      (roundQuotient (num * 2 ^ (-exponent).toNat) (den * 2 ^ exponent.toNat)) exponent

/-- Equality of numbers: the two zeros are one number, and no number equals an absent one. -/
def numEq : Binary f → Binary f → Bool
  | .infinity a, .infinity b => a == b
  | .finite a m e _, .finite b n k _ => m == n && e == k && (a == b || m == 0)
  | _, _ => false

/-- Equality of numbers, where absent numbers also count as equal. -/
def same (a b : Binary f) : Bool := a.numEq b || (a == .nan && b == .nan)

end Binary

end TestDeclaration.Number

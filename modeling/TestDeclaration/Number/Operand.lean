import TestDeclaration.Number.Binary
import TestDeclaration.Number.Integer

/-!
# Numbers of different kinds side by side

Numbers of all kinds are compared as operands of two kinds: integers, and floating-point numbers
of the widest format. An integer is compared with a floating-point number by converting the
latter to a wide integer, if it has no fraction.
-/

namespace TestDeclaration.Number

attribute [local instance] natPow

namespace Range

/-- The numbers of a hundred and twenty-eight bits with a sign. -/
def wide : Range :=
  ⟨-170141183460469231731687303715884105728, 170141183460469231731687303715884105727⟩

/-- The number of the range nearest to a whole number. -/
def clamp (r : Range) (i : Int) : Int := max r.least (min i r.greatest)

end Range

namespace Binary

variable {f : Format}

/-- The number of another format nearest to a number. -/
def convert (g : Format) : Binary f → Binary g
  | .nan => .nan
  | .infinity negative => .infinity negative
  | .finite negative m e _ => ofRatio g negative (m * 2 ^ e.toNat) (2 ^ (-e).toNat)

/-- Whether a number has a fractional part and that part is zero. An infinity has none. -/
def isWhole : Binary f → Bool
  | .finite _ m e _ => m % 2 ^ (-e).toNat == 0
  | _ => false

/-- A finite number without its fractional part. -/
def wholePart (negative : Bool) (significand : Nat) (exponent : Int) : Int :=
  let whole : Nat := significand * 2 ^ exponent.toNat / 2 ^ (-exponent).toNat
  if negative then -whole else whole

/-- The whole number of a range that a number converts to. The fraction is cut off, a number
beyond an end of the range becomes that end, and an absent number becomes zero. -/
def toInt (r : Range) : Binary f → Int
  | .nan => 0
  | .infinity negative => if negative then r.least else r.greatest
  | .finite negative m e _ => r.clamp (wholePart negative m e)

end Binary

/-- A number as it takes part in a comparison. -/
inductive Operand where
  | integer (i : Int)
  | real (x : Binary .double)
  deriving DecidableEq

/-- Whether two numbers are the same number. -/
def Operand.same : Operand → Operand → Bool
  | .integer i, .integer j => i == j
  | .real x, .real y => x.same y
  | .integer i, .real x | .real x, .integer i =>
    x.isWhole && x.isFinite && x.toInt .wide == i

end TestDeclaration.Number

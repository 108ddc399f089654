import TestDeclaration.Number.Binary

/-!
# Arithmetic of binary numbers

Sums, products, quotients and square roots are the exact results, rounded once. A distance is
composed of such steps. A power is the one operation whose exact result is not computed; it uses
the machine's own function.
-/

namespace TestDeclaration.Number

attribute [local instance] natPow intPow

/-- The greatest number whose square is at most `n`. -/
def floorSqrt (n : Nat) : Nat :=
  if h : n = 0 then 0
  else
    let root := 2 * floorSqrt (n / 4)
    if (root + 1) * (root + 1) ≤ n then root + 1 else root
  termination_by n
  decreasing_by exact Nat.div_lt_self (Nat.pos_of_ne_zero h) (by decide)

namespace Binary

variable {f : Format}

/-- A whole number of units, as `± significand * 2 ^ exponent` counts them in units of
`2 ^ unit`, which is not above the exponent. -/
def inUnits (negative : Bool) (significand : Nat) (exponent unit : Int) : Int :=
  let count : Int := significand * 2 ^ (exponent - unit).toNat
  if negative then -count else count

/-- The number nearest to `count * 2 ^ unit`. -/
def ofUnits (f : Format) (count unit : Int) : Binary f :=
  ofRatio f (count < 0) (count.natAbs * 2 ^ unit.toNat) (2 ^ (-unit).toNat)

/-- The number nearest to a whole number. -/
def ofInt (f : Format) (i : Int) : Binary f := ofUnits f i 0

/-- The number with the other sign. -/
def neg : Binary f → Binary f
  | .nan => .nan
  | .infinity a => .infinity !a
  | .finite a m e canonical => .finite (!a) m e canonical

/-- The sum of two numbers. A sum of zero is positive, unless both numbers are negative. -/
def add : Binary f → Binary f → Binary f
  | .nan, _ | _, .nan => .nan
  | .infinity a, .infinity b => if a = b then .infinity a else .nan
  | .infinity a, .finite .. | .finite .., .infinity a => .infinity a
  | .finite a m e _, .finite b n k _ =>
    let unit := min e k
    let sum := inUnits a m e unit + inUnits b n k unit
    if sum = 0 then zero (a && b) else ofUnits f sum unit

/-- The difference of two numbers. -/
def sub (x y : Binary f) : Binary f := x.add y.neg

/-- Whether a number is zero. -/
def isZero : Binary f → Bool
  | .finite _ m _ _ => m == 0
  | _ => false

/-- The product of two numbers. -/
def mul : Binary f → Binary f → Binary f
  | .nan, _ | _, .nan => .nan
  | .infinity a, .infinity b => .infinity (a != b)
  | .infinity a, x@(.finite b ..) | x@(.finite b ..), .infinity a =>
    if x.isZero then .nan else .infinity (a != b)
  | .finite a m e _, .finite b n k _ =>
    ofRatio f (a != b) (m * n * 2 ^ (e + k).toNat) (2 ^ (-(e + k)).toNat)

/-- Whether one number is at most another. -/
def le : Binary f → Binary f → Bool
  | .nan, _ | _, .nan => false
  | .infinity true, _ | _, .infinity false => true
  | .infinity false, _ | _, .infinity true => false
  | .finite a m e _, .finite b n k _ =>
    inUnits a m e (min e k) ≤ inUnits b n k (min e k)

/-- The quotient of two numbers. -/
def div : Binary f → Binary f → Binary f
  | .nan, _ | _, .nan | .infinity _, .infinity _ => .nan
  | .infinity a, .finite b .. => .infinity (a != b)
  | .finite a .., .infinity b => zero (a != b)
  | .finite a m e _, .finite b n k _ =>
    if n = 0 then if m = 0 then .nan else .infinity (a != b)
    else ofRatio f (a != b) (m * 2 ^ (e - k).toNat) (n * 2 ^ (k - e).toNat)

/-- The square root of `significand * 2 ^ exponent`, rounded. The whole root of the scaled
number has more bits than the format keeps, and one more bit records whether it is exact. -/
def rootOf (f : Format) (significand : Nat) (exponent : Int) : Binary f :=
  let shift := 2 * (f.precision + 2) + (exponent % 2).toNat
  let scaled := significand * 2 ^ shift
  let root := floorSqrt scaled
  let sticky := if root * root = scaled then 2 * root else 2 * root + 1
  let unit := (exponent - shift) / 2 - 1
  ofRatio f false (sticky * 2 ^ unit.toNat) (2 ^ (-unit).toNat)

/-- The square root of a number; a negative number has none, and a zero is its own. -/
def sqrt : Binary f → Binary f
  | .nan | .infinity true => .nan
  | .infinity false => .infinity false
  | x@(.finite negative m e _) =>
    if m = 0 then x else if negative then .nan else rootOf f m e

instance : Add (Binary f) := ⟨add⟩

instance : Sub (Binary f) := ⟨sub⟩

instance : Mul (Binary f) := ⟨mul⟩

instance : Div (Binary f) := ⟨div⟩

/-- How far the square of `root` is above the sum of the squares of two legs. It is computed from
the gap between the root and one leg: the shorter leg if the root is at most twice as long, else the
longer one. -/
def excess (root longer shorter : Binary f) : Binary f :=
  let two := ofInt f 2
  let four := ofInt f 4
  if root.le (two * shorter) then
    let gap := root - shorter
    longer * (two * gap - longer) + (gap - two * (longer - shorter)) * gap
  else
    let gap := root - longer
    two * gap * (longer - two * shorter) + ((four * gap - shorter) * shorter + gap * gap)

/-- The hypotenuse over two legs: the root of the sum of their squares, corrected once by the
excess of its square over twice the root. Every step is rounded. -/
def hypotenuse (longer shorter : Binary f) : Binary f :=
  if shorter.isZero then longer
  else
    let root := (longer * longer + shorter * shorter).sqrt
    root - excess root longer shorter / (ofInt f 2 * root)

/-- The distance of a point with whole coordinates from the origin. -/
def distance (f : Format) (x y : Int) : Binary f :=
  hypotenuse (ofInt f (max x.natAbs y.natAbs : Nat)) (ofInt f (min x.natAbs y.natAbs : Nat))

/-- The leading bit of a full significand, which is not stored. -/
def hiddenBit : Nat := 0x10000000000000

/-- The sixty-four bits that store a number. -/
def toBits : Binary .double → UInt64
  | .nan => 0x7ff8000000000000
  | .infinity negative => signBit negative ||| 0x7ff0000000000000
  | .finite negative m e _ =>
    if m < hiddenBit then signBit negative ||| m.toUInt64
    else signBit negative ||| ((e + 1075).toNat.toUInt64 <<< 52) ||| (m - hiddenBit).toUInt64
where
  /-- The highest bit, set for a negative number. -/
  signBit (negative : Bool) : UInt64 := if negative then 0x8000000000000000 else 0

/-- The number that sixty-four bits store. -/
def ofBits (bits : UInt64) : Binary .double :=
  let negative := decide (bits >>> 63 = 1)
  let field := ((bits >>> 52) &&& 0x7ff).toNat
  let fraction := (bits &&& 0xfffffffffffff).toNat
  if field = 2047 then if fraction = 0 then .infinity negative else .nan
  else if field = 0 then ofParts negative fraction (-1074)
  else ofParts negative (fraction + hiddenBit) ((field : Int) - 1075)

/-- A number raised to a power. -/
def pow (base exponent : Binary .double) : Binary .double :=
  ofBits ((Float.ofBits base.toBits).pow (Float.ofBits exponent.toBits)).toBits

end Binary

end TestDeclaration.Number

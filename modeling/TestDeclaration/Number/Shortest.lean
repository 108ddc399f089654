import TestDeclaration.Number.Decimal

/-!
# Shortest decimals

Every finite binary number has many decimals that round to it. `Binary.shortest` picks one with
the fewest digits, of these the nearest to the number, and the greater of two equally near ones.
`Binary.text` writes it in positional notation.
-/

namespace TestDeclaration.Number

attribute [local instance] natPow

/-- The greatest `k` with `10 ^ k ≤ num / den`, for a positive quotient. -/
def leadingDigit (num den : Nat) : Int :=
  let k : Int := digitCount num - digitCount den
  if num * 10 ^ (-k).toNat < den * 10 ^ k.toNat then k - 1 else k

namespace Binary

variable {f : Format}

/-- The numerator of `significand * 2 ^ exponent`. -/
def numerator (significand : Nat) (exponent : Int) : Nat := significand * 2 ^ exponent.toNat

/-- The denominator of `significand * 2 ^ exponent`. -/
def denominator (exponent : Int) : Nat := 2 ^ (-exponent).toNat

/-- The next decimal of `count` digits on the grid of `10 ^ unit`. Behind the last one comes a
power of ten, which has one digit. -/
def following (negative : Bool) (coefficient count : Nat) (unit : Int) : Decimal :=
  if coefficient + 1 = 10 ^ count then ⟨negative, 1, unit + count⟩
  else ⟨negative, coefficient + 1, unit⟩

/-- The decimal with the given number of digits that stands for `x`, whose magnitude is
`num / den`: of the two neighbours on that grid that round to `x`, the nearer, or the upper one
if both are equally near. -/
def candidate? (x : Binary f) (negative : Bool) (num den count : Nat) : Option Decimal :=
  let unit : Int := leadingDigit num den + 1 - count
  let scaled := num * 10 ^ (-unit).toNat
  let divisor := den * 10 ^ unit.toNat
  let below : Decimal := ⟨negative, scaled / divisor, unit⟩
  let above := following negative (scaled / divisor) count unit
  if below.toBinary f = x then
    if above.toBinary f = x ∧ divisor ≤ 2 * (scaled % divisor) then some above else some below
  else if above.toBinary f = x then some above
  else none

/-- A number of digits that always suffices for a format. -/
def sufficientDigits (f : Format) : Nat := f.precision * 30103 / 100000 + 2

/-- All decimal digits of `± significand * 2 ^ exponent`. -/
def exactDecimal (negative : Bool) (significand : Nat) (exponent : Int) : Decimal :=
  ⟨negative, significand * 2 ^ exponent.toNat * 5 ^ (-exponent).toNat, min exponent 0⟩

/-- The shortest decimal that rounds to a finite number. -/
def shortest (x : Binary f) (negative : Bool) (significand : Nat) (exponent : Int) : Decimal :=
  if significand = 0 then ⟨negative, 0, 0⟩
  else
    let found := (List.range (sufficientDigits f)).findSome? fun i ↦
      candidate? x negative (numerator significand exponent) (denominator exponent) (i + 1)
    found.getD (exactDecimal negative significand exponent)

/-- The text of a number: its shortest decimal in positional notation, or a word. -/
def text : Binary f → List Char
  | .nan => "NaN".toList
  | .infinity false => "inf".toList
  | .infinity true => "-inf".toList
  | x@(.finite negative significand exponent _) =>
    (shortest x negative significand exponent).text

/-- Read a number: a decimal number in any notation, or one of the words that `text` writes. -/
def ofText? (f : Format) (text : List Char) : Option (Binary f) :=
  if text = "NaN".toList then some .nan
  else if text = "inf".toList then some (.infinity false)
  else if text = "-inf".toList then some (.infinity true)
  else (Decimal.ofText? text).map fun d ↦ (d.within f).toBinary f

end Binary

end TestDeclaration.Number

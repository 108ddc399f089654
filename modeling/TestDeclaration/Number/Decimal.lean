import TestDeclaration.Number.Binary
import TestDeclaration.Number.Integer

/-!
# Decimal numbers

A decimal number is a whole number times a power of ten. It is read from text in positional or
exponent notation, rounded to a binary format, and written in positional notation, never with
an exponent.
-/

namespace TestDeclaration.Number

attribute [local instance] natPow

/-- The number `± coefficient * 10 ^ exponent`. -/
structure Decimal where
  negative : Bool
  coefficient : Nat
  exponent : Int
  deriving DecidableEq, Repr

namespace Decimal

/-- The number written by a sign, the digits before the point and the digits behind it. -/
def ofParts (negative : Bool) (whole fraction : List Char) : Decimal :=
  ⟨negative, ofDigits (whole ++ fraction), -(fraction.length : Int)⟩

/-- The number of a binary format nearest to a decimal number. -/
def toBinary (f : Format) (d : Decimal) : Binary f :=
  Binary.ofRatio f d.negative (d.coefficient * 10 ^ d.exponent.toNat)
    (10 ^ (-d.exponent).toNat)

/-- An exponent of ten that takes every positive whole number past the greatest number of a
format, and whose negative takes one past the least number. -/
def reach (f : Format) : Nat := f.minExponent.natAbs + f.maxExponent.natAbs + f.precision

/-- A decimal number with its exponent cut where no number of the format is in reach any more. -/
def within (f : Format) (d : Decimal) : Decimal :=
  let least : Int := -(reach f + digitCount d.coefficient : Nat)
  { d with exponent := max least (min d.exponent (reach f)) }

/-- Split off a leading sign; true means minus. -/
def splitSign : List Char → Bool × List Char
  | '-' :: rest => (true, rest)
  | '+' :: rest => (false, rest)
  | text => (false, text)

/-- Read an exponent: nothing, or the letter `e` in either case, a sign and digits. -/
def exponent? : List Char → Option Int
  | [] => some 0
  | c :: rest =>
    let (negative, digits) := splitSign rest
    if (c = 'e' ∨ c = 'E') ∧ digits ≠ [] ∧ digits.all Char.isDigit then
      some (if negative then -(ofDigits digits : Int) else ofDigits digits)
    else none

/-- Read a decimal number: a sign, digits with at most one point among or around them, and an
exponent. -/
def ofText? (text : List Char) : Option Decimal :=
  let (negative, unsigned) := splitSign text
  let whole := unsigned.takeWhile Char.isDigit
  let rest := unsigned.dropWhile Char.isDigit
  let (fraction, rest) := match rest with
    | '.' :: rest => (rest.takeWhile Char.isDigit, rest.dropWhile Char.isDigit)
    | rest => ([], rest)
  if whole = [] ∧ fraction = [] then none
  else (exponent? rest).map fun e ↦
    let d := ofParts negative whole fraction
    { d with exponent := d.exponent + e }

/-- The digits of a number times a power of ten, in positional notation. -/
def positional (digits : List Char) (exponent : Int) : List Char :=
  if 0 ≤ exponent then digits ++ List.replicate exponent.toNat '0'
  else
    let places := (-exponent).toNat
    if places < digits.length then
      digits.take (digits.length - places) ++ '.' :: digits.drop (digits.length - places)
    else '0' :: '.' :: List.replicate (places - digits.length) '0' ++ digits

/-- A decimal number in positional notation. -/
def text (d : Decimal) : List Char :=
  let unsigned := positional (digits d.coefficient) d.exponent
  if d.negative then '-' :: unsigned else unsigned

end Decimal

end TestDeclaration.Number

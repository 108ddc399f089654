import TestDeclaration.Number.Shortest
import TestDeclaration.Number.Operand
import TestDeclaration.TypeName

/-!
# Scalars

The values that a source can write as one literal: truth values, characters, strings and
numbers of seven kinds.
-/

namespace TestDeclaration

open TestDeclaration.Number

/-- A value without parts and without identity. -/
inductive Scalar where
  | bool (value : Bool)
  | byte (value : UInt8)
  | char (value : Char)
  | short (value : Int16)
  | int (value : Int32)
  | uint (value : UInt32)
  | long (value : Int64)
  | float (value : Binary .single)
  | double (value : Binary .double)
  | string (value : String)
  deriving DecidableEq

namespace Scalar

/-- The type of a scalar. -/
def primitive : Scalar → Primitive
  | .bool _ => .bool
  | .byte _ => .byte
  | .char _ => .char
  | .short _ => .short
  | .int _ => .int
  | .uint _ => .uint
  | .long _ => .long
  | .float _ => .float
  | .double _ => .double
  | .string _ => .string

/-- The text of a scalar: strings and characters as they are, numbers in decimal. -/
def text : Scalar → List Char
  | .bool true => "true".toList
  | .bool false => "false".toList
  | .byte n => digits n.toNat
  | .char c => [c]
  | .short n => integerText n.toInt
  | .int n => integerText n.toInt
  | .uint n => digits n.toNat
  | .long n => integerText n.toInt
  | .float x => x.text
  | .double x => x.text
  | .string s => s.toList

/-- A number for a comparison across kinds; the other scalars are no numbers. -/
def operand? : Scalar → Option Operand
  | .byte n => some (.integer n.toNat)
  | .short n => some (.integer n.toInt)
  | .int n => some (.integer n.toInt)
  | .uint n => some (.integer n.toNat)
  | .long n => some (.integer n.toInt)
  | .float x => some (.real (x.convert .double))
  | .double x => some (.real x)
  | .bool _ | .char _ | .string _ => none

/-- Same kind and same value. The two zeros of a floating-point kind are the same value, and
so are two numbers that are absent. -/
def same : Scalar → Scalar → Bool
  | .float a, .float b => a.same b
  | .double a, .double b => a.same b
  | a, b => a == b

end Scalar

end TestDeclaration

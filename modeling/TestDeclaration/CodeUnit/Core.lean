import TestDeclaration.CodeUnit
import TestDeclaration.Number.Arithmetic
import TestDeclaration.Text.Case

/-!
# The core unit

The unit that is always loaded: the type `Math`, the methods of strings, and the fault types.
-/

namespace TestDeclaration.Core

open TestDeclaration.Native TestDeclaration.Number

/-- The type of ints. -/
def int : TypeName := .primitive .int

/-- The type of longs. -/
def long : TypeName := .primitive .long

/-- The type of doubles. -/
def double : TypeName := .primitive .double

/-- The type of strings. -/
def string : TypeName := .primitive .string

/-- A whole number as an int, or an overflow. -/
def checkedInt (i : Int) : Native (Option Value) := do
  return some (.int (← orRaise (int? i) .overflow))

/-- A whole number as a long, or an overflow. -/
def checkedLong (i : Int) : Native (Option Value) := do
  return some (.scalar (.long (← orRaise (long? i) .overflow)))

/-- A floating-point number as a result. -/
def doubleResult (x : Binary .double) : Native (Option Value) :=
  return some (.scalar (.double x))

/-- A string as a result. -/
def stringResult (text : List Char) : Native (Option Value) :=
  return some (.string (String.ofList text))

/-- The absolute value of an int. -/
def abs (_ : Option Value) (args : List Value) : Native (Option Value) := do
  let n ← intArgument args 0
  checkedInt n.toInt.natAbs

/-- The greater of two ints. -/
def max (_ : Option Value) (args : List Value) : Native (Option Value) := do
  let a ← intArgument args 0
  let b ← intArgument args 1
  return some (.int (if a ≤ b then b else a))

/-- The lesser of two ints. -/
def min (_ : Option Value) (args : List Value) : Native (Option Value) := do
  let a ← intArgument args 0
  let b ← intArgument args 1
  return some (.int (if a ≤ b then a else b))

/-- A double raised to a power. -/
def pow (_ : Option Value) (args : List Value) : Native (Option Value) := do
  let base ← doubleArgument args 0
  let exponent ← doubleArgument args 1
  doubleResult (base.pow exponent)

/-- The square root of a double. -/
def sqrt (_ : Option Value) (args : List Value) : Native (Option Value) := do
  let x ← doubleArgument args 0
  doubleResult x.sqrt

/-- The definition of `Math`. -/
def mathType : TypeDefinition :=
  (TypeDefinition.new (.declared "Math"))
    |>.withMethod .static "Abs" [int] abs
    |>.withMethod .static "Max" [int, int] max
    |>.withMethod .static "Min" [int, int] min
    |>.withMethod .static "Pow" [double, double] pow
    |>.withMethod .static "Sqrt" [double] sqrt

/-- The characters of the string that a method is called on. -/
def targetText (target? : Option Value) : Native (List Char) := do
  let target ← instanceOf target?
  let s ← orRaise target.asString? (.target "Target is not a string")
  return s.toList

/-- The number of characters of a string. -/
def length (target? : Option Value) (_ : List Value) : Native (Option Value) := do
  let text ← targetText target?
  checkedInt text.length

/-- A string in upper case. -/
def toUpper (target? : Option Value) (_ : List Value) : Native (Option Value) := do
  let text ← targetText target?
  stringResult (Text.Case.upper text)

/-- A string in lower case. -/
def toLower (target? : Option Value) (_ : List Value) : Native (Option Value) := do
  let text ← targetText target?
  stringResult (Text.Case.lower text)

/-- Whether one text stands somewhere in another. -/
def occursIn (part : List Char) : List Char → Bool
  | [] => part.isEmpty
  | c :: rest => part.isPrefixOf (c :: rest) || occursIn part rest

/-- Whether a string contains another. -/
def contains (target? : Option Value) (args : List Value) : Native (Option Value) := do
  let part ← stringArgument args 0
  let text ← targetText target?
  return some (.scalar (.bool (occursIn part.toList text)))

/-- The part of a string that starts at an index and has a length, both in characters. -/
def substring (target? : Option Value) (args : List Value) : Native (Option Value) := do
  let text ← targetText target?
  let start ← intArgument args 0
  let count ← intArgument args 1
  if start < 0 ∨ count < 0 then
    raise (.argument "Start index and length cannot be negative")
  let first := start.toInt.toNat
  let size := count.toInt.toNat
  if text.length < first + size then
    raise (.argument "Index and length must refer to a location within the string")
  stringResult ((text.drop first).take size)

/-- The definition of the string methods. -/
def stringType : TypeDefinition :=
  (TypeDefinition.new string)
    |>.withMethod .target "Length" [] length
    |>.withMethod .target "ToUpper" [] toUpper
    |>.withMethod .target "ToLower" [] toLower
    |>.withMethod .target "Contains" [string] contains
    |>.withMethod .target "Substring" [int, int] substring

/-- Construct a fault with a message, or with the default message of its type. -/
def constructFault (type : TypeName) (args : List Value) : Native Value := do
  let message ← if args.isEmpty then pure (Fault.defaultMessage type.name)
    else stringArgument args 0
  create type (Fault.fields ⟨type, message, []⟩)

/-- The definition of a fault type. -/
def faultType (k : Fault.Kind) : TypeDefinition :=
  (TypeDefinition.new k.typeName)
    |>.withConstructor [] constructFault
    |>.withConstructor [string] constructFault

/-- The core unit. -/
def unit : CodeUnit :=
  (Fault.Kind.all.map faultType).foldl CodeUnit.withType
    ((CodeUnit.new "core").withType mathType |>.withType stringType)

/-- What holds of `Math`, of strings and of all fault types holds of all types of the unit. -/
theorem forall_definitions {P : TypeDefinition → Prop} (hmath : P mathType)
    (hstring : P stringType) (hfault : ∀ k, P (faultType k)) : ∀ d ∈ unit.definitions, P d := by
  have hdefinitions : unit.definitions =
      Fault.Kind.all.reverse.map faultType ++ [stringType, mathType] := rfl
  rw [hdefinitions, List.forall_mem_append, List.forall_mem_map]
  simp only [List.forall_mem_cons]
  exact ⟨fun k _ ↦ hfault k, hstring, hmath, fun _ h ↦ absurd h List.not_mem_nil⟩

end TestDeclaration.Core

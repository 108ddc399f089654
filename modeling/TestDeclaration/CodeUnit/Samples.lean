import TestDeclaration.CodeUnit.Core

/-!
# The sample unit

Four types to try declarations on: a calculator, a counter with state, a point and a greeter.
-/

namespace TestDeclaration.Samples

open TestDeclaration.Core TestDeclaration.Native TestDeclaration.Number

/-- The path of the unit, and its name. -/
def path : String := "samples"

/-- The calculator type. -/
def calculator : TypeName := .declared "Samples.Calculator"

/-- The counter type. -/
def counter : TypeName := .declared "Samples.Counter"

/-- The point type. -/
def point : TypeName := .declared "Samples.Point"

/-- The greeter type. -/
def greeter : TypeName := .declared "Samples.Greeter"

/-- An operation on two ints whose exact result has to be an int. -/
def intOperation (f : Int → Int → Int) (_ : Option Value) (args : List Value) :
    Native (Option Value) := do
  let a ← intArgument args 0
  let b ← intArgument args 1
  checkedInt (f a.toInt b.toInt)

/-- The sum of two longs. -/
def addLong (_ : Option Value) (args : List Value) : Native (Option Value) := do
  let a ← longArgument args 0
  let b ← longArgument args 1
  checkedLong (a.toInt + b.toInt)

/-- The quotient of two ints, toward zero. -/
def divide (_ : Option Value) (args : List Value) : Native (Option Value) := do
  let divisor ← intArgument args 1
  if divisor = 0 then raise .divideByZero
  let dividend ← intArgument args 0
  checkedInt (dividend.toInt.tdiv divisor.toInt)

/-- The quotient of two doubles. -/
def divideDouble (_ : Option Value) (args : List Value) : Native (Option Value) := do
  let dividend ← doubleArgument args 0
  let divisor ← doubleArgument args 1
  doubleResult (dividend.div divisor)

/-- The definition of the calculator. -/
def calculatorType : TypeDefinition :=
  (TypeDefinition.new calculator)
    |>.withMethod .static "Add" [int, int] (intOperation (· + ·))
    |>.withMethod .static "Add" [long, long] addLong
    |>.withMethod .static "Subtract" [int, int] (intOperation (· - ·))
    |>.withMethod .static "Multiply" [int, int] (intOperation (· * ·))
    |>.withMethod .static "Divide" [int, int] divide
    |>.withMethod .static "Divide" [double, double] divideDouble

/-- Construct a counter with its first count. -/
def newCounter (type : TypeName) (args : List Value) : Native Value := do
  let first ← if args.isEmpty then pure 0 else intArgument args 0
  create type [("count", .int first)]

/-- The count of a counter. -/
def count (target? : Option Value) : Native Int32 := do
  let target ← instanceOf target?
  let h ← get
  orRaise ((target.asObject?.bind fun r ↦ h.get? r "count").bind Value.asInt?)
    (.argument "Counter has no count")

/-- Give a counter another count. -/
def setCount (target? : Option Value) (n : Int32) : Native Unit := do
  let target ← instanceOf target?
  let r ← orRaise target.asObject? (.argument "Counter is not an object")
  modify fun h ↦ h.set r "count" (.int n)

/-- Count one more. -/
def increment (target? : Option Value) (_ : List Value) : Native (Option Value) := do
  let n ← count target?
  let following ← orRaise (int? (n.toInt + 1)) .overflow
  setCount target? following
  return some (.int following)

/-- Read a counter. -/
def getCount (target? : Option Value) (_ : List Value) : Native (Option Value) := do
  return some (.int (← count target?))

/-- Set a counter to zero, without a result. -/
def reset (target? : Option Value) (_ : List Value) : Native (Option Value) := do
  setCount target? 0
  return none

/-- The definition of the counter. -/
def counterType : TypeDefinition :=
  (TypeDefinition.new counter)
    |>.withConstructor [] newCounter
    |>.withConstructor [int] newCounter
    |>.withMethod .target "Increment" [] increment
    |>.withMethod .target "Get" [] getCount
    |>.withMethod .target "Reset" [] reset

/-- Make a point. -/
def makePoint (type : TypeName) (x y : Int32) : Native Value :=
  create type [("x", .int x), ("y", .int y)]

/-- Construct a point from its coordinates. -/
def newPoint (type : TypeName) (args : List Value) : Native Value := do
  let x ← intArgument args 0
  let y ← intArgument args 1
  makePoint type x y

/-- One coordinate of a point. -/
def coordinate (r : Ref) (name : String) : Native Int32 := do
  let h ← get
  orRaise ((h.get? r name).bind Value.asInt?) (.argument ("Point has no " ++ name))

/-- The coordinates of the point that a method is called on. -/
def coordinates (target? : Option Value) : Native (Int32 × Int32) := do
  let target ← instanceOf target?
  let r ← orRaise target.asObject? (.argument "Point is not an object")
  let x ← coordinate r "x"
  let y ← coordinate r "y"
  return (x, y)

/-- A new point at some distance from a point. -/
def translate (target? : Option Value) (args : List Value) : Native (Option Value) := do
  let (x, y) ← coordinates target?
  let dx ← intArgument args 0
  let x ← orRaise (int? (x.toInt + dx.toInt)) .overflow
  let dy ← intArgument args 1
  let y ← orRaise (int? (y.toInt + dy.toInt)) .overflow
  return some (← makePoint point x y)

/-- The distance of a point from the origin. -/
def distance (target? : Option Value) (_ : List Value) : Native (Option Value) := do
  let (x, y) ← coordinates target?
  doubleResult (Binary.distance .double x.toInt y.toInt)

/-- The definition of the point. -/
def pointType : TypeDefinition :=
  (TypeDefinition.new point)
    |>.withConstructor [int, int] newPoint
    |>.withMethod .target "Translate" [int, int] translate
    |>.withMethod .target "Distance" [] distance

/-- A greeting. -/
def greet (_ : Option Value) (args : List Value) : Native (Option Value) := do
  let name ← stringArgument args 0
  return some (.string ("Hello, " ++ name ++ "!"))

/-- The first character of a name. -/
def initial (_ : Option Value) (args : List Value) : Native (Option Value) := do
  let name ← stringArgument args 0
  let first ← orRaise name.toList.head? (.argument "Name cannot be empty")
  return some (.scalar (.char first))

/-- The definition of the greeter. -/
def greeterType : TypeDefinition :=
  (TypeDefinition.new greeter)
    |>.withMethod .static "Greet" [string] greet
    |>.withMethod .static "Initial" [string] initial

/-- The sample unit. -/
def unit : CodeUnit :=
  (CodeUnit.new path)
    |>.withType calculatorType
    |>.withType counterType
    |>.withType pointType
    |>.withType greeterType

/-- What holds of the four types holds of all types of the unit. -/
theorem forall_definitions {P : TypeDefinition → Prop} (hcalculator : P calculatorType)
    (hcounter : P counterType) (hpoint : P pointType) (hgreeter : P greeterType) :
    ∀ d ∈ unit.definitions, P d := by
  have hdefinitions : unit.definitions =
      [greeterType, pointType, counterType, calculatorType] := rfl
  rw [hdefinitions]
  simp only [List.forall_mem_cons]
  exact ⟨hgreeter, hpoint, hcounter, hcalculator, fun _ h ↦ absurd h List.not_mem_nil⟩

end TestDeclaration.Samples

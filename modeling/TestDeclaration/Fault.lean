import TestDeclaration.Value

/-!
# Faults

A fault is what a target raises instead of returning: a type, a message and further fields. As
a value it is an object whose first field is the message.
-/

namespace TestDeclaration

/-- A fault. -/
structure Fault where
  type : TypeName
  message : String
  extra : Fields
  deriving DecidableEq

namespace Fault

/-- The fields of a fault as an object. -/
def fields (f : Fault) : Fields := ("message", .string f.message) :: f.extra

/-- Make the object of a fault. -/
def alloc (f : Fault) (h : Heap) : Ref × Heap := h.alloc f.type f.fields

/-- The fault in a line of text. -/
def text (f : Fault) : String := f.type.shortName ++ ": " ++ f.message

/-- The fault types that need no declaration. -/
inductive Kind where
  | fault | divideByZero | argument | overflow | nullReturn | target | panic
  deriving DecidableEq, Repr

namespace Kind

/-- All fault types that need no declaration. -/
def all : List Kind :=
  [.fault, .divideByZero, .argument, .overflow, .nullReturn, .target, .panic]

/-- The name of a fault type. -/
def name : Kind → String
  | .fault => "Fault"
  | .divideByZero => "DivideByZeroFault"
  | .argument => "ArgumentFault"
  | .overflow => "OverflowFault"
  | .nullReturn => "NullReturnFault"
  | .target => "TargetFault"
  | .panic => "PanicFault"

/-- A fault type as a type. -/
def typeName (k : Kind) : TypeName := .declared k.name

/-- The message of a fault of some kind that is raised without one, if the kind has one. -/
def usualMessage? : Kind → Option String
  | .divideByZero => some "Attempted to divide by zero."
  | .argument => some "Value does not fall within the expected range."
  | .overflow => some "Arithmetic operation resulted in an overflow."
  | .nullReturn => some "Method Returned Null Value"
  | .fault | .target | .panic => none

end Kind

/-- The message of a fault that is raised without one, by the name of its type. -/
def defaultMessage (typeName : String) : String :=
  match (Kind.all.find? fun k ↦ k.name == typeName).bind Kind.usualMessage? with
  | some message => message
  | none => "Fault of type '" ++ typeName ++ "' was raised."

/-- A fault of a declared type without further fields. -/
def new (typeName message : String) : Fault := ⟨.declared typeName, message, []⟩

/-- A fault of some kind with its default message. -/
def usual (k : Kind) : Fault := new k.name (defaultMessage k.name)

/-- A division by zero. -/
def divideByZero : Fault := usual .divideByZero

/-- A result outside the range of its type. -/
def overflow : Fault := usual .overflow

/-- A target that returned no value. -/
def nullReturn : Fault := usual .nullReturn

/-- Arguments that a target does not accept. -/
def argument (message : String) : Fault := new Kind.argument.name message

/-- An instance that a target does not accept. -/
def target (message : String) : Fault := new Kind.target.name message

/-- Native code that gave up, with its last words if they are text. -/
def panic (message? : Option String) : Fault :=
  new Kind.panic.name (message?.getD "target panicked")

end Fault

end TestDeclaration

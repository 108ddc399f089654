import TestDeclaration.Fault
import TestDeclaration.Value.Text

/-!
# Native code

The bodies of methods and constructors are native code: they read and write the heap, and
end with a result, with a fault, or by giving up. Whoever calls native code sees giving up as a
fault too.
-/

namespace TestDeclaration

/-- How native code ends without a result. -/
inductive Abort where
  | fault (f : Fault)
  /-- The code gave up, perhaps with a text that says why. -/
  | panic (message? : Option String)

namespace Abort

/-- The fault that the caller of native code sees. -/
def asFault : Abort → Fault
  | .fault f => f
  | .panic message? => .panic message?

end Abort

/-- Native code with results in `α`. -/
abbrev Native (α : Type) := ExceptT Abort (StateM Heap) α

namespace Native

/-- End with a fault. -/
def raise {α : Type} (f : Fault) : Native α := throw (.fault f)

/-- The result of an optional value, or a fault without one. -/
def orRaise {α : Type} (a? : Option α) (f : Fault) : Native α :=
  match a? with
  | some a => pure a
  | none => raise f

/-- Run native code. Changes to the heap stay, however the code ends. -/
def perform {α : Type} (code : Native α) (h : Heap) : Except Fault α × Heap :=
  match code.run h with
  | (.ok a, h) => (.ok a, h)
  | (.error abort, h) => (.error abort.asFault, h)

/-- Make a new object. -/
def create (type : TypeName) (fields : Fields) : Native Value := do
  let (r, h) := (← get).alloc type fields
  set h
  return .object r

/-- The argument at an index. -/
def argument (args : List Value) (index : Nat) : Native Value :=
  orRaise args[index]? (.argument ("Missing argument #" ++ toString (index + 1)))

/-- The argument at an index, viewed as one kind of value. -/
def argumentAs {α : Type} (kind : Primitive) (view? : Value → Option α) (args : List Value)
    (index : Nat) : Native α := do
  let value ← argument args index
  let h ← get
  orRaise (view? value) (.argument ("Expected " ++ kind.name ++ ", got " ++ value.typedText h))

/-- The argument at an index, which has to be an int. -/
def intArgument (args : List Value) (index : Nat) : Native Int32 :=
  argumentAs .int Value.asInt? args index

/-- The argument at an index, which has to be a long. -/
def longArgument (args : List Value) (index : Nat) : Native Int64 :=
  argumentAs .long Value.asLong? args index

/-- The argument at an index, which has to be a double. -/
def doubleArgument (args : List Value) (index : Nat) : Native (Number.Binary .double) :=
  argumentAs .double Value.asDouble? args index

/-- The argument at an index, which has to be a string. -/
def stringArgument (args : List Value) (index : Nat) : Native String :=
  argumentAs .string Value.asString? args index

/-- The fault of an instance method that is called without an instance. -/
def noTarget : Fault := .target "Non-static method requires a target"

/-- The instance that a method is called on. -/
def instanceOf (target? : Option Value) : Native Value := orRaise target? noTarget

end Native

end TestDeclaration

import TestDeclaration.CodeUnit

/-!
# Plans

A plan is what a source declares: groups of tests, each a method with the cases to run it on.
All names are resolved and all arguments are made; only the instances that methods are called on
are still to be made, afresh for every case.
-/

namespace TestDeclaration

/-- A value to be made when it is needed. -/
inductive Expression where
  | value (v : Value)
  | construct (c : Constructor) (args : List Value)

namespace Expression

/-- Make the value. -/
def evaluate : Expression → Heap → Except Fault Value × Heap
  | .value v, h => (.ok v, h)
  | .construct c args, h => c.construct args h

end Expression

/-- How a call can end. -/
inductive Channel where
  | returned
  | thrown
  deriving DecidableEq, Repr

/-- What a result is compared with. -/
inductive Criterion where
  | exactly (v : Value)
  | equivalentTo (v : Value)
  | ofType (t : TypeName)
  deriving DecidableEq

/-- What a case expects: how the call ends, and with which result. -/
structure Expectation where
  channel : Channel
  criterion : Criterion
  deriving DecidableEq

namespace Expectation

/-- An expectation in words. -/
def text (h : Heap) : Expectation → String
  | ⟨.returned, .exactly v⟩ => "exactly " ++ v.typedText h ++ " returned"
  | ⟨.returned, .equivalentTo v⟩ => "equivalent of " ++ v.typedText h ++ " returned"
  | ⟨.returned, .ofType t⟩ => "object of type " ++ t.name ++ " returned"
  | ⟨.thrown, .exactly v⟩ => "exactly " ++ v.typedText h ++ " thrown"
  | ⟨.thrown, .equivalentTo v⟩ => "equivalent to " ++ v.typedText h ++ " thrown"
  | ⟨.thrown, .ofType t⟩ => "exception of type " ++ t.name ++ " thrown"

end Expectation

/-- One call of a method and its expected result. -/
structure Case where
  /-- Makes the instance to call the method on. -/
  activator? : Option Expression
  arguments : List Value
  expectation : Expectation

/-- A method and the cases to run it on. -/
structure Test where
  target : Callable
  cases : List Case

/-- Tests under one name. -/
structure Group where
  name : String
  tests : List Test

/-- The groups of a source in the order of their declarations. The first has the empty name. -/
abbrev Plan := List Group

end TestDeclaration

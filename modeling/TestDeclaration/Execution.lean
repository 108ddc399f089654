import TestDeclaration.Comparison
import TestDeclaration.Plan

/-!
# Running plans

Running a plan calls every method on every case, in order, and keeps the outcomes. Verdicts are
drawn from the outcomes and the heap that the whole run leaves: a case passes if its outcome
meets its expectation, a test if all its cases pass, and a group if all its tests do.
-/

namespace TestDeclaration

/-- How a call ended. -/
inductive Outcome where
  | returned (v : Value)
  | thrown (f : Fault)
  deriving DecidableEq

namespace Outcome

/-- An outcome in words. -/
def text (h : Heap) : Outcome → String
  | .returned v => v.typedText h ++ " returned"
  | .thrown f => f.type.shortName ++ " thrown"

/-- The outcome of a call that gave a result or a fault. A method without a result raises. -/
def ofResult : Except Fault (Option Value) → Outcome
  | .ok (some v) => .returned v
  | .ok none => .thrown .nullReturn
  | .error f => .thrown f

end Outcome

namespace Criterion

/-- Whether a value meets a criterion. A comparison that fails counts as not met. -/
def accepts (h : Heap) (c : Criterion) (v : Value) : Bool :=
  match c with
  | .exactly expected => (Comparison.exactlyEqual h expected v).toOption == some true
  | .equivalentTo expected => (Comparison.equivalent h expected v).toOption == some true
  | .ofType t => v.typeName == t

end Criterion

namespace Expectation

/-- Whether an outcome meets an expectation. A fault is compared as the object that it is. -/
def accepts (h : Heap) (e : Expectation) (o : Outcome) : Bool :=
  match e.channel, o with
  | .returned, .returned v => e.criterion.accepts h v
  | .thrown, .thrown f =>
    let (r, h) := f.alloc h
    e.criterion.accepts h (.object r)
  | .returned, .thrown _ | .thrown, .returned _ => false

end Expectation

/-- The outcome of one case. -/
structure CaseResult where
  arguments : List Value
  expectation : Expectation
  outcome : Outcome

/-- The outcomes of the cases of a test. -/
structure TestResult where
  target : Callable
  cases : List CaseResult

/-- The outcomes of the tests of a group. -/
structure GroupResult where
  name : String
  tests : List TestResult

namespace CaseResult

/-- Whether the case passes. -/
def passes (h : Heap) (c : CaseResult) : Bool := c.expectation.accepts h c.outcome

end CaseResult

namespace TestResult

/-- Whether all cases pass. -/
def passes (h : Heap) (t : TestResult) : Bool := t.cases.all (CaseResult.passes h)

/-- The cases that do not pass. -/
def failures (h : Heap) (t : TestResult) : List CaseResult :=
  t.cases.filter fun c ↦ !c.passes h

end TestResult

namespace GroupResult

/-- Whether all tests pass. -/
def passes (h : Heap) (g : GroupResult) : Bool := g.tests.all (TestResult.passes h)

end GroupResult

namespace Case

/-- Call a method on a case, with an instance made for this call. A fault of the activator is
the outcome. -/
def call (c : Case) (target : Callable) (h : Heap) : Outcome × Heap :=
  match c.activator? with
  | none =>
    let (result, h) := target.invoke none c.arguments h
    (.ofResult result, h)
  | some activator =>
    match activator.evaluate h with
    | (.error f, h) => (.thrown f, h)
    | (.ok v, h) =>
      let (result, h) := target.invoke (some v) c.arguments h
      (.ofResult result, h)

/-- Run one case of a method. -/
def run (target : Callable) (c : Case) : StateM Heap CaseResult := do
  let outcome ← c.call target
  return ⟨c.arguments, c.expectation, outcome⟩

end Case

namespace Test

/-- Run all cases of a test. -/
def run (t : Test) : StateM Heap TestResult := do
  return ⟨t.target, ← t.cases.mapM (Case.run t.target)⟩

end Test

namespace Group

/-- Run all tests of a group. -/
def run (g : Group) : StateM Heap GroupResult := do
  return ⟨g.name, ← g.tests.mapM Test.run⟩

end Group

namespace Plan

/-- Run all groups of a plan. The result is their outcomes and the heap that they leave. -/
def run (p : Plan) (h : Heap) : List GroupResult × Heap :=
  (p.mapM Group.run : StateM Heap _).run h

end Plan

end TestDeclaration

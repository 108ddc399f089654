import TestDeclaration.Execution
import TestDeclaration.Text.Line
import TestDeclaration.Timestamp

/-!
# Reports

A report is a list of messages about the outcomes of a run, and a summary of totals. Groups
without tests are left out. Each message has a text; a text can hold newlines that come from the
values in it.
-/

namespace TestDeclaration

/-- Totals over a run. -/
structure Summary where
  groups : Nat
  tests : Nat
  cases : Nat
  failedCases : Nat
  deriving DecidableEq, Repr

namespace Summary

/-- Whether no case failed. -/
def allPassing (s : Summary) : Bool := s.failedCases == 0

/-- The totals of some groups. -/
def ofGroups (h : Heap) (groups : List GroupResult) : Summary where
  groups := groups.length
  tests := (groups.flatMap GroupResult.tests).length
  cases := (groups.flatMap fun g ↦ g.tests.flatMap TestResult.cases).length
  failedCases := (groups.flatMap fun g ↦ g.tests.flatMap (TestResult.failures h)).length

end Summary

/-- One message of a report. -/
inductive Message where
  | blank
  /-- The line above and below a heading, as long as the heading. -/
  | rule (words : String)
  | heading (words : String)
  | testPassing (target : Callable)
  | testFailing (target : Callable)
  | caseFailing (target : Callable) (result : CaseResult)
  | groupPassing (name : String)
  | groupFailing (name : String)
  | failureCount (failed all : Nat)
  | completed (time : Timestamp)

namespace Message

/-- The text of a message. -/
def text (h : Heap) : Message → String
  | .blank => ""
  | .rule words => String.ofList (List.replicate words.length '-')
  | .heading words => words
  | .testPassing target => "Test " ++ target.text ++ " Passing"
  | .testFailing target => "One or more tests in Test " ++ target.text ++ " Failing"
  | .caseFailing target result =>
    let arguments := ", ".intercalate (result.arguments.map (Value.typedText h))
    target.owner.shortName ++ "->" ++ target.method.name ++ "(" ++ arguments ++
      ") failed, expected " ++ result.expectation.text h ++ ", got " ++ result.outcome.text h
  | .groupPassing name => "Test Group " ++ name ++ " Passing"
  | .groupFailing name => "One or More tests in Test Group " ++ name ++ " Failing"
  | .failureCount failed all =>
    toString failed ++ " of " ++ toString all ++ " test cases failing"
  | .completed time => "Completed at " ++ time.text

/-- A heading between two rules. -/
def banner (words : String) : List Message := [.rule words, .heading words, .rule words]

end Message

namespace TestResult

/-- The messages about a test: its status, and each failing case if there is one. -/
def messages (h : Heap) (t : TestResult) : List Message :=
  if t.passes h then [.testPassing t.target]
  else .testFailing t.target :: (t.failures h).map (.caseFailing t.target)

end TestResult

namespace GroupResult

/-- The messages about a group: its heading, its tests and its status. -/
def messages (h : Heap) (g : GroupResult) : List Message :=
  Message.banner ("---> Test Group " ++ g.name ++ " <---") ++ .blank ::
    g.tests.flatMap (TestResult.messages h) ++
    [if g.passes h then .groupPassing g.name else .groupFailing g.name, .blank]

end GroupResult

/-- What a run has to say. -/
structure Report where
  messages : List Message
  summary : Summary

namespace Report

/-- The messages about all of a run. -/
def verdict (s : Summary) : List Message :=
  if s.allPassing then Message.banner "---> All Tests Passing <---"
  else [.failureCount s.failedCases s.cases]

/-- The report on the outcomes of a run that finished at some time. -/
def ofResults (h : Heap) (results : List GroupResult) (finishedAt : Timestamp) : Report :=
  let groups := results.filter fun g ↦ !g.tests.isEmpty
  let summary := Summary.ofGroups h groups
  ⟨.blank :: groups.flatMap (GroupResult.messages h) ++ verdict summary ++
    [.completed finishedAt], summary⟩

/-- The texts of the messages. -/
def texts (r : Report) (h : Heap) : List String := r.messages.map (Message.text h)

/-- The lines that the messages print. -/
def lines (r : Report) (h : Heap) : List String := Text.printedLines (r.texts h)

end Report

end TestDeclaration

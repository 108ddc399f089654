import TestDeclaration.Plan.Reader
import TestDeclaration.Report
import TestDeclaration.Token.Lexer

/-!
# Running a source

From the text of a declaration to what is printed about it. The first error in the text ends the
run before any test is called.
-/

namespace TestDeclaration

/-- Why a source cannot be run. -/
inductive RunError where
  | lex (e : LexError)
  | plan (e : PlanError)
  deriving DecidableEq

namespace RunError

/-- The error with its line and column. -/
def text : RunError → String
  | .lex e => e.text
  | .plan e => e.text

end RunError

/-- The outcomes of a source, and the heap to read them in. -/
structure Results where
  groups : List GroupResult
  heap : Heap

/-- What a run prints, message by message, and how it ends. -/
structure Transcript where
  printed : List String
  result : Except RunError Summary

namespace Run

/-- Read tokens over some loaded units, and run the tests that they declare. -/
def resultsOfTokens (loader : Loader) (library : Library) (tokens : List Token) :
    Except PlanError Results :=
  match Plan.read loader tokens (.start library .empty) with
  | (.error e, _) => .error e
  | (.ok plan, draft) =>
    let (groups, heap) := plan.run draft.heap
    .ok ⟨groups, heap⟩

/-- Read a source over some loaded units, and run the tests that it declares. -/
def results (loader : Loader) (library : Library) (source : String) : Except RunError Results :=
  match Token.lex source with
  | .error e => .error (.lex e)
  | .ok tokens => (resultsOfTokens loader library tokens).mapError .plan

/-- The lines that describe the tokens of a source. -/
def dump (tokens : List Token) : List String := tokens.map fun t ↦ t.kind.description

/-- Run a source, and describe its tokens first if asked to. -/
def transcript (loader : Loader) (library : Library) (printTokens : Bool)
    (finishedAt : Timestamp) (source : String) : Transcript :=
  match Token.lex source with
  | .error e => ⟨[], .error (.lex e)⟩
  | .ok tokens =>
    let dumped := if printTokens then dump tokens else []
    match resultsOfTokens loader library tokens with
    | .error e => ⟨dumped, .error (.plan e)⟩
    | .ok results =>
      let report := Report.ofResults results.heap results.groups finishedAt
      ⟨dumped ++ report.texts results.heap, .ok report.summary⟩

end Run

end TestDeclaration

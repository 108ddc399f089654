import TestDeclaration.Proofs.Execution.Layout
import TestDeclaration.Proofs.Token.Emission

/-!
# The dump stands apart

A run that is asked to describes its tokens first. Each token has a line of its own, because no
description holds a newline, whatever the literal. What the run prints behind these lines and how
it ends is what it prints and how it ends without them.
-/

namespace TestDeclaration.Run

/-- The lines on the screen after a run. -/
def screen (loader : Loader) (library : Library) (printTokens : Bool) (finishedAt : Timestamp)
    (source : String) : List String :=
  Text.printedLines (transcript loader library printTokens finishedAt source).printed

/-- The lines about the tokens, one for each, or none if they are not asked for. -/
def tokenLines (printTokens : Bool) (tokens : List Token) : List String :=
  if printTokens then tokens.map fun t ↦ t.kind.description else []

private theorem printedLines_dump {source : String} {tokens : List Token}
    (hlex : Token.lex source = .ok tokens) (printTokens : Bool) :
    Text.printedLines (if printTokens then dump tokens else []) =
      tokenLines printTokens tokens := by
  cases printTokens with
  | false => rfl
  | true =>
    refine Text.printedLines_of_forall_not_mem fun text htext ↦ ?_
    obtain ⟨t, ht, rfl⟩ := List.mem_map.mp htext
    exact Token.newline_not_mem_description (Token.spellable_of_lex hlex t ht)

/-- The dump of the tokens stands in front of what a run prints, one line for each token, and
changes nothing else. -/
theorem screen_apart_from_dump (loader : Loader) (library : Library) (source : String) :
    (∃ e, Token.lex source = .error e ∧ ∀ printTokens finishedAt,
      screen loader library printTokens finishedAt source = [] ∧
      (transcript loader library printTokens finishedAt source).result = .error (.lex e)) ∨
    ∃ tokens, Token.lex source = .ok tokens ∧
      (∀ t ∈ tokens, '\n' ∉ t.kind.description.toList) ∧
      ((∃ e, resultsOfTokens loader library tokens = .error e ∧ ∀ printTokens finishedAt,
        screen loader library printTokens finishedAt source = tokenLines printTokens tokens ∧
        (transcript loader library printTokens finishedAt source).result = .error (.plan e)) ∨
      ∃ r lines summary, resultsOfTokens loader library tokens = .ok r ∧
        ∀ printTokens finishedAt,
          (Report.ofResults r.heap r.groups finishedAt).lines r.heap =
            lines ++ Text.printedLines ["Completed at " ++ finishedAt.text] ∧
          screen loader library printTokens finishedAt source = tokenLines printTokens tokens ++
            (Report.ofResults r.heap r.groups finishedAt).lines r.heap ∧
          (transcript loader library printTokens finishedAt source).result = .ok summary) := by
  unfold screen
  cases hlex : Token.lex source with
  | error e =>
    refine .inl ⟨e, rfl, fun printTokens finishedAt ↦ ?_⟩
    rw [transcript, hlex]
    exact ⟨rfl, rfl⟩
  | ok tokens =>
    have hlines : ∀ t ∈ tokens, '\n' ∉ t.kind.description.toList :=
      fun t ht ↦ Token.newline_not_mem_description (Token.spellable_of_lex hlex t ht)
    refine .inr ⟨tokens, rfl, hlines, ?_⟩
    cases hr : resultsOfTokens loader library tokens with
    | error e =>
      refine .inl ⟨e, rfl, fun printTokens finishedAt ↦ ?_⟩
      simp only [transcript, hlex, hr, and_true]
      exact printedLines_dump hlex printTokens
    | ok r =>
      obtain ⟨printed, hprinted⟩ := Report.texts_ofResults r.heap r.groups
      let summary := Summary.ofGroups r.heap (r.groups.filter fun g ↦ !g.tests.isEmpty)
      refine .inr ⟨r, Text.printedLines printed, summary, rfl, fun printTokens finishedAt ↦ ?_⟩
      simp only [transcript, hlex, hr]
      refine ⟨?_, ?_, rfl⟩
      · rw [Report.lines, hprinted, Text.printedLines_append]
      · rw [Text.printedLines_append, printedLines_dump hlex, Report.lines]

end TestDeclaration.Run

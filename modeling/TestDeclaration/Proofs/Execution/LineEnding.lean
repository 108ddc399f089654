import TestDeclaration.CommandLine
import TestDeclaration.Proofs.Text.LineEnding
import TestDeclaration.Token.Stream

/-!
# Line endings have no meaning

A source is read in its unified form only. So the way in which its lines end is not seen: neither
in its tokens and their places, nor in its errors, nor in a run of it.
-/

namespace TestDeclaration

open Text LineEnding

/-- Two sources have the same tokens and errors with all places, the same results, the same
transcripts, and the same answers of the program. -/
structure Indistinguishable (source source' : String) : Prop where
  scan : Token.scan source = Token.scan source'
  lex : Token.lex source = Token.lex source'
  stream : Token.Stream.ofSource source = Token.Stream.ofSource source'
  results : ∀ loader library, Run.results loader library source = Run.results loader library source'
  transcript : ∀ loader library printTokens finishedAt,
    Run.transcript loader library printTokens finishedAt source =
      Run.transcript loader library printTokens finishedAt source'
  response : ∀ options path now, CommandLine.runFile options path (.ok source) now =
    CommandLine.runFile options path (.ok source') now

/-- Sources with the same unified form cannot be told apart. -/
theorem indistinguishable_of_unify {source source' : String}
    (h : unify source.toList = unify source'.toList) : Indistinguishable source source' := by
  have hscan : Token.scan source = Token.scan source' := by rw [Token.scan, h, Token.scan]
  have hlex : Token.lex source = Token.lex source' := by rw [Token.lex, hscan, Token.lex]
  have htranscript : ∀ loader library printTokens finishedAt,
      Run.transcript loader library printTokens finishedAt source =
        Run.transcript loader library printTokens finishedAt source' := by
    intro loader library printTokens finishedAt
    rw [Run.transcript, hlex, Run.transcript]
  exact {
    scan := hscan
    lex := hlex
    stream := by rw [Token.Stream.ofSource, h, Token.Stream.ofSource]
    results := fun loader library ↦ by rw [Run.results, hlex, Run.results]
    transcript := htranscript
    response := fun options path now ↦ by
      simp only [CommandLine.runFile, htranscript] }

/-- A source with each newline written as some line ending. -/
def withLineEnding (ending : List Char) (source : String) : String :=
  String.ofList (write ending source.toList)

/-- Line endings are unified in one pass, and sources that differ in them only cannot be told apart.
-/
theorem line_endings_have_no_meaning :
    (∀ source : String, (normalize source).toList = read source.toList ∧
      '\r' ∉ (normalize source).toList ∧ normalize (normalize source) = normalize source ∧
      (normalize source = source ↔ '\r' ∉ source.toList)) ∧
    (∀ a b : String, normalize (a ++ b) = normalize a ++ normalize b ↔
      ¬ (a.toList.getLast? = some '\r' ∧ b.toList.head? = some '\n')) ∧
    ∀ source : String, '\r' ∉ source.toList → ∀ ending, ending = ['\r', '\n'] ∨ ending = ['\r'] →
      normalize (withLineEnding ending source) = source ∧
      Indistinguishable (withLineEnding ending source) source := by
  have hnormalize : ∀ s : String, (normalize s).toList = unify s.toList :=
    fun s ↦ String.toList_ofList
  refine ⟨fun source ↦ ⟨?_, ?_, ?_, ?_⟩, fun a b ↦ ?_, fun source hsource ending hending ↦ ?_⟩
  · rw [hnormalize, unify_eq_read]
  · rw [hnormalize]
    exact return_not_mem_unify _
  · rw [← String.toList_inj, hnormalize, hnormalize, unify_unify]
  · rw [← String.toList_inj, hnormalize, unify_eq_self_iff]
  · rw [← String.toList_inj, String.toList_append, hnormalize, hnormalize, hnormalize,
      String.toList_append]
    exact unify_append_iff
  · have hreturn : HasReturn ending := by
      rcases hending with rfl | rfl
      · exact .pair
      · exact .lone
    have hwritten : unify (withLineEnding ending source).toList = source.toList := by
      rw [withLineEnding, String.toList_ofList, unify_write hreturn hsource]
    refine ⟨?_, indistinguishable_of_unify ?_⟩
    · rw [← String.toList_inj, hnormalize, hwritten]
    · rw [hwritten, unify_eq_self hsource]

/-- A source with an empty line, a comment, a literal of two bytes and an open literal in the last
line is read the same with carriage returns. -/
theorem line_endings_have_no_meaning_in_openLiteral :
    let source := "do::x\n\n\"é\" :\n\"y"
    '\r' ∉ source.toList ∧
    withLineEnding ['\r'] source = "do::x\r\r\"é\" :\r\"y" ∧
    Indistinguishable (withLineEnding ['\r'] source) source ∧
    withLineEnding ['\r', '\n'] source = "do::x\r\n\r\n\"é\" :\r\n\"y" ∧
    Indistinguishable (withLineEnding ['\r', '\n'] source) source := by
  intro source
  have hsource : '\r' ∉ source.toList := by decide
  have hsame := line_endings_have_no_meaning.2.2 source hsource
  refine ⟨hsource, by decide +kernel, (hsame _ (.inr rfl)).2, by decide +kernel, ?_⟩
  exact (hsame _ (.inl rfl)).2

end TestDeclaration

import TestDeclaration.Proofs.CodeUnit.Standard
import TestDeclaration.Proofs.Plan.Simulation
import TestDeclaration.Run

/-!
# Layout has no meaning

Spaces, line ends and comments between tokens decide where the tokens are, and nothing else: what
is read, run and printed is the same for all sources with tokens of the same kinds.
-/

namespace TestDeclaration

/-- Two errors of runs have the same wording, except for their places. -/
def RunError.SameProblem : RunError → RunError → Prop
  | .plan e, .plan e' => e.problem = e'.problem
  | _, _ => False

/-- Two transcripts are the same, except for the time in the last message of a report and for the
place of an error. -/
inductive Transcript.SameButTime (finishedAt finishedAt' : Timestamp) :
    Transcript → Transcript → Prop where
  | ok (printed : List String) (summary : Summary) : SameButTime finishedAt finishedAt'
      ⟨printed ++ ["Completed at " ++ finishedAt.text], .ok summary⟩
      ⟨printed ++ ["Completed at " ++ finishedAt'.text], .ok summary⟩
  | error (printed : List String) {e e' : RunError} : e.SameProblem e' →
      SameButTime finishedAt finishedAt' ⟨printed, .error e⟩ ⟨printed, .error e'⟩

/-- A report ends with the time, and nothing else in it tells the time. -/
theorem Report.texts_ofResults (h : Heap) (results : List GroupResult) :
    ∃ printed : List String, ∀ finishedAt : Timestamp,
      (ofResults h results finishedAt).texts h =
        printed ++ ["Completed at " ++ finishedAt.text] := by
  let groups := results.filter fun g ↦ !g.tests.isEmpty
  let front := .blank :: groups.flatMap (GroupResult.messages h) ++ verdict (.ofGroups h groups)
  refine ⟨front.map (Message.text h), fun finishedAt ↦ ?_⟩
  exact List.map_append

namespace Run

variable {source source' : String} {tokens tokens' : List Token}
  (hlex : Token.lex source = .ok tokens) (hlex' : Token.lex source' = .ok tokens')
  (hkinds : tokens.map Token.kind = tokens'.map Token.kind) (loader : Loader) (library : Library)

include hkinds

private theorem dump_eq : dump tokens = dump tokens' := by
  have hdump : ∀ ts : List Token, dump ts = (ts.map Token.kind).map TokenKind.description := by
    intro ts
    rw [List.map_map]
    rfl
  rw [hdump, hdump, hkinds]

private theorem resultsOfTokens_same :
    EndAkin (fun e e' ↦ e.problem = e'.problem) Eq (resultsOfTokens loader library tokens)
      (resultsOfTokens loader library tokens') := by
  obtain ⟨hd, hends⟩ := Plan.read_same hkinds loader library .empty
  unfold resultsOfTokens
  generalize Plan.read loader tokens (.start library .empty) = r at hd hends ⊢
  generalize Plan.read loader tokens' (.start library .empty) = r' at hd hends ⊢
  obtain ⟨_, d⟩ := r
  obtain ⟨_, _⟩ := r'
  obtain rfl : d = _ := hd
  cases hends with
  | ok hp =>
    cases hp
    exact .ok rfl
  | error he => exact .error he.1

include hlex hlex'

private theorem results_same :
    EndAkin RunError.SameProblem Eq (results loader library source)
      (results loader library source') := by
  have hsame := resultsOfTokens_same hkinds loader library
  unfold results
  rw [hlex, hlex']
  simp only
  generalize resultsOfTokens loader library tokens = r at hsame ⊢
  generalize resultsOfTokens loader library tokens' = r' at hsame ⊢
  cases hsame with
  | ok hr => exact .ok hr
  | error he => exact .error he

private theorem transcript_same (printTokens : Bool) (finishedAt finishedAt' : Timestamp) :
    Transcript.SameButTime finishedAt finishedAt'
      (transcript loader library printTokens finishedAt source)
      (transcript loader library printTokens finishedAt' source') := by
  have hsame := resultsOfTokens_same hkinds loader library
  unfold transcript
  rw [hlex, hlex']
  simp only [dump_eq hkinds]
  generalize resultsOfTokens loader library tokens = r at hsame ⊢
  generalize resultsOfTokens loader library tokens' = r' at hsame ⊢
  cases hsame with
  | @ok results _ hr =>
    cases hr
    obtain ⟨printed, hprinted⟩ := Report.texts_ofResults results.heap results.groups
    simp only [hprinted, ← List.append_assoc]
    exact .ok _ _
  | error he => exact .error _ he

end Run

/-- Tokens of the same kinds at any places have the same plan or the same problem, the same results
and the same report. -/
theorem same_meaning_of_same_kinds {tokens tokens' : List Token}
    (hkinds : tokens.map Token.kind = tokens'.map Token.kind) (loader : Loader)
    (library : Library) :
    (∀ heap,
      (Plan.read loader tokens (.start library heap)).2 =
        (Plan.read loader tokens' (.start library heap)).2 ∧
      EndAkin (fun e e' ↦ e.problem = e'.problem ∧ Plan.SameSite tokens tokens' e.span e'.span) Eq
        (Plan.read loader tokens (.start library heap)).1
        (Plan.read loader tokens' (.start library heap)).1) ∧
    (∀ kinds h k, library.Constructs (Constructor.Local kinds) →
      loader.Constructs (Constructor.Local kinds) → ∃ R : Pairing,
        (Plan.read loader tokens (.start library h)).2.heap.Corresponds kinds R
          (Plan.read loader tokens' (.start library k)).2.heap ∧
        (Plan.read loader tokens (.start library h)).2.library =
          (Plan.read loader tokens' (.start library k)).2.library ∧
        EndAkin (fun e e' ↦ e.problem.message = e'.problem.message ∧
            Plan.SameSite tokens tokens' e.span e'.span) (Plan.Akin (.upTo kinds) R)
          (Plan.read loader tokens (.start library h)).1
          (Plan.read loader tokens' (.start library k)).1) ∧
    ∀ source source', Token.lex source = .ok tokens → Token.lex source' = .ok tokens' →
      EndAkin RunError.SameProblem Eq (Run.results loader library source)
        (Run.results loader library source') ∧
      ∀ printTokens finishedAt finishedAt', Transcript.SameButTime finishedAt finishedAt'
        (Run.transcript loader library printTokens finishedAt source)
        (Run.transcript loader library printTokens finishedAt' source') := by
  refine ⟨Plan.read_same hkinds loader library, fun kinds h k hl hloader ↦ ?_,
    fun source source' hlex hlex' ↦ ⟨?_, ?_⟩⟩
  · exact Plan.read_same_upTo hkinds loader library hl hloader h k
  · exact Run.results_same hlex hlex' hkinds loader library
  · exact Run.transcript_same hlex hlex' hkinds loader library

/-- A source on one line. -/
def oneLine : String := "using \"samples\"; do Samples.Counter -> Get: case() expect new();"

/-- The same declaration on several lines, with a comment. -/
def severalLines : String :=
  "using \"samples\";\n\ndo Samples.Counter -> Get: :: no instance\n  case( ) expect new( ) ;\n"

/-- A declaration has the same results on one line and on several ones, and it is read to the same
plan up to objects if another heap has an object already. -/
theorem same_meaning_on_severalLines :
    (∃ r, Run.results .standard .initial oneLine = .ok r ∧
      Run.results .standard .initial severalLines = .ok r) ∧
    ∃ R : Pairing, ∃ plan plan' d d',
      Plan.read .standard (Token.scan oneLine).tokens (.start .initial .empty) = (.ok plan, d) ∧
      Plan.read .standard (Token.scan severalLines).tokens (.start .initial ⟨#[[]]⟩) =
        (.ok plan', d') ∧
      plan.Akin (.upTo TypeName.IsDeclared) R plan' := by
  have hkinds : (Token.scan oneLine).tokens.map Token.kind =
      (Token.scan severalLines).tokens.map Token.kind := by decide +kernel
  have hlex : Token.lex oneLine = .ok (Token.scan oneLine).tokens := by decide +kernel
  have hlex' : Token.lex severalLines = .ok (Token.scan severalLines).tokens := by decide +kernel
  have hinitial : Library.initial.Constructs (Constructor.Local TypeName.IsDeclared) :=
    fun u hu ↦ (Library.contained_initial u hu).constructs
  have hloader : Loader.standard.Constructs (Constructor.Local TypeName.IsDeclared) :=
    fun _ _ hu ↦ (Loader.contained_standard hu).constructs
  obtain ⟨-, hread, hrun⟩ := same_meaning_of_same_kinds hkinds Loader.standard Library.initial
  constructor
  · have hok : (Run.results .standard .initial oneLine).isOk = true := by decide +kernel
    obtain ⟨hresults, -⟩ := hrun _ _ hlex hlex'
    generalize Run.results .standard .initial oneLine = r at hok hresults ⊢
    generalize Run.results .standard .initial severalLines = r' at hresults ⊢
    cases hresults with
    | ok hr => exact ⟨_, rfl, hr ▸ rfl⟩
    | error => cases hok
  · have hok : (Plan.read .standard (Token.scan oneLine).tokens
        (.start .initial .empty)).1.isOk = true := by decide +kernel
    obtain ⟨R, -, -, hends⟩ := hread _ .empty ⟨#[[]]⟩ hinitial hloader
    generalize Plan.read .standard (Token.scan oneLine).tokens (.start .initial .empty) = r
      at hok hends ⊢
    generalize Plan.read .standard (Token.scan severalLines).tokens
      (.start .initial ⟨#[[]]⟩) = r' at hends ⊢
    obtain ⟨_, d⟩ := r
    obtain ⟨_, d'⟩ := r'
    cases hends with
    | ok hp => exact ⟨R, _, _, d, d', rfl, rfl, hp⟩
    | error => cases hok

end TestDeclaration

import TestDeclaration.Proofs.Execution.Independence
import TestDeclaration.Proofs.Plan.Outline
import TestDeclaration.Run

/-!
# From the text to the totals

A run asks what its plan asks: group by group, test by test and case by case, in order. As the plan
has the outline of its text, the totals of a report can be read off the keywords of the text; only
the number of failed cases depends on the outcomes.
-/

namespace TestDeclaration

/-! ### What is asked -/

/-- What a case asks: what a method gives for some arguments. -/
def Case.asked (c : Case) : List Value × Expectation := (c.arguments, c.expectation)

/-- What a test asks: its cases, of its method. -/
def Test.asked (t : Test) : Callable × List (List Value × Expectation) :=
  (t.target, t.cases.map Case.asked)

/-- What a group asks: its tests, under its name. -/
def Group.asked (g : Group) : String × List (Callable × List (List Value × Expectation)) :=
  (g.name, g.tests.map Test.asked)

/-- The question that the outcome of a case answers. -/
def CaseResult.asked (r : CaseResult) : List Value × Expectation := (r.arguments, r.expectation)

/-- The questions that the outcomes of a test answer. -/
def TestResult.asked (r : TestResult) : Callable × List (List Value × Expectation) :=
  (r.target, r.cases.map CaseResult.asked)

/-- The questions that the outcomes of a group answer. -/
def GroupResult.asked (r : GroupResult) :
    String × List (Callable × List (List Value × Expectation)) :=
  (r.name, r.tests.map TestResult.asked)

/-- A loop whose steps answer what they are asked answers all that it is asked, in order. -/
theorem map_run_mapM {α β γ : Type} {question : α → γ} {answered : β → γ}
    {step : α → StateM Heap β} (hstep : ∀ a h, answered ((step a).run h).1 = question a)
    (l : List α) (h : Heap) : ((l.mapM step).run h).1.map answered = l.map question := by
  induction l generalizing h with
  | nil => rfl
  | cons a rest ih =>
    rw [List.mapM_cons, List.map_cons, ← hstep a h, ← ih ((step a).run h).2]
    rfl

private theorem Test.asked_run (t : Test) (h : Heap) : (t.run.run h).1.asked = t.asked := by
  have hcase : ∀ c h, ((Case.run t.target c).run h).1.asked = c.asked := fun _ _ ↦ rfl
  exact congrArg (Prod.mk t.target) (map_run_mapM hcase t.cases h)

private theorem Group.asked_run (g : Group) (h : Heap) : (g.run.run h).1.asked = g.asked :=
  congrArg (Prod.mk g.name) (map_run_mapM Test.asked_run g.tests h)

/-- A run answers what its plan asks. -/
theorem Plan.map_asked_run (p : Plan) (h : Heap) :
    (p.run h).1.map GroupResult.asked = p.map Group.asked :=
  map_run_mapM Group.asked_run p h

section Answers

variable {results : List GroupResult} {p : Plan}
  (h : results.map GroupResult.asked = p.map Group.asked)

include h

private theorem map_asked_tests :
    (results.flatMap GroupResult.tests).map TestResult.asked =
      (p.flatMap Group.tests).map Test.asked := by
  have htests := congrArg (List.flatMap Prod.snd) h
  simpa only [List.flatMap_map, List.map_flatMap, GroupResult.asked, Group.asked] using htests

private theorem map_asked_cases :
    (caseResults results).map CaseResult.asked =
      (p.flatMap fun g ↦ g.tests.flatMap Test.cases).map Case.asked := by
  have hcases := congrArg (List.flatMap Prod.snd) (map_asked_tests h)
  simpa only [caseResults, List.flatMap_map, List.map_flatMap, List.flatMap_assoc,
    TestResult.asked, Test.asked] using hcases

/-- As many groups of a run have tests as groups of its plan. -/
theorem countP_tests_eq :
    results.countP (fun g ↦ !g.tests.isEmpty) = p.countP (fun g ↦ !g.tests.isEmpty) := by
  have hcount := congrArg (List.countP fun question ↦ !question.2.isEmpty) h
  rw [List.countP_map, List.countP_map] at hcount
  simpa only [Function.comp_def, GroupResult.asked, Group.asked, List.isEmpty_map] using hcount

end Answers

/-! ### Totals -/

/-- Groups without tests can be left out of a list of things in tests. -/
theorem flatMap_tests_filter {α : Type} (f : TestResult → List α) (groups : List GroupResult) :
    (groups.filter fun g ↦ !g.tests.isEmpty).flatMap (fun g ↦ g.tests.flatMap f) =
      groups.flatMap fun g ↦ g.tests.flatMap f := by
  induction groups with
  | nil => rfl
  | cons g rest ih =>
    by_cases hg : g.tests.isEmpty
    · rw [List.filter_cons_of_neg (by simp [hg]), ih, List.flatMap_cons, List.isEmpty_iff.mp hg]
      rfl
    · rw [List.filter_cons_of_pos (by simp [hg]), List.flatMap_cons, List.flatMap_cons, ih]

/-- The failing cases of all tests are those among all cases that do not pass. -/
theorem flatMap_failures (h : Heap) (results : List GroupResult) :
    (results.flatMap fun g ↦ g.tests.flatMap (TestResult.failures h)) =
      (caseResults results).filter fun r ↦ !r.passes h := by
  rw [caseResults, List.filter_flatMap]
  congr 1
  funext g
  rw [List.filter_flatMap]
  rfl

/-- The totals of a report are those of all groups, except that only groups with tests count. -/
theorem Report.summary_ofResults (h : Heap) (results : List GroupResult) (time : Timestamp) :
    (Report.ofResults h results time).summary =
      { groups := results.countP fun g ↦ !g.tests.isEmpty
        tests := (results.flatMap GroupResult.tests).length
        cases := (caseResults results).length
        failedCases := (caseResults results).countP fun r ↦ !r.passes h } := by
  have htests := flatMap_tests_filter (fun t ↦ [t]) results
  simp only [List.flatMap_singleton'] at htests
  unfold Report.ofResults Summary.ofGroups
  simp only [htests, flatMap_tests_filter, flatMap_failures, List.countP_eq_length_filter,
    caseResults]

namespace Run

variable {loader : Loader} {library : Library} {source : String} {tokens : List Token}
  {plan : Plan} {d : Draft}

/-- A source that is read is reported on. -/
theorem result_of_read (printTokens : Bool) (finishedAt : Timestamp)
    (hlex : Token.lex source = .ok tokens)
    (hread : Plan.read loader tokens (.start library .empty) = (.ok plan, d)) :
    (transcript loader library printTokens finishedAt source).result =
      .ok (Report.ofResults (plan.run d.heap).2 (plan.run d.heap).1 finishedAt).summary := by
  simp only [transcript, resultsOfTokens, hlex, hread]

/-- Groups, tests and cases are as many as their keywords in the plan, in the results and in the
summary. -/
theorem totals_of_read (printTokens : Bool) (finishedAt : Timestamp)
    (hlex : Token.lex source = .ok tokens)
    (hread : Plan.read loader tokens (.start library .empty) = (.ok plan, d)) :
    let kinds := tokens.map Token.kind
    let ran := plan.run d.heap
    plan.length = kinds.count (.keyword .testGroup) + 1 ∧
    (plan.flatMap Group.tests).length = kinds.count (.keyword .perform) ∧
    (plan.flatMap fun g ↦ g.tests.flatMap Test.cases).length = kinds.count (.keyword .testCase) ∧
    ran.1.map GroupResult.asked = plan.map Group.asked ∧
    (transcript loader library printTokens finishedAt source).result = .ok
      { groups := (kinds.splitOn (.keyword .testGroup)).countP (.keyword .perform ∈ ·)
        tests := kinds.count (.keyword .perform)
        cases := kinds.count (.keyword .testCase)
        failedCases := (caseResults ran.1).countP fun r ↦ !r.passes ran.2 } := by
  intro kinds ran
  have hasked : ran.1.map GroupResult.asked = plan.map Group.asked := plan.map_asked_run d.heap
  have htests : (plan.flatMap Group.tests).length = kinds.count (.keyword .perform) :=
    Plan.length_tests_of_read hread
  have hcases : (plan.flatMap fun g ↦ g.tests.flatMap Test.cases).length =
      kinds.count (.keyword .testCase) := Plan.length_cases_of_read hread
  refine ⟨Plan.length_of_read hread, htests, hcases, hasked, ?_⟩
  have htests' := congrArg List.length (map_asked_tests hasked)
  have hcases' := congrArg List.length (map_asked_cases hasked)
  rw [List.length_map, List.length_map] at htests' hcases'
  rw [result_of_read printTokens finishedAt hlex hread, Report.summary_ofResults,
    countP_tests_eq hasked, Plan.countP_tests_of_read hread, htests', htests, hcases', hcases]

/-- Three groups: the one without a name, an empty one and a third. One of the cases fails. -/
def threeGroups : String :=
  "do string -> Length: on \"abc\": case() expect 3, case() expect 4;\n" ++
    "test_group empty; test_group more; do Math -> Abs: case(-1) expect 1;"

/-- Of the three groups two have tests, with three cases, of which one fails. -/
theorem totals_of_threeGroups :
    ∃ tokens plan d, Token.lex threeGroups = .ok tokens ∧
      Plan.read .standard tokens (.start .initial .empty) = (.ok plan, d) ∧
      plan.length = 3 ∧ (plan.flatMap Group.tests).length = 2 ∧
      (plan.flatMap fun g ↦ g.tests.flatMap Test.cases).length = 3 ∧
      (caseResults (plan.run d.heap).1).countP (fun r ↦ !r.passes (plan.run d.heap).2) = 1 ∧
      (transcript .standard .initial false ⟨0⟩ threeGroups).result = .ok ⟨2, 2, 3, 1⟩ := by
  have hlex : Token.lex threeGroups = .ok (Token.scan threeGroups).tokens := by decide +kernel
  have hok : (Plan.read .standard (Token.scan threeGroups).tokens
      (.start .initial .empty)).1.isOk = true := by decide +kernel
  have hresult : (transcript .standard .initial false ⟨0⟩ threeGroups).result =
      .ok ⟨2, 2, 3, 1⟩ := by decide +kernel
  have hcounts : ((Token.scan threeGroups).tokens.map Token.kind).count (.keyword .testGroup) = 2 ∧
      ((Token.scan threeGroups).tokens.map Token.kind).count (.keyword .perform) = 2 ∧
      ((Token.scan threeGroups).tokens.map Token.kind).count (.keyword .testCase) = 3 := by
    decide +kernel
  rcases hread : Plan.read .standard (Token.scan threeGroups).tokens (.start .initial .empty) with
    ⟨_ | plan, d⟩
  · rw [hread] at hok
    cases hok
  · obtain ⟨hgroups, htests, hcases, -, htotals⟩ := totals_of_read false ⟨0⟩ hlex hread
    rw [hresult] at htotals
    have hfailed := congrArg Summary.failedCases (Except.ok.inj htotals)
    refine ⟨_, plan, d, hlex, hread, ?_, ?_, ?_, hfailed.symm, hresult⟩
    · rw [hgroups, hcounts.1]
    · rw [htests, hcounts.2.1]
    · rw [hcases, hcounts.2.2]

end Run

end TestDeclaration

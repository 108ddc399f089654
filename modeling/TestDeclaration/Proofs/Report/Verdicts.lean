import TestDeclaration.Proofs.Execution.Totals

/-!
# The report tells the verdicts

A report tells how cases, tests, groups and the whole run went, and each of the four is found anew
from the outcomes. They agree: messages about failing cases stand exactly where a status says that
something fails, and there are as many of them as the totals count.
-/

namespace TestDeclaration

/-- Whether a message is about a failing case. -/
def Message.isFailure : Message → Bool
  | .caseFailing .. => true
  | _ => false

/-- What is told of a test: that it passes, if all its cases do, and else that it fails, with a
message for each failing case, in order. -/
inductive TestResult.Told (h : Heap) (t : TestResult) : List Message → Prop where
  | passing : (∀ c ∈ t.cases, c.passes h) → Told h t [.testPassing t.target]
  | failing : (∃ c ∈ t.cases, ¬ c.passes h) → Told h t
      (.testFailing t.target ::
        (t.cases.filter fun c ↦ ¬ c.passes h).map (.caseFailing t.target))

/-- What is told of a group: its name, each of its tests in order, and that the group passes, if no
message was about a failing case, or else that it fails. -/
inductive GroupResult.Told (h : Heap) (g : GroupResult) : List Message → Prop where
  | passing {parts : List (List Message)} : List.Forall₂ (TestResult.Told h) g.tests parts →
      (∀ m ∈ parts.flatten, ¬ m.isFailure) → Told h g
        (Message.banner ("---> Test Group " ++ g.name ++ " <---") ++ .blank :: parts.flatten ++
          [.groupPassing g.name, .blank])
  | failing {parts : List (List Message)} : List.Forall₂ (TestResult.Told h) g.tests parts →
      (∃ m ∈ parts.flatten, m.isFailure) → Told h g
        (Message.banner ("---> Test Group " ++ g.name ++ " <---") ++ .blank :: parts.flatten ++
          [.groupFailing g.name, .blank])

/-- What is told of a whole run: that all tests pass, if no case failed, or else how many did. -/
inductive Summary.Told (s : Summary) : List Message → Prop where
  | passing : s.failedCases = 0 → Told s (Message.banner "---> All Tests Passing <---")
  | failing : s.failedCases ≠ 0 → Told s [.failureCount s.failedCases s.cases]

variable {h : Heap} {t : TestResult} {g : GroupResult}

/-! ### Tests -/

/-- A test passes if it has no failing case. -/
theorem TestResult.failures_eq_nil_iff : t.failures h = [] ↔ t.passes h := by
  simp [failures, passes, List.filter_eq_nil_iff]

private theorem TestResult.told_messages (h : Heap) (t : TestResult) : t.Told h (t.messages h) := by
  unfold messages
  split
  · next hp => exact .passing (List.all_eq_true.mp hp)
  · next hp =>
    have hfailing : ∃ c ∈ t.cases, ¬ c.passes h := by
      rw [passes, List.all_eq_true, not_forall] at hp
      simpa using hp
    have htold := Told.failing hfailing
    simp only [Bool.not_eq_true, Bool.decide_eq_false] at htold
    exact htold

/-- There are as many messages about failing cases of a test as it has such cases. -/
theorem TestResult.countP_isFailure_messages (h : Heap) (t : TestResult) :
    (t.messages h).countP Message.isFailure = (t.failures h).length := by
  unfold messages
  split
  · next hp =>
    rw [failures_eq_nil_iff.mpr hp]
    rfl
  · rw [List.countP_cons_of_neg Bool.false_ne_true, List.countP_map, List.countP_eq_length.mpr]
    exact fun _ _ ↦ rfl

/-! ### Groups -/

/-- Messages about failing cases stand exactly in what is told of a test that fails. -/
theorem TestResult.exists_isFailure_iff :
    (∃ m ∈ t.messages h, m.isFailure) ↔ ¬ t.passes h := by
  rw [← List.countP_pos_iff, countP_isFailure_messages, List.length_pos_iff, ne_eq,
    failures_eq_nil_iff]

private theorem GroupResult.told_messages (h : Heap) (g : GroupResult) :
    g.Told h (g.messages h) := by
  have hparts : List.Forall₂ (TestResult.Told h) g.tests (g.tests.map (TestResult.messages h)) := by
    rw [List.forall₂_map_right_iff, List.forall₂_same]
    exact fun t _ ↦ t.told_messages h
  have hfails : (∃ m ∈ (g.tests.map (TestResult.messages h)).flatten, m.isFailure) ↔
      ¬ g.passes h := by
    rw [passes, List.all_eq_true, ← List.flatMap_def]
    simp only [List.mem_flatMap, not_forall, ← TestResult.exists_isFailure_iff]
    constructor
    · rintro ⟨m, ⟨t, ht, hm⟩, hf⟩
      exact ⟨t, ht, m, hm, hf⟩
    · rintro ⟨t, ht, m, hm, hf⟩
      exact ⟨m, ⟨t, ht, hm⟩, hf⟩
  unfold messages
  rw [List.flatMap_def]
  split
  · next hp =>
    refine .passing hparts fun m hm hf ↦ ?_
    exact hfails.mp ⟨m, hm, hf⟩ hp
  · next hp => exact .failing hparts (hfails.mpr hp)

private theorem GroupResult.countP_isFailure_messages (h : Heap) (g : GroupResult) :
    (g.messages h).countP Message.isFailure = (g.tests.flatMap (TestResult.failures h)).length := by
  have hstatus : [if g.passes h then .groupPassing g.name else .groupFailing g.name,
      Message.blank].countP Message.isFailure = 0 := by
    split <;> rfl
  have hbanner : (Message.banner ("---> Test Group " ++ g.name ++ " <---")).countP
      Message.isFailure = 0 := rfl
  rw [messages, List.countP_append, List.countP_append, hstatus, hbanner,
    List.countP_cons_of_neg (by decide), List.countP_flatMap, List.length_flatMap]
  simp only [Function.comp_def, TestResult.countP_isFailure_messages, Nat.zero_add, Nat.add_zero]

/-- What is told of a group is not what is told of the whole run. -/
theorem GroupResult.not_mem_messages (h : Heap) (g : GroupResult) :
    .heading "---> All Tests Passing <---" ∉ g.messages h ∧
      ∀ failed all, .failureCount failed all ∉ g.messages h := by
  have htest : ∀ t : TestResult, .heading "---> All Tests Passing <---" ∉ t.messages h ∧
      ∀ failed all, .failureCount failed all ∉ t.messages h := by
    intro t
    unfold TestResult.messages
    split <;> simp
  have hname : "---> All Tests Passing <---" ≠ "---> Test Group " ++ g.name ++ " <---" := by
    intro heq
    have hchars := congrArg String.toList heq
    simp [String.toList_append] at hchars
  have hstatus : ∀ m : Message, (∀ name, m ≠ .groupPassing name) →
      (∀ name, m ≠ .groupFailing name) →
      m ≠ if g.passes h then .groupPassing g.name else .groupFailing g.name := by
    intro m hpassing hfailing
    split
    · exact hpassing _
    · exact hfailing _
  constructor
  · simp [messages, Message.banner, hname, fun t ↦ (htest t).1, hstatus]
  · intro failed all
    simp [messages, Message.banner, fun t ↦ (htest t).2, hstatus]

/-! ### Runs -/

private theorem Summary.told_verdict (s : Summary) : s.Told (Report.verdict s) := by
  unfold Report.verdict allPassing
  split
  · next hp => exact .passing (beq_iff_eq.mp hp)
  · next hp => exact .failing fun hs ↦ hp (beq_iff_eq.mpr hs)

/-- It is told that all tests pass if no case failed. -/
theorem Report.heading_mem_verdict {s : Summary} :
    .heading "---> All Tests Passing <---" ∈ verdict s ↔ s.failedCases = 0 := by
  unfold verdict Summary.allPassing
  split
  · next hp => simp [Message.banner, beq_iff_eq.mp hp]
  · next hp => simpa using hp

/-- The number of failed cases is told if there are any. -/
theorem Report.failureCount_mem_verdict {s : Summary} {failed all : Nat} :
    .failureCount failed all ∈ verdict s ↔
      s.failedCases ≠ 0 ∧ failed = s.failedCases ∧ all = s.cases := by
  unfold verdict Summary.allPassing
  split
  · next hp => simp [Message.banner, beq_iff_eq.mp hp]
  · next hp => simp [beq_eq_false_iff_ne.mp (Bool.eq_false_iff.mpr hp)]

private theorem Report.countP_isFailure_verdict (s : Summary) :
    (verdict s).countP Message.isFailure = 0 := by
  unfold verdict
  split <;> rfl

/-- No case failed if all tests pass. -/
theorem failedCases_eq_zero_iff (h : Heap) (results : List GroupResult) (finishedAt : Timestamp) :
    (Report.ofResults h results finishedAt).summary.failedCases = 0 ↔
      ∀ g ∈ results, ∀ t ∈ g.tests, t.passes h := by
  rw [Report.summary_ofResults, List.countP_eq_zero]
  simp only [caseResults, List.mem_flatMap, TestResult.passes, List.all_eq_true]
  constructor
  · intro hall g hg t ht c hc
    simpa using hall c ⟨g, hg, t, ht, hc⟩
  · rintro hall c ⟨g, hg, t, ht, hc⟩
    simpa using hall g hg t ht c hc

/-- A report tells of each group with tests and of the run what fails there, and of passing exactly
if nothing fails. -/
theorem Report.tells_verdicts (h : Heap) (results : List GroupResult) (finishedAt : Timestamp) :
    let r := Report.ofResults h results finishedAt
    (∃ blocks ending, r.messages = .blank :: blocks.flatten ++ ending ++ [.completed finishedAt] ∧
      List.Forall₂ (GroupResult.Told h) (results.filter fun g ↦ g.tests ≠ []) blocks ∧
      r.summary.Told ending) ∧
    r.messages.countP Message.isFailure = r.summary.failedCases ∧
    r.summary.failedCases ≤ r.summary.cases ∧
    (.heading "---> All Tests Passing <---" ∈ r.messages ↔ r.summary.failedCases = 0) ∧
    (r.summary.failedCases = 0 ↔ ∀ g ∈ results, ∀ t ∈ g.tests, t.passes h) ∧
    ∀ failed all, .failureCount failed all ∈ r.messages ↔
      r.summary.failedCases ≠ 0 ∧ failed = r.summary.failedCases ∧ all = r.summary.cases := by
  intro r
  have hgroups : (results.filter fun g ↦ !g.tests.isEmpty) =
      results.filter fun g ↦ g.tests ≠ [] := by
    congr 1
    funext g
    cases g.tests <;> simp
  have hmessages : r.messages = .blank ::
      (results.filter fun g ↦ !g.tests.isEmpty).flatMap (GroupResult.messages h) ++
        verdict r.summary ++ [.completed finishedAt] := rfl
  refine ⟨⟨(results.filter fun g ↦ g.tests ≠ []).map (GroupResult.messages h), verdict r.summary,
    ?_, ?_, r.summary.told_verdict⟩, ?_, ?_, ?_, failedCases_eq_zero_iff h results finishedAt, ?_⟩
  · rw [hmessages, hgroups, List.flatMap_def]
  · rw [List.forall₂_map_right_iff, List.forall₂_same]
    exact fun g _ ↦ g.told_messages h
  · have hfailed : r.summary.failedCases = ((results.filter fun g ↦ !g.tests.isEmpty).flatMap
        fun g ↦ g.tests.flatMap (TestResult.failures h)).length := rfl
    rw [hmessages, List.countP_append, List.countP_append, countP_isFailure_verdict,
      List.countP_cons_of_neg Bool.false_ne_true, List.countP_flatMap, hfailed,
      List.length_flatMap]
    simp [Function.comp_def, GroupResult.countP_isFailure_messages, Message.isFailure]
  · rw [summary_ofResults]
    exact List.countP_le_length
  · rw [hmessages, ← heading_mem_verdict]
    simp [fun g : GroupResult ↦ (g.not_mem_messages h).1]
  · intro failed all
    rw [hmessages, ← failureCount_mem_verdict]
    simp [fun g : GroupResult ↦ (g.not_mem_messages h).2]

end TestDeclaration

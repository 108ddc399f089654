import TestDeclaration.Proofs.Execution.Diagnostics
import TestDeclaration.Proofs.Plan.Resolution
import TestDeclaration.Proofs.Report.Verdicts
import TestDeclaration.Proofs.Token.Emission

/-!
# The lines of a report

A report tells each thing on a line of its own: names of groups, types and methods are identifiers
of the source, which have no newlines. Only a message about a failing case also shows values, as
they are, and it goes on to another line wherever one of them does.
-/

namespace TestDeclaration

/-! ### Line breaks in texts -/

namespace Text

/-- How often a text goes on to another line. -/
@[irreducible] def breaks (text : String) : Nat := text.toList.count '\n'

private theorem breaks_eq_zero_iff {text : String} : breaks text = 0 ↔ '\n' ∉ text.toList := by
  rw [breaks, List.count_eq_zero]

/-- Texts print a line each, and another for each newline in them. -/
theorem length_printedLines (texts : List String) :
    (printedLines texts).length = (texts.map fun text ↦ breaks text + 1).sum := by
  simp [printedLines, List.length_flatMap, length_splitLines, breaks]

@[simp] private theorem breaks_append (a b : String) : breaks (a ++ b) = breaks a + breaks b := by
  simp [breaks]

private theorem breaks_intercalate {separator : String} (hs : breaks separator = 0)
    (texts : List String) :
    breaks (separator.intercalate texts) = (texts.map breaks).sum := by
  unfold breaks at hs ⊢
  rw [String.toList_intercalate]
  induction texts with
  | nil => rfl
  | cons text rest ih =>
    cases rest with
    | nil => simp
    | cons next rest =>
      simp only [List.map_cons, List.intercalate_cons_cons, List.count_append, hs, Nat.add_zero,
        List.sum_cons] at ih ⊢
      rw [ih]

/-- Digits do not go on to another line. -/
theorem breaks_ofList_of_isDigit {text : List Char} (h : ∀ c ∈ text, c.isDigit) :
    breaks (String.ofList text) = 0 := by
  rw [breaks_eq_zero_iff, String.toList_ofList]
  exact fun hm ↦ absurd (h _ hm) (by decide)

@[simp] private theorem breaks_repr (n : Nat) : breaks n.repr = 0 := by
  rw [Nat.repr_eq_ofList_toDigits]
  exact breaks_ofList_of_isDigit fun c ↦ Number.isDigit_of_mem_digits

/-- The words of reports have no newlines. -/
@[simp] theorem breaks_words :
    breaks "" = 0 ∧ breaks " " = 0 ∧ breaks "-" = 0 ∧ breaks "+" = 0 ∧ breaks ":" = 0 ∧
    breaks " UTC" = 0 ∧ breaks "." = 0 ∧ breaks "->" = 0 ∧ breaks "(" = 0 ∧ breaks ")" = 0 ∧
    breaks ", " = 0 ∧ breaks "Test " = 0 ∧ breaks " Passing" = 0 ∧ breaks " Failing" = 0 ∧
    breaks "One or more tests in Test " = 0 ∧ breaks "One or More tests in Test Group " = 0 ∧
    breaks ") failed, expected " = 0 ∧ breaks ", got " = 0 ∧ breaks "Test Group " = 0 ∧
    breaks "---> Test Group " = 0 ∧ breaks " <---" = 0 ∧
    breaks "---> All Tests Passing <---" = 0 ∧ breaks " of " = 0 ∧
    breaks " test cases failing" = 0 ∧ breaks "Completed at " = 0 := by
  decide +kernel

end Text

open Text

@[simp] private theorem Primitive.breaks_name (p : Primitive) : breaks p.name = 0 := by
  cases p <;> decide +kernel

/-- The name of a type without its namespace is a part of its name. -/
theorem TypeName.breaks_shortName {t : TypeName} (ht : breaks t.name = 0) :
    breaks t.shortName = 0 := by
  rw [breaks_eq_zero_iff] at ht ⊢
  intro hm
  rw [shortName, String.toList_ofList, lastPart, List.mem_reverse] at hm
  exact ht (List.mem_reverse.mp ((List.takeWhile_sublist _).mem hm))

private theorem Timestamp.breaks_padded (width n : Nat) : breaks (padded width n) = 0 := by
  refine breaks_ofList_of_isDigit fun c hc ↦ ?_
  rcases List.mem_append.mp hc with hc | hc
  · rw [List.eq_of_mem_replicate hc]
    rfl
  · exact Number.isDigit_of_mem_digits hc

@[simp] private theorem Timestamp.breaks_text (t : Timestamp) : breaks t.text = 0 := by
  have hyear : ∀ year, breaks (yearText year) = 0 := by
    intro year
    unfold yearText
    split
    · simp [breaks_padded]
    split <;> simp [breaks_padded]
  simp [text, hyear, breaks_padded]

/-! ### Names -/

/-- The names that a method is shown with have no newlines. -/
structure Callable.Unbroken (c : Callable) : Prop where
  owner : breaks c.owner.name = 0
  name : breaks c.method.name = 0
  parameters : ∀ p ∈ c.method.parameters, breaks p.name = 0

/-- The types that the methods of a unit take have no newlines in their names. -/
def CodeUnit.Unbroken (u : CodeUnit) : Prop :=
  ∀ d ∈ u.definitions, ∀ m ∈ d.methods, ∀ p ∈ m.parameters, breaks p.name = 0

/-- The names in a draft have no newlines. -/
structure Draft.Unbroken (d : Draft) : Prop where
  units : ∀ u ∈ d.library.units, u.Unbroken
  namespaces : ∀ space ∈ d.namespaces, breaks space = 0
  groups : ∀ name ∈ d.plan.map Group.name, breaks name = 0
  targets : ∀ t ∈ d.plan.flatMap Group.tests, t.target.Unbroken

private theorem Callable.Unbroken.breaks_text {c : Callable} (hc : c.Unbroken) :
    breaks c.text = 0 := by
  have hparameters : breaks (parameterText c.method.parameters) = 0 := by
    rw [parameterText, breaks_intercalate (by simp), List.sum_eq_zero_iff]
    simp only [List.forall_mem_map]
    intro p hp
    exact TypeName.breaks_shortName (hc.parameters p hp)
  simp [text, TypeName.breaks_shortName hc.owner, hc.name, hparameters]

namespace Library

variable {l : Library}

/-- A type that a name means under some namespaces has a name without newlines if they have. -/
theorem breaks_of_type? {namespaces : List String} {name : String} {type : TypeName}
    (hnamespaces : ∀ space ∈ namespaces, breaks space = 0) (hname : breaks name = 0)
    (ht : l.type? namespaces name = some type) : breaks type.name = 0 := by
  unfold type? at ht
  split at ht
  · cases ht
    exact Primitive.breaks_name _
  · obtain ⟨u, -, hu⟩ := List.exists_of_findSome?_eq_some ht
    obtain ⟨fullName, hfound, rfl⟩ := Option.map_eq_some_iff.mp hu
    obtain ⟨space, hspace, rfl⟩ := List.mem_map.mp (List.mem_of_find?_eq_some hfound)
    unfold qualify
    split
    · exact hname
    · simp [TypeName.name, hnamespaces space hspace, hname]

private theorem unbroken_of_callable? (hl : ∀ u ∈ l.units, u.Unbroken) {type : TypeName}
    {name : String}
    {signature : List TypeName} {c : Callable} (hc : l.callable? type name signature = some c)
    (htype : breaks type.name = 0) (hname : breaks name = 0) : c.Unbroken := by
  obtain ⟨howner, hmethod, -⟩ := named_of_callable? hc
  obtain ⟨u, hu, d, hd, m, hm, rfl⟩ := exists_of_callable? hc
  exact ⟨howner ▸ htype, hmethod ▸ hname, hl u hu d hd m hm⟩

end Library

namespace Grammar

variable {loader : Loader} {d d' : Draft}

/-- An item whose identifiers have no newlines adds names without newlines to a draft. -/
theorem DeclaresItem.unbroken (hloader : ∀ path u, loader path = .ok u → u.Unbroken) {i : Item}
    (hi : DeclaresItem loader i d d')
    (hnames : ∀ name, .identifier name ∈ i.kinds → breaks name = 0) (hd : d.Unbroken) :
    d'.Unbroken := by
  cases hi with
  | unit hload =>
    have hunits := (Library.loads_of_load hload).forall_units hd.units hloader
    exact ⟨hunits, hd.namespaces, hd.groups, hd.targets⟩
  | @inNamespace name =>
    have hname : breaks name = 0 := hnames name (by simp [Item.kinds])
    exact ⟨hd.units, List.forall_mem_append.mpr
      ⟨hd.namespaces, List.forall_mem_singleton.mpr hname⟩, hd.groups, hd.targets⟩
  | @group name _ _ =>
    have hname : breaks name = 0 := hnames name (by simp [Item.kinds])
    refine ⟨hd.units, hd.namespaces, ?_, ?_⟩
    · rw [Draft.plan, List.map_append]
      exact List.forall_mem_append.mpr ⟨hd.groups, List.forall_mem_singleton.mpr hname⟩
    · rw [Draft.plan, List.flatMap_append]
      exact List.forall_mem_append.mpr ⟨hd.targets, fun t ht ↦ absurd ht List.not_mem_nil⟩
  | @test t owner test heap _ howner htest =>
    have hnames : breaks t.owner = 0 ∧ breaks t.method = 0 :=
      ⟨hnames _ (by simp [Item.kinds, TestText.kinds]),
        hnames _ (by simp [Item.kinds, TestText.kinds])⟩
    have htarget : test.target.Unbroken := by
      obtain ⟨-, -, hc⟩ := htest
      exact Library.unbroken_of_callable? hd.units hc
        (Library.breaks_of_type? hd.namespaces hnames.1 howner) hnames.2
    refine ⟨hd.units, hd.namespaces, ?_, ?_⟩
    · exact (d.names_withTest test heap).symm ▸ hd.groups
    · have htargets := List.forall_mem_append.mpr
        ⟨hd.targets, List.forall_mem_singleton.mpr htarget⟩
      rw [← d.tests_withTest test heap] at htargets
      exact htargets

private theorem Declares.unbroken (hloader : ∀ path u, loader path = .ok u → u.Unbroken)
    {p : Program}
    (hp : Declares loader p d d')
    (hnames : ∀ name, .identifier name ∈ p.kinds → breaks name = 0) (hd : d.Unbroken) :
    d'.Unbroken := by
  induction hp with
  | nil => exact hd
  | cons hi _ ih =>
    simp only [Program.kinds, List.flatMap_cons, List.mem_append] at hnames ih
    exact ih (fun name hm ↦ hnames name (.inr hm))
      (hi.unbroken hloader (fun name hm ↦ hnames name (.inl hm)) hd)

end Grammar

namespace Run

variable {loader : Loader} {library : Library} {source : String} {r : Results}

/-- The names in the outcomes of a source have no newlines, for they are identifiers. -/
theorem unbroken_of_results (hl : ∀ u ∈ library.units, u.Unbroken)
    (hloader : ∀ path u, loader path = .ok u → u.Unbroken)
    (hr : results loader library source = .ok r) :
    ∀ g ∈ r.groups, breaks g.name = 0 ∧ ∀ t ∈ g.tests, t.target.Unbroken := by
  obtain ⟨tokens, plan, d, hlex, hread, hran⟩ := ok_of_results hr
  obtain ⟨program, hkinds, hdeclares, rfl⟩ := Plan.program_of_read hread
  have hnames : ∀ name, .identifier name ∈ program.kinds → breaks name = 0 := by
    intro name hm
    rw [← hkinds] at hm
    obtain ⟨t, ht, hkind⟩ := List.mem_map.mp hm
    have hspelling := Token.IsLineEnd.not_mem_spelling (.inr rfl) (Token.spellable_of_lex hlex t ht)
    rw [hkind] at hspelling
    exact breaks_eq_zero_iff.mpr hspelling
  have hstart : Draft.Unbroken (.start library .empty) :=
    ⟨hl, List.forall_mem_singleton.mpr breaks_words.1, List.forall_mem_singleton.mpr breaks_words.1,
      fun t ht ↦ absurd ht List.not_mem_nil⟩
  have hd : d.Unbroken := hdeclares.unbroken hloader hnames hstart
  intro g hg
  have hasked : r.groups.map GroupResult.asked = d.plan.map Group.asked := by
    rw [← Plan.map_asked_run d.plan d.heap, ← hran]
  obtain ⟨asked, hasked, hsame⟩ := List.mem_map.mp (hasked ▸ List.mem_map_of_mem hg)
  obtain ⟨hname, htests⟩ := Prod.mk.inj hsame
  refine ⟨hname ▸ hd.groups _ (List.mem_map_of_mem hasked), fun t ht ↦ ?_⟩
  obtain ⟨test, htest, hsame⟩ := List.mem_map.mp (htests ▸ List.mem_map_of_mem ht)
  have htarget := hd.targets test (List.mem_flatMap.mpr ⟨asked, hasked, htest⟩)
  rwa [← (Prod.mk.inj hsame).1]

end Run

/-! ### Messages -/

/-- The newlines that a case shows: in its arguments, in what it expects and in its outcome. -/
def CaseResult.breaks (h : Heap) (c : CaseResult) : Nat :=
  (c.arguments.map fun v ↦ Text.breaks (v.typedText h)).sum + Text.breaks (c.expectation.text h) +
    Text.breaks (c.outcome.text h)

namespace Message

/-- The number of lines that some messages take. -/
def height (h : Heap) (messages : List Message) : Nat :=
  (messages.map fun m ↦ breaks (m.text h) + 1).sum

variable {h : Heap}

private theorem height_cons (m : Message) (rest : List Message) :
    height h (m :: rest) = breaks (m.text h) + 1 + height h rest := by
  simp [height]

private theorem height_append (messages others : List Message) :
    height h (messages ++ others) = height h messages + height h others := by
  simp [height]

section Texts

variable (h) (words name : String) (target : Callable) (result : CaseResult)

@[simp] private theorem text_blank : text h .blank = "" := rfl

@[simp] private theorem text_rule :
    text h (.rule words) = String.ofList (List.replicate words.length '-') := rfl

@[simp] private theorem text_heading : text h (.heading words) = words := rfl

@[simp] private theorem text_testPassing :
    text h (.testPassing target) = "Test " ++ target.text ++ " Passing" := rfl

@[simp] private theorem text_testFailing :
    text h (.testFailing target) =
      "One or more tests in Test " ++ target.text ++ " Failing" := rfl

@[simp] private theorem text_caseFailing :
    text h (.caseFailing target result) =
      target.owner.shortName ++ "->" ++ target.method.name ++ "(" ++
        ", ".intercalate (result.arguments.map (Value.typedText h)) ++ ") failed, expected " ++
        result.expectation.text h ++ ", got " ++ result.outcome.text h := rfl

@[simp] private theorem text_groupPassing :
    text h (.groupPassing name) = "Test Group " ++ name ++ " Passing" := rfl

@[simp] private theorem text_groupFailing :
    text h (.groupFailing name) =
      "One or More tests in Test Group " ++ name ++ " Failing" := rfl

@[simp] private theorem text_failureCount (failed all : Nat) :
    text h (.failureCount failed all) =
      toString failed ++ " of " ++ toString all ++ " test cases failing" := rfl

@[simp] private theorem text_completed (time : Timestamp) :
    text h (.completed time) = "Completed at " ++ time.text := rfl

end Texts

/-- Messages without newlines take a line each. -/
theorem height_of_forall {messages : List Message} (hm : ∀ m ∈ messages, breaks (m.text h) = 0) :
    height h messages = messages.length := by
  induction messages with
  | nil => rfl
  | cons m rest ih =>
    obtain ⟨hfirst, hrest⟩ := List.forall_mem_cons.mp hm
    rw [height_cons, hfirst, ih hrest, List.length_cons, Nat.zero_add, Nat.add_comm]

private theorem breaks_banner {words : String} (hw : breaks words = 0) :
    ∀ m ∈ banner words, breaks (m.text h) = 0 := by
  have hrule : breaks (text h (.rule words)) = 0 := by
    rw [text_rule, breaks_eq_zero_iff, String.toList_ofList]
    exact fun hm ↦ absurd (List.eq_of_mem_replicate hm) (by decide)
  simp only [banner, List.forall_mem_cons]
  exact ⟨hrule, hw, hrule, fun m hm ↦ absurd hm List.not_mem_nil⟩

/-- A message about a failing case goes on to another line for every newline that the case shows. -/
theorem breaks_caseFailing {target : Callable} (ht : target.Unbroken) (c : CaseResult) :
    breaks ((caseFailing target c).text h) = c.breaks h := by
  have harguments : breaks (", ".intercalate (c.arguments.map (Value.typedText h))) =
      (c.arguments.map fun v ↦ breaks (v.typedText h)).sum := by
    rw [breaks_intercalate (by simp), List.map_map]
    rfl
  simp [TypeName.breaks_shortName ht.owner, ht.name, harguments, CaseResult.breaks]

end Message

variable {h : Heap}

open Message

/-- What is told of a test takes a line, another line for each failing case, and those that the
failing cases go on to. -/
theorem TestResult.height_messages {t : TestResult} (ht : t.target.Unbroken) :
    height h (t.messages h) =
      1 + (t.failures h).length + ((t.failures h).map (CaseResult.breaks h)).sum := by
  have htext := ht.breaks_text
  have hcases : ∀ cases : List CaseResult, height h (cases.map (.caseFailing t.target)) =
      cases.length + (cases.map (CaseResult.breaks h)).sum := by
    intro cases
    induction cases with
    | nil => rfl
    | cons c rest ih =>
      rw [List.map_cons, height_cons, ih, breaks_caseFailing ht, List.length_cons, List.map_cons,
        List.sum_cons]
      omega
  have hpassing : breaks (text h (.testPassing t.target)) = 0 := by simp [htext]
  have hfailing : breaks (text h (.testFailing t.target)) = 0 := by simp [htext]
  unfold messages
  split
  · next hp =>
    rw [failures_eq_nil_iff.mpr hp, height_cons, hpassing]
    rfl
  · rw [height_cons, hcases, hfailing]
    omega

/-- The names in the outcomes of a group have no newlines. -/
structure GroupResult.Unbroken (g : GroupResult) : Prop where
  name : Text.breaks g.name = 0
  targets : ∀ t ∈ g.tests, t.target.Unbroken

/-- What is told of a group takes six lines, a line for each test and for each failing case, and
those that the failing cases go on to. -/
theorem GroupResult.height_messages {g : GroupResult} (hg : g.Unbroken) :
    height h (g.messages h) =
      4 + g.tests.length + (g.tests.flatMap (TestResult.failures h)).length + 2 +
        ((g.tests.flatMap (TestResult.failures h)).map (CaseResult.breaks h)).sum := by
  have htests : ∀ tests : List TestResult, (∀ t ∈ tests, t.target.Unbroken) →
      height h (tests.flatMap (TestResult.messages h)) =
        tests.length + (tests.flatMap (TestResult.failures h)).length +
          ((tests.flatMap (TestResult.failures h)).map (CaseResult.breaks h)).sum := by
    intro tests hunbroken
    induction tests with
    | nil => rfl
    | cons t rest ih =>
      obtain ⟨ht, hrest⟩ := List.forall_mem_cons.mp hunbroken
      simp only [List.flatMap_cons, height_append, TestResult.height_messages ht, ih hrest,
        List.length_cons, List.length_append, List.map_append, List.sum_append]
      omega
  have hheading : breaks ("---> Test Group " ++ g.name ++ " <---") = 0 := by simp [hg.name]
  have hbanner := height_of_forall (breaks_banner (h := h) hheading)
  have hblank : breaks (text h .blank) = 0 := by simp
  have hstatus : height h [if g.passes h then .groupPassing g.name else .groupFailing g.name,
      .blank] = 2 := by
    refine height_of_forall ?_
    simp only [List.forall_mem_cons]
    refine ⟨?_, hblank, fun m hm ↦ absurd hm List.not_mem_nil⟩
    split <;> simp [hg.name]
  rw [messages, height_append, height_append, height_cons, hbanner, hblank, hstatus,
    htests g.tests hg.targets]
  simp only [banner, List.length_cons, List.length_nil]
  omega

/-! ### Reports -/

namespace Report

/-- How many lines a report has in which each failing case takes one line: one in front, six for a
group with tests, one for each of its tests and one for each failing case among these, the verdict
on all of it and the time. -/
def lineCount (h : Heap) (groups : List GroupResult) : Nat :=
  1 + ((groups.filter fun g ↦ !g.tests.isEmpty).map fun g ↦
      4 + g.tests.length + (g.tests.flatMap (TestResult.failures h)).length + 2).sum +
    (if (caseResults groups).all (CaseResult.passes h) then 3 else 1) + 1

private theorem length_lines (r : Report) : (r.lines h).length = height h r.messages := by
  rw [lines, Text.length_printedLines, texts, List.map_map, height]
  simp only [Function.comp_def]

private theorem height_verdict (s : Summary) :
    height h (verdict s) = if s.failedCases = 0 then 3 else 1 := by
  by_cases hs : s.failedCases = 0
  · have hv : verdict s = banner "---> All Tests Passing <---" := by
      simp [verdict, Summary.allPassing, hs]
    rw [hv, height_of_forall (breaks_banner (by simp)), if_pos hs]
    rfl
  · have hv : verdict s = [.failureCount s.failedCases s.cases] := by
      simp [verdict, Summary.allPassing, hs]
    rw [hv, height_of_forall (List.forall_mem_singleton.mpr (by simp)), if_neg hs]
    rfl

/-- A report has its lines, and one more for every newline that a failing case shows. -/
theorem length_lines_ofResults {groups : List GroupResult} (hgroups : ∀ g ∈ groups, g.Unbroken)
    (time : Timestamp) : ((ofResults h groups time).lines h).length =
      lineCount h groups +
        (((caseResults groups).filter fun c ↦ !c.passes h).map (CaseResult.breaks h)).sum := by
  have hgroup : ∀ told : List GroupResult, (∀ g ∈ told, g.Unbroken) →
      height h (told.flatMap (GroupResult.messages h)) =
        (told.map fun g ↦ 4 + g.tests.length +
          (g.tests.flatMap (TestResult.failures h)).length + 2).sum +
        ((told.flatMap fun g ↦ g.tests.flatMap (TestResult.failures h)).map
          (CaseResult.breaks h)).sum := by
    intro told htold
    induction told with
    | nil => rfl
    | cons g rest ih =>
      obtain ⟨hg, hrest⟩ := List.forall_mem_cons.mp htold
      rw [List.flatMap_cons, height_append, GroupResult.height_messages hg, ih hrest,
        List.map_cons, List.sum_cons, List.flatMap_cons, List.map_append, List.sum_append]
      omega
  have hcount : (caseResults groups).countP (fun c ↦ !c.passes h) = 0 ↔
      (caseResults groups).all (CaseResult.passes h) := by
    rw [List.countP_eq_zero, List.all_eq_true]
    simp
  have hverdict : height h (verdict (ofResults h groups time).summary) =
      if (caseResults groups).all (CaseResult.passes h) then 3 else 1 := by
    rw [height_verdict, summary_ofResults]
    simp only [hcount]
  have hmessages : (ofResults h groups time).messages = .blank ::
      (groups.filter fun g ↦ !g.tests.isEmpty).flatMap (GroupResult.messages h) ++
        verdict (ofResults h groups time).summary ++ [.completed time] := rfl
  have hblank : breaks (text h .blank) = 0 := by simp
  have hcompleted : height h [.completed time] = 1 :=
    height_of_forall (List.forall_mem_singleton.mpr (by simp))
  rw [length_lines, hmessages, height_append, height_append, height_cons, hblank, hverdict,
    hcompleted, hgroup _ fun g hg ↦ hgroups g (List.mem_of_mem_filter hg), flatMap_tests_filter,
    flatMap_failures, lineCount]
  omega

/-- A failing case that is told of is one of a test of the run. -/
theorem exists_of_caseFailing_mem {groups : List GroupResult} {time : Timestamp}
    {target : Callable} {c : CaseResult}
    (hm : .caseFailing target c ∈ (ofResults h groups time).messages) :
    ∃ g ∈ groups, ∃ t ∈ g.tests, t.target = target := by
  have hverdict : ∀ s, .caseFailing target c ∉ verdict s := by
    intro s
    unfold verdict
    split <;> simp [banner]
  have hgroup : ∃ g ∈ groups.filter fun g ↦ !g.tests.isEmpty,
      .caseFailing target c ∈ g.messages h := by
    simpa [ofResults, hverdict] using hm
  obtain ⟨g, hg, hm⟩ := hgroup
  have hstatus : Message.caseFailing target c ≠
      if g.passes h then .groupPassing g.name else .groupFailing g.name := by
    split <;> simp
  have htest : ∃ t ∈ g.tests, .caseFailing target c ∈ t.messages h := by
    simpa [GroupResult.messages, banner, hstatus] using hm
  obtain ⟨t, ht, hm⟩ := htest
  refine ⟨g, List.mem_of_mem_filter hg, t, ht, ?_⟩
  unfold TestResult.messages at hm
  split at hm
  · simp at hm
  · have hm : ∃ c' ∈ t.failures h, t.target = target ∧ c' = c := by simpa using hm
    obtain ⟨-, -, htarget, -⟩ := hm
    exact htarget

end Report

/-! ### The standard units -/

private theorem Core.unbroken_unit : Core.unit.Unbroken := by
  refine forall_definitions ?_ ?_ fun k ↦ ?_
  · decide +kernel
  · decide +kernel
  · exact fun m hm ↦ absurd hm List.not_mem_nil

private theorem Samples.unbroken_unit : Samples.unit.Unbroken := by
  refine forall_definitions ?_ ?_ ?_ ?_ <;> decide +kernel

/-- A report has a line for each thing that it tells, and one more for each newline in what a
failing case is told with. -/
theorem Run.lines_of_results {loader : Loader} {library : Library} {source : String} {r : Results}
    (hl : ∀ u ∈ library.units, u.Unbroken)
    (hloader : ∀ path u, loader path = .ok u → u.Unbroken)
    (hr : results loader library source = .ok r) (finishedAt : Timestamp) :
    let report := Report.ofResults r.heap r.groups finishedAt
    (report.lines r.heap).length = Report.lineCount r.heap r.groups +
      (((caseResults r.groups).filter fun c ↦ !c.passes r.heap).map
        (CaseResult.breaks r.heap)).sum ∧
    ∀ target c, .caseFailing target c ∈ report.messages →
      (Text.printedLines [(Message.caseFailing target c).text r.heap]).length =
        1 + c.breaks r.heap := by
  intro report
  have hgroups : ∀ g ∈ r.groups, g.Unbroken := by
    intro g hg
    obtain ⟨hname, htargets⟩ := unbroken_of_results hl hloader hr g hg
    exact ⟨hname, htargets⟩
  refine ⟨Report.length_lines_ofResults hgroups finishedAt, fun target c hm ↦ ?_⟩
  obtain ⟨g, hg, t, ht, rfl⟩ := Report.exists_of_caseFailing_mem hm
  have hlines : ∀ text, (Text.printedLines [text]).length = 1 + Text.breaks text := by
    intro text
    rw [Text.length_printedLines, List.map_singleton, List.sum_singleton, Nat.add_comm]
  rw [hlines, Message.breaks_caseFailing ((hgroups g hg).targets t ht)]

/-- A case that fails as it expects a string with a newline in it. -/
def brokenCase : String := "do string -> Length: on \"a\": case() expect \"x\\ny\";"

private theorem Run.exists_results_brokenCase :
    ∃ r, results .standard .initial brokenCase = .ok r ∧
      ((Report.ofResults r.heap r.groups ⟨0⟩).lines r.heap).length = 12 ∧
      Report.lineCount r.heap r.groups = 11 ∧
      (((caseResults r.groups).filter fun c ↦ !c.passes r.heap).map
        (CaseResult.breaks r.heap)).sum = 1 := by
  have hcounts : (results .standard .initial brokenCase).toOption.map (fun r ↦
      (((Report.ofResults r.heap r.groups ⟨0⟩).lines r.heap).length,
        Report.lineCount r.heap r.groups,
        (((caseResults r.groups).filter fun c ↦ !c.passes r.heap).map
          (CaseResult.breaks r.heap)).sum)) = some (12, 11, 1) := by
    decide +kernel
  cases hok : results .standard .initial brokenCase with
  | error e =>
    rw [hok] at hcounts
    cases hcounts
  | ok r =>
    rw [hok] at hcounts
    simp only [Except.toOption, Option.map_some, Option.some.injEq, Prod.mk.injEq] at hcounts
    exact ⟨r, rfl, hcounts⟩

/-- In the report on the case, one line comes from the newline that the case shows. -/
theorem Run.lines_of_results_brokenCase : ∃ r, results .standard .initial brokenCase = .ok r ∧
    ((Report.ofResults r.heap r.groups ⟨0⟩).lines r.heap).length =
      Report.lineCount r.heap r.groups + 1 := by
  obtain ⟨r, hr, -, -, hbreaks⟩ := exists_results_brokenCase
  have hinitial : ∀ u ∈ Library.initial.units, u.Unbroken :=
    List.forall_mem_singleton.mpr Core.unbroken_unit
  have hstandard : ∀ path u, Loader.standard path = .ok u → u.Unbroken :=
    fun _ _ hu ↦ Loader.eq_of_standard hu ▸ Samples.unbroken_unit
  obtain ⟨hlines, -⟩ := lines_of_results hinitial hstandard hr ⟨0⟩
  rw [hbreaks] at hlines
  exact ⟨r, hr, hlines⟩

/-- So not every report has a single line for each failing case. -/
theorem Run.not_forall_length_lines : ¬ ∀ source r finishedAt,
    results .standard .initial source = .ok r →
    ((Report.ofResults r.heap r.groups finishedAt).lines r.heap).length =
      Report.lineCount r.heap r.groups := by
  intro hall
  obtain ⟨r, hr, hlines, hcount, -⟩ := exists_results_brokenCase
  have hequal := hall brokenCase r ⟨0⟩ hr
  rw [hlines, hcount] at hequal
  cases hequal

end TestDeclaration

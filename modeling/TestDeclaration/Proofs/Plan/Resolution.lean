import TestDeclaration.Proofs.Library.Growth
import TestDeclaration.Proofs.Plan.Outline

/-!
# What a plan has resolved

Methods and constructors are looked up at different moments while a source is read, over the units
that are loaded by then. Since libraries only grow and what is found stays found, all of it is found
again in the end, by the parameters of the method and by the types of the arguments. So no activator
can be refused for its arguments, and neither can the first case of a test without listed types.
-/

namespace TestDeclaration

variable {l l' : Library} {type : TypeName} {signature : List TypeName}

/-! ### Looking up again -/

/-- Arguments fit the list of their types. -/
theorem argumentRefusal?_map_typeName (args : List Value) :
    argumentRefusal? (args.map Value.typeName) args = none := by
  have hzip : (args.map Value.typeName).zip args = args.map fun v ↦ (v.typeName, v) := by
    induction args with
    | nil => rfl
    | cons v rest ih => rw [List.map_cons, List.zip_cons_cons, ih, List.map_cons]
  unfold argumentRefusal?
  rw [if_neg (by simp), Option.map_eq_none_iff, List.find?_eq_none, hzip]
  intro pair hpair
  obtain ⟨v, -, rfl⟩ := List.mem_map.mp hpair
  simp [accepts]

namespace Library

/-- A method that is found has the type, the name and the parameters that were looked up. -/
theorem named_of_callable? {name : String} {c : Callable}
    (hc : l.callable? type name signature = some c) :
    c.owner = type ∧ c.method.name = name ∧ c.method.parameters = signature := by
  obtain ⟨m, hm, rfl⟩ := Option.map_eq_some_iff.mp hc
  obtain ⟨d, -, hm⟩ := Option.bind_eq_some_iff.mp hm
  have hsame := List.find?_some hm
  simp only [Bool.and_eq_true, beq_iff_eq] at hsame
  exact ⟨rfl, hsame⟩

/-- A method is found again by its own name and parameters. -/
theorem callable?_self {name : String} {c : Callable}
    (hc : l.callable? type name signature = some c) :
    l.callable? c.owner c.method.name c.method.parameters = some c ∧
      c.method.parameters = signature := by
  obtain ⟨howner, hname, hparameters⟩ := named_of_callable? hc
  exact ⟨by rw [howner, hname, hparameters, hc], hparameters⟩

namespace Grows

private theorem callable? (h : l.Grows l') {name : String} {c : Callable}
    (hc : l.callable? type name signature = some c) :
    l'.callable? type name signature = some c := by
  obtain ⟨m, hm, -⟩ := Option.map_eq_some_iff.mp hc
  obtain ⟨d, hd, -⟩ := Option.bind_eq_some_iff.mp hm
  rw [h.callable?_eq hd]
  exact hc

private theorem constructor? (h : l.Grows l') {c : Constructor}
    (hc : l.constructor? type signature = some c) : l'.constructor? type signature = some c := by
  obtain ⟨d, hd, -⟩ := Option.bind_eq_some_iff.mp hc
  rw [h.constructor?_eq hd]
  exact hc

end Grows

/-- A constructor that is found by the types of some arguments does not refuse them. -/
theorem argumentRefusal?_of_constructor? {c : Constructor} {args : List Value}
    (hc : l.constructor? type (args.map Value.typeName) = some c) :
    argumentRefusal? c.parameters args = none := by
  obtain ⟨_, _, _, _, _, _, hparameters⟩ := exists_of_constructor? hc
  rw [hparameters]
  exact argumentRefusal?_map_typeName args

end Library

/-! ### Constructors and their types -/

/-- A definition that is put together part by part. -/
inductive TypeDefinition.Built : TypeDefinition → Prop where
  | new (type : TypeName) : Built (.new type)
  | withConstructor {d : TypeDefinition} (parameters : List TypeName)
      (body : TypeName → List Value → Native Value) : d.Built →
      Built (d.withConstructor parameters body)
  | withMethod {d : TypeDefinition} (receiver : Receiver) (name : String)
      (parameters : List TypeName)
      (body : Option Value → List Value → Native (Option Value)) : d.Built →
      Built (d.withMethod receiver name parameters body)

/-- All definitions of the loaded units are put together part by part. -/
def Library.Built (l : Library) : Prop := ∀ u ∈ l.units, ∀ d ∈ u.definitions, d.Built

/-- The constructors of a definition make its type. -/
theorem TypeDefinition.Built.owner_eq {d : TypeDefinition} (hd : d.Built) :
    ∀ c ∈ d.constructors, c.owner = d.type := by
  induction hd with
  | new => exact fun c hc ↦ absurd hc List.not_mem_nil
  | withConstructor parameters body _ ih =>
    exact List.forall_mem_append.mpr ⟨ih, List.forall_mem_singleton.mpr rfl⟩
  | withMethod _ _ _ _ _ ih => exact ih

private theorem Library.Built.owner_of_constructor? (hl : l.Built) {c : Constructor}
    (hc : l.constructor? type signature = some c) : c.owner = type := by
  obtain ⟨u, hu, d, hd, hmem, rfl, -⟩ := Library.exists_of_constructor? hc
  exact (hl u hu d hd).owner_eq c hmem

private theorem Core.built_unit : ∀ d ∈ Core.unit.definitions, d.Built := by
  apply forall_definitions
  case hfault => exact fun _ ↦ .withConstructor _ _ (.withConstructor _ _ (.new _))
  all_goals repeat' constructor

private theorem Samples.built_unit : ∀ d ∈ Samples.unit.definitions, d.Built := by
  apply forall_definitions <;> repeat' constructor

/-! ### Plans -/

/-- A constructor call in a test can be for the tested type, or for a type that has a name. -/
def Library.Makes (l : Library) (tested type : TypeName) : Prop :=
  type = tested ∨ ∃ namespaces name, l.type? namespaces name = some type

/-- A constructor call is found in a library by the types of its arguments. -/
def Expression.Resolved (l : Library) (tested : TypeName) : Expression → Prop
  | .value _ => True
  | .construct c args =>
    ∃ type, l.Makes tested type ∧ l.constructor? type (args.map Value.typeName) = some c

/-- All activators of a case are found in a library. -/
def Case.Resolved (l : Library) (tested : TypeName) (c : Case) : Prop :=
  ∀ e ∈ c.activator?, e.Resolved l tested

/-- A test has cases, and its method and their activators are found in a library. -/
structure Test.Resolved (l : Library) (t : Test) : Prop where
  nonempty : t.cases ≠ []
  target : l.callable? t.target.owner t.target.method.name t.target.method.parameters =
    some t.target
  cases : ∀ c ∈ t.cases, c.Resolved l t.target.owner

/-- The groups of a draft have different names, the first one none, and their tests are found in the
library of the draft. -/
structure Draft.Resolved (d : Draft) : Prop where
  names : (d.plan.map Group.name).Nodup
  first : (d.plan.map Group.name).head? = some ""
  tests : ∀ t ∈ d.plan.flatMap Group.tests, t.Resolved d.library

namespace Draft

/-- A test is added behind all others. -/
theorem tests_withTest (d : Draft) (test : Test) (heap : Heap) :
    (d.withTest test heap).plan.flatMap Group.tests = d.plan.flatMap Group.tests ++ [test] := by
  simp [withTest, plan]

/-- A test is added to a group that is there. -/
theorem names_withTest (d : Draft) (test : Test) (heap : Heap) :
    (d.withTest test heap).plan.map Group.name = d.plan.map Group.name := by
  simp [withTest, plan]

end Draft

section Growing

variable (hl : l.Grows l') {tested : TypeName}

include hl

/-- A type that a call can be for stays one. -/
theorem Library.Makes.mono (h : l.Makes tested type) : l'.Makes tested type := by
  rcases h with rfl | ⟨namespaces, name, hname⟩
  · exact .inl rfl
  · exact .inr ⟨namespaces, name, hl.type? hname⟩

private theorem Expression.Resolved.mono {e : Expression} (he : e.Resolved l tested) :
    e.Resolved l' tested := by
  cases e with
  | value => trivial
  | construct c args =>
    obtain ⟨type, htype, hc⟩ := he
    exact ⟨type, htype.mono hl, hl.constructor? hc⟩

private theorem Test.Resolved.mono {t : Test} (ht : t.Resolved l) : t.Resolved l' :=
  ⟨ht.nonempty, hl.callable? ht.target, fun c hc e he ↦ (ht.cases c hc e he).mono hl⟩

end Growing

namespace Grammar

variable {s : Scope} {loader : Loader} {h h' : Heap}

/-- A call without a name is for the tested type. -/
theorem Scope.makes_of_created? {name? : Option String} (hcreated : s.created? name? = some type) :
    s.library.Makes s.owner type := by
  cases name? with
  | none => exact .inl (Option.some.inj hcreated).symm
  | some name => exact .inr ⟨s.namespaces, name, hcreated⟩

private theorem Denotes.resolved {t : Term} {e : Expression} (hd : Denotes s t h e h') :
    e.Resolved s.library s.owner := by
  cases hd with
  | literal | typeName => trivial
  | create hcreated _ hc => exact ⟨_, Scope.makes_of_created? hcreated, hc⟩

private theorem Activates.resolved {a? b? : Option Expression} {ts : List Term}
    (ha : Activates s a? h ts b? h') (hin : ∀ e ∈ a?, e.Resolved s.library s.owner) :
    ∀ e ∈ b?, e.Resolved s.library s.owner := by
  induction ha with
  | nil => exact hin
  | cons hd _ ih =>
    apply ih
    rintro e ⟨⟩
    exact hd.resolved

private theorem DeclaresCases.resolved {a? : Option Expression} {es : List Entry} {cs : List Case}
    (hd : DeclaresCases s a? h es cs h') (hin : ∀ e ∈ a?, e.Resolved s.library s.owner) :
    ∀ c ∈ cs, c.Resolved s.library s.owner := by
  induction hd with
  | nil => exact fun c hc ↦ absurd hc List.not_mem_nil
  | cons hfirst _ ih =>
    obtain ⟨hactivates, _, _⟩ := hfirst
    have hfirst := hactivates.resolved hin
    exact List.forall_mem_cons.mpr ⟨hfirst, ih hfirst⟩

private theorem DeclaresTest.resolved {t : TestText} {test : Test}
    (hd : DeclaresTest s t h test h') :
    test.Resolved s.library := by
  obtain ⟨_, hcases, htarget⟩ := hd
  refine ⟨List.cons_ne_nil _ _, (Library.callable?_self htarget).1, ?_⟩
  rw [(Library.named_of_callable? htarget).1]
  exact hcases.resolved fun e he ↦ by cases he

/-- An item keeps a draft resolved. -/
theorem DeclaresItem.resolved {i : Item} {d d' : Draft} (hi : DeclaresItem loader i d d')
    (hd : d.Resolved) : d'.Resolved := by
  cases hi with
  | unit hload =>
    have hgrows := (Library.loads_of_load hload).grows
    exact ⟨hd.names, hd.first, fun t ht ↦ (hd.tests t ht).mono hgrows⟩
  | inNamespace => exact ⟨hd.names, hd.first, hd.tests⟩
  | @group name _ hname =>
    refine ⟨?_, ?_, ?_⟩
    · rw [Draft.plan, List.map_append, List.map_singleton, ← List.concat_eq_append]
      exact List.Nodup.concat hname hd.names
    · rw [Draft.plan, List.map_append, List.head?_append, hd.first]
      rfl
    · rw [Draft.plan, List.flatMap_append]
      exact List.forall_mem_append.mpr ⟨hd.tests, fun t ht ↦ absurd ht List.not_mem_nil⟩
  | @test _ _ test heap _ _ htest =>
    refine ⟨?_, ?_, ?_⟩
    · exact (d.names_withTest test heap).symm ▸ hd.names
    · exact (d.names_withTest test heap).symm ▸ hd.first
    · have htests := List.forall_mem_append.mpr
        ⟨hd.tests, List.forall_mem_singleton.mpr htest.resolved⟩
      rw [← d.tests_withTest test heap] at htests
      exact htests

/-- A program keeps a draft resolved. -/
theorem Declares.resolved {p : Program} {d d' : Draft} (hp : Declares loader p d d')
    (hd : d.Resolved) : d'.Resolved := by
  induction hp with
  | nil => exact hd
  | cons hi _ ih => exact ih (hi.resolved hd)

/-! ### Tests without listed types -/

/-- In an item, only a test has a `do`, and it has it at its start only. -/
theorem Item.test_of_perform {i : Item} {front back : List TokenKind}
    (hi : i.kinds = front ++ .keyword .perform :: back) : front = [] ∧ ∃ t, i = .test t := by
  cases i with
  | unit | inNamespace | group =>
    have hmem : .keyword .perform ∈ front ++ .keyword .perform :: back := by simp
    rw [← hi] at hmem
    simp [Item.kinds] at hmem
  | test t =>
    refine ⟨?_, t, rfl⟩
    have hone : t.kinds.count (.keyword .perform) = 1 := by
      rw [← List.count_filter (p := TokenKind.opens) rfl, t.filter_opens_kinds]
      simp [List.count_replicate]
    change t.kinds = _ at hi
    cases front with
    | nil => rfl
    | cons kind front =>
      rw [hi, List.cons_append, ← (List.cons.inj (hi : _ = _ :: _)).1] at hone
      simp at hone

/-- Every `do` of a program starts one of its tests. -/
theorem Program.test_of_perform {p : Program} {front back : List TokenKind}
    (hp : p.kinds = front ++ .keyword .perform :: back) :
    ∃ (before : Program) (t : TestText) (after : Program), p = before ++ .test t :: after ∧
      before.kinds = front ∧ t.kinds ++ after.kinds = .keyword .perform :: back := by
  induction p generalizing front with
  | nil => exact absurd hp.symm (by simp [Program.kinds])
  | cons i rest ih =>
    have hkinds : ∀ q : Program, Program.kinds (i :: q) = i.kinds ++ q.kinds :=
      fun _ ↦ List.flatMap_cons
    rw [hkinds, List.append_eq_append_iff] at hp
    rcases hp with ⟨front', rfl, hrest⟩ | ⟨kinds, hi, hback⟩
    · obtain ⟨before, t, after, rfl, rfl, h⟩ := ih hrest
      exact ⟨i :: before, t, after, rfl, hkinds before, h⟩
    · cases kinds with
      | nil =>
        have hrest : Program.kinds rest = [] ++ .keyword .perform :: back := hback.symm
        obtain ⟨before, t, after, rfl, hbefore, h⟩ := ih hrest
        refine ⟨i :: before, t, after, rfl, ?_, h⟩
        rw [hkinds, hbefore, hi, List.append_nil, List.append_nil]
      | cons kind kinds =>
        obtain ⟨rfl, -⟩ := List.cons.inj hback
        obtain ⟨rfl, t, rfl⟩ := Item.test_of_perform hi
        refine ⟨[], t, rest, rfl, rfl, ?_⟩
        rw [hback, ← List.nil_append (_ :: kinds), ← hi]
        rfl

private theorem Declares.of_append {p q : Program} {d d' : Draft}
    (h : Declares loader (p ++ q) d d') :
    ∃ d₁, Declares loader p d d₁ ∧ Declares loader q d₁ d' := by
  induction p generalizing d with
  | nil => exact ⟨d, .nil, h⟩
  | cons i p ih =>
    cases h with
    | cons hi h =>
      obtain ⟨d₁, hp, hq⟩ := ih h
      exact ⟨d₁, .cons hi hp, hq⟩

/-- Tests stay where they are. -/
theorem Declares.tests_prefix {p : Program} {d d' : Draft} (hp : Declares loader p d d') :
    d.plan.flatMap Group.tests <+: d'.plan.flatMap Group.tests := by
  induction hp with
  | nil => exact List.prefix_refl _
  | @cons _ _ d _ _ hi _ ih =>
    refine List.IsPrefix.trans ?_ ih
    cases hi with
    | unit | inNamespace => exact List.prefix_refl _
    | @group name =>
      change _ <+: (d.plan ++ [(⟨name, []⟩ : Group)]).flatMap Group.tests
      rw [List.flatMap_append]
      exact List.prefix_append _ _
    | @test _ _ test heap => exact ⟨[test], (d.tests_withTest test heap).symm⟩

/-- A test whose text lists no types has the parameters that its first case asks for. -/
theorem DeclaresTest.parameters_eq {t : TestText} {test : Test} (hd : DeclaresTest s t h test h')
    (ht : t.parameters? = none) : ∃ first others, test.cases = first :: others ∧
      test.target.method.parameters = first.arguments.map Value.typeName := by
  obtain ⟨htypes, _, htarget⟩ := hd
  rw [ht] at htypes
  cases htypes
  exact ⟨_, _, rfl, (Library.callable?_self htarget).2⟩

/-- The test of a `do` is found by counting, and it is the one that the text declares there. -/
theorem Declares.unlisted {p : Program} {library : Library} {heap : Heap} {d : Draft}
    (hp : Declares loader p (.start library heap) d) {front back : List TokenKind}
    (hkinds : p.kinds = front ++ .keyword .perform :: back)
    (hcolon : back[3]? = some (.symbol .colon)) :
    ∃ t first others, (d.plan.flatMap Group.tests)[front.count (.keyword .perform)]? = some t ∧
      t.cases = first :: others ∧
      t.target.method.parameters = first.arguments.map Value.typeName := by
  obtain ⟨before, t, after, rfl, rfl, hback⟩ := Program.test_of_perform hkinds
  obtain ⟨d₁, hbefore, hrest⟩ := hp.of_append
  cases hrest with
  | cons hi hafter =>
  cases hi with
  | @test _ _ test heap _ _ htest =>
  have hnone : t.parameters? = none := by
    have htail : t.kinds.tail ++ after.kinds = back := (List.cons.inj hback).2
    cases hlisted : t.parameters? with
    | none => rfl
    | some listed =>
      rw [← htail] at hcolon
      simp [TestText.kinds, hlisted, parameters, enclosed] at hcolon
  have hcount : (d₁.plan.flatMap Group.tests).length =
      before.kinds.count (.keyword .perform) := by
    rw [← Plan.count_perform_outline, hbefore.outline_eq, List.count_append,
      List.count_filter rfl]
    exact Nat.zero_add _
  obtain ⟨first, others, hcases, hparameters⟩ := htest.parameters_eq hnone
  obtain ⟨later, hlater⟩ := hafter.tests_prefix
  change (d₁.withTest test heap).plan.flatMap Group.tests ++ later = _ at hlater
  refine ⟨test, first, others, ?_, hcases, hparameters⟩
  rw [← hlater, Draft.tests_withTest, ← hcount]
  simp

end Grammar

namespace Plan

/-- Reading leaves a resolved draft. -/
theorem resolved_draft_of_read {loader : Loader} {library : Library} {heap : Heap}
    {tokens : List Token} {plan : Plan} {d : Draft}
    (hread : Plan.read loader tokens (.start library heap) = (.ok plan, d)) :
    d.Resolved ∧ plan = d.plan := by
  obtain ⟨program, -, hdeclares, hplan⟩ := program_of_read hread
  have hstart : Draft.Resolved (.start library heap) :=
    ⟨List.nodup_singleton _, rfl, fun t ht ↦ absurd ht List.not_mem_nil⟩
  exact ⟨hdeclares.resolved hstart, hplan⟩

/-- A plan is well formed in the library that reading leaves: methods and constructors are found
again by the types that they were looked up with, and no activator is refused. -/
theorem resolved_of_read {loader : Loader} {library : Library} {heap : Heap}
    {tokens : List Token} {plan : Plan} {d : Draft}
    (hread : Plan.read loader tokens (.start library heap) = (.ok plan, d)) :
    (plan.map Group.name).Nodup ∧ (plan.map Group.name).head? = some "" ∧
    (∀ g ∈ plan, ∀ t ∈ g.tests, t.cases ≠ [] ∧
      d.library.callable? t.target.owner t.target.method.name t.target.method.parameters =
        some t.target ∧
      ∀ case ∈ t.cases, ∀ c args, case.activator? = some (.construct c args) →
        (∃ type, d.library.Makes t.target.owner type ∧
          d.library.constructor? type (args.map Value.typeName) = some c ∧
          (d.library.Built → c.owner = type)) ∧
        argumentRefusal? c.parameters args = none ∧
        ∀ h, (Expression.construct c args).evaluate h = (c.body c.owner args).perform h) ∧
    ∀ front back, tokens.map Token.kind = front ++ .keyword .perform :: back →
      back[3]? = some (.symbol .colon) →
      ∃ t first others, (plan.flatMap Group.tests)[front.count (.keyword .perform)]? = some t ∧
        t.cases = first :: others ∧
        t.target.method.parameters = first.arguments.map Value.typeName ∧
        argumentRefusal? t.target.method.parameters first.arguments = none := by
  obtain ⟨hd, rfl⟩ := resolved_draft_of_read hread
  refine ⟨hd.names, hd.first, fun g hg t ht ↦ ?_, fun front back hkinds hcolon ↦ ?_⟩
  · obtain ⟨hnonempty, htarget, hcases⟩ := hd.tests t (List.mem_flatMap.mpr ⟨g, hg, ht⟩)
    refine ⟨hnonempty, htarget, fun case hcase c args hactivator ↦ ?_⟩
    obtain ⟨type, hmakes, hc⟩ := hcases case hcase _ hactivator
    have hfits := Library.argumentRefusal?_of_constructor? hc
    refine ⟨⟨type, hmakes, hc, fun hbuilt ↦ hbuilt.owner_of_constructor? hc⟩, hfits, fun h ↦ ?_⟩
    simp only [Expression.evaluate, Constructor.construct, hfits]
  · obtain ⟨program, hprogram, hdeclares, -⟩ := program_of_read hread
    obtain ⟨t, first, others, ht, hcases, hparameters⟩ :=
      hdeclares.unlisted (hprogram ▸ hkinds) hcolon
    refine ⟨t, first, others, ht, hcases, hparameters, ?_⟩
    rw [hparameters]
    exact argumentRefusal?_map_typeName first.arguments

/-- The declaration `do Math -> Abs: case(-1) expect 1; using "samples"; do Samples.Counter ->
Increment: on new(41): case() expect 42;`, all of it at one place. -/
def absThenIncrement : List Token :=
  ([.keyword .perform, .identifier "Math", .symbol .arrow, .identifier "Abs", .symbol .colon,
    .keyword .testCase, .symbol .leftParen, .literal (.int (-1)), .symbol .rightParen,
    .keyword .expect, .literal (.int 1), .symbol .semicolon,
    .keyword .use, .literal (.string "samples"), .symbol .semicolon,
    .keyword .perform, .identifier "Samples.Counter", .symbol .arrow, .identifier "Increment",
    .symbol .colon, .keyword .onTarget, .keyword .create, .symbol .leftParen,
    .literal (.int 41), .symbol .rightParen, .symbol .colon, .keyword .testCase,
    .symbol .leftParen, .symbol .rightParen, .keyword .expect, .literal (.int 42),
    .symbol .semicolon] : List TokenKind).map fun kind ↦ ⟨kind, .atStart⟩

/-- Of two tests, the first has a method that is still found after the samples are loaded, and the
parameters that its case asks for; the counter of the second is made without a refusal. -/
theorem absThenIncrement_resolved :
    ∃ plan d, Plan.read .standard absThenIncrement (.start .initial .empty) = (.ok plan, d) ∧
      ∃ abs increment case c args, plan.flatMap Group.tests = [abs, increment] ∧
        d.library.callable? (.declared "Math") "Abs" [.primitive .int] = some abs.target ∧
        (∃ first, abs.cases = [first] ∧
          argumentRefusal? abs.target.method.parameters first.arguments = none) ∧
        increment.cases = [case] ∧ case.activator? = some (.construct c args) ∧
        d.library.constructor? c.owner [.primitive .int] = some c ∧
        argumentRefusal? c.parameters args = none := by
  have hread : ∃ plan d abs increment first case c args,
      Plan.read .standard absThenIncrement (.start .initial .empty) = (.ok plan, d) ∧
      d.library.units = [Core.unit, Samples.unit] ∧ plan = [⟨"", [abs, increment]⟩] ∧
      abs.target.owner = .declared "Math" ∧ abs.target.method.name = "Abs" ∧
      abs.target.method.parameters = [.primitive .int] ∧ abs.cases = [first] ∧
      increment.cases = [case] ∧ case.activator? = some (.construct c args) ∧
      args = [.int 41] :=
    ⟨_, _, _, _, _, _, _, _, rfl, rfl, rfl, rfl, rfl, rfl, rfl, rfl, rfl, rfl⟩
  obtain ⟨plan, d, abs, increment, first, case, c, args, hread, hunits, rfl, howner, hname,
    hparameters, habs, hincrement, hactivator, rfl⟩ := hread
  obtain ⟨-, -, htests, hunlisted⟩ := resolved_of_read hread
  have hfound := htests _ List.mem_cons_self
  obtain ⟨-, htarget, -⟩ := hfound abs List.mem_cons_self
  obtain ⟨-, -, hcases⟩ := hfound increment (.tail _ List.mem_cons_self)
  obtain ⟨⟨type, -, hc, howns⟩, hfits, -⟩ := hcases case (by simp [hincrement]) c _ hactivator
  have hbuilt : d.library.Built := by
    intro u hu
    rw [hunits] at hu
    rcases List.mem_cons.mp hu with rfl | hu
    · exact Core.built_unit
    · exact List.mem_singleton.mp hu ▸ Samples.built_unit
  rw [← howns hbuilt] at hc
  obtain ⟨t, first', others, ht, ht', -, hfirst⟩ := hunlisted [] _ rfl rfl
  obtain rfl : abs = t := Option.some.inj ht
  obtain ⟨rfl, -⟩ := List.cons.inj (habs.symm.trans ht')
  rw [howner, hname, hparameters] at htarget
  exact ⟨_, d, hread, abs, increment, case, c, _, rfl, htarget, ⟨first, habs, hfirst⟩,
    hincrement, hactivator, hc, hfits⟩

/-- A unit that defines a cup by hand, with a constructor that is for glasses. -/
def cupboard : CodeUnit :=
  ⟨"cupboard",
    [⟨.declared "Cup", [⟨.declared "Glass", [], fun type _ ↦ Native.create type []⟩],
      [⟨"Fill", [], .target, fun target? _ ↦ pure target?⟩]⟩]⟩

/-- The declaration `using "cupboard"; do Cup -> Fill: on new(): case() expect 1;`, all of it at one
place. -/
def fillNewCup : List Token :=
  ([.keyword .use, .literal (.string "cupboard"), .symbol .semicolon,
    .keyword .perform, .identifier "Cup", .symbol .arrow, .identifier "Fill", .symbol .colon,
    .keyword .onTarget, .keyword .create, .symbol .leftParen, .symbol .rightParen, .symbol .colon,
    .keyword .testCase, .symbol .leftParen, .symbol .rightParen, .keyword .expect,
    .literal (.int 1), .symbol .semicolon] : List TokenKind).map fun kind ↦ ⟨kind, .atStart⟩

/-- A constructor that was written into another definition is found for the type that it was looked
up on, and not for its owner. -/
theorem constructor_not_found_for_its_owner :
    ∃ plan d c, Plan.read (.ofTable [("cupboard", cupboard)]) fillNewCup
        (.start .initial .empty) = (.ok plan, d) ∧
      (∃ g ∈ plan, ∃ t ∈ g.tests, ∃ case ∈ t.cases, case.activator? = some (.construct c [])) ∧
      c.owner = .declared "Glass" ∧
      d.library.constructor? (.declared "Cup") [] = some c ∧
      d.library.constructor? c.owner [] = none :=
  ⟨_, _, _, rfl, ⟨_, List.mem_cons_self, _, List.mem_cons_self, _, List.mem_cons_self, rfl⟩,
    rfl, rfl, rfl⟩

end Plan

end TestDeclaration

import TestDeclaration.Proofs.CodeUnit.Standard
import TestDeclaration.Proofs.Plan.Acceptance
import TestDeclaration.Proofs.Plan.Simulation
import TestDeclaration.Token.Lexer

/-!
# What can be left out

A test can leave out the types of its parameters, and a constructor call the name of its type. One
tree abbreviates another if it leaves out some names that the other writes and that mean, where
they stand, what is taken without them: the types of the arguments of the first case, and the
type under test. Then both trees mean the same, from values up to programs, though listed types
are looked up before the cases are read and inferred ones behind the last case.
-/

namespace TestDeclaration

namespace Grammar

/-! ### Values -/

/-- A constructor call has the same name, or leaves out one of the type under test. -/
inductive NameAbbreviates (s : Scope) : Option String → Option String → Prop where
  | same {type? : Option String} : NameAbbreviates s type? type?
  | leftOut {name : String} : s.type? name = some s.owner → NameAbbreviates s none (some name)

/-- A value is the same except for names that constructor calls leave out, at any depth. -/
inductive Term.Abbreviates (s : Scope) : Term → Term → Prop where
  | literal {value : Scalar} : Abbreviates s (.literal value) (.literal value)
  | typeName {name : String} : Abbreviates s (.typeName name) (.typeName name)
  | create {type? type?' : Option String} {arguments arguments' : List Term} {trailing : Bool} :
      NameAbbreviates s type? type?' → List.Forall₂ (Abbreviates s) arguments arguments' →
      Abbreviates s (.create type? arguments trailing) (.create type?' arguments' trailing)

variable {s : Scope} {h h' : Heap}

/-- A call without a name makes what the call with the name makes. -/
theorem NameAbbreviates.created?_eq {type? type?' : Option String}
    (hn : NameAbbreviates s type? type?') : s.created? type?' = s.created? type? := by
  cases hn with
  | same => rfl
  | leftOut hname => exact hname

private theorem MakesAll.written_of_forall {ts ts' : List Term} {vs : List Value}
    (hm : MakesAll s ts h vs h') (hts : List.Forall₂ (Term.Abbreviates s) ts ts')
    (hall : ∀ t ∈ ts, ∀ t' e h h', t.Abbreviates s t' → Denotes s t h e h' →
      Denotes s t' h e h') : MakesAll s ts' h vs h' := by
  induction hts generalizing h vs with
  | nil =>
    cases hm
    exact .nil
  | cons ht _ ih =>
    rcases hm with _ | ⟨hd, he, hm⟩
    refine .cons (hall _ List.mem_cons_self _ _ _ _ ht hd) he (ih hm ?_)
    exact fun t hmem ↦ hall t (List.mem_cons_of_mem _ hmem)

/-- A value that is written out stands for the same expression. -/
theorem Denotes.written {t t' : Term} {e : Expression} (hd : Denotes s t h e h')
    (ht : t.Abbreviates s t') : Denotes s t' h e h' := by
  induction t using Term.induction generalizing t' e h h' with
  | literal value =>
    cases ht
    exact hd
  | typeName name =>
    cases ht
    exact hd
  | create type? arguments trailing ih =>
    cases ht with
    | create hn hargs =>
      cases hd with
      | create hc hm hconstructor =>
        refine .create (hn.created?_eq.trans hc) (hm.written_of_forall hargs ?_) hconstructor
        exact fun t hmem t' e h h' ht hd ↦ ih t hmem hd ht

private theorem MakesAll.written {ts ts' : List Term} {vs : List Value}
    (hm : MakesAll s ts h vs h') (hts : List.Forall₂ (Term.Abbreviates s) ts ts') :
    MakesAll s ts' h vs h' :=
  hm.written_of_forall hts fun _ _ _ _ _ _ ht hd ↦ hd.written ht

/-! ### Cases -/

/-- An entry is the same except for names that its values leave out. -/
structure Entry.Abbreviates (s : Scope) (e e' : Entry) : Prop where
  activators : List.Forall₂ (Term.Abbreviates s) e.activators e'.activators
  arguments : List.Forall₂ (Term.Abbreviates s) e.arguments e'.arguments
  trailing : e.trailing = e'.trailing
  channel : e.channel = e'.channel
  loose : e.loose = e'.loose
  expected : e.expected.Abbreviates s e'.expected

private theorem Activates.written {a? b? : Option Expression} {ts ts' : List Term}
    (ha : Activates s a? h ts b? h') (hts : List.Forall₂ (Term.Abbreviates s) ts ts') :
    Activates s a? h ts' b? h' := by
  induction hts generalizing a? h with
  | nil =>
    cases ha
    exact .nil
  | cons ht _ ih =>
    rcases ha with _ | ⟨hd, ha⟩
    exact .cons (hd.written ht) (ih ha)

private theorem Demands.written {loose : Bool} {t t' : Term} {c : Criterion}
    (hd : Demands s loose t h c h') (ht : t.Abbreviates s t') : Demands s loose t' h c h' := by
  cases hd with
  | ofType hname =>
    cases ht
    exact .ofType hname
  | exactly hne hd he =>
    refine .exactly ?_ (hd.written ht) he
    rintro name rfl
    cases ht
    exact hne name rfl
  | equivalentTo hd he => exact .equivalentTo (hd.written ht) he

private theorem DeclaresCase.written {a? : Option Expression} {e e' : Entry} {c : Case}
    (hc : DeclaresCase s a? h e c h') (he : e.Abbreviates s e') :
    DeclaresCase s a? h e' c h' := by
  obtain ⟨hactivates, hmakes, hdemands⟩ := hc
  rw [he.channel]
  refine ⟨hactivates.written he.activators, hmakes.written he.arguments, ?_⟩
  rw [← he.loose]
  exact hdemands.written he.expected

private theorem DeclaresCases.written {a? : Option Expression} {es es' : List Entry}
    {cs : List Case}
    (hc : DeclaresCases s a? h es cs h') (hes : List.Forall₂ (Entry.Abbreviates s) es es') :
    DeclaresCases s a? h es' cs h' := by
  induction hes generalizing a? h cs with
  | nil =>
    cases hc
    exact .nil
  | cons he _ ih =>
    rcases hc with _ | ⟨hfirst, hrest⟩
    exact .cons (hfirst.written he) (ih hrest)

/-! ### Tests and programs -/

/-- Parameters are the same, or leave out names of some types. -/
inductive ParametersAbbreviate (s : Scope) (inferred : List TypeName) :
    Option (List String × Bool) → Option (List String × Bool) → Prop where
  | same {parameters? : Option (List String × Bool)} :
      ParametersAbbreviate s inferred parameters? parameters?
  | leftOut {names : List String} {trailing : Bool} :
      names.map s.type? = inferred.map some →
      ParametersAbbreviate s inferred none (some (names, trailing))

/-- The types of the arguments of the first case. -/
def firstTypes (cases : List Case) : List TypeName :=
  (cases.head?.map fun c ↦ c.arguments.map Value.typeName).getD []

/-- A test with some cases is the same except for names that its values leave out, and perhaps the
names of the types that its first case has for arguments. -/
structure TestText.Abbreviates (s : Scope) (cases : List Case) (t t' : TestText) : Prop where
  owner : t.owner = t'.owner
  method : t.method = t'.method
  parameters : ParametersAbbreviate s (firstTypes cases) t.parameters? t'.parameters?
  first : t.first.Abbreviates s t'.first
  others : List.Forall₂ (Entry.Abbreviates s) t.others t'.others

private theorem DeclaresTest.written {t t' : TestText} {test : Test}
    (hd : DeclaresTest s t h test h')
    (ht : t.Abbreviates s test.cases t') : DeclaresTest s t' h test h' := by
  obtain ⟨owner, method, parameters?, first, others⟩ := t
  obtain ⟨owner', method', parameters?', first', others'⟩ := t'
  obtain ⟨-, rfl, hparameters, hfirst, hothers⟩ := ht
  cases hd with
  | intro htypes hcases htarget =>
    have hcases' := hcases.written (.cons hfirst hothers)
    cases hparameters with
    | same => exact .intro htypes hcases' htarget
    | leftOut hnames =>
      -- The inferred types are the listed ones, so the same method is found.
      cases htypes
      exact .intro (.some hnames) hcases' htarget

variable (loader : Loader)

/-- A program is the same except for names that its tests leave out: each name means what is taken
without it in the draft that the items before its test leave. -/
inductive Program.Abbreviates : Draft → Program → Program → Prop where
  | nil {d : Draft} : Abbreviates d [] []
  | item {d d₁ : Draft} {i : Item} {rest rest' : Program} : DeclaresItem loader i d d₁ →
      Abbreviates d₁ rest rest' → Abbreviates d (i :: rest) (i :: rest')
  | test {d : Draft} {owner : TypeName} {t t' : TestText} {test : Test} {heap : Heap}
      {rest rest' : Program} : d.library.type? d.namespaces t.owner = some owner →
      DeclaresTest (d.scope owner) t d.heap test heap →
      t.Abbreviates (d.scope owner) test.cases t' →
      Abbreviates (d.withTest test heap) rest rest' →
      Abbreviates d (.test t :: rest) (.test t' :: rest')

variable {loader}

/-- A program and what it abbreviates declare the same. -/
theorem Program.Abbreviates.declares {d : Draft} {p p' : Program}
    (hp : Program.Abbreviates loader d p p') :
    ∃ d', Declares loader p d d' ∧ Declares loader p' d d' := by
  induction hp with
  | nil => exact ⟨_, .nil, .nil⟩
  | item hi _ ih =>
    obtain ⟨d', hp, hp'⟩ := ih
    exact ⟨d', .cons hi hp, .cons hi hp'⟩
  | test howner htest ht _ ih =>
    obtain ⟨d', hp, hp'⟩ := ih
    refine ⟨d', .cons (.test howner htest) hp, .cons (.test ?_ (htest.written ht)) hp'⟩
    rwa [← ht.owner]

end Grammar

namespace Plan

open Grammar

/-- A source that leaves out the types that can be inferred is read to the same plan. -/
theorem read_of_abbreviates {loader : Loader} {library : Library} {heap : Heap}
    {tokens tokens' : List Token} {program program' : Program} {plan : Plan} {d : Draft}
    (hread : read loader tokens (.start library heap) = (.ok plan, d))
    (hkinds : tokens.map Token.kind = program.kinds)
    (hkinds' : tokens'.map Token.kind = program'.kinds)
    (habbreviates : Program.Abbreviates loader (.start library heap) program program') :
    read loader tokens' (.start library heap) = (.ok plan, d) ∧
    ∀ kinds : TypeName → Prop, library.Constructs (Constructor.Local kinds) →
      loader.Constructs (Constructor.Local kinds) → ∀ k : Heap, ∃ plan' d', ∃ R : Pairing,
        read loader tokens' (.start library k) = (.ok plan', d') ∧
        d.library = d'.library ∧ d.heap.Corresponds kinds R d'.heap ∧
        plan.Akin (.upTo kinds) R plan' := by
  obtain ⟨d₁, hp, hp'⟩ := habbreviates.declares
  have hfirst : read loader tokens (.start library heap) = (.ok d₁.plan, d₁) :=
    read_eq_ok_iff_run.mpr ⟨run_program hp hkinds, rfl⟩
  have hsecond : read loader tokens' (.start library heap) = (.ok d₁.plan, d₁) :=
    read_eq_ok_iff_run.mpr ⟨run_program hp' hkinds', rfl⟩
  obtain ⟨rfl, rfl⟩ : plan = d₁.plan ∧ d = d₁ := by
    rw [hfirst, Prod.mk.injEq, Except.ok.injEq] at hread
    exact ⟨hread.1.symm, hread.2.symm⟩
  refine ⟨hsecond, fun kinds hl hloader k ↦ ?_⟩
  have hsame : tokens'.map Token.kind = tokens'.map Token.kind := rfl
  obtain ⟨R, hheap, hlibrary, hends⟩ := read_same_upTo hsame loader library hl hloader heap k
  rw [hsecond] at hheap hlibrary hends
  generalize hother : read loader tokens' (.start library k) = other at hheap hlibrary hends ⊢
  obtain ⟨result, d'⟩ := other
  cases hends with
  | ok hplan => exact ⟨_, d', R, rfl, hlibrary, hheap, hplan⟩

/-- A test of a translation, with some names of types. -/
def translation (parameters? : Option (List String × Bool)) (type? expected? : Option String) :
    TestText where
  owner := "Point"
  method := "Translate"
  parameters? := parameters?
  first :=
    { activators := [.create type? [.literal (.int 1), .literal (.int 2)] false]
      arguments := [.literal (.int 3), .literal (.int 4)]
      trailing := false
      channel := .returned
      loose := true
      expected := .create expected? [.literal (.int 4), .literal (.int 6)] false }
  others := []

/-- A translation without names of types. -/
def withoutTypes : String :=
  "using \"samples\"; using namespace Samples;
do Point -> Translate: on new(1, 2): case(3, 4) expect ~new(4, 6);"

/-- The translation with names of all types. -/
def withTypes : String :=
  "using \"samples\"; using namespace Samples;
do Point -> Translate(int, int,): on new Point(1, 2): case(3, 4) expect ~new Samples.Point(4, 6);"

/-- The translation is read to the same plan with names and without. -/
theorem read_withTypes : ∃ plan d,
    read .standard (Token.scan withoutTypes).tokens (.start .initial .empty) = (.ok plan, d) ∧
    read .standard (Token.scan withTypes).tokens (.start .initial .empty) = (.ok plan, d) ∧
    ∃ plan' d', ∃ R : Pairing,
      read .standard (Token.scan withTypes).tokens (.start .initial ⟨#[[]]⟩) = (.ok plan', d') ∧
      d.library = d'.library ∧ plan.Akin (.upTo TypeName.IsDeclared) R plan' := by
  let short := translation none none none
  let long := translation (some (["int", "int"], true)) (some "Point") (some "Samples.Point")
  let program (t : TestText) : Program := [.unit "samples", .inNamespace "Samples", .test t]
  have hkinds : (Token.scan withoutTypes).tokens.map Token.kind = (program short).kinds := by
    decide +kernel
  have hkinds' : (Token.scan withTypes).tokens.map Token.kind = (program long).kinds := by
    decide +kernel
  have habbreviates : Program.Abbreviates .standard (.start .initial .empty) (program short)
      (program long) := by
    let s : Scope := ⟨⟨[Core.unit, Samples.unit]⟩, ["", "Samples"], Samples.point⟩
    obtain ⟨test, heap, htest, hfirst⟩ : ∃ test heap, DeclaresTest s short .empty test heap ∧
        firstTypes test.cases = [.primitive .int, .primitive .int] :=
      ⟨_, _, .intro .none (.cons (.intro
        (.cons (.create rfl (.cons .literal rfl (.cons .literal rfl .nil)) rfl) .nil)
        (.cons .literal rfl (.cons .literal rfl .nil))
        (.equivalentTo (.create rfl (.cons .literal rfl (.cons .literal rfl .nil)) rfl) rfl))
        .nil) rfl, rfl⟩
    have hargs {m n : Int32} : List.Forall₂ (Term.Abbreviates s)
        [.literal (.int m), .literal (.int n)] [.literal (.int m), .literal (.int n)] :=
      .cons .literal (.cons .literal .nil)
    have hentry : short.first.Abbreviates s long.first :=
      ⟨.cons (.create (.leftOut rfl) hargs) .nil, hargs, rfl, rfl, rfl,
        .create (.leftOut rfl) hargs⟩
    have htext : short.Abbreviates s test.cases long :=
      ⟨rfl, rfl, .leftOut (by rw [hfirst]; rfl), hentry, .nil⟩
    exact .item (.unit rfl) (.item .inNamespace (.test rfl htest htext .nil))
  obtain ⟨d, hp, -⟩ := habbreviates.declares
  have hread : read .standard (Token.scan withoutTypes).tokens (.start .initial .empty) =
      (.ok d.plan, d) := read_eq_ok_iff_run.mpr ⟨run_program hp hkinds, rfl⟩
  obtain ⟨hread', hupTo⟩ := read_of_abbreviates hread hkinds hkinds' habbreviates
  obtain ⟨plan', d', R, hother, hlibrary, -, hplan⟩ := hupTo TypeName.IsDeclared
    (fun u hu ↦ (Library.contained_initial u hu).constructs)
    (fun _ _ hu ↦ (Loader.contained_standard hu).constructs) ⟨#[[]]⟩
  exact ⟨d.plan, d, hread, hread', plan', d', R, hother, hlibrary, hplan⟩

end Plan

end TestDeclaration

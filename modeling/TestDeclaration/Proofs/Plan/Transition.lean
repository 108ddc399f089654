import TestDeclaration.Plan.Reader

/-!
# The transitions of the reader

Which token takes an unfinished item to which, and what it does to the draft, as a relation:
`Step` has one rule for every way in which `Unfinished.step` succeeds. A `Run` is a sequence of
steps over a list of tokens.
-/

namespace TestDeclaration

/-- A step of drafting succeeds with some result and leaves a draft. -/
def Drafting.Gives {α : Type} (x : Drafting α) (d : Draft) (a : α) (d' : Draft) : Prop :=
  @Eq (Except PlanError α × Draft) (x.run d) (.ok a, d')

namespace Drafting

variable {α β : Type} {d d' : Draft}

private theorem gives_pure {a b : α} : Gives (pure a) d b d' ↔ a = b ∧ d = d' := by
  change (Except.ok a, d) = (Except.ok b, d') ↔ _
  simp

/-- The second step starts from the draft that the first leaves, unless that fails. -/
theorem run_bind (x : Drafting α) (f : α → Drafting β) (d : Draft) :
    (x >>= f).run d = match x.run d with
      | (.ok a, d₁) => (f a).run d₁
      | (.error e, d₁) => (.error e, d₁) := by
  change (match x.run d with | (r, d₁) => ExceptT.bindCont f r d₁) = _
  rcases x.run d with ⟨e | a, d₁⟩ <;> rfl

/-- A computation gives what its second part gives from a result of the first. -/
theorem gives_bind {x : Drafting α} {f : α → Drafting β} {b : β} :
    Gives (x >>= f) d b d' ↔ ∃ a d₁, Gives x d a d₁ ∧ Gives (f a) d₁ b d' := by
  unfold Gives
  rw [run_bind]
  rcases x.run d with ⟨e | a, d₁⟩
  · simp
  · simp [and_assoc]

/-- Reading the draft gives it to what follows. -/
theorem gives_get_bind {f : Draft → Drafting β} {b : β} :
    Gives (get >>= f) d b d' ↔ Gives (f d) d b d' := Iff.rfl

/-- Replacing the draft leaves the new one to what follows. -/
theorem gives_set_bind {e : Draft} {f : PUnit → Drafting β} {b : β} :
    Gives (set e >>= f) d b d' ↔ Gives (f ⟨⟩) e b d' := Iff.rfl

private theorem gives_set {e : Draft} {u : Unit} : Gives (set e) d u d' ↔ d' = e := by
  change (Except.ok (), e) = (Except.ok u, d') ↔ _
  simp [eq_comm]

private theorem not_gives_fail {problem : PlanProblem} {span : Text.Span} {a : α} :
    ¬ Gives (fail problem span) d a d' := by
  intro h
  cases h

private theorem gives_orFail {a? : Option α} {problem : PlanProblem} {span : Text.Span} {a : α} :
    Gives (orFail a? problem span) d a d' ↔ a? = some a ∧ d = d' := by
  cases a? with
  | none => simpa [orFail] using not_gives_fail
  | some b => simpa [orFail] using gives_pure

/-- A name is read if it means a type; the draft stays. -/
theorem gives_type {name : String} {span : Text.Span} {t : TypeName} :
    Gives (type name span) d t d' ↔ d.library.type? d.namespaces name = some t ∧ d = d' := by
  rw [type, gives_get_bind, gives_orFail]

/-- A value is made if its constructor returns it; the draft gets the heap that this leaves. -/
theorem gives_evaluate {e : Expression} {span : Text.Span} {v : Value} :
    Gives (evaluate e span) d v d' ↔
      ∃ h, e.evaluate d.heap = (.ok v, h) ∧ { d with heap := h } = d' := by
  rw [evaluate, gives_get_bind]
  rcases e.evaluate d.heap with ⟨f | w, h⟩
  · simp [gives_set_bind, not_gives_fail]
  · simp only [gives_set_bind, gives_pure, Prod.mk.injEq, Except.ok.injEq, and_assoc,
      exists_and_left, exists_eq_left']

/-- A unit is read if it loads; the draft gets the library that has it. -/
theorem gives_loadUnit {loader : Loader} {path : String} {span : Text.Span} {u : Unit} :
    Gives (loadUnit loader path span) d u d' ↔
      ∃ unit library, d.library.load loader path = .ok (unit, library) ∧
        d' = { d with library } := by
  rw [loadUnit, gives_get_bind]
  rcases d.library.load loader path with e | ⟨unit, library⟩
  · simp [not_gives_fail]
  · simp [gives_set, and_assoc]

private theorem gives_addNamespace {name : String} {u : Unit} :
    Gives (addNamespace name) d u d' ↔
      d' = { d with namespaces := d.namespaces ++ [name] } :=
  gives_set (d := d)

/-- A group starts if no group has its name. -/
theorem gives_openGroup {name : String} {span : Text.Span} {u : Unit} :
    Gives (openGroup name span) d u d' ↔
      name ∉ d.plan.map Group.name ∧
        d' = { d with earlier := d.plan, current := ⟨name, []⟩ } := by
  rw [openGroup, gives_get_bind]
  by_cases h : name ∈ d.plan.map Group.name
  · have hany : (d.plan.any fun g ↦ g.name == name) = true := by
      obtain ⟨g, hg, hn⟩ := List.mem_map.mp h
      exact List.any_eq_true.mpr ⟨g, hg, by simp [hn]⟩
    rw [if_pos hany, gives_bind]
    simp [h, not_gives_fail]
  · have hany : ¬ (d.plan.any fun g ↦ g.name == name) = true := by
      intro hn
      obtain ⟨g, hg, hn⟩ := List.any_eq_true.mp hn
      exact h (List.mem_map.mpr ⟨g, hg, by simpa using hn⟩)
    rw [if_neg hany]
    simpa [h] using gives_set

/-- A test ends if its method exists. -/
theorem gives_closeTest {t : OpenTest} {u : Unit} :
    Gives (closeTest t) d u d' ↔
      ∃ target, d.library.callable? t.owner t.method t.signature = some target ∧
        d' = { d with current :=
          { d.current with tests := d.current.tests ++ [⟨target, t.cases⟩] } } := by
  rw [closeTest, gives_get_bind, gives_bind]
  simp [gives_orFail, gives_set, and_assoc]

end Drafting

open Drafting

namespace Place

/-- A value goes to its place. -/
inductive Fills : Place → Expression → Draft → Unfinished → Draft → Prop where
  | call {test : OpenTest} {role : Role} {call : OpenCall} {outer : List OpenCall}
      {e : Expression} {v : Value} {h : Heap} {d : Draft} : e.evaluate d.heap = (.ok v, h) →
      Fills ⟨test, role, call :: outer⟩ e d
        (.valueEnd ⟨test, role, { call with arguments := call.arguments ++ [v] } :: outer⟩)
        { d with heap := h }
  | activator {test : OpenTest} {e : Expression} {d : Draft} :
      Fills ⟨test, .activator, []⟩ e d (.activatorEnd { test with activator? := some e }) d
  | argument {test : OpenTest} {before : List Value} {e : Expression} {v : Value} {h : Heap}
      {d : Draft} : e.evaluate d.heap = (.ok v, h) →
      Fills ⟨test, .argument before, []⟩ e d
        (.valueEnd ⟨test, .argument (before ++ [v]), []⟩) { d with heap := h }
  | expected {test : OpenTest} {arguments : List Value} {channel : Channel} {loose : Bool}
      {e : Expression} {v : Value} {h : Heap} {d : Draft} : e.evaluate d.heap = (.ok v, h) →
      Fills ⟨test, .expected arguments channel loose, []⟩ e d
        (.caseEnd (test.addCase arguments
          ⟨channel, if loose then .equivalentTo v else .exactly v⟩)) { d with heap := h }

private theorem gives_fill {p : Place} {span : Text.Span} {e : Expression} {d d' : Draft}
    {q : Unfinished} : Gives (p.fill span e) d q d' ↔ p.Fills e d q d' := by
  constructor
  · intro h
    rcases p with ⟨test, role, _ | ⟨call, outer⟩⟩
    · cases role with
      | activator =>
        obtain ⟨rfl, rfl⟩ := gives_pure.mp h
        exact .activator
      | argument before =>
        obtain ⟨v, d₁, hv, h⟩ := gives_bind.mp h
        obtain ⟨heap, he, rfl⟩ := gives_evaluate.mp hv
        obtain ⟨rfl, rfl⟩ := gives_pure.mp h
        exact .argument he
      | expected arguments channel loose =>
        obtain ⟨v, d₁, hv, h⟩ := gives_bind.mp h
        obtain ⟨heap, he, rfl⟩ := gives_evaluate.mp hv
        obtain ⟨rfl, rfl⟩ := gives_pure.mp h
        exact .expected he
    · obtain ⟨v, d₁, hv, h⟩ := gives_bind.mp h
      obtain ⟨heap, he, rfl⟩ := gives_evaluate.mp hv
      obtain ⟨rfl, rfl⟩ := gives_pure.mp h
      exact .call he
  · intro h
    cases h with
    | activator => exact gives_pure.mpr ⟨rfl, rfl⟩
    | call he | argument he | expected he =>
      exact gives_bind.mpr ⟨_, _, gives_evaluate.mpr ⟨_, he, rfl⟩, gives_pure.mpr ⟨rfl, rfl⟩⟩

/-- Whether a place holds an expected value that is compared exactly, where a bare type stands
for its values. -/
def Strict : Place → Prop
  | ⟨_, .expected _ _ false, []⟩ => True
  | _ => False

/-- A type goes to its place. -/
inductive FillsType : Place → TypeName → Draft → Unfinished → Draft → Prop where
  | strict {test : OpenTest} {arguments : List Value} {channel : Channel} {t : TypeName}
      {d : Draft} :
      FillsType ⟨test, .expected arguments channel false, []⟩ t d
        (.caseEnd (test.addCase arguments ⟨channel, .ofType t⟩)) d
  | value {p : Place} {t : TypeName} {d d' : Draft} {q : Unfinished} : ¬ p.Strict →
      p.Fills (.value (.type t)) d q d' → FillsType p t d q d'

private theorem gives_fillType {p : Place} {span : Text.Span} {t : TypeName} {d d' : Draft}
    {q : Unfinished} : Gives (p.fillType span t) d q d' ↔ p.FillsType t d q d' := by
  unfold fillType
  split
  · next arguments channel hw hr =>
    obtain ⟨test, role, within⟩ := p
    cases hw
    cases hr
    rw [gives_pure]
    constructor
    · rintro ⟨rfl, rfl⟩
      exact .strict
    · rintro (_ | ⟨hs, -⟩)
      · exact ⟨rfl, rfl⟩
      · exact absurd trivial hs
  · next hne =>
    have hs : ¬ p.Strict := by
      rcases p with ⟨test, role, within⟩
      intro hs
      unfold Strict at hs
      split at hs
      · next heq =>
        cases heq
        exact hne _ _ rfl rfl
      · exact hs
    rw [gives_fill]
    constructor
    · exact .value hs
    · rintro (_ | ⟨-, h⟩)
      · exact absurd trivial hs
      · exact h

/-- The list around a place ends. -/
inductive Closes : Place → Draft → Unfinished → Draft → Prop where
  | call {test : OpenTest} {role : Role} {call : OpenCall} {outer : List OpenCall}
      {c : Constructor} {d d' : Draft} {q : Unfinished} :
      d.library.constructor? call.type (call.arguments.map Value.typeName) = some c →
      Fills ⟨test, role, outer⟩ (.construct c call.arguments) d q d' →
      Closes ⟨test, role, call :: outer⟩ d q d'
  | arguments {test : OpenTest} {arguments : List Value} {d : Draft} :
      Closes ⟨test, .argument arguments, []⟩ d (.verdict test arguments) d

private theorem gives_close {p : Place} {span : Text.Span} {wanted : Wanted} {d d' : Draft}
    {q : Unfinished} : Gives (p.close span wanted) d q d' ↔ p.Closes d q d' := by
  constructor
  · intro h
    rcases p with ⟨test, role, _ | ⟨call, outer⟩⟩
    · cases role with
      | argument before =>
        obtain ⟨rfl, rfl⟩ := gives_pure.mp h
        exact .arguments
      | activator | expected => exact absurd h not_gives_fail
    · obtain ⟨c, _, ho, hf⟩ := gives_bind.mp (gives_get_bind.mp h)
      obtain ⟨hc, rfl⟩ := gives_orFail.mp ho
      exact .call hc (gives_fill.mp hf)
  · intro h
    cases h with
    | arguments => exact gives_pure.mpr ⟨rfl, rfl⟩
    | call hc hf =>
      exact gives_get_bind.mpr
        (gives_bind.mpr ⟨_, _, gives_orFail.mpr ⟨hc, rfl⟩, gives_fill.mpr hf⟩)

/-- The first token of a value, or the end of the list around it, is read. -/
inductive Begins : Place → Draft → Token → Unfinished → Draft → Prop where
  | literal {p : Place} {value : Scalar} {t : Token} {d d' : Draft} {q : Unfinished} :
      t.kind = .literal value → p.Fills (.value (.scalar value)) d q d' → Begins p d t q d'
  | typeName {p : Place} {name : String} {type : TypeName} {t : Token} {d d' : Draft}
      {q : Unfinished} : t.kind = .identifier name →
      d.library.type? d.namespaces name = some type → p.FillsType type d q d' → Begins p d t q d'
  | create {p : Place} {t : Token} {d : Draft} : t.kind = .keyword .create →
      Begins p d t (.callType p t.span) d
  | close {p : Place} {t : Token} {d d' : Draft} {q : Unfinished} :
      t.kind = .symbol .rightParen → p.Closes d q d' → Begins p d t q d'

private theorem gives_begin {p : Place} {t : Token} {d d' : Draft} {q : Unfinished} :
    Gives (p.begin t) d q d' ↔ p.Begins d t q d' := by
  constructor
  · intro h
    unfold «begin» at h
    split at h
    · next value hk => exact .literal hk (gives_fill.mp h)
    · next name hk =>
      obtain ⟨type, _, hn, hf⟩ := gives_bind.mp h
      obtain ⟨ht, rfl⟩ := gives_type.mp hn
      exact .typeName hk ht (gives_fillType.mp hf)
    · next hk =>
      obtain ⟨rfl, rfl⟩ := gives_pure.mp h
      exact .create hk
    · next hk => exact .close hk (gives_close.mp h)
    · exact absurd h not_gives_fail
  · intro h
    unfold «begin»
    cases h with
    | literal hk hf => simpa only [hk] using gives_fill.mpr hf
    | typeName hk ht hf =>
      simp only [hk]
      exact gives_bind.mpr ⟨_, _, gives_type.mpr ⟨ht, rfl⟩, gives_fillType.mpr hf⟩
    | create hk => simpa only [hk] using gives_pure.mpr ⟨rfl, rfl⟩
    | close hk hc => simpa only [hk] using gives_close.mpr hc

end Place

namespace Unfinished

variable (loader : Loader)

/-- An unfinished item takes one more token. -/
inductive Step : Unfinished → Draft → Token → Unfinished → Draft → Prop where
  | use {t : Token} {d : Draft} : t.kind = .keyword .use → Step .item d t .unitPath d
  | testGroup {t : Token} {d : Draft} : t.kind = .keyword .testGroup → Step .item d t .groupName d
  | perform {t : Token} {d : Draft} : t.kind = .keyword .perform → Step .item d t .testType d
  | path {path : String} {u : CodeUnit} {library : Library} {t : Token} {d : Draft} :
      t.kind = .literal (.string path) → d.library.load loader path = .ok (u, library) →
      Step .unitPath d t .unitEnd { d with library }
  | inNamespace {t : Token} {d : Draft} : t.kind = .keyword .inNamespace →
      Step .unitPath d t .namespaceName d
  | unitEnd {t : Token} {d : Draft} : t.kind = .symbol .semicolon → Step .unitEnd d t .item d
  | namespaceName {name : String} {t : Token} {d : Draft} : t.kind = .identifier name →
      Step .namespaceName d t .namespaceEnd { d with namespaces := d.namespaces ++ [name] }
  | namespaceEnd {t : Token} {d : Draft} : t.kind = .symbol .semicolon →
      Step .namespaceEnd d t .item d
  | groupName {name : String} {t : Token} {d : Draft} : t.kind = .identifier name →
      Step .groupName d t (.groupEnd name t.span) d
  | groupEnd {name : String} {span : Text.Span} {t : Token} {d : Draft} :
      t.kind = .symbol .semicolon → name ∉ d.plan.map Group.name →
      Step (.groupEnd name span) d t .item { d with earlier := d.plan, current := ⟨name, []⟩ }
  | testType {name : String} {owner : TypeName} {t : Token} {d : Draft} :
      t.kind = .identifier name → d.library.type? d.namespaces name = some owner →
      Step .testType d t (.arrow owner) d
  | arrow {owner : TypeName} {t : Token} {d : Draft} : t.kind = .symbol .arrow →
      Step (.arrow owner) d t (.methodName owner) d
  | methodName {owner : TypeName} {name : String} {t : Token} {d : Draft} :
      t.kind = .identifier name →
      Step (.methodName owner) d t (.signature ⟨owner, name, t.span, none, none, []⟩) d
  | parameters {test : OpenTest} {t : Token} {d : Draft} : t.kind = .symbol .leftParen →
      Step (.signature test) d t (.parameter test []) d
  | noParameters {test : OpenTest} {t : Token} {d : Draft} : t.kind = .symbol .colon →
      Step (.signature test) d t (.entry test) d
  | parametersEnd {test : OpenTest} {before : List TypeName} {t : Token} {d : Draft} :
      t.kind = .symbol .rightParen →
      Step (.parameter test before) d t (.testColon { test with signature? := some before }) d
  | parameter {test : OpenTest} {before : List TypeName} {name : String} {type : TypeName}
      {t : Token} {d : Draft} :
      t.kind = .identifier name → d.library.type? d.namespaces name = some type →
      Step (.parameter test before) d t (.parameterEnd test (before ++ [type])) d
  | parameterComma {test : OpenTest} {before : List TypeName} {t : Token} {d : Draft} :
      t.kind = .symbol .comma → Step (.parameterEnd test before) d t (.parameter test before) d
  | lastParameter {test : OpenTest} {before : List TypeName} {t : Token} {d : Draft} :
      t.kind = .symbol .rightParen →
      Step (.parameterEnd test before) d t (.testColon { test with signature? := some before }) d
  | testColon {test : OpenTest} {t : Token} {d : Draft} : t.kind = .symbol .colon →
      Step (.testColon test) d t (.entry test) d
  | testCase {test : OpenTest} {t : Token} {d : Draft} : t.kind = .keyword .testCase →
      Step (.entry test) d t (.caseOpen test) d
  | onTarget {test : OpenTest} {t : Token} {d : Draft} : t.kind = .keyword .onTarget →
      Step (.entry test) d t (.value ⟨test, .activator, []⟩) d
  | activatorEnd {test : OpenTest} {t : Token} {d : Draft} : t.kind = .symbol .colon →
      Step (.activatorEnd test) d t (.entry test) d
  | caseOpen {test : OpenTest} {t : Token} {d : Draft} : t.kind = .symbol .leftParen →
      Step (.caseOpen test) d t (.value ⟨test, .argument [], []⟩) d
  | value {place : Place} {t : Token} {d d' : Draft} {q : Unfinished} :
      place.Begins d t q d' → Step (.value place) d t q d'
  | valueComma {place : Place} {t : Token} {d : Draft} : t.kind = .symbol .comma →
      Step (.valueEnd place) d t (.value place) d
  | lastValue {place : Place} {t : Token} {d d' : Draft} {q : Unfinished} :
      t.kind = .symbol .rightParen → place.Closes d q d' → Step (.valueEnd place) d t q d'
  | namedCall {place : Place} {span : Text.Span} {name : String} {type : TypeName} {t : Token}
      {d : Draft} : t.kind = .identifier name → d.library.type? d.namespaces name = some type →
      Step (.callType place span) d t (.callOpen place span type) d
  | unnamedCall {place : Place} {span : Text.Span} {t : Token} {d : Draft} :
      t.kind = .symbol .leftParen →
      Step (.callType place span) d t (.value (place.inCall span place.test.owner)) d
  | callOpen {place : Place} {span : Text.Span} {type : TypeName} {t : Token} {d : Draft} :
      t.kind = .symbol .leftParen →
      Step (.callOpen place span type) d t (.value (place.inCall span type)) d
  | expect {test : OpenTest} {arguments : List Value} {t : Token} {d : Draft} :
      t.kind = .keyword .expect →
      Step (.verdict test arguments) d t (.expectation test arguments .returned) d
  | throws {test : OpenTest} {arguments : List Value} {t : Token} {d : Draft} :
      t.kind = .keyword .throws →
      Step (.verdict test arguments) d t (.expectation test arguments .thrown) d
  | loose {test : OpenTest} {arguments : List Value} {channel : Channel} {t : Token} {d : Draft} :
      t.kind = .symbol .tilde → Step (.expectation test arguments channel) d t
        (.value ⟨test, .expected arguments channel true, []⟩) d
  | strict {test : OpenTest} {arguments : List Value} {channel : Channel} {t : Token}
      {d d' : Draft} {q : Unfinished} :
      Place.Begins ⟨test, .expected arguments channel false, []⟩ d t q d' →
      Step (.expectation test arguments channel) d t q d'
  | caseComma {test : OpenTest} {t : Token} {d : Draft} : t.kind = .symbol .comma →
      Step (.caseEnd test) d t (.entry test) d
  | lastCase {test : OpenTest} {target : Callable} {t : Token} {d : Draft} :
      t.kind = .symbol .semicolon →
      d.library.callable? test.owner test.method test.signature = some target →
      Step (.caseEnd test) d t .item { d with current :=
        { d.current with tests := d.current.tests ++ [⟨target, test.cases⟩] } }

variable {loader}

/-- At the place of a value, a step begins a value. -/
theorem Step.begins {p : Place} {t : Token} {q : Unfinished} {d d' : Draft}
    (h : Step loader (.value p) d t q d') : p.Begins d t q d' := by
  cases h
  assumption

/-- The rules describe `Unfinished.step`. -/
theorem gives_step {q q' : Unfinished} {d d' : Draft} {t : Token} :
    Gives (q.step loader t) d q' d' ↔ Step loader q d t q' d' := by
  constructor
  · intro h
    unfold step at h
    split at h
    -- Most tokens only move on; the others look something up or end a value.
    all_goals try
      obtain ⟨rfl, rfl⟩ := gives_pure.mp h
      constructor
      assumption
    case h_4 path hk =>
      obtain ⟨_, _, hg, hq⟩ := gives_bind.mp h
      obtain ⟨u, library, hl, rfl⟩ := gives_loadUnit.mp hg
      obtain ⟨rfl, rfl⟩ := gives_pure.mp hq
      exact .path hk hl
    case h_10 name span hk =>
      obtain ⟨_, _, hg, hq⟩ := gives_bind.mp h
      obtain ⟨hn, rfl⟩ := gives_openGroup.mp hg
      obtain ⟨rfl, rfl⟩ := gives_pure.mp hq
      exact .groupEnd hk hn
    case h_11 name hk =>
      obtain ⟨owner, _, hg, hq⟩ := gives_bind.mp h
      obtain ⟨ht, rfl⟩ := gives_type.mp hg
      obtain ⟨rfl, rfl⟩ := gives_pure.mp hq
      exact .testType hk ht
    case h_17 test before name hk =>
      obtain ⟨type, _, hg, hq⟩ := gives_bind.mp h
      obtain ⟨ht, rfl⟩ := gives_type.mp hg
      obtain ⟨rfl, rfl⟩ := gives_pure.mp hq
      exact .parameter hk ht
    case h_25 place => exact .value (Place.gives_begin.mp h)
    case h_27 place hk => exact .lastValue hk (Place.gives_close.mp h)
    case h_28 place span name hk =>
      obtain ⟨type, _, hg, hq⟩ := gives_bind.mp h
      obtain ⟨ht, rfl⟩ := gives_type.mp hg
      obtain ⟨rfl, rfl⟩ := gives_pure.mp hq
      exact .namedCall hk ht
    case h_34 test arguments channel _ => exact .strict (Place.gives_begin.mp h)
    case h_36 test hk =>
      obtain ⟨_, _, hg, hq⟩ := gives_bind.mp h
      obtain ⟨target, ht, rfl⟩ := gives_closeTest.mp hg
      obtain ⟨rfl, rfl⟩ := gives_pure.mp hq
      exact .lastCase hk ht
    case h_37 => exact absurd h not_gives_fail
  · intro h
    unfold step
    cases h with
    | path hk hl =>
      rw [hk]
      exact gives_bind.mpr ⟨⟨⟩, _, gives_loadUnit.mpr ⟨_, _, hl, rfl⟩, gives_pure.mpr ⟨rfl, rfl⟩⟩
    | namespaceName hk =>
      rw [hk]
      exact gives_bind.mpr ⟨⟨⟩, _, gives_addNamespace.mpr rfl, gives_pure.mpr ⟨rfl, rfl⟩⟩
    | groupEnd hk hn =>
      rw [hk]
      exact gives_bind.mpr ⟨⟨⟩, _, gives_openGroup.mpr ⟨hn, rfl⟩, gives_pure.mpr ⟨rfl, rfl⟩⟩
    | testType hk ht | parameter hk ht | namedCall hk ht =>
      rw [hk]
      exact gives_bind.mpr ⟨_, _, gives_type.mpr ⟨ht, rfl⟩, gives_pure.mpr ⟨rfl, rfl⟩⟩
    | value hb => exact Place.gives_begin.mpr hb
    | lastValue hk hc =>
      rw [hk]
      exact Place.gives_close.mpr hc
    | strict hb =>
      have hg := Place.gives_begin.mpr hb
      cases hb with
      | literal hk | typeName hk | create hk | close hk =>
        rw [hk]
        exact hg
    | lastCase hk ht =>
      rw [hk]
      exact gives_bind.mpr ⟨⟨⟩, _, gives_closeTest.mpr ⟨_, ht, rfl⟩, gives_pure.mpr ⟨rfl, rfl⟩⟩
    | _ hk =>
      rw [hk]
      exact gives_pure.mpr ⟨rfl, rfl⟩

/-- An unfinished item takes some tokens, one after the other. -/
inductive Run (loader : Loader) : Unfinished → Draft → List Token → Unfinished → Draft → Prop where
  | nil {q : Unfinished} {d : Draft} : Run loader q d [] q d
  | cons {q q₁ q' : Unfinished} {d d₁ d' : Draft} {t : Token} {rest : List Token} :
      Step loader q d t q₁ d₁ → Run loader q₁ d₁ rest q' d' → Run loader q d (t :: rest) q' d'

/-- Runs describe how an unfinished item takes the tokens of a source. -/
theorem gives_foldlM {q q' : Unfinished} {d d' : Draft} {tokens : List Token} :
    Gives (tokens.foldlM (step loader) q) d q' d' ↔ Run loader q d tokens q' d' := by
  induction tokens generalizing q d with
  | nil =>
    rw [List.foldlM_nil, gives_pure]
    constructor
    · rintro ⟨rfl, rfl⟩
      exact .nil
    · rintro ⟨⟩
      exact ⟨rfl, rfl⟩
  | cons t rest ih =>
    rw [List.foldlM_cons, gives_bind]
    constructor
    · rintro ⟨q₁, d₁, hs, hr⟩
      exact .cons (gives_step.mp hs) (ih.mp hr)
    · rintro (_ | ⟨hs, hr⟩)
      exact ⟨_, _, gives_step.mpr hs, ih.mpr hr⟩

end Unfinished

namespace Plan

variable {loader : Loader} {tokens : List Token} {plan : Plan} {d d' : Draft}

/-- The result of reading is that of the tokens, unless an item is unfinished behind them. -/
theorem read_eq (loader : Loader) (tokens : List Token) (d : Draft) :
    read loader tokens d = match (tokens.foldlM (Unfinished.step loader) .item).run d with
      | (.ok q, d') => if q.complete then (.ok d'.plan, d')
        else (.error ⟨.grammar q.wanted, endSpan tokens⟩, d')
      | (.error e, d') => (.error e, d') := by
  rw [read, drafting, run_bind]
  rcases (tokens.foldlM (Unfinished.step loader) .item).run d with ⟨e | q, d'⟩
  · rfl
  · by_cases hq : q.complete
    · simp only [if_pos hq]
      rfl
    · simp only [if_neg hq]
      rfl

/-- A source is read if a run over its tokens ends between two items. -/
theorem read_eq_ok_iff_run :
    read loader tokens d = (.ok plan, d') ↔
      Unfinished.Run loader .item d tokens .item d' ∧ plan = d'.plan := by
  change Gives (drafting loader tokens) d plan d' ↔ _
  rw [drafting, gives_bind]
  constructor
  · rintro ⟨q, d₁, hq, h⟩
    split at h
    · next hc =>
      cases q <;> cases hc
      rw [gives_get_bind] at h
      obtain ⟨rfl, rfl⟩ := gives_pure.mp h
      exact ⟨Unfinished.gives_foldlM.mp hq, rfl⟩
    · exact absurd h not_gives_fail
  · rintro ⟨hr, rfl⟩
    exact ⟨.item, d', Unfinished.gives_foldlM.mpr hr, gives_pure.mpr ⟨rfl, rfl⟩⟩

end Plan

end TestDeclaration

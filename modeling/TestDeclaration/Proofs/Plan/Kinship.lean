import Mathlib.Order.Basic
import TestDeclaration.Proofs.CodeUnit.Constructors
import TestDeclaration.Proofs.Plan.Transition

/-!
# Kinship of two readings

Two readings of tokens of the same kinds differ in the places of the tokens and, if they start from
different heaps, in the identity of the objects that they make. A kinship says which values, faults
and heaps of two runs stand for each other along the objects that are paired so far. The relations
below carry this over to plans, to what is unfinished and to drafts; places are related by any
relation on spans. All of them stay when more objects are paired.
-/

namespace TestDeclaration

open TestDeclaration.Text

/-- When values, faults and heaps of two runs stand for each other, given pairs of objects. -/
structure Kinship where
  value : Pairing → Value → Value → Prop
  fault : Pairing → Fault → Fault → Prop
  heap : Pairing → Heap → Heap → Prop
  mono : ∀ {R R' : Pairing} {v w : Value}, R ≤ R' → value R v w → value R' v w
  plain : ∀ {R : Pairing} {v : Value}, v.asObject? = none → value R v v
  typeName_eq : ∀ {R : Pairing} {v w : Value}, value R v w → v.typeName = w.typeName
  text_eq : ∀ {R : Pairing} {f g : Fault}, fault R f g → f.text = g.text

/-- Two results stand for each other, or two errors do. -/
inductive EndAkin {ε α : Type} (broken : ε → ε → Prop) (same : α → α → Prop) :
    Except ε α → Except ε α → Prop where
  | ok {a b : α} : same a b → EndAkin broken same (.ok a) (.ok b)
  | error {e f : ε} : broken e f → EndAkin broken same (.error e) (.error f)

/-- Ends that are akin stay so under weaker relations. -/
theorem EndAkin.imp {ε α : Type} {broken broken' : ε → ε → Prop} {same same' : α → α → Prop}
    {r r' : Except ε α} (h : EndAkin broken same r r') (hbroken : ∀ e f, broken e f → broken' e f)
    (hsame : ∀ a b, same a b → same' a b) : EndAkin broken' same' r r' := by
  cases h with
  | ok hab => exact .ok (hsame _ _ hab)
  | error he => exact .error (hbroken _ _ he)

private theorem EndsAlike.endAkin {kinds : TypeName → Prop} {R : Pairing} {α : Type}
    {same : α → α → Prop} {r r' : Except Fault α} (h : EndsAlike kinds R same r r') :
    EndAkin (Fault.Alike kinds R) same r r' := by
  cases h with
  | ok hv => exact .ok hv
  | error hf => exact .error hf

namespace Kinship

/-- Values, faults and heaps stand for themselves only. -/
def identity : Kinship where
  value _ v w := v = w
  fault _ f g := f = g
  heap _ h k := h = k
  mono _ hv := hv
  plain _ := rfl
  typeName_eq hv := by rw [hv]
  text_eq hf := by rw [hf]

/-- Objects stand for the objects that they are paired with. -/
def upTo (kinds : TypeName → Prop) : Kinship where
  value := Value.Alike kinds
  fault := Fault.Alike kinds
  heap := Heap.Corresponds kinds
  mono hR hv := hv.mono (fun _ ↦ id) hR
  plain := Value.alike_of_asObject?_eq_none
  typeName_eq := Value.Alike.typeName_eq
  text_eq hf := by rw [Fault.text, Fault.text, hf.type, hf.message]

/-- Two calls end akin, once more objects are paired. -/
def CallsAkin (K : Kinship) (R : Pairing) (p q : Except Fault Value × Heap) : Prop :=
  ∃ R', R ≤ R' ∧ K.heap R' p.2 q.2 ∧ EndAkin (K.fault R') (K.value R') p.1 q.1

/-- A constructor ends akin when it is called on values that are akin. -/
def RespectedBy (K : Kinship) (c : Constructor) : Prop :=
  ∀ {R : Pairing} {h k : Heap} {args args' : List Value}, K.heap R h k →
    List.Forall₂ (K.value R) args args' → K.CallsAkin R (c.construct args h) (c.construct args' k)

/-- Every constructor makes the same of the same arguments. -/
theorem identity_respectedBy (c : Constructor) : identity.RespectedBy c := by
  intro R h k args args' hh hargs
  cases hh
  obtain rfl : args = args' := List.forall₂_eq_eq_eq ▸ hargs
  refine ⟨R, le_rfl, rfl, ?_⟩
  generalize (c.construct args h).1 = r
  cases r with
  | ok v => exact .ok rfl
  | error f => exact .error rfl

/-- A local constructor makes the same up to objects. -/
theorem upTo_respectedBy {kinds : TypeName → Prop} {c : Constructor} (hc : c.Local kinds) :
    (upTo kinds).RespectedBy c := by
  intro R h k args args' hh hargs
  obtain ⟨R', hR, hh', hends⟩ := hc.tracks hh hargs
  exact ⟨R', fun _ _ ↦ hR.keeps, hh', hends.endAkin⟩

end Kinship

/-! ### Plans -/

section

variable (K : Kinship) (σ : Span → Span → Prop) (R : Pairing)

/-- Expressions that can be evaluated to values that are akin. -/
inductive Expression.Akin : Expression → Expression → Prop where
  | value {v w : Value} : K.value R v w → Akin (.value v) (.value w)
  | construct {c : Constructor} {args args' : List Value} : K.RespectedBy c →
      List.Forall₂ (K.value R) args args' → Akin (.construct c args) (.construct c args')

/-- Criteria of the same sort that ask for values that are akin. -/
inductive Criterion.Akin : Criterion → Criterion → Prop where
  | exactly {v w : Value} : K.value R v w → Akin (.exactly v) (.exactly w)
  | equivalentTo {v w : Value} : K.value R v w → Akin (.equivalentTo v) (.equivalentTo w)
  | ofType (t : TypeName) : Akin (.ofType t) (.ofType t)

/-- Cases that are akin part by part. -/
structure Case.Akin (c c' : Case) : Prop where
  activator : Option.Rel (Expression.Akin K R) c.activator? c'.activator?
  arguments : List.Forall₂ (K.value R) c.arguments c'.arguments
  channel : c.expectation.channel = c'.expectation.channel
  criterion : Criterion.Akin K R c.expectation.criterion c'.expectation.criterion

/-- Tests of one method with cases that are akin. -/
structure Test.Akin (t t' : Test) : Prop where
  target : t.target = t'.target
  cases : List.Forall₂ (Case.Akin K R) t.cases t'.cases

/-- Groups of one name with tests that are akin. -/
structure Group.Akin (g g' : Group) : Prop where
  name : g.name = g'.name
  tests : List.Forall₂ (Test.Akin K R) g.tests g'.tests

/-- Plans with groups that are akin, in the same order. -/
abbrev Plan.Akin (p p' : Plan) : Prop := List.Forall₂ (Group.Akin K R) p p'

/-- Problems that are the same, or faults that are akin. -/
inductive PlanProblem.Akin : PlanProblem → PlanProblem → Prop where
  | refl (p : PlanProblem) : Akin p p
  | fault {f g : Fault} : K.fault R f g → Akin (.constructorFault f) (.constructorFault g)

/-- Problems that are akin, at places that are related. -/
structure PlanError.Akin (e e' : PlanError) : Prop where
  problem : PlanProblem.Akin K R e.problem e'.problem
  span : σ e.span e'.span

/-! ### What is unfinished -/

/-- Open tests that are akin part by part. -/
structure OpenTest.Akin (t t' : OpenTest) : Prop where
  owner : t.owner = t'.owner
  method : t.method = t'.method
  methodSpan : σ t.methodSpan t'.methodSpan
  signature? : t.signature? = t'.signature?
  activator : Option.Rel (Expression.Akin K R) t.activator? t'.activator?
  cases : List.Forall₂ (Case.Akin K R) t.cases t'.cases

/-- Roles of the same sort with values that are akin. -/
inductive Role.Akin : Role → Role → Prop where
  | activator : Akin .activator .activator
  | argument {before before' : List Value} : List.Forall₂ (K.value R) before before' →
      Akin (.argument before) (.argument before')
  | expected {arguments arguments' : List Value} (channel : Channel) (loose : Bool) :
      List.Forall₂ (K.value R) arguments arguments' →
      Akin (.expected arguments channel loose) (.expected arguments' channel loose)

/-- Open calls for one type with arguments that are akin. -/
structure OpenCall.Akin (c c' : OpenCall) : Prop where
  span : σ c.span c'.span
  type : c.type = c'.type
  arguments : List.Forall₂ (K.value R) c.arguments c'.arguments

/-- Places that are akin part by part. -/
structure Place.Akin (p p' : Place) : Prop where
  test : OpenTest.Akin K σ R p.test p'.test
  role : Role.Akin K R p.role p'.role
  within : List.Forall₂ (OpenCall.Akin K σ R) p.within p'.within

/-- Items that are unfinished in the same way. -/
inductive Unfinished.Akin : Unfinished → Unfinished → Prop where
  | item : Akin .item .item
  | unitPath : Akin .unitPath .unitPath
  | unitEnd : Akin .unitEnd .unitEnd
  | namespaceName : Akin .namespaceName .namespaceName
  | namespaceEnd : Akin .namespaceEnd .namespaceEnd
  | groupName : Akin .groupName .groupName
  | groupEnd {span span' : Span} (name : String) : σ span span' →
      Akin (.groupEnd name span) (.groupEnd name span')
  | testType : Akin .testType .testType
  | arrow (owner : TypeName) : Akin (.arrow owner) (.arrow owner)
  | methodName (owner : TypeName) : Akin (.methodName owner) (.methodName owner)
  | signature {t t' : OpenTest} : t.Akin K σ R t' → Akin (.signature t) (.signature t')
  | parameter {t t' : OpenTest} (before : List TypeName) : t.Akin K σ R t' →
      Akin (.parameter t before) (.parameter t' before)
  | parameterEnd {t t' : OpenTest} (before : List TypeName) : t.Akin K σ R t' →
      Akin (.parameterEnd t before) (.parameterEnd t' before)
  | testColon {t t' : OpenTest} : t.Akin K σ R t' → Akin (.testColon t) (.testColon t')
  | entry {t t' : OpenTest} : t.Akin K σ R t' → Akin (.entry t) (.entry t')
  | activatorEnd {t t' : OpenTest} : t.Akin K σ R t' → Akin (.activatorEnd t) (.activatorEnd t')
  | caseOpen {t t' : OpenTest} : t.Akin K σ R t' → Akin (.caseOpen t) (.caseOpen t')
  | value {p p' : Place} : p.Akin K σ R p' → Akin (.value p) (.value p')
  | valueEnd {p p' : Place} : p.Akin K σ R p' → Akin (.valueEnd p) (.valueEnd p')
  | callType {p p' : Place} {span span' : Span} : p.Akin K σ R p' → σ span span' →
      Akin (.callType p span) (.callType p' span')
  | callOpen {p p' : Place} {span span' : Span} (type : TypeName) : p.Akin K σ R p' →
      σ span span' → Akin (.callOpen p span type) (.callOpen p' span' type)
  | verdict {t t' : OpenTest} {arguments arguments' : List Value} : t.Akin K σ R t' →
      List.Forall₂ (K.value R) arguments arguments' →
      Akin (.verdict t arguments) (.verdict t' arguments')
  | expectation {t t' : OpenTest} {arguments arguments' : List Value} (channel : Channel) :
      t.Akin K σ R t' → List.Forall₂ (K.value R) arguments arguments' →
      Akin (.expectation t arguments channel) (.expectation t' arguments' channel)
  | caseEnd {t t' : OpenTest} : t.Akin K σ R t' → Akin (.caseEnd t) (.caseEnd t')

/-- Drafts with the same units, all of whose constructors respect the kinship, and with heaps and
plans that are akin. -/
structure Draft.Akin (d d' : Draft) : Prop where
  library : d.library = d'.library
  respected : d.library.Constructs K.RespectedBy
  heap : K.heap R d.heap d'.heap
  namespaces : d.namespaces = d'.namespaces
  earlier : Plan.Akin K R d.earlier d'.earlier
  current : Group.Akin K R d.current d'.current

end

/-! ### More pairs -/

section

variable {K : Kinship} {R R' : Pairing} {σ : Span → Span → Prop}

/-- Lists of values stay akin when the pairing grows. -/
theorem Kinship.mono_all {vs ws : List Value} (h : List.Forall₂ (K.value R) vs ws) (hR : R ≤ R') :
    List.Forall₂ (K.value R') vs ws :=
  h.imp fun _ _ ↦ K.mono hR

private theorem Expression.Akin.mono {e e' : Expression} (h : e.Akin K R e') (hR : R ≤ R') :
    e.Akin K R' e' := by
  cases h with
  | value hv => exact .value (K.mono hR hv)
  | construct hc hargs => exact .construct hc (K.mono_all hargs hR)

private theorem Expression.Akin.mono_option {e? e'? : Option Expression}
    (h : Option.Rel (Expression.Akin K R) e? e'?) (hR : R ≤ R') :
    Option.Rel (Expression.Akin K R') e? e'? := by
  cases h with
  | none => exact .none
  | some h => exact .some (h.mono hR)

private theorem Criterion.Akin.mono {c c' : Criterion} (h : c.Akin K R c') (hR : R ≤ R') :
    c.Akin K R' c' := by
  cases h with
  | exactly hv => exact .exactly (K.mono hR hv)
  | equivalentTo hv => exact .equivalentTo (K.mono hR hv)
  | ofType t => exact .ofType t

private theorem Case.Akin.mono {c c' : Case} (h : c.Akin K R c') (hR : R ≤ R') : c.Akin K R' c' :=
  ⟨Expression.Akin.mono_option h.activator hR, K.mono_all h.arguments hR, h.channel,
    h.criterion.mono hR⟩

/-- Groups stay akin when the pairing grows. -/
theorem Group.Akin.mono {g g' : Group} (h : g.Akin K R g') (hR : R ≤ R') : g.Akin K R' g' :=
  ⟨h.name, h.tests.imp fun _ _ ht ↦ ⟨ht.target, ht.cases.imp fun _ _ hc ↦ hc.mono hR⟩⟩

/-- Plans stay akin when the pairing grows. -/
theorem Plan.Akin.mono {p p' : Plan} (h : p.Akin K R p') (hR : R ≤ R') : p.Akin K R' p' :=
  h.imp fun _ _ hg ↦ hg.mono hR

/-- Open tests stay akin when the pairing grows. -/
theorem OpenTest.Akin.mono {t t' : OpenTest} (h : t.Akin K σ R t') (hR : R ≤ R') :
    t.Akin K σ R' t' :=
  { h with
    activator := Expression.Akin.mono_option h.activator hR
    cases := h.cases.imp fun _ _ hc ↦ hc.mono hR }

/-- Open calls stay akin when the pairing grows. -/
theorem OpenCall.Akin.mono {c c' : OpenCall} (h : c.Akin K σ R c') (hR : R ≤ R') :
    c.Akin K σ R' c' :=
  ⟨h.span, h.type, K.mono_all h.arguments hR⟩

/-- Roles stay akin when the pairing grows. -/
theorem Role.Akin.mono {r r' : Role} (h : r.Akin K R r') (hR : R ≤ R') : r.Akin K R' r' := by
  cases h with
  | activator => exact .activator
  | argument h => exact .argument (K.mono_all h hR)
  | expected channel loose h => exact .expected channel loose (K.mono_all h hR)

/-- Places stay akin when the pairing grows. -/
theorem Place.Akin.mono {p p' : Place} (h : p.Akin K σ R p') (hR : R ≤ R') : p.Akin K σ R' p' :=
  ⟨h.test.mono hR, h.role.mono hR, h.within.imp fun _ _ hc ↦ hc.mono hR⟩

/-! ### What is akin behaves alike -/

/-- Tests that are akin get cases that are akin. -/
theorem OpenTest.Akin.addCase {t t' : OpenTest} (h : t.Akin K σ R t')
    {arguments arguments' : List Value}
    (harguments : List.Forall₂ (K.value R) arguments arguments') (channel : Channel)
    {c c' : Criterion} (hc : c.Akin K R c') :
    OpenTest.Akin K σ R (t.addCase arguments ⟨channel, c⟩) (t'.addCase arguments' ⟨channel, c'⟩) :=
  { h with cases := List.rel_append h.cases (.cons ⟨h.activator, harguments, rfl, hc⟩ .nil) }

/-- Expressions that are akin are evaluated to results that are. -/
theorem Expression.Akin.evaluate {e e' : Expression} (he : e.Akin K R e') {h k : Heap}
    (hh : K.heap R h k) : K.CallsAkin R (e.evaluate h) (e'.evaluate k) := by
  cases he with
  | value hv => exact ⟨R, le_rfl, hh, .ok hv⟩
  | construct hc hargs => exact hc hh hargs

/-- Plans that are akin have groups of the same names. -/
theorem Plan.Akin.any_name_eq {p p' : Plan} (h : p.Akin K R p') (name : String) :
    (p.any fun g ↦ g.name == name) = p'.any fun g ↦ g.name == name := by
  induction h with
  | nil => rfl
  | cons hg _ ih => rw [List.any_cons, List.any_cons, hg.name, ih]

/-- Drafts that are akin have plans that are akin. -/
theorem Draft.Akin.plan {d d' : Draft} (h : d.Akin K R d') : d.plan.Akin K R d'.plan :=
  List.rel_append h.earlier (.cons h.current .nil)

/-- Drafts of empty sources are akin if their heaps are. -/
theorem Draft.Akin.start {library : Library}
    (hl : library.Constructs K.RespectedBy) {h k : Heap} (hh : K.heap R h k) :
    Draft.Akin K R (.start library h) (.start library k) :=
  ⟨rfl, hl, hh, rfl, .nil, rfl, .nil⟩

/-- Values that are akin have the same types. -/
theorem Kinship.map_typeName_eq {vs ws : List Value} (h : List.Forall₂ (K.value R) vs ws) :
    vs.map Value.typeName = ws.map Value.typeName := by
  induction h with
  | nil => rfl
  | cons hv _ ih => rw [List.map_cons, List.map_cons, K.typeName_eq hv, ih]

/-- Open tests that are akin look up the same parameters. -/
theorem OpenTest.Akin.signature_eq {t t' : OpenTest} (h : t.Akin K σ R t') :
    t.signature = t'.signature := by
  have hcases := h.cases
  unfold OpenTest.signature
  rw [h.signature?]
  cases t'.signature? with
  | some signature => rfl
  | none =>
    generalize t.cases = cases at hcases ⊢
    generalize t'.cases = cases' at hcases ⊢
    cases hcases with
    | nil => rfl
    | cons hc _ => exact Kinship.map_typeName_eq hc.arguments

/-- Problems that are akin have the same message. -/
theorem PlanProblem.Akin.message_eq {p p' : PlanProblem} (h : p.Akin K R p') :
    p.message = p'.message := by
  cases h with
  | refl => rfl
  | fault hf => exact congrArg ("Constructor raised " ++ ·) (K.text_eq hf)

end

/-! ### Kinship by identity -/

section

variable {R : Pairing}

open Kinship (identity)

/-- Lists are equal if their members are. -/
theorem eq_of_forall₂ {α : Type} {P : α → α → Prop} {l l' : List α} (h : List.Forall₂ P l l')
    (hP : ∀ a b, P a b → a = b) : l = l' := by
  rw [← List.forall₂_eq_eq_eq]
  exact h.imp hP

private theorem Expression.Akin.eq {e e' : Expression} (h : e.Akin identity R e') : e = e' := by
  cases h with
  | value hv => exact congrArg Expression.value hv
  | construct _ hargs => exact congrArg _ (eq_of_forall₂ hargs fun _ _ ↦ id)

private theorem Criterion.Akin.eq {c c' : Criterion} (h : c.Akin identity R c') : c = c' := by
  cases h with
  | exactly hv => exact congrArg Criterion.exactly hv
  | equivalentTo hv => exact congrArg Criterion.equivalentTo hv
  | ofType => rfl

private theorem Case.Akin.eq {c c' : Case} (h : c.Akin identity R c') : c = c' := by
  obtain ⟨activator?, arguments, channel, criterion⟩ := c
  obtain ⟨activator'?, arguments', channel', criterion'⟩ := c'
  obtain ⟨hactivator, harguments, hchannel, hcriterion⟩ := h
  obtain rfl : activator? = activator'? := by
    cases hactivator with
    | none => rfl
    | some he => rw [he.eq]
  obtain rfl : arguments = arguments' := eq_of_forall₂ harguments fun _ _ ↦ id
  obtain rfl : channel = channel' := hchannel
  obtain rfl : criterion = criterion' := hcriterion.eq
  rfl

private theorem Test.Akin.eq {t t' : Test} (h : t.Akin identity R t') : t = t' := by
  cases t
  cases t'
  rw [Test.mk.injEq]
  exact ⟨h.target, eq_of_forall₂ h.cases fun _ _ ↦ Case.Akin.eq⟩

private theorem Group.Akin.eq {g g' : Group} (h : g.Akin identity R g') : g = g' := by
  cases g
  cases g'
  rw [Group.mk.injEq]
  exact ⟨h.name, eq_of_forall₂ h.tests fun _ _ ↦ Test.Akin.eq⟩

/-- Plans that are akin by the identity are equal. -/
theorem Plan.Akin.eq {p p' : Plan} (h : p.Akin identity R p') : p = p' :=
  eq_of_forall₂ h fun _ _ ↦ Group.Akin.eq

/-- Drafts that are akin by the identity are equal. -/
theorem Draft.Akin.eq {d d' : Draft} (h : d.Akin identity R d') : d = d' := by
  cases d
  cases d'
  rw [Draft.mk.injEq]
  exact ⟨h.library, h.heap, h.namespaces, h.earlier.eq, h.current.eq⟩

/-- Problems that are akin by the identity are equal. -/
theorem PlanProblem.Akin.eq {p p' : PlanProblem} (h : p.Akin identity R p') : p = p' := by
  cases h with
  | refl => rfl
  | fault hf => exact congrArg PlanProblem.constructorFault hf

end

end TestDeclaration

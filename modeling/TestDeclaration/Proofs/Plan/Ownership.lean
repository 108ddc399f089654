import TestDeclaration.Proofs.CodeUnit.Containment
import TestDeclaration.Proofs.Plan.Meaning

/-!
# The objects of a plan

Over contained units, all objects that a plan refers to lie in one closed set of the heap that
reading it leaves: its arguments, the arguments of its activators and its expected values. The set
grows with every value that is made, along the rules of what a declaration means. Activators stand
for no object; each evaluation makes its own.
-/

namespace TestDeclaration

variable (kinds : TypeName → Prop) (S : Nat → Prop)

/-- An expression stands for no object and makes one at most, of values inside a set. -/
inductive Expression.Inside : Expression → Prop where
  | value {v : Value} : v.asObject? = none → Inside (.value v)
  | construct {c : Constructor} {args : List Value} : c.Contained kinds →
      (∀ v ∈ args, v.Inside kinds S) → Inside (.construct c args)

/-- The value that a criterion asks for is inside a set, if there is one. -/
def Criterion.Inside : Criterion → Prop
  | .exactly v | .equivalentTo v => v.Inside kinds S
  | .ofType _ => True

/-- All values of a case are inside a set. -/
structure Case.Inside (c : Case) : Prop where
  activator : ∀ e ∈ c.activator?, e.Inside kinds S
  arguments : ∀ v ∈ c.arguments, v.Inside kinds S
  criterion : c.expectation.criterion.Inside kinds S

/-- The method of a test is contained, and its cases are inside a set. -/
structure Test.Inside (t : Test) : Prop where
  target : t.target.Contained kinds
  cases : ∀ c ∈ t.cases, c.Inside kinds S

/-- All tests of a plan are inside a set. -/
def Plan.Inside (p : Plan) : Prop := ∀ g ∈ p, ∀ t ∈ g.tests, t.Inside kinds S

/-- A draft has contained units, and its plan is inside a closed set. -/
structure Draft.Inside (d : Draft) : Prop where
  library : d.library.Contained kinds
  heap : d.heap.Closed kinds S
  plan : d.plan.Inside kinds S

/-- Some closed set of a heap contains another set and has a property. -/
def Heap.ClosedBeyond (h : Heap) (P : (Nat → Prop) → Prop) : Prop :=
  ∃ T : Nat → Prop, (∀ a, S a → T a) ∧ h.Closed kinds T ∧ P T

variable {kinds S} {T : Nat → Prop} {R : Pairing} {h k h' : Heap}

/-! ### Larger sets -/

private theorem Expression.Inside.mono {e : Expression} (he : e.Inside kinds S)
    (hST : ∀ a, S a → T a) : e.Inside kinds T := by
  cases he with
  | value hv => exact .value hv
  | construct hc hargs => exact .construct hc fun v hv ↦ (hargs v hv).mono hST

private theorem Criterion.Inside.mono {c : Criterion} (hc : c.Inside kinds S)
    (hST : ∀ a, S a → T a) : c.Inside kinds T := by
  cases c with
  | exactly | equivalentTo => exact Value.Inside.mono hc hST
  | ofType => trivial

private theorem Case.Inside.mono {c : Case} (hc : c.Inside kinds S) (hST : ∀ a, S a → T a) :
    c.Inside kinds T :=
  ⟨fun e he ↦ (hc.activator e he).mono hST, fun v hv ↦ (hc.arguments v hv).mono hST,
    hc.criterion.mono hST⟩

private theorem Plan.Inside.mono {p : Plan} (hp : p.Inside kinds S) (hST : ∀ a, S a → T a) :
    p.Inside kinds T := by
  intro g hg t ht
  have hinside := hp g hg t ht
  exact ⟨hinside.target, fun c hc ↦ (hinside.cases c hc).mono hST⟩

/-! ### Evaluating expressions -/

/-- A value is like itself if the pairing relates its addresses to themselves. -/
theorem Value.Inside.alike {v : Value} (hv : v.Inside kinds S) (hS : ∀ a, S a → R a a) :
    v.Alike kinds R v := by
  refine Value.Alike.mono (fun _ ↦ id) ?_ hv
  rintro a _ ⟨rfl, ha⟩
  exact hS a ha

/-- Values are like themselves if the pairing relates their addresses to themselves. -/
theorem forall₂_alike_of_inside {args : List Value} (hargs : ∀ v ∈ args, v.Inside kinds S)
    (hS : ∀ a, S a → R a a) : List.Forall₂ (Value.Alike kinds R) args args :=
  List.forall₂_same.mpr fun v hv ↦ (hargs v hv).alike hS

namespace Expression.Inside

variable {e : Expression}

/-- An expression is evaluated to the same in corresponding heaps. -/
theorem tracks (he : e.Inside kinds S) (hc : h.Corresponds kinds R k) (hS : ∀ a, S a → R a a) :
    Tracks kinds R (Value.Alike kinds) h k (e.evaluate h) (e.evaluate k) := by
  cases he with
  | value hv => exact ⟨R, .refl R h k, hc, .ok (Value.alike_of_asObject?_eq_none hv)⟩
  | construct hcontained hargs =>
    apply hcontained.tracks hc
    exact forall₂_alike_of_inside hargs hS

/-- Evaluating an expression changes no object. -/
theorem keeps (he : e.Inside kinds S) (h : Heap) : h.Keeps (e.evaluate h).2 := by
  cases he with
  | value => exact .refl _ _
  | construct hc _ => exact hc.keeps _ _

/-- An object that an expression is evaluated to is new. -/
theorem fresh (he : e.Inside kinds S) {r : Ref} (hr : (e.evaluate h).1 = .ok (.object r)) :
    h.objects.size ≤ r.address := by
  cases he with
  | value hv =>
    injection hr with hr
    rw [hr] at hv
    cases hv
  | construct hc _ => exact hc.fresh _ _ _ hr

/-- The value of an expression is inside a closed set that has grown. -/
theorem evaluate (he : e.Inside kinds S) (hc : h.Closed kinds S) {v : Value}
    (hv : e.evaluate h = (.ok v, h')) : h'.ClosedBeyond kinds S fun T ↦ v.Inside kinds T := by
  obtain ⟨R, hR, hc', hends⟩ := he.tracks hc fun a ha ↦ ⟨rfl, ha⟩
  rw [hv] at hc' hends
  cases hends with
  | ok hv => exact ⟨fun a ↦ R a a, fun a ha ↦ hR.keeps ⟨rfl, ha⟩, hc'.closed, hv.inside⟩

end Expression.Inside

/-! ### Declarations -/

namespace Grammar

variable {s : Scope}

/-- What one written value stands for is inside a closed set that has grown. -/
def Term.StaysInside (kinds : TypeName → Prop) (s : Scope) (t : Term) : Prop :=
  ∀ {S : Nat → Prop} {e : Expression} {h h' : Heap}, h.Closed kinds S → Denotes s t h e h' →
    h'.ClosedBeyond kinds S fun T ↦ e.Inside kinds T

/-- Values that are made one after the other are inside a closed set that has grown. -/
theorem MakesAll.inside {ts : List Term} {vs : List Value}
    (hts : ∀ t ∈ ts, t.StaysInside kinds s) (hm : MakesAll s ts h vs h')
    (hc : h.Closed kinds S) : h'.ClosedBeyond kinds S fun T ↦ ∀ v ∈ vs, v.Inside kinds T := by
  induction ts generalizing h vs S with
  | nil =>
    cases hm
    exact ⟨S, fun _ ↦ id, hc, fun v hv ↦ absurd hv List.not_mem_nil⟩
  | cons t rest ih =>
    cases hm with
    | cons hd hev hrest =>
      obtain ⟨S₁, hS₁, hc₁, he⟩ := hts t List.mem_cons_self hc hd
      obtain ⟨S₂, hS₂, hc₂, hv⟩ := he.evaluate hc₁ hev
      have hrests : ∀ t ∈ rest, t.StaysInside kinds s := fun t ht ↦ hts t (.tail _ ht)
      obtain ⟨T, hT, hc', hvs⟩ := ih hrests hrest hc₂
      refine ⟨T, fun a ha ↦ hT a (hS₂ a (hS₁ a ha)), hc', ?_⟩
      intro w hw
      rcases List.mem_cons.mp hw with rfl | hw
      · exact hv.mono hT
      · exact hvs w hw

variable (hl : s.library.Contained kinds)

include hl

private theorem Term.staysInside (t : Term) : t.StaysInside kinds s := by
  induction t using Term.induction with
  | literal value =>
    intro S e h h' hc hd
    cases hd
    exact ⟨S, fun _ ↦ id, hc, .value rfl⟩
  | typeName name =>
    intro S e h h' hc hd
    cases hd
    exact ⟨S, fun _ ↦ id, hc, .value rfl⟩
  | create type? arguments trailing ih =>
    intro S e h h' hc hd
    cases hd with
    | create _ hargs hcons =>
      obtain ⟨T, hT, hc', hvs⟩ := hargs.inside ih hc
      exact ⟨T, hT, hc', .construct (hl.constructor? hcons) hvs⟩

private theorem Activates.inside {a? b? : Option Expression} {ts : List Term}
    (ha : Activates s a? h ts b? h') (hc : h.Closed kinds S)
    (hin : ∀ e ∈ a?, e.Inside kinds S) :
    h'.ClosedBeyond kinds S fun T ↦ ∀ e ∈ b?, e.Inside kinds T := by
  induction ha generalizing S with
  | nil => exact ⟨S, fun _ ↦ id, hc, hin⟩
  | @cons _ _ t _ e _ _ _ hd _ ih =>
    obtain ⟨S₁, hS₁, hc₁, he⟩ := Term.staysInside hl t hc hd
    have hnext : ∀ e' ∈ some e, e'.Inside kinds S₁ := by
      intro e' he'
      rw [← Option.some.inj he']
      exact he
    obtain ⟨T, hT, hc', hb⟩ := ih hc₁ hnext
    exact ⟨T, fun a ha ↦ hT a (hS₁ a ha), hc', hb⟩

private theorem Demands.inside {loose : Bool} {t : Term} {c : Criterion}
    (hd : Demands s loose t h c h')
    (hc : h.Closed kinds S) : h'.ClosedBeyond kinds S fun T ↦ c.Inside kinds T := by
  cases hd with
  | ofType => exact ⟨S, fun _ ↦ id, hc, trivial⟩
  | exactly _ hd hev | equivalentTo hd hev =>
    obtain ⟨S₁, hS₁, hc₁, he⟩ := Term.staysInside hl t hc hd
    obtain ⟨T, hT, hc', hv⟩ := he.evaluate hc₁ hev
    exact ⟨T, fun a ha ↦ hT a (hS₁ a ha), hc', hv⟩

private theorem DeclaresCase.inside {a? : Option Expression} {e : Entry} {c : Case}
    (hd : DeclaresCase s a? h e c h') (hc : h.Closed kinds S)
    (hin : ∀ e ∈ a?, e.Inside kinds S) : h'.ClosedBeyond kinds S fun T ↦ c.Inside kinds T := by
  obtain ⟨hactivates, hmakes, hdemands⟩ := hd
  obtain ⟨S₁, hS₁, hc₁, hb⟩ := hactivates.inside hl hc hin
  obtain ⟨S₂, hS₂, hc₂, hargs⟩ := hmakes.inside (fun t _ ↦ Term.staysInside hl t) hc₁
  obtain ⟨T, hT, hc', hcriterion⟩ := hdemands.inside hl hc₂
  refine ⟨T, fun a ha ↦ hT a (hS₂ a (hS₁ a ha)), hc', ?_, ?_, hcriterion⟩
  · exact fun e he ↦ (hb e he).mono fun a ha ↦ hT a (hS₂ a ha)
  · exact fun v hv ↦ (hargs v hv).mono hT

private theorem DeclaresCases.inside {a? : Option Expression} {es : List Entry} {cs : List Case}
    (hd : DeclaresCases s a? h es cs h') (hc : h.Closed kinds S)
    (hin : ∀ e ∈ a?, e.Inside kinds S) :
    h'.ClosedBeyond kinds S fun T ↦ ∀ c ∈ cs, c.Inside kinds T := by
  induction hd generalizing S with
  | nil => exact ⟨S, fun _ ↦ id, hc, fun c hc ↦ absurd hc List.not_mem_nil⟩
  | cons hfirst _ ih =>
    obtain ⟨S₁, hS₁, hc₁, hcase⟩ := hfirst.inside hl hc hin
    obtain ⟨T, hT, hc', hrest⟩ := ih hc₁ hcase.activator
    refine ⟨T, fun a ha ↦ hT a (hS₁ a ha), hc', ?_⟩
    intro c hmem
    rcases List.mem_cons.mp hmem with rfl | hmem
    · exact hcase.mono hT
    · exact hrest c hmem

private theorem DeclaresTest.inside {t : TestText} {test : Test} (hd : DeclaresTest s t h test h')
    (hc : h.Closed kinds S) : h'.ClosedBeyond kinds S fun T ↦ test.Inside kinds T := by
  obtain ⟨_, hcases, htarget⟩ := hd
  obtain ⟨T, hT, hc', hin⟩ := hcases.inside hl hc fun e he ↦ by cases he
  exact ⟨T, hT, hc', hl.callable? htarget, hin⟩

omit hl

variable {loader : Loader} (hloader : ∀ path u, loader path = .ok u → u.Contained kinds)

include hloader

/-- An item keeps a draft inside a closed set. -/
theorem DeclaresItem.inside {i : Item} {d d' : Draft} (hi : DeclaresItem loader i d d')
    (hd : d.Inside kinds S) : ∃ T, d'.Inside kinds T := by
  cases hi with
  | unit hload => exact ⟨S, hd.library.load hloader hload, hd.heap, hd.plan⟩
  | inNamespace => exact ⟨S, hd.library, hd.heap, hd.plan⟩
  | group =>
    refine ⟨S, hd.library, hd.heap, ?_⟩
    intro g hg t ht
    rcases List.mem_append.mp hg with hg | hg
    · exact hd.plan g hg t ht
    · rw [List.mem_singleton.mp hg] at ht
      exact absurd ht List.not_mem_nil
  | @test _ _ test _ _ _ htest =>
    obtain ⟨T, hT, hc, hin⟩ := htest.inside hd.library hd.heap
    have hplan := Plan.Inside.mono hd.plan hT
    refine ⟨T, hd.library, hc, ?_⟩
    intro g hg t ht
    rcases List.mem_append.mp hg with hg | hg
    · exact hplan g (List.mem_append_left _ hg) t ht
    · rw [List.mem_singleton.mp hg] at ht
      rcases List.mem_append.mp ht with ht | ht
      · exact hplan d.current (List.mem_append_right _ List.mem_cons_self) t ht
      · rw [List.mem_singleton.mp ht]
        exact hin

/-- A program keeps a draft inside a closed set. -/
theorem Declares.inside {p : Program} {d d' : Draft} (hp : Declares loader p d d')
    (hd : d.Inside kinds S) : ∃ T, d'.Inside kinds T := by
  induction hp generalizing S with
  | nil => exact ⟨S, hd⟩
  | cons hi _ ih =>
    obtain ⟨T, hT⟩ := hi.inside hloader hd
    exact ih hT

end Grammar

end TestDeclaration

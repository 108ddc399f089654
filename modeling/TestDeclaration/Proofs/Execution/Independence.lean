import TestDeclaration.Proofs.CodeUnit.Standard
import TestDeclaration.Proofs.Execution.Verdict
import TestDeclaration.Proofs.Plan.Acceptance

/-!
# Cases are independent of each other

Over contained units, a call changes no object that was there before: its instance is new, or no
object. So a later case sees the objects of the plan as reading left them, and ends as it would
have alone, except for the identity of the objects that it makes. Nothing that an outcome refers
to is changed later either, so a verdict can be drawn at any time.
-/

namespace TestDeclaration

/-- The calls of a plan, in the order in which they are made. -/
def Plan.calls (p : Plan) : List (Callable × Case) :=
  p.flatMap fun g ↦ g.tests.flatMap fun t ↦ t.cases.map fun c ↦ (t.target, c)

/-- The results of all cases of some groups, in order. -/
def caseResults (groups : List GroupResult) : List CaseResult :=
  groups.flatMap fun g ↦ g.tests.flatMap TestResult.cases

/-- Two results of a case are the same, except that objects which some heap does not have can be
others. -/
structure CaseResult.SameBeyond (kinds : TypeName → Prop) (base : Heap) (r : CaseResult) (h : Heap)
    (s : CaseResult) (k : Heap) : Prop where
  arguments : r.arguments = s.arguments
  expectation : r.expectation = s.expectation
  outcome : ∃ R : Pairing, h.Corresponds kinds R k ∧ r.outcome.Alike kinds R s.outcome ∧
    ∀ a b, R a b → a < base.objects.size ∨ b < base.objects.size → a = b

variable {kinds : TypeName → Prop} {R : Pairing} {S : Nat → Prop} {h k h' base : Heap}

/-! ### One call -/

namespace Case.Inside

variable {c : Case} {target : Callable}

/-- A call changes no object. -/
theorem keeps (hc : c.Inside kinds S) (ht : target.Contained kinds) (h : Heap) :
    h.Keeps (c.call target h).2 := by
  unfold Case.call
  cases hactivator : c.activator? with
  | none =>
    apply (ht.keeps none c.arguments h).mono
    rintro a - ⟨_, hnone, -⟩
    cases hnone
  | some e =>
    have he := hc.activator e hactivator
    have hkeeps := he.keeps h
    have hfresh : ∀ r, (e.evaluate h).1 = .ok (.object r) → h.objects.size ≤ r.address :=
      fun r ↦ he.fresh
    simp only
    generalize e.evaluate h = p at hkeeps hfresh ⊢
    obtain ⟨_ | v, h₁⟩ := p
    · exact hkeeps
    · -- The instance is no object, or newer than all objects of `h`.
      have hmade : h.KeepsExcept (Value.IsAt (some v)) h₁ := hkeeps.mono fun _ _ ↦ False.elim
      apply (hmade.trans (ht.keeps (some v) c.arguments h₁)).mono
      rintro a ha ⟨r, hr, rfl⟩
      rw [Option.some.inj hr] at hfresh
      exact absurd (hfresh r rfl) (Nat.not_le.mpr ha)

/-- A call has the same outcome in corresponding heaps. -/
theorem call_alike (hc : c.Inside kinds S) (ht : target.Contained kinds)
    (hh : h.Corresponds kinds R k) (hS : ∀ a, S a → R a a) :
    ∃ R' : Pairing, R.Extends h k R' (c.call target h).2 (c.call target k).2 ∧
      (c.call target h).2.Corresponds kinds R' (c.call target k).2 ∧
      (c.call target h).1.Alike kinds R' (c.call target k).1 := by
  unfold Case.call
  cases hactivator : c.activator? with
  | none =>
    obtain ⟨R', hR, hc', hends⟩ := ht.tracks hh .none (forall₂_alike_of_inside hc.arguments hS)
    exact ⟨R', hR, hc', hends.outcome⟩
  | some e =>
    obtain ⟨R₁, hR₁, hc₁, hends⟩ := (hc.activator e hactivator).tracks hh hS
    simp only
    generalize e.evaluate h = p at hR₁ hc₁ hends ⊢
    generalize e.evaluate k = q at hR₁ hc₁ hends ⊢
    obtain ⟨_, h₁⟩ := p
    obtain ⟨_, k₁⟩ := q
    cases hends with
    | error hf => exact ⟨R₁, hR₁, hc₁, .thrown hf⟩
    | ok hv =>
      have hargs := forall₂_alike_of_inside hc.arguments fun a ha ↦ hR₁.keeps (hS a ha)
      obtain ⟨R', hR, hc', hends⟩ := ht.tracks hc₁ (.some hv) hargs
      exact ⟨R', hR₁.trans hR, hc', hends.outcome⟩

end Case.Inside

/-! ### Runs -/

/-- Some calls are made one after the other. -/
inductive Ran : Heap → List (Callable × Case) → List CaseResult → Heap → Prop where
  | nil {h : Heap} : Ran h [] [] h
  | cons {call : Callable × Case} {calls : List (Callable × Case)} {results : List CaseResult}
      {h h' : Heap} : Ran ((call.2.run call.1).run h).2 calls results h' →
      Ran h (call :: calls) (((call.2.run call.1).run h).1 :: results) h'

private theorem Ran.append {calls calls' : List (Callable × Case)}
    {results results' : List CaseResult}
    {h₁ : Heap} (hran : Ran h calls results h₁) (hran' : Ran h₁ calls' results' h') :
    Ran h (calls ++ calls') (results ++ results') h' := by
  induction hran with
  | nil => exact hran'
  | cons _ ih => exact .cons (ih hran')

/-- If each step of a loop makes some calls, the loop makes all of them. -/
theorem ran_mapM {α β : Type} (step : α → StateM Heap β) (calls : α → List (Callable × Case))
    (results : β → List CaseResult)
    (hstep : ∀ a h, Ran h (calls a) (results ((step a).run h).1) ((step a).run h).2)
    (l : List α) (h : Heap) :
    Ran h (l.flatMap calls) (((l.mapM step).run h).1.flatMap results) ((l.mapM step).run h).2 := by
  induction l generalizing h with
  | nil => exact .nil
  | cons a rest ih =>
    rw [List.mapM_cons]
    exact (hstep a h).append (ih _)

private theorem Test.ran (t : Test) (h : Heap) :
    Ran h (t.cases.map fun c ↦ (t.target, c)) (t.run.run h).1.cases (t.run.run h).2 := by
  have hran := ran_mapM (Case.run t.target) (fun c ↦ [(t.target, c)]) (fun r ↦ [r])
    (fun _ _ ↦ .cons .nil) t.cases h
  rw [List.flatMap_singleton'] at hran
  rw [List.map_eq_flatMap]
  exact hran

/-- Running a plan makes its calls. -/
theorem Plan.ran (p : Plan) (h : Heap) : Ran h p.calls (caseResults (p.run h).1) (p.run h).2 :=
  ran_mapM _ _ _ (fun g h ↦ ran_mapM _ _ _ Test.ran g.tests h) p h

/-- In some later heap, a result is that of the case alone: the same up to the objects that are
new since a base heap, where the objects of a set stand for themselves. -/
structure AsAlone (kinds : TypeName → Prop) (S : Nat → Prop) (base h : Heap)
    (call : Callable × Case) (r : CaseResult) : Prop where
  inside : call.2.Inside kinds S
  arguments : r.arguments = call.2.arguments
  expectation : r.expectation = call.2.expectation
  outcome : ∃ R : Pairing, (∀ a, S a → R a a) ∧
    (∀ a b, R a b → a < base.objects.size ∨ b < base.objects.size → a = b) ∧
    (call.2.call call.1 base).2.Corresponds kinds R h ∧
    (call.2.call call.1 base).1.Alike kinds R r.outcome

namespace AsAlone

variable {call : Callable × Case} {r : CaseResult}

/-- Results stay what they are while objects are kept. -/
theorem keeps (hr : AsAlone kinds S base h call r) (hk : h.Keeps h') :
    AsAlone kinds S base h' call r := by
  obtain ⟨R, hS, hold, hc, ho⟩ := hr.outcome
  exact ⟨hr.inside, hr.arguments, hr.expectation, R, hS, hold, hc.keeps_right hk, ho⟩

private theorem sameBeyond (hr : AsAlone kinds S base h call r) :
    ((call.2.run call.1).run base).1.SameBeyond kinds base
      ((call.2.run call.1).run base).2 r h := by
  obtain ⟨R, -, hold, hc, ho⟩ := hr.outcome
  exact ⟨hr.arguments.symm, hr.expectation.symm, R, hc, ho, hold⟩

/-- The verdict is that of the case alone. -/
theorem passes_eq (hr : AsAlone kinds S base h call r) : r.passes h =
    ((call.2.run call.1).run base).1.passes ((call.2.run call.1).run base).2 := by
  obtain ⟨R, hS, -, hc, ho⟩ := hr.outcome
  unfold CaseResult.passes
  rw [hr.expectation]
  exact (Expectation.accepts_eq hr.inside.criterion hS hc ho).symm

end AsAlone

/-- A call is as it would be alone, as long as the objects of a base heap are kept. -/
theorem Case.Inside.asAlone {call : Callable × Case} (hc : call.2.Inside kinds S)
    (ht : call.1.Contained kinds) (hbase : base.Closed kinds S) (hb : base.Keeps h) :
    AsAlone kinds S base ((call.2.run call.1).run h).2 call ((call.2.run call.1).run h).1 := by
  have hdiagonal : base.Corresponds kinds (.diagonal S) h := hbase.keeps_right hb
  obtain ⟨R, hR, hc', ho⟩ := hc.call_alike ht hdiagonal fun a ha ↦ ⟨rfl, ha⟩
  refine ⟨hc, rfl, rfl, R, fun a ha ↦ hR.keeps ⟨rfl, ha⟩, ?_, hc', ho⟩
  intro a b hab hlt
  rcases hR.fresh hab with hab | ⟨ha, hb'⟩
  · exact hab.1
  · have := hb.grows
    omega

/-- A run keeps all objects, and each of its results is that of the case alone. -/
theorem Ran.asAlone {calls : List (Callable × Case)} {results : List CaseResult}
    (hran : Ran h calls results h')
    (hcalls : ∀ call ∈ calls, call.1.Contained kinds ∧ call.2.Inside kinds S)
    (hbase : base.Closed kinds S) (hb : base.Keeps h) :
    h.Keeps h' ∧ List.Forall₂ (AsAlone kinds S base h') calls results := by
  induction hran with
  | nil => exact ⟨.refl _ _, .nil⟩
  | @cons call calls results h h' _ ih =>
    obtain ⟨ht, hc⟩ := hcalls call List.mem_cons_self
    have hstep : h.Keeps ((call.2.run call.1).run h).2 := hc.keeps ht h
    obtain ⟨hkeeps, hresults⟩ :=
      ih (fun call' hmem ↦ hcalls call' (.tail _ hmem)) (hb.trans hstep)
    exact ⟨hstep.trans hkeeps, .cons ((hc.asAlone ht hbase hb).keeps hkeeps) hresults⟩

/-! ### Plans -/

/-- All calls of a plan inside a closed set are contained and inside the set. -/
theorem Plan.Inside.calls {p : Plan} (hp : p.Inside kinds S) :
    ∀ call ∈ p.calls, call.1.Contained kinds ∧ call.2.Inside kinds S := by
  intro call hcall
  obtain ⟨g, hg, hcall⟩ := List.mem_flatMap.mp hcall
  obtain ⟨t, ht, hcall⟩ := List.mem_flatMap.mp hcall
  obtain ⟨c, hc, rfl⟩ := List.mem_map.mp hcall
  exact ⟨(hp g hg t ht).target, (hp g hg t ht).cases c hc⟩

/-- Over contained units, a plan that was read is inside a closed set. -/
theorem Plan.inside_of_read {library : Library} {loader : Loader} {heap : Heap}
    {tokens : List Token} {plan : Plan} {d : Draft} (hl : library.Contained kinds)
    (hloader : ∀ path u, loader path = .ok u → u.Contained kinds)
    (hread : Plan.read loader tokens (.start library heap) = (.ok plan, d)) :
    ∃ S, d.heap.Closed kinds S ∧ plan.Inside kinds S := by
  obtain ⟨program, -, hd, rfl⟩ := program_of_read hread
  have hstart : Draft.Inside kinds (fun _ ↦ False) (.start library heap) := by
    refine ⟨hl, Heap.closed_empty kinds heap, ?_⟩
    intro g hg t ht
    rw [List.mem_singleton.mp hg] at ht
    exact absurd ht List.not_mem_nil
  obtain ⟨S, hS⟩ := hd.inside hloader hstart
  exact ⟨S, hS.heap, hS.plan⟩

/-- Between two runs that start from a base heap, one after the other, nothing is disturbed: all
objects are kept, the verdicts of the first stay what they were, and the second gives each case
the result and the verdict that the case has alone in the base heap. -/
structure Undisturbed (kinds : TypeName → Prop) (base : Heap) (first : List GroupResult × Heap)
    (q : Plan) (second : List GroupResult × Heap) : Prop where
  model : base.Keeps first.2
  earlier : first.2.Keeps second.2
  verdicts : ∀ r ∈ caseResults first.1, r.passes second.2 = r.passes first.2
  results : List.Forall₂ (fun call r ↦
    let alone := (call.2.run call.1).run base
    alone.1.SameBeyond kinds base alone.2 r second.2 ∧ r.passes second.2 = alone.1.passes alone.2)
    q.calls (caseResults second.1)

/-- The cases of a plan are independent: any runs of some of its cases, in any order and any number
of times, leave each other undisturbed. -/
def Plan.Independent (kinds : TypeName → Prop) (base : Heap) (p : Plan) : Prop :=
  ∀ q₁ q₂ : Plan, q₁.calls ⊆ p.calls → q₂.calls ⊆ p.calls →
    Undisturbed kinds base (q₁.run base) q₂ (q₂.run (q₁.run base).2)

private theorem Plan.Inside.independent {p : Plan} (hp : p.Inside kinds S)
    (hbase : base.Closed kinds S) : p.Independent kinds base := by
  intro q₁ q₂ h₁ h₂
  have hcalls := hp.calls
  obtain ⟨hkeeps₁, hresults₁⟩ := (q₁.ran base).asAlone (fun call hmem ↦ hcalls call (h₁ hmem))
    hbase (.refl _ base)
  obtain ⟨hkeeps₂, hresults₂⟩ := (q₂.ran (q₁.run base).2).asAlone
    (fun call hmem ↦ hcalls call (h₂ hmem)) hbase hkeeps₁
  refine ⟨hkeeps₁, hkeeps₂, ?_, ?_⟩
  · have hverdicts : List.Forall₂ (fun r call ↦
        r.passes (q₂.run (q₁.run base).2).2 = r.passes (q₁.run base).2 ∧
          AsAlone kinds S base (q₁.run base).2 call r) (caseResults (q₁.run base).1) q₁.calls := by
      refine List.Forall₂.flip (hresults₁.imp ?_)
      intro call r hr
      exact ⟨(hr.keeps hkeeps₂).passes_eq.trans hr.passes_eq.symm, hr⟩
    exact ((List.forall₂_and_left _ _).mp hverdicts).1
  · refine hresults₂.imp ?_
    intro call r hr
    exact ⟨hr.sameBeyond, hr.passes_eq⟩

/-- The cases of a plan that is read over contained units are independent of each other. -/
theorem Plan.independent_of_read {library : Library} {loader : Loader} {heap : Heap}
    {tokens : List Token} {plan : Plan} {d : Draft} (hlibrary : library.Contained kinds)
    (hloader : ∀ path u, loader path = .ok u → u.Contained kinds)
    (hread : Plan.read loader tokens (.start library heap) = (.ok plan, d)) :
    plan.Independent kinds d.heap ∧
      ∀ u ∈ [Core.unit, Samples.unit], u.Contained TypeName.IsDeclared := by
  constructor
  · obtain ⟨S, hbase, hplan⟩ := inside_of_read hlibrary hloader hread
    exact hplan.independent hbase
  · intro u hu
    rcases List.mem_cons.mp hu with rfl | hu
    · exact Core.contained_unit
    · rw [List.mem_singleton.mp hu]
      exact Samples.contained_unit

/-- The declaration `using "samples"; do Samples.Counter -> Increment: on new(41): case() expect 42,
case() expect 42;`, all of it at one place. -/
def twoIncrements : List Token :=
  ([.keyword .use, .literal (.string "samples"), .symbol .semicolon,
    .keyword .perform, .identifier "Samples.Counter", .symbol .arrow, .identifier "Increment",
    .symbol .colon, .keyword .onTarget, .keyword .create, .symbol .leftParen,
    .literal (.int 41), .symbol .rightParen, .symbol .colon, .keyword .testCase,
    .symbol .leftParen, .symbol .rightParen, .keyword .expect, .literal (.int 42),
    .symbol .comma, .keyword .testCase, .symbol .leftParen, .symbol .rightParen,
    .keyword .expect, .literal (.int 42), .symbol .semicolon] : List TokenKind).map fun kind ↦
      ⟨kind, .atStart⟩

/-- Both cases have a counter of their own, whether alone or behind each other. -/
theorem Plan.twoIncrements_independent :
    ∃ plan d, Plan.read Loader.standard twoIncrements (.start .initial .empty) = (.ok plan, d) ∧
      (caseResults (plan.run d.heap).1).map (CaseResult.passes (plan.run d.heap).2) =
        [true, true] ∧ plan.Independent TypeName.IsDeclared d.heap := by
  have hrun : ∃ plan d,
      Plan.read Loader.standard twoIncrements (.start .initial .empty) = (.ok plan, d) ∧
      (caseResults (plan.run d.heap).1).map (CaseResult.passes (plan.run d.heap).2) =
        [true, true] := ⟨_, _, rfl, rfl⟩
  obtain ⟨plan, d, hread, hpasses⟩ := hrun
  have hindependent := independent_of_read Library.contained_initial
    (fun _ _ ↦ Loader.contained_standard) hread
  exact ⟨plan, d, hread, hpasses, hindependent.1⟩

end TestDeclaration

import TestDeclaration.Proofs.CodeUnit.Constructors
import TestDeclaration.Proofs.CodeUnit.Standard
import TestDeclaration.Proofs.Plan.Transition

/-!
# Reading on

What the tokens of a source mean up to some token does not depend on the tokens behind it. An error
at a token stays the error of every longer source. A plan stays the start of the plan of every
longer source: groups and tests are only put behind the others, and units only behind the loaded
ones. The objects of the plan stay what they are, as long as constructors see their arguments
only.
-/

namespace TestDeclaration

/-- A plan is the start of another one: its groups are the first groups there by name, and the
tests of each are the first tests there. -/
def Plan.StartOf (p p' : Plan) : Prop :=
  ∀ (i : Nat) (g : Group), p[i]? = some g →
    ∃ g', p'[i]? = some g' ∧ g'.name = g.name ∧ g.tests <+: g'.tests

/-- A draft declares what another one does, and perhaps more behind it. -/
structure Draft.Continues (d d' : Draft) : Prop where
  library : d.library.Grows d'.library
  plan : d.plan.StartOf d'.plan

variable {loader : Loader} {d d₁ d' : Draft} {q q' : Unfinished} {token : Token}

/-! ### Plans that grow -/

namespace Plan.StartOf

variable {p p' p'' : Plan}

private theorem refl (p : Plan) : p.StartOf p := fun _ g hg ↦ ⟨g, hg, rfl, List.prefix_refl _⟩

private theorem trans (h : p.StartOf p') (h' : p'.StartOf p'') : p.StartOf p'' := by
  intro i g hg
  obtain ⟨g', hg', hname, htests⟩ := h i g hg
  obtain ⟨g'', hg'', hname', htests'⟩ := h' i g' hg'
  exact ⟨g'', hg'', hname'.trans hname, htests.trans htests'⟩

private theorem append (p q : Plan) : p.StartOf (p ++ q) := by
  intro i g hg
  obtain ⟨hi, -⟩ := List.getElem?_eq_some_iff.mp hg
  exact ⟨g, by rw [List.getElem?_append_left hi, hg], rfl, List.prefix_refl _⟩

/-- A plan is the start of the plan with more tests in its last group. -/
theorem addTests (p : Plan) (g : Group) (tests : List Test) :
    StartOf (p ++ [g]) (p ++ [{ g with tests := g.tests ++ tests }]) := by
  intro i g₁ hg
  rcases Nat.lt_or_ge i p.length with hi | hi
  · rw [List.getElem?_append_left hi] at hg ⊢
    exact refl p i g₁ hg
  · rw [List.getElem?_append_right hi] at hg ⊢
    generalize i - p.length = j at hg ⊢
    cases j with
    | zero =>
      cases hg
      exact ⟨_, rfl, rfl, List.prefix_append _ _⟩
    | succ j => cases hg

end Plan.StartOf

namespace Draft.Continues

private theorem refl (d : Draft) : d.Continues d := ⟨.refl _, .refl _⟩

private theorem trans (h : d.Continues d₁) (h' : d₁.Continues d') : d.Continues d' :=
  ⟨h.library.trans h'.library, h.plan.trans h'.plan⟩

/-- Making a value changes nothing that is declared. -/
theorem withHeap (d : Draft) (heap : Heap) : d.Continues { d with heap } := ⟨.refl _, .refl _⟩

end Draft.Continues

namespace Place

variable {p : Place} {e : Expression} {t : TypeName}

private theorem Fills.continues (h : p.Fills e d q d') : d.Continues d' := by
  cases h with
  | activator => exact .refl d
  | call | argument | expected => exact .withHeap d _

private theorem FillsType.continues (h : p.FillsType t d q d') : d.Continues d' := by
  cases h with
  | strict => exact .refl d
  | value _ hf => exact hf.continues

private theorem Closes.continues (h : p.Closes d q d') : d.Continues d' := by
  cases h with
  | call _ hf => exact hf.continues
  | arguments => exact .refl d

private theorem Begins.continues (h : p.Begins d token q d') : d.Continues d' := by
  cases h with
  | literal _ hf => exact hf.continues
  | typeName _ _ hf => exact hf.continues
  | create => exact .refl d
  | close _ hc => exact hc.continues

end Place

namespace Unfinished

/-- One more token declares something, or nothing yet. -/
theorem Step.continues (h : Step loader q d token q' d') : d.Continues d' := by
  cases h with
  | path _ hl => exact ⟨(Library.loads_of_load hl).grows, .refl _⟩
  | namespaceName => exact ⟨.refl _, .refl _⟩
  | groupEnd => exact ⟨.refl _, .append _ _⟩
  | lastCase => exact ⟨.refl _, .addTests _ _ _⟩
  | value hb => exact hb.continues
  | strict hb => exact hb.continues
  | lastValue _ hc => exact hc.continues
  | _ => exact .refl d

/-- Reading tokens continues the draft. -/
theorem Run.continues {tokens : List Token} (h : Run loader q d tokens q' d') :
    d.Continues d' := by
  induction h with
  | nil => exact .refl _
  | cons hs _ ih => exact hs.continues.trans ih

/-- A run over two texts goes on where the run over the first one ends. -/
theorem Run.of_append {t u : List Token} {q₁ : Unfinished} (h : Run loader q d (t ++ u) q' d')
    (ht : Run loader q d t q₁ d₁) : Run loader q₁ d₁ u q' d' := by
  rw [← gives_foldlM, List.foldlM_append, Drafting.gives_bind] at h
  obtain ⟨q₂, d₂, ht', hu⟩ := h
  cases (gives_foldlM.mpr ht).symm.trans ht'
  exact gives_foldlM.mp hu

end Unfinished

/-! ### Objects that are left alone -/

variable {kinds : TypeName → Prop} {base h h' : Heap} {S : Nat → Prop}

/-- The constructor calls that are open. -/
def Unfinished.calls : Unfinished → List OpenCall
  | .value p | .valueEnd p | .callType p _ | .callOpen p _ _ => p.within
  | _ => []

/-- The arguments of some open calls are inside a set. -/
def OpenCall.AllInside (kinds : TypeName → Prop) (S : Nat → Prop) (calls : List OpenCall) : Prop :=
  ∀ call ∈ calls, ∀ v ∈ call.arguments, v.Inside kinds S

/-- The objects of a base heap are what they were, and none of them is in some closed set. -/
structure Heap.Apart (kinds : TypeName → Prop) (base h : Heap) (S : Nat → Prop) : Prop where
  keeps : base.Keeps h
  closed : h.Closed kinds S
  later : ∀ a, S a → base.objects.size ≤ a

/-- While a source is read on, the objects of a base heap are left alone: no open call has one of
them among its arguments. -/
structure Draft.LeavesAlone (kinds : TypeName → Prop) (base : Heap) (q : Unfinished) (d : Draft) :
    Prop where
  library : d.library.Constructs (Constructor.Local kinds)
  heap : ∃ S, base.Apart kinds d.heap S ∧ OpenCall.AllInside kinds S q.calls

/-- An expression stands for no object, or calls a local constructor on values inside a set. -/
inductive Expression.LocalTo (kinds : TypeName → Prop) (S : Nat → Prop) : Expression → Prop where
  | value {v : Value} : v.asObject? = none → LocalTo kinds S (.value v)
  | construct {c : Constructor} {args : List Value} : c.Local kinds →
      (∀ v ∈ args, v.Inside kinds S) → LocalTo kinds S (.construct c args)

/-- Evaluating an expression that is local to a set apart leaves the base heap alone, and the value
is inside a set apart again. -/
theorem Expression.LocalTo.evaluate {e : Expression} (he : e.LocalTo kinds S)
    (ha : base.Apart kinds h S) {v : Value} (hv : e.evaluate h = (.ok v, h')) :
    ∃ T : Nat → Prop, (∀ a, S a → T a) ∧ base.Apart kinds h' T ∧ v.Inside kinds T := by
  cases he with
  | value hplain =>
    cases hv
    exact ⟨S, fun _ ↦ id, ha, Value.alike_of_asObject?_eq_none hplain⟩
  | @construct c args hc hargs =>
    have hargs' : List.Forall₂ (Value.Alike kinds (.diagonal S)) args args :=
      List.forall₂_same.mpr hargs
    obtain ⟨R, hR, hc', hends⟩ := hc.tracks ha.closed hargs'
    have hkeeps : h.KeepsExcept S (c.construct args h).2 := hc.keeps ha.closed hargs
    change c.construct args h = (.ok v, h') at hv
    rw [hv] at hR hc' hends hkeeps
    cases hends with
    | ok hv =>
      refine ⟨fun a ↦ R a a, fun a ha ↦ hR.keeps ⟨rfl, ha⟩, ⟨?_, hc'.closed, ?_⟩, hv.inside⟩
      · -- What the call can write to is not in the base heap.
        have hbase : base.KeepsExcept S h' :=
          (ha.keeps.mono fun _ _ ↦ False.elim).trans hkeeps
        exact hbase.mono fun a hlt hS ↦ absurd (ha.later a hS) (Nat.not_le.mpr hlt)
      · intro a haa
        rcases hR.fresh haa with ⟨-, hS⟩ | ⟨hnew, -⟩
        · exact ha.later a hS
        · exact Nat.le_trans ha.keeps.grows hnew

private theorem OpenCall.AllInside.mono {calls : List OpenCall} {T : Nat → Prop}
    (hcalls : AllInside kinds S calls) (hST : ∀ a, S a → T a) : AllInside kinds T calls :=
  fun call hcall v hv ↦ (hcalls call hcall v hv).mono hST

private theorem OpenCall.allInside_nil :
    AllInside kinds S [] := fun _ hcall ↦ absurd hcall List.not_mem_nil

namespace Place

variable {p : Place} {e : Expression} (hl : d.library.Constructs (Constructor.Local kinds))
  (ha : base.Apart kinds d.heap S) (hp : OpenCall.AllInside kinds S p.within)

include hl ha hp

/-- A value that goes to its place leaves the base heap alone. -/
theorem Fills.leavesAlone (hf : p.Fills e d q d') (he : e.LocalTo kinds S) :
    d'.LeavesAlone kinds base q := by
  cases hf with
  | activator => exact ⟨hl, S, ha, OpenCall.allInside_nil⟩
  | argument hev | expected hev =>
    obtain ⟨T, -, ha', -⟩ := he.evaluate ha hev
    exact ⟨hl, T, ha', OpenCall.allInside_nil⟩
  | call hev =>
    obtain ⟨T, hT, ha', hv⟩ := he.evaluate ha hev
    obtain ⟨hcall, houter⟩ := List.forall_mem_cons.mp (hp.mono hT)
    refine ⟨hl, T, ha', List.forall_mem_cons.mpr ⟨?_, houter⟩⟩
    exact List.forall_mem_append.mpr ⟨hcall, List.forall_mem_singleton.mpr hv⟩

private theorem FillsType.leavesAlone {t : TypeName} (hf : p.FillsType t d q d') :
    d'.LeavesAlone kinds base q := by
  cases hf with
  | strict => exact ⟨hl, S, ha, OpenCall.allInside_nil⟩
  | value _ hf => exact hf.leavesAlone hl ha hp (.value rfl)

private theorem Closes.leavesAlone (hc : p.Closes d q d') : d'.LeavesAlone kinds base q := by
  cases hc with
  | arguments => exact ⟨hl, S, ha, OpenCall.allInside_nil⟩
  | call hcons hf =>
    obtain ⟨hcall, houter⟩ := List.forall_mem_cons.mp hp
    refine Fills.leavesAlone hl ha ?_ hf (.construct (hl.constructor? hcons) hcall)
    exact houter

private theorem Begins.leavesAlone (hb : p.Begins d token q d') : d'.LeavesAlone kinds base q := by
  cases hb with
  | literal _ hf => exact hf.leavesAlone hl ha hp (.value rfl)
  | typeName _ _ hf => exact hf.leavesAlone hl ha hp
  | create => exact ⟨hl, S, ha, hp⟩
  | close _ hc => exact hc.leavesAlone hl ha hp

end Place

namespace Unfinished

variable (hloader : loader.Constructs (Constructor.Local kinds))

include hloader

/-- One more token leaves the base heap alone. -/
theorem Step.leavesAlone (hs : Step loader q d token q' d')
    (hd : d.LeavesAlone kinds base q) : d'.LeavesAlone kinds base q' := by
  obtain ⟨hl, S, ha, hcalls⟩ := hd
  cases hs with
  | path _ hload => exact ⟨hl.load hloader hload, S, ha, OpenCall.allInside_nil⟩
  | value hb => exact hb.leavesAlone hl ha hcalls
  | strict hb => exact hb.leavesAlone hl ha OpenCall.allInside_nil
  | lastValue _ hc => exact hc.leavesAlone hl ha hcalls
  | unnamedCall | callOpen =>
    refine ⟨hl, S, ha, List.forall_mem_cons.mpr ⟨?_, hcalls⟩⟩
    exact fun v hv ↦ absurd hv List.not_mem_nil
  | valueComma | namedCall => exact ⟨hl, S, ha, hcalls⟩
  | _ => exact ⟨hl, S, ha, OpenCall.allInside_nil⟩

private theorem Run.leavesAlone {tokens : List Token} (h : Run loader q d tokens q' d')
    (hd : d.LeavesAlone kinds base q) : d'.LeavesAlone kinds base q' := by
  induction h with
  | nil => exact hd
  | cons hs _ ih => exact ih (hs.leavesAlone hloader hd)

end Unfinished

/-! ### Longer sources -/

/-- Between two items, nothing that a draft has made is among the arguments of an open call. -/
theorem Draft.LeavesAlone.item (hl : d.library.Constructs (Constructor.Local kinds)) :
    d.LeavesAlone kinds d.heap .item :=
  ⟨hl, fun _ ↦ False, ⟨.refl _ _, Heap.closed_empty kinds d.heap, fun _ ↦ False.elim⟩,
    OpenCall.allInside_nil⟩

namespace Plan

/-- The place behind all tokens is empty. -/
theorem length_endSpan (tokens : List Token) : (endSpan tokens).length = 0 := by
  unfold endSpan
  split <;> rfl

/-- An error in front of the end of a source is the error of every longer source. -/
theorem read_append_of_error {t : List Token} {d₀ : Draft} {e : PlanError}
    (h : read loader t d₀ = (.error e, d)) (he : e.span ≠ endSpan t) (u : List Token) :
    read loader (t ++ u) d₀ = (.error e, d) := by
  rw [read_eq] at h ⊢
  rw [List.foldlM_append, Drafting.run_bind]
  generalize (t.foldlM (Unfinished.step loader) .item).run d₀ = r at h ⊢
  obtain ⟨e₁ | q, d₁⟩ := r
  · exact h
  · simp only at h
    split at h
    · cases h
    · cases h
      exact absurd rfl he

/-- An error at a token is the error of every longer source, and a plan is a start of those of
longer sources. -/
theorem read_append {t : List Token} (ht : ∀ token ∈ t, 0 < token.span.length) (u : List Token)
    (loader : Loader) (d₀ : Draft) :
    (∀ e d, read loader t d₀ = (.error e, d) → e.span ∈ t.map Token.span →
      read loader (t ++ u) d₀ = (.error e, d)) ∧
    ∀ p d p' d', read loader t d₀ = (.ok p, d) → read loader (t ++ u) d₀ = (.ok p', d') →
      p.StartOf p' ∧ d.library.Grows d'.library ∧
      ∀ kinds, d₀.library.Constructs (Constructor.Local kinds) →
        loader.Constructs (Constructor.Local kinds) → d.heap.Keeps d'.heap := by
  constructor
  · intro e d h hspan
    refine read_append_of_error h ?_ u
    obtain ⟨token, htoken, hspan⟩ := List.mem_map.mp hspan
    intro hend
    have hlength := ht token htoken
    rw [hspan, hend, length_endSpan] at hlength
    exact Nat.lt_irrefl _ hlength
  · intro p d p' d' h h'
    obtain ⟨hrun, rfl⟩ := read_eq_ok_iff_run.mp h
    obtain ⟨hrun', rfl⟩ := read_eq_ok_iff_run.mp h'
    have hrest : Unfinished.Run loader .item d u .item d' := hrun'.of_append hrun
    refine ⟨hrest.continues.plan, hrest.continues.library, fun kinds hl hloader ↦ ?_⟩
    have hd : d.LeavesAlone kinds d₀.heap .item := hrun.leavesAlone hloader (.item hl)
    obtain ⟨-, S, ha, -⟩ := hrest.leavesAlone hloader (.item hd.library)
    exact ha.keeps

/-- Tokens of some kinds, all of them the first character of a source. -/
def onFirstCharacter (kinds : List TokenKind) : List Token :=
  kinds.map fun kind ↦ ⟨kind, ⟨.start, 1⟩⟩

/-- Tokens that stand at one place have the kinds that they were made from. -/
theorem kinds_onFirstCharacter (kinds : List TokenKind) :
    (onFirstCharacter kinds).map Token.kind = kinds := by
  rw [onFirstCharacter, List.map_map]
  exact List.map_id _

/-- The declaration `using "samples"; do Samples.Counter -> Get: case() expect new();`. -/
def oneCounter : List Token :=
  onFirstCharacter [.keyword .use, .literal (.string "samples"), .symbol .semicolon,
    .keyword .perform, .identifier "Samples.Counter", .symbol .arrow, .identifier "Get",
    .symbol .colon, .keyword .testCase, .symbol .leftParen, .symbol .rightParen,
    .keyword .expect, .keyword .create, .symbol .leftParen, .symbol .rightParen,
    .symbol .semicolon]

/-- The declaration `test_group more;`. -/
def moreGroup : List Token :=
  onFirstCharacter [.keyword .testGroup, .identifier "more", .symbol .semicolon]

/-- The counter that one source expects stays what it is when the source is read twice over, and so
does the error of a group that is declared twice. -/
theorem read_append_counters :
    (∃ p d p' d', read Loader.standard oneCounter (.start .initial .empty) = (.ok p, d) ∧
      read Loader.standard (oneCounter ++ (moreGroup ++ oneCounter)) (.start .initial .empty) =
        (.ok p', d') ∧ p.StartOf p' ∧ d.library.Grows d'.library ∧ d.heap.Keeps d'.heap ∧
      d.heap.objects.size = 1 ∧ d'.heap.objects.size = 2) ∧
    ∃ e d, e.problem = .groupExists "more" ∧
      read Loader.standard (moreGroup ++ moreGroup ++ oneCounter) (.start .initial .empty) =
        (.error e, d) := by
  have hwide : ∀ kinds, ∀ token ∈ onFirstCharacter kinds, 0 < token.span.length := by
    intro kinds token htoken
    obtain ⟨kind, -, rfl⟩ := List.mem_map.mp htoken
    exact Nat.one_pos
  constructor
  · have hread : ∃ p d p' d',
        read Loader.standard oneCounter (.start .initial .empty) = (.ok p, d) ∧
        read Loader.standard (oneCounter ++ (moreGroup ++ oneCounter)) (.start .initial .empty) =
          (.ok p', d') ∧ d.heap.objects.size = 1 ∧ d'.heap.objects.size = 2 :=
      ⟨_, _, _, _, rfl, rfl, rfl, rfl⟩
    obtain ⟨p, d, p', d', h, h', hsize⟩ := hread
    obtain ⟨hstart, hgrows, hkeeps⟩ := (read_append (hwide _) (moreGroup ++ oneCounter)
      Loader.standard (.start .initial .empty)).2 p d p' d' h h'
    have hinitial : Library.initial.Constructs (Constructor.Local TypeName.IsDeclared) :=
      fun u hu ↦ (Library.contained_initial u hu).constructs
    have hloader : Loader.standard.Constructs (Constructor.Local TypeName.IsDeclared) :=
      fun _ _ hu ↦ (Loader.contained_standard hu).constructs
    exact ⟨p, d, p', d', h, h', hstart, hgrows, hkeeps _ hinitial hloader, hsize⟩
  · have hread : ∃ e d, e.problem = .groupExists "more" ∧ e.span = ⟨.start, 1⟩ ∧
        read Loader.standard (moreGroup ++ moreGroup) (.start .initial .empty) =
          (.error e, d) := ⟨_, _, rfl, rfl, rfl⟩
    obtain ⟨e, d, hproblem, hspan, h⟩ := hread
    have hmem : e.span ∈ (moreGroup ++ moreGroup).map Token.span := by
      rw [hspan]
      exact List.mem_cons_self
    refine ⟨e, d, hproblem, (read_append ?_ oneCounter Loader.standard _).1 e d h hmem⟩
    exact List.forall_mem_append.mpr ⟨hwide _, hwide _⟩

end Plan

end TestDeclaration

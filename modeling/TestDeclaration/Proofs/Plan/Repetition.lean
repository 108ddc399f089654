import TestDeclaration.Proofs.Library.Growth
import TestDeclaration.Proofs.Plan.Acceptance
import TestDeclaration.Proofs.Plan.EarliestError

/-!
# Repeated directives

A directive loads a unit or adds a namespace. Once it has been read, reading it again changes
nothing that matters: the unit is loaded already, by its name, and a namespace that stands in the
list a second time never settles a search, since all that could be found in it is found where it
stands first. The list of namespaces is another one from then on, so what is read behind the
repeated directive is read twice side by side, over two lists that settle all searches alike.
-/

namespace TestDeclaration

open Grammar

variable {loader : Loader} {d d₁ d' : Draft} {q q' : Unfinished} {t : Token} {ts : List Token}
  {spaces spaces' : List String}

/-! ### Searching -/

/-- Two lists of namespaces settle every search alike. -/
def SearchedAlike (spaces spaces' : List String) : Prop :=
  ∀ found : String → Bool, spaces.find? found = spaces'.find? found

namespace SearchedAlike

private theorem refl (spaces : List String) : SearchedAlike spaces spaces := fun _ ↦ rfl

/-- A namespace that is searched already settles nothing at the end. -/
theorem of_mem {space : String} (hmem : space ∈ spaces) :
    SearchedAlike spaces (spaces ++ [space]) := by
  intro found
  rw [List.find?_append]
  cases hfind : spaces.find? found with
  | some first => rfl
  | none =>
    have hspace : found space = false := Bool.eq_false_of_not_eq_true
      (List.find?_eq_none.mp hfind space hmem)
    rw [Option.none_or, List.find?_singleton, hspace]
    rfl

private theorem append (hs : SearchedAlike spaces spaces') (more : List String) :
    SearchedAlike (spaces ++ more) (spaces' ++ more) := by
  intro found
  rw [List.find?_append, List.find?_append, hs found]

/-- Names mean the same under namespaces that are searched alike. -/
theorem type?_eq (hs : SearchedAlike spaces spaces') (l : Library) (name : String) :
    l.type? spaces name = l.type? spaces' name := by
  unfold Library.type?
  simp only [List.find?_map, hs _]

end SearchedAlike

/-! ### Other namespaces -/

/-- A draft with other namespaces. -/
def Draft.under (d : Draft) (spaces : List String) : Draft := { d with namespaces := spaces }

namespace Place

variable {p : Place} {e : Expression} {type : TypeName}

private theorem Fills.under (hf : p.Fills e d q d') (spaces : List String) :
    p.Fills e (d.under spaces) q (d'.under spaces) ∧ d'.namespaces = d.namespaces := by
  cases hf with
  | activator => exact ⟨.activator, rfl⟩
  | call he => exact ⟨.call he, rfl⟩
  | argument he => exact ⟨.argument he, rfl⟩
  | expected he => exact ⟨.expected he, rfl⟩

private theorem FillsType.under (hf : p.FillsType type d q d') (spaces : List String) :
    p.FillsType type (d.under spaces) q (d'.under spaces) ∧ d'.namespaces = d.namespaces := by
  cases hf with
  | strict => exact ⟨.strict, rfl⟩
  | value hp hf =>
    obtain ⟨hf, hspaces⟩ := hf.under spaces
    exact ⟨.value hp hf, hspaces⟩

private theorem Closes.under (hc : p.Closes d q d') (spaces : List String) :
    p.Closes (d.under spaces) q (d'.under spaces) ∧ d'.namespaces = d.namespaces := by
  cases hc with
  | arguments => exact ⟨.arguments, rfl⟩
  | call hc hf =>
    obtain ⟨hf, hspaces⟩ := hf.under spaces
    exact ⟨.call hc hf, hspaces⟩

/-- A token at the start of a value is read alike under namespaces that are searched alike. -/
theorem Begins.under (hb : p.Begins d t q d') (hs : SearchedAlike d.namespaces spaces) :
    p.Begins (d.under spaces) t q (d'.under spaces) ∧ d'.namespaces = d.namespaces := by
  cases hb with
  | literal hk hf =>
    obtain ⟨hf, hspaces⟩ := hf.under spaces
    exact ⟨.literal hk hf, hspaces⟩
  | typeName hk ht hf =>
    obtain ⟨hf, hspaces⟩ := hf.under spaces
    exact ⟨.typeName hk ((hs.type?_eq _ _).symm.trans ht) hf, hspaces⟩
  | create hk => exact ⟨.create hk, rfl⟩
  | close hk hc =>
    obtain ⟨hc, hspaces⟩ := hc.under spaces
    exact ⟨.close hk hc, hspaces⟩

end Place

namespace Unfinished

/-- A token is read alike under namespaces that are searched alike, and those behind it are searched
alike too. -/
theorem Step.under (hstep : Step loader q d t q' d') (hs : SearchedAlike d.namespaces spaces) :
    ∃ spaces', Step loader q (d.under spaces) t q' (d'.under spaces') ∧
      SearchedAlike d'.namespaces spaces' := by
  cases hstep with
  | path hk hload => exact ⟨spaces, .path hk hload, hs⟩
  | namespaceName hk => exact ⟨spaces ++ [_], .namespaceName hk, hs.append _⟩
  | groupEnd hk hname => exact ⟨spaces, .groupEnd hk hname, hs⟩
  | testType hk ht => exact ⟨spaces, .testType hk ((hs.type?_eq _ _).symm.trans ht), hs⟩
  | parameter hk ht => exact ⟨spaces, .parameter hk ((hs.type?_eq _ _).symm.trans ht), hs⟩
  | namedCall hk ht => exact ⟨spaces, .namedCall hk ((hs.type?_eq _ _).symm.trans ht), hs⟩
  | value hb =>
    obtain ⟨hb, hspaces⟩ := hb.under hs
    exact ⟨spaces, .value hb, hspaces ▸ hs⟩
  | strict hb =>
    obtain ⟨hb, hspaces⟩ := hb.under hs
    exact ⟨spaces, .strict hb, hspaces ▸ hs⟩
  | lastValue hk hc =>
    obtain ⟨hc, hspaces⟩ := hc.under spaces
    exact ⟨spaces, .lastValue hk hc, hspaces ▸ hs⟩
  | lastCase hk ht => exact ⟨spaces, .lastCase hk ht, hs⟩
  | _ hk =>
    refine ⟨spaces, ?_, hs⟩
    constructor
    exact hk

/-- Reading adds namespaces at the end only. -/
theorem Step.namespaces_prefix (h : Step loader q d t q' d') : d.namespaces <+: d'.namespaces := by
  cases h with
  | namespaceName => exact List.prefix_append _ _
  | value hb | strict hb => rw [(hb.under (.refl _)).2]
  | lastValue _ hc => rw [(hc.under []).2]
  | _ => exact List.prefix_refl _

private theorem Run.namespaces_prefix (h : Run loader q d ts q' d') :
    d.namespaces <+: d'.namespaces := by
  induction h with
  | nil => exact List.prefix_refl _
  | cons hs _ ih => exact hs.namespaces_prefix.trans ih

/-- Tokens are read alike under namespaces that are searched alike. -/
theorem Run.under (hrun : Run loader q d ts q' d') (hs : SearchedAlike d.namespaces spaces) :
    ∃ spaces', Run loader q (d.under spaces) ts q' (d'.under spaces') := by
  induction hrun generalizing spaces with
  | nil => exact ⟨spaces, .nil⟩
  | cons hstep _ ih =>
    obtain ⟨spaces₁, hstep, hs⟩ := hstep.under hs
    obtain ⟨spaces', hrun⟩ := ih hs
    exact ⟨spaces', .cons hstep hrun⟩

/-- A run over two texts is a run over one and then over the other. -/
theorem Run.append_iff {us : List Token} : Run loader q d (ts ++ us) q' d' ↔
    ∃ q₁ d₁, Run loader q d ts q₁ d₁ ∧ Run loader q₁ d₁ us q' d' := by
  simp only [← gives_foldlM, List.foldlM_append, Drafting.gives_bind]

/-- A run over the tokens of a program ends between two items. -/
theorem Run.ends_item {p : Program} (hrun : Run loader .item d ts q d')
    (hk : ts.map Token.kind = p.kinds) : q = .item := by
  have hfollows := follows_of_foldlM (q := .item) loader ts d
  rw [show (ts.foldlM (step loader) .item).run d = _ from gives_foldlM.mpr hrun] at hfollows
  have hnil : [] ∈ q.follows := by
    rw [hfollows, hk]
    exact ⟨p, (List.append_nil _).symm⟩
  have hcomplete := nil_mem_follows.mp hnil
  cases q <;> first | rfl | cases hcomplete

end Unfinished

/-! ### Programs by their tokens -/

namespace Grammar

open Unfinished

/-- The tokens of a program carry one draft to another. -/
def Carries (loader : Loader) (p : Program) (d d' : Draft) : Prop :=
  ∃ ts : List Token, ts.map Token.kind = p.kinds ∧ Run loader .item d ts .item d'

namespace Carries

variable {p p' : Program}

/-- All tokens of a program do the same, wherever they stand in a source. -/
theorem run (h : Carries loader p d d') (hk : ts.map Token.kind = p.kinds) :
    Run loader .item d ts .item d' := by
  obtain ⟨us, hus, hrun⟩ := h
  obtain ⟨program, hkinds, hdeclares⟩ := program_of_run hrun
  exact run_program hdeclares (hk.trans (hus.symm.trans hkinds))

private theorem of_declares (h : Declares loader p d d') : Carries loader p d d' :=
  ⟨_, Plan.kinds_onFirstCharacter _, run_program h (Plan.kinds_onFirstCharacter _)⟩

private theorem append_iff : Carries loader (p ++ p') d d' ↔
    ∃ d₁, Carries loader p d d₁ ∧ Carries loader p' d₁ d' := by
  constructor
  · rintro ⟨ts, hk, hrun⟩
    rw [Program.kinds, List.flatMap_append] at hk
    obtain ⟨front, back, rfl, hfront, hback⟩ := List.map_eq_append_iff.mp hk
    obtain ⟨q, d₁, hrun, hrest⟩ := Run.append_iff.mp hrun
    obtain rfl := hrun.ends_item hfront
    exact ⟨d₁, ⟨front, hfront, hrun⟩, back, hback, hrest⟩
  · rintro ⟨d₁, ⟨ts, hts, hrun⟩, us, hus, hrest⟩
    refine ⟨ts ++ us, ?_, Run.append_iff.mpr ⟨_, _, hrun, hrest⟩⟩
    rw [List.map_append, hts, hus, Program.kinds, Program.kinds, Program.kinds,
      List.flatMap_append]

/-- A program carries alike under namespaces that are searched alike. -/
theorem under (h : Carries loader p d d') (hs : SearchedAlike d.namespaces spaces) :
    ∃ spaces', Carries loader p (d.under spaces) (d'.under spaces') := by
  obtain ⟨ts, hk, hrun⟩ := h
  obtain ⟨spaces', hrun⟩ := hrun.under hs
  exact ⟨spaces', ts, hk, hrun⟩

end Carries

/-- The items that declare nothing, but say where names are found. -/
inductive Item.IsDirective : Item → Prop where
  | unit (path : String) : IsDirective (.unit path)
  | inNamespace (name : String) : IsDirective (.inNamespace name)

/-- A draft has what a directive asks for: the unit is loaded, or the namespace is searched. -/
inductive Heeds (loader : Loader) (d : Draft) : Item → Prop where
  | unit {path : String} {u : CodeUnit} : d.library.load loader path = .ok (u, d.library) →
      Heeds loader d (.unit path)
  | inNamespace {name : String} : name ∈ d.namespaces → Heeds loader d (.inNamespace name)

namespace Heeds

variable {i : Item}

/-- A directive that has been read is heeded. -/
theorem of_carries (hi : i.IsDirective) (h : Carries loader [i] d d') : Heeds loader d' i := by
  obtain ⟨ts, hk, hrun⟩ := h
  rw [Program.kinds, List.flatMap_singleton] at hk
  cases hi with
  | unit path =>
    obtain ⟨t₁, t₂, t₃, rfl, hk₁, hk₂, hk₃⟩ : ∃ t₁ t₂ t₃ : Token, ts = [t₁, t₂, t₃] ∧
        t₁.kind = .keyword .use ∧ t₂.kind = .literal (.string path) ∧
        t₃.kind = .symbol .semicolon := by
      simpa [Item.kinds, List.map_eq_cons_iff] using hk
    obtain - | ⟨huse, - | ⟨hpath, - | ⟨hend, hnil⟩⟩⟩ := hrun
    cases hnil
    cases huse with
    | testGroup hk | perform hk => cases hk₁.symm.trans hk
    | use =>
      cases hpath with
      | inNamespace hk => cases hk₂.symm.trans hk
      | path hk hload =>
        cases hk₂.symm.trans hk
        cases hend
        exact .unit (Library.load_again hload (.refl _))
  | inNamespace name =>
    obtain ⟨t₁, t₂, t₃, t₄, rfl, hk₁, hk₂, hk₃, hk₄⟩ : ∃ t₁ t₂ t₃ t₄ : Token,
        ts = [t₁, t₂, t₃, t₄] ∧ t₁.kind = .keyword .use ∧ t₂.kind = .keyword .inNamespace ∧
        t₃.kind = .identifier name ∧ t₄.kind = .symbol .semicolon := by
      simpa [Item.kinds, List.map_eq_cons_iff] using hk
    obtain - | ⟨huse, - | ⟨hin, - | ⟨hname, - | ⟨hend, hnil⟩⟩⟩⟩ := hrun
    cases hnil
    cases huse with
    | testGroup hk | perform hk => cases hk₁.symm.trans hk
    | use =>
      cases hin with
      | path hk => cases hk₂.symm.trans hk
      | inNamespace =>
        cases hname with
        | namespaceName hk =>
          cases hk₃.symm.trans hk
          cases hend
          exact .inNamespace (List.mem_append_right _ (List.mem_singleton_self _))

/-- What a draft heeds it heeds from then on. -/
theorem run (h : Heeds loader d i) (hrun : Run loader q d ts q' d') : Heeds loader d' i := by
  cases h with
  | unit hload => exact .unit (Library.load_again hload hrun.continues.library)
  | inNamespace hmem => exact .inNamespace (hrun.namespaces_prefix.subset hmem)

/-- A directive that is heeded can be read again. The draft stays as it was, except that a namespace
is searched once more. -/
theorem carries (h : Heeds loader d i) :
    ∃ spaces, Carries loader [i] d (d.under spaces) ∧ SearchedAlike d.namespaces spaces := by
  cases h with
  | unit hload =>
    exact ⟨d.namespaces, .of_declares (.cons (.unit hload) .nil), .refl _⟩
  | inNamespace hmem =>
    exact ⟨_, .of_declares (.cons .inNamespace .nil), .of_mem hmem⟩

end Heeds

end Grammar

namespace Plan

/-- A directive that is repeated behind its first place changes neither the plan nor the units. -/
theorem read_of_repeated_directive {library : Library} {heap : Heap} {tokens tokens' : List Token}
    {before after : Program} {i : Item} {plan : Plan}
    (hread : read loader tokens (.start library heap) = (.ok plan, d))
    (hkinds : tokens.map Token.kind = Program.kinds (before ++ after))
    (hi : i ∈ before) (hdirective : i.IsDirective)
    (hkinds' : tokens'.map Token.kind = Program.kinds (before ++ i :: after)) :
    ∃ d', read loader tokens' (.start library heap) = (.ok plan, d') ∧
      d'.library = d.library ∧ d'.heap = d.heap := by
  obtain ⟨hrun, rfl⟩ := read_eq_ok_iff_run.mp hread
  obtain ⟨d₁, hbefore, hafter⟩ := Carries.append_iff.mp ⟨tokens, hkinds, hrun⟩
  have hheeds : Heeds loader d₁ i := by
    obtain ⟨front, back, rfl⟩ := List.append_of_mem hi
    rw [← List.singleton_append] at hbefore
    obtain ⟨d₂, -, hrest⟩ := Carries.append_iff.mp hbefore
    obtain ⟨d₃, hi, hback⟩ := Carries.append_iff.mp hrest
    obtain ⟨ts, -, hrun⟩ := hback
    exact (Heeds.of_carries hdirective hi).run hrun
  obtain ⟨spaces, hi, hs⟩ := hheeds.carries
  obtain ⟨spaces', hafter⟩ := hafter.under hs
  have hall : Carries loader (before ++ ([i] ++ after)) (.start library heap) (d.under spaces') :=
    Carries.append_iff.mpr ⟨_, hbefore, Carries.append_iff.mpr ⟨_, hi, hafter⟩⟩
  exact ⟨d.under spaces', read_eq_ok_iff_run.mpr ⟨hall.run hkinds', rfl⟩, rfl, rfl⟩

/-- The directives `using "samples"; using namespace Samples;`. -/
def usingSamples : Program := [.unit "samples", .inNamespace "Samples"]

/-- The test `do Counter -> Get: case() expect new();`. -/
def getCounter : Item :=
  .test ⟨"Counter", "Get", none, ⟨[], [], false, .returned, false, .create none [] false⟩, []⟩

/-- Each of two directives can be repeated in front of the test that needs both. -/
theorem read_of_repeated_directive_counter : ∃ plan d,
    read .standard (onFirstCharacter (Program.kinds (usingSamples ++ [getCounter])))
      (.start .initial .empty) = (.ok plan, d) ∧
    ∀ i ∈ usingSamples, ∃ d',
      read .standard (onFirstCharacter (Program.kinds (usingSamples ++ [i, getCounter])))
        (.start .initial .empty) = (.ok plan, d') ∧
      d'.library = d.library ∧ d'.heap = d.heap := by
  obtain ⟨plan, d, hread⟩ : ∃ plan d,
      read .standard (onFirstCharacter (Program.kinds (usingSamples ++ [getCounter])))
        (.start .initial .empty) = (.ok plan, d) := ⟨_, _, rfl⟩
  have hdirectives : ∀ i ∈ usingSamples, i.IsDirective :=
    List.forall_mem_cons.mpr ⟨.unit _, List.forall_mem_singleton.mpr (.inNamespace _)⟩
  refine ⟨plan, d, hread, fun i hi ↦ ?_⟩
  exact read_of_repeated_directive hread (kinds_onFirstCharacter _) hi (hdirectives i hi)
    (kinds_onFirstCharacter _)

end Plan

end TestDeclaration

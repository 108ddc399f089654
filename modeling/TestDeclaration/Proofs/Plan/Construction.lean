import TestDeclaration.Proofs.CodeUnit.Faults
import TestDeclaration.Proofs.Plan.Continuation
import TestDeclaration.Proofs.Plan.Resolution

/-!
# Constructors do not raise while a source is read

A constructor call of a source is found by the types of its arguments, so these fit, and the
constructors of the standard units make an object of all arguments that fit. So whatever is wrong
with a source, it is not a fault of a constructor.
-/

namespace TestDeclaration

open Text

/-! ### Steps of drafting -/

namespace Drafting

variable {α β : Type} {d : Draft} {span : Span}

/-- A step of drafting ends with a result and a draft that have some property, or with a problem
that is no fault of a constructor. -/
def Meets (x : Drafting α) (d : Draft) (post : α → Draft → Prop) : Prop :=
  match x.run d with
  | (.ok a, d') => post a d'
  | (.error e, _) => ∀ f, e.problem ≠ .constructorFault f

namespace Meets

variable {x : Drafting α} {f : α → Drafting β} {post : α → Draft → Prop}
  {post' : β → Draft → Prop}

private theorem of_run (hx : Meets x d post) {r : Except PlanError α} {d' : Draft}
    (h : @Eq (Except PlanError α × Draft) (x.run d) (r, d')) : match r with
      | .ok a => post a d'
      | .error e => ∀ f, e.problem ≠ .constructorFault f := by
  unfold Meets at hx
  rw [h] at hx
  cases r with
  | ok | error => exact hx

private theorem pure {a : α} (ha : post a d) : Meets (Pure.pure a) d post := ha

private theorem fail {problem : PlanProblem} (hp : ∀ f, problem ≠ .constructorFault f) :
    Meets (Drafting.fail problem span) d post := hp

private theorem bind (hx : Meets x d post) (hf : ∀ a d', post a d' → Meets (f a) d' post') :
    Meets (x >>= f) d post' := by
  unfold Meets at hx ⊢
  rw [run_bind]
  generalize x.run d = p at hx ⊢
  obtain ⟨_ | a, d'⟩ := p
  · exact hx
  · exact hf a d' hx

private theorem get_bind {f : Draft → Drafting β} (hf : Meets (f d) d post') :
    Meets (get >>= f) d post' := hf

private theorem orFail_bind {a? : Option α} {problem : PlanProblem}
    (hp : ∀ f, problem ≠ .constructorFault f) (hf : ∀ a, a? = some a → Meets (f a) d post') :
    Meets (orFail a? problem span >>= f) d post' := by
  cases a? with
  | none => exact hp
  | some a => exact hf a rfl

/-- A name means a type or is unknown; the draft stays. -/
theorem type_bind {name : String} {f : TypeName → Drafting β}
    (hf : ∀ t, Meets (f t) d post') : Meets (type name span >>= f) d post' := by
  have htype : Meets (type name span) d fun _ d' ↦ d' = d := by
    apply get_bind
    rw [← bind_pure (orFail _ _ _)]
    exact orFail_bind nofun fun _ _ ↦ rfl
  apply htype.bind
  rintro t _ rfl
  exact hf t

/-- A value that can be made is made. -/
theorem evaluate_bind {e : Expression} {v : Value} {h : Heap}
    (he : e.evaluate d.heap = (.ok v, h)) {f : Value → Drafting β}
    (hf : Meets (f v) { d with heap := h } post') : Meets (evaluate e span >>= f) d post' := by
  have hgives : Gives (evaluate e span) d v { d with heap := h } :=
    gives_evaluate.mpr ⟨h, he, rfl⟩
  unfold Gives at hgives
  unfold Meets at hf ⊢
  rw [run_bind, hgives]
  exact hf

private theorem loadUnit {path : String} (hd : d.library.Safe) :
    Meets (loadUnit .standard path span) d fun _ d' ↦ d'.library.Safe := by
  apply get_bind
  cases hload : d.library.load .standard path with
  | error e => exact fail nofun
  | ok loaded => exact hd.load hload

private theorem openGroup {name : String} (hd : d.library.Safe) :
    Meets (openGroup name span) d fun _ d' ↦ d'.library.Safe := by
  apply get_bind
  split
  · exact fail nofun
  · exact hd

private theorem closeTest {t : OpenTest} (hd : d.library.Safe) :
    Meets (closeTest t) d fun _ d' ↦ d'.library.Safe :=
  get_bind (orFail_bind nofun fun _ _ ↦ hd)

end Meets

end Drafting

/-! ### Tokens -/

/-- The units of a draft are safe, and the arguments of all open calls are proper. -/
structure Unfinished.Ready (q : Unfinished) (d : Draft) : Prop where
  library : d.library.Safe
  arguments : ∀ call ∈ q.calls, ∀ v ∈ call.arguments, v.Proper

/-- Proper values fit a constructor that is found by their types. -/
theorem Library.fits_of_constructor? {l : Library} {type : TypeName} {args : List Value}
    {c : Constructor} (hc : l.constructor? type (args.map Value.typeName) = some c)
    (hargs : ∀ v ∈ args, v.Proper) : Fits c.parameters args :=
  ⟨argumentRefusal?_of_constructor? hc, hargs⟩

open Drafting

variable {p : Place} {d : Draft} {span : Span}

namespace Place

/-- A value that can be made goes to its place. -/
theorem meets_fill {e : Expression} (hd : d.library.Safe)
    (hp : ∀ call ∈ p.within, ∀ v ∈ call.arguments, v.Proper)
    (he : ∃ v h, e.evaluate d.heap = (.ok v, h) ∧ v.Proper) :
    Meets (p.fill span e) d Unfinished.Ready := by
  obtain ⟨v, h, he, hv⟩ := he
  obtain ⟨test, role, within⟩ := p
  cases within with
  | cons call outer =>
    obtain ⟨hcall, houter⟩ := List.forall_mem_cons.mp hp
    refine .evaluate_bind he (.pure ⟨hd, List.forall_mem_cons.mpr ⟨?_, houter⟩⟩)
    exact List.forall_mem_append.mpr ⟨hcall, List.forall_mem_singleton.mpr hv⟩
  | nil =>
    cases role with
    | activator => exact .pure ⟨hd, List.forall_mem_nil _⟩
    | argument | expected => exact .evaluate_bind he (.pure ⟨hd, List.forall_mem_nil _⟩)

/-- A type goes to its place. -/
theorem meets_fillType {t : TypeName} (hd : d.library.Safe)
    (hp : ∀ call ∈ p.within, ∀ v ∈ call.arguments, v.Proper) :
    Meets (p.fillType span t) d Unfinished.Ready := by
  have hfill : Meets (p.fill span (.value (.type t))) d Unfinished.Ready :=
    meets_fill hd hp ⟨_, d.heap, rfl, nofun⟩
  unfold fillType
  split
  · exact .pure ⟨hd, List.forall_mem_nil _⟩
  · exact hfill

/-- A list ends, and the constructor call that it belongs to makes an object. -/
theorem meets_close {wanted : Wanted} (hd : d.library.Safe)
    (hp : ∀ call ∈ p.within, ∀ v ∈ call.arguments, v.Proper) :
    Meets (p.close span wanted) d Unfinished.Ready := by
  obtain ⟨test, role, within⟩ := p
  cases within with
  | cons call outer =>
    obtain ⟨hcall, houter⟩ := List.forall_mem_cons.mp hp
    refine .get_bind (.orFail_bind nofun fun c hc ↦ meets_fill hd houter ?_)
    have hfits : Fits c.parameters call.arguments := Library.fits_of_constructor? hc hcall
    obtain ⟨v, h, hv, hsound, -⟩ := Constructor.Safe.construct (hd.constructor? hc) hfits d.heap
    exact ⟨v, h, hv, hsound.proper⟩
  | nil =>
    cases role with
    | argument => exact .pure ⟨hd, List.forall_mem_nil _⟩
    | activator | expected => exact .fail nofun

/-- A value begins. -/
theorem meets_begin {token : Token} (hd : d.library.Safe)
    (hp : ∀ call ∈ p.within, ∀ v ∈ call.arguments, v.Proper) :
    Meets (p.begin token) d Unfinished.Ready := by
  unfold «begin»
  split
  · exact meets_fill hd hp ⟨_, d.heap, rfl, nofun⟩
  · exact .type_bind fun _ ↦ meets_fillType hd hp
  · exact .pure ⟨hd, hp⟩
  · exact meets_close hd hp
  · exact .fail nofun

end Place

namespace Unfinished

variable {q : Unfinished}

/-- One more token is read, and if it cannot be, no constructor is to blame. -/
theorem meets_step {token : Token} (hq : q.Ready d) :
    Meets (q.step .standard token) d Unfinished.Ready := by
  obtain ⟨hd, hcalls⟩ := hq
  unfold step
  split
  -- Most tokens only move on, outside all calls or in the same ones.
  all_goals first
    | exact .pure ⟨hd, List.forall_mem_nil _⟩
    | exact .pure ⟨hd, hcalls⟩
    | skip
  case h_4 => exact (Meets.loadUnit hd).bind fun _ _ hd ↦ .pure ⟨hd, List.forall_mem_nil _⟩
  case h_10 => exact (Meets.openGroup hd).bind fun _ _ hd ↦ .pure ⟨hd, List.forall_mem_nil _⟩
  case h_36 => exact (Meets.closeTest hd).bind fun _ _ hd ↦ .pure ⟨hd, List.forall_mem_nil _⟩
  case h_11 | h_17 => exact .type_bind fun _ ↦ .pure ⟨hd, List.forall_mem_nil _⟩
  case h_28 => exact .type_bind fun _ ↦ .pure ⟨hd, hcalls⟩
  -- A call opens without arguments.
  case h_29 | h_30 =>
    exact .pure ⟨hd, List.forall_mem_cons.mpr ⟨List.forall_mem_nil _, hcalls⟩⟩
  case h_25 | h_34 => exact Place.meets_begin hd hcalls
  case h_27 => exact Place.meets_close hd hcalls
  case h_37 => exact .fail nofun

/-- All tokens are read, or no constructor is to blame. -/
theorem meets_foldlM {tokens : List Token} (hq : q.Ready d) :
    Meets (tokens.foldlM (step .standard) q) d Unfinished.Ready := by
  induction tokens generalizing q d with
  | nil => exact .pure hq
  | cons t rest ih =>
    rw [List.foldlM_cons]
    exact (meets_step hq).bind fun _ _ hq ↦ ih hq

end Unfinished

namespace Plan

variable {library : Library} (hl : library.Safe) {heap : Heap} {tokens : List Token}

include hl

/-- Reading keeps a library safe, or ends with a problem that is no fault of a constructor. -/
theorem meets_drafting :
    Meets (drafting .standard tokens) (.start library heap) fun _ d ↦ d.library.Safe := by
  have hitem : Unfinished.Ready .item (.start library heap) := ⟨hl, List.forall_mem_nil _⟩
  refine (Unfinished.meets_foldlM hitem).bind fun q d hq ↦ ?_
  split
  · exact hq.library
  · exact .fail nofun

/-- Reading with the standard loader leaves a safe library. -/
theorem safe_of_read {plan : Plan}
    (hread : read .standard tokens (.start library heap) = (.ok plan, d)) : d.library.Safe :=
  (meets_drafting hl).of_run hread

/-- No source fails to be read because a constructor raises. -/
theorem ne_constructorFault_of_read {e : PlanError}
    (hread : read .standard tokens (.start library heap) = (.error e, d)) (f : Fault) :
    e.problem ≠ .constructorFault f :=
  (meets_drafting hl).of_run hread f

end Plan

end TestDeclaration

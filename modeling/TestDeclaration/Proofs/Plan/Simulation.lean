import TestDeclaration.Proofs.Plan.Kinship

/-!
# Two readings side by side

Tokens of the same kinds are read twice. If what is unfinished and the drafts are akin, one more
token keeps them akin, or ends both readings with errors that are akin. So the places of tokens, and
the objects that there were before, decide nothing.
-/

namespace TestDeclaration

open TestDeclaration.Text

variable {K : Kinship} {σ : Span → Span → Prop} {R : Pairing} {d d' : Draft} {span span' : Span}
  {loader : Loader}

/-- Two steps of drafting leave drafts that are akin once more objects are paired, and they give
results that are the same in some sense, or errors that are akin. -/
def Drafting.Akin (K : Kinship) (σ : Span → Span → Prop) {α : Type}
    (same : Pairing → α → α → Prop) (R : Pairing) (x : Drafting α) (d : Draft) (y : Drafting α)
    (d' : Draft) : Prop :=
  ∃ R', R ≤ R' ∧ Draft.Akin K R' (x.run d).2 (y.run d').2 ∧
    EndAkin (PlanError.Akin K σ R') (same R') (x.run d).1 (y.run d').1

namespace Drafting

variable {α β : Type} {P : Pairing → α → α → Prop} {Q : Pairing → β → β → Prop}

private theorem akin_pure (hd : d.Akin K R d') {a b : α} (hab : P R a b) :
    Akin K σ P R (pure a) d (pure b) d' :=
  ⟨R, le_rfl, hd, .ok hab⟩

private theorem akin_fail (hd : d.Akin K R d') {p p' : PlanProblem} (hp : p.Akin K R p')
    (hspan : σ span span') : Akin K σ P R (fail p span) d (fail p' span') d' :=
  ⟨R, le_rfl, hd, .error ⟨hp, hspan⟩⟩

private theorem akin_bind {x y : Drafting α} {f g : α → Drafting β} (hx : Akin K σ P R x d y d')
    (hfg : ∀ {R' a b e e'}, R ≤ R' → P R' a b → e.Akin K R' e' →
      Akin K σ Q R' (f a) e (g b) e') :
    Akin K σ Q R (x >>= f) d (y >>= g) d' := by
  obtain ⟨R₁, hR₁, hd₁, hends⟩ := hx
  unfold Akin
  rw [run_bind, run_bind]
  generalize x.run d = p at hd₁ hends ⊢
  generalize y.run d' = q at hd₁ hends ⊢
  obtain ⟨_, d₁⟩ := p
  obtain ⟨_, d₁'⟩ := q
  cases hends with
  | error he => exact ⟨R₁, hR₁, hd₁, .error he⟩
  | ok hab =>
    obtain ⟨R₂, hR₂, hd₂, hends⟩ := hfg hR₁ hab hd₁
    exact ⟨R₂, hR₁.trans hR₂, hd₂, hends⟩

private theorem akin_get_bind {f g : Draft → Drafting β} (h : Akin K σ Q R (f d) d (g d') d') :
    Akin K σ Q R (get >>= f) d (get >>= g) d' := h

private theorem akin_set {e e' : Draft} (he : e.Akin K R e') :
    Akin K σ (fun _ ↦ Eq) R (set e) d (set e') d' :=
  ⟨R, le_rfl, he, .ok rfl⟩

private theorem akin_orFail (hd : d.Akin K R d') (a? : Option α) (p : PlanProblem)
    (hspan : σ span span') :
    Akin K σ (fun _ ↦ Eq) R (orFail a? p span) d (orFail a? p span') d' := by
  cases a? with
  | none => exact akin_fail hd (.refl p) hspan
  | some a => exact akin_pure hd rfl

/-- A name means the same type in both readings. -/
theorem akin_type (hd : d.Akin K R d') (name : String) (hspan : σ span span') :
    Akin K σ (fun _ ↦ Eq) R (type name span) d (type name span') d' := by
  apply akin_get_bind
  rw [← hd.library, ← hd.namespaces]
  exact akin_orFail hd _ _ hspan

private theorem akin_type_bind (hd : d.Akin K R d') (name : String) (hspan : σ span span')
    {f g : TypeName → Drafting β}
    (hfg : ∀ {R' e e'} (t : TypeName), R ≤ R' → e.Akin K R' e' →
      Akin K σ Q R' (f t) e (g t) e') :
    Akin K σ Q R (type name span >>= f) d (type name span' >>= g) d' := by
  refine akin_bind (akin_type hd name hspan) ?_
  rintro R' t _ e e' hR rfl he
  exact hfg t hR he

private theorem akin_evaluate (hd : d.Akin K R d') {e e' : Expression} (he : e.Akin K R e')
    (hspan : σ span span') : Akin K σ K.value R (evaluate e span) d (evaluate e' span') d' := by
  apply akin_get_bind
  obtain ⟨R', hR, hh, hends⟩ := he.evaluate hd.heap
  generalize e.evaluate d.heap = p at hh hends ⊢
  generalize e'.evaluate d'.heap = q at hh hends ⊢
  obtain ⟨_, h⟩ := p
  obtain ⟨_, k⟩ := q
  have hd' : Draft.Akin K R' { d with heap := h } { d' with heap := k } :=
    { hd with heap := hh, earlier := hd.earlier.mono hR, current := hd.current.mono hR }
  cases hends with
  | ok hv => exact ⟨R', hR, hd', .ok hv⟩
  | error hf => exact ⟨R', hR, hd', .error ⟨.fault hf, hspan⟩⟩

private theorem akin_loadUnit (hloader : loader.Constructs K.RespectedBy) (hd : d.Akin K R d')
    (path : String) (hspan : σ span span') :
    Akin K σ (fun _ ↦ Eq) R (loadUnit loader path span) d (loadUnit loader path span') d' := by
  apply akin_get_bind
  rw [← hd.library]
  cases hload : d.library.load loader path with
  | error e => exact akin_fail hd (.refl _) hspan
  | ok loaded =>
    apply akin_set
    exact { hd with library := rfl, respected := hd.respected.load hloader hload }

private theorem akin_addNamespace (hd : d.Akin K R d') (name : String) :
    Akin K σ (fun _ ↦ Eq) R (addNamespace name) d (addNamespace name) d' :=
  ⟨R, le_rfl, { hd with namespaces := congrArg (· ++ [name]) hd.namespaces }, .ok rfl⟩

private theorem akin_openGroup (hd : d.Akin K R d') (name : String) (hspan : σ span span') :
    Akin K σ (fun _ ↦ Eq) R (openGroup name span) d (openGroup name span') d' := by
  apply akin_get_bind
  rw [← hd.plan.any_name_eq]
  split
  · exact akin_fail hd (.refl _) hspan
  · exact akin_set { hd with earlier := hd.plan, current := ⟨rfl, .nil⟩ }

private theorem akin_closeTest (hd : d.Akin K R d') {t t' : OpenTest} (ht : t.Akin K σ R t') :
    Akin K σ (fun _ ↦ Eq) R (closeTest t) d (closeTest t') d' := by
  apply akin_get_bind
  rw [← hd.library, ← ht.owner, ← ht.method, ← ht.signature_eq]
  cases d.library.callable? t.owner t.method t.signature with
  | none => exact akin_fail hd (.refl _) ht.methodSpan
  | some target =>
    have htests : List.Forall₂ (Test.Akin K R) (d.current.tests ++ [⟨target, t.cases⟩])
        (d'.current.tests ++ [⟨target, t'.cases⟩]) :=
      List.rel_append hd.current.tests (.cons ⟨rfl, ht.cases⟩ .nil)
    exact akin_set { hd with library := rfl, current := ⟨hd.current.name, htests⟩ }

end Drafting

open Drafting

namespace Place

variable {p p' : Place} {e e' : Expression}

/-- A value goes to its place in both readings. -/
theorem akin_fill (hd : d.Akin K R d') (hp : p.Akin K σ R p') (he : e.Akin K R e')
    (hspan : σ span span') :
    Drafting.Akin K σ (Unfinished.Akin K σ) R (p.fill span e) d (p'.fill span' e') d' := by
  obtain ⟨test, role, within⟩ := p
  obtain ⟨test', role', within'⟩ := p'
  obtain ⟨htest, hrole, hwithin⟩ := hp
  cases hwithin with
  | cons hcall houter =>
    refine akin_bind (akin_evaluate hd he hspan) fun hR hv hd ↦ akin_pure hd (.valueEnd ?_)
    have hcall := hcall.mono hR
    refine ⟨htest.mono hR, hrole.mono hR, .cons ?_ (houter.imp fun _ _ hc ↦ hc.mono hR)⟩
    exact { hcall with arguments := List.rel_append hcall.arguments (.cons hv .nil) }
  | nil =>
    cases hrole with
    | activator => exact akin_pure hd (.activatorEnd { htest with activator := .some he })
    | argument hbefore =>
      refine akin_bind (akin_evaluate hd he hspan) fun hR hv hd ↦ akin_pure hd (.valueEnd ?_)
      refine ⟨htest.mono hR, .argument ?_, .nil⟩
      exact List.rel_append (K.mono_all hbefore hR) (.cons hv .nil)
    | expected channel loose harguments =>
      refine akin_bind (akin_evaluate hd he hspan) fun hR hv hd ↦ akin_pure hd (.caseEnd ?_)
      refine (htest.mono hR).addCase (K.mono_all harguments hR) channel ?_
      cases loose with
      | true => exact .equivalentTo hv
      | false => exact .exactly hv

/-- A type goes to its place in both readings. -/
theorem akin_fillType (hd : d.Akin K R d') (hp : p.Akin K σ R p') (t : TypeName)
    (hspan : σ span span') :
    Drafting.Akin K σ (Unfinished.Akin K σ) R (p.fillType span t) d
      (p'.fillType span' t) d' := by
  have ht : (Expression.value (.type t)).Akin K R (.value (.type t)) := .value (K.plain rfl)
  have hfill := akin_fill hd hp ht hspan
  obtain ⟨test, role, within⟩ := p
  obtain ⟨test', role', within'⟩ := p'
  obtain ⟨htest, hrole, hwithin⟩ := hp
  cases hwithin with
  | cons => exact hfill
  | nil =>
    cases hrole with
    | activator | argument => exact hfill
    | expected channel loose harguments =>
      cases loose with
      | true => exact hfill
      | false => exact akin_pure hd (.caseEnd (htest.addCase harguments channel (.ofType t)))

/-- A list ends in both readings. -/
theorem akin_close (hd : d.Akin K R d') (hp : p.Akin K σ R p') (wanted : Wanted)
    (hspan : σ span span') :
    Drafting.Akin K σ (Unfinished.Akin K σ) R (p.close span wanted) d
      (p'.close span' wanted) d' := by
  obtain ⟨test, role, within⟩ := p
  obtain ⟨test', role', within'⟩ := p'
  obtain ⟨htest, hrole, hwithin⟩ := hp
  cases hwithin with
  | @cons call call' outer outer' hcall houter =>
    apply akin_get_bind
    rw [← hd.library, ← hcall.type, ← Kinship.map_typeName_eq hcall.arguments]
    cases hc : d.library.constructor? call.type (call.arguments.map Value.typeName) with
    | none => exact akin_fail hd (.refl _) hcall.span
    | some c =>
      have he : Expression.Akin K R (.construct c call.arguments) (.construct c call'.arguments) :=
        .construct (hd.respected.constructor? hc) hcall.arguments
      exact akin_fill hd ⟨htest, hrole, houter⟩ he hcall.span
  | nil =>
    cases hrole with
    | argument harguments => exact akin_pure hd (.verdict htest harguments)
    | activator | expected => exact akin_fail hd (.refl _) hspan

/-- A value begins in both readings. -/
theorem akin_begin (hd : d.Akin K R d') (hp : p.Akin K σ R p') (kind : TokenKind)
    (hspan : σ span span') :
    Drafting.Akin K σ (Unfinished.Akin K σ) R (p.begin ⟨kind, span⟩) d
      (p'.begin ⟨kind, span'⟩) d' := by
  unfold «begin»
  dsimp only
  split
  · exact akin_fill hd hp (.value (K.plain rfl)) hspan
  · next name =>
    exact akin_type_bind hd name hspan fun t hR hd ↦ akin_fillType hd (hp.mono hR) t hspan
  · exact akin_pure hd (.callType hp hspan)
  · exact akin_close hd hp .value hspan
  · exact akin_fail hd (.refl _) hspan

end Place

/-- A call opens at a place. -/
theorem Place.Akin.inCall {p p' : Place} (hp : p.Akin K σ R p') (hspan : σ span span')
    (type : TypeName) : Place.Akin K σ R (p.inCall span type) (p'.inCall span' type) :=
  { hp with within := .cons ⟨hspan, rfl, .nil⟩ hp.within }

namespace Unfinished

/-- One token is read in both readings. -/
theorem akin_step (hloader : loader.Constructs K.RespectedBy) {q q' : Unfinished}
    (hd : d.Akin K R d') (hq : q.Akin K σ R q') (kind : TokenKind) (hspan : σ span span') :
    Drafting.Akin K σ (Unfinished.Akin K σ) R (q.step loader ⟨kind, span⟩) d
      (q'.step loader ⟨kind, span'⟩) d' := by
  fun_cases step loader q ⟨kind, span⟩
  -- Most tokens only move on.
  case case1 hk | case2 hk | case3 hk | case5 hk | case6 hk | case8 hk | case9 _ hk | case12 _ hk
      | case14 _ hk | case15 _ hk | case18 _ _ hk | case20 _ hk | case21 _ hk | case23 _ hk
      | case26 _ hk | case31 _ _ hk | case32 _ _ hk | case35 _ hk =>
    obtain rfl : kind = _ := hk
    cases hq
    exact akin_pure hd (by constructor <;> assumption)
  case case4 path hk =>
    obtain rfl : kind = _ := hk
    cases hq
    exact akin_bind (akin_loadUnit hloader hd path hspan) fun _ _ hd ↦ akin_pure hd .unitEnd
  case case7 name hk =>
    obtain rfl : kind = _ := hk
    cases hq
    exact akin_bind (akin_addNamespace hd name) fun _ _ hd ↦ akin_pure hd .namespaceEnd
  case case10 name _ hk =>
    obtain rfl : kind = _ := hk
    cases hq with
    | groupEnd _ hname =>
      exact akin_bind (akin_openGroup hd name hname) fun _ _ hd ↦ akin_pure hd .item
  case case11 name hk =>
    obtain rfl : kind = _ := hk
    cases hq
    exact akin_type_bind hd name hspan fun owner _ hd ↦ akin_pure hd (.arrow owner)
  case case13 owner name hk =>
    obtain rfl : kind = _ := hk
    cases hq
    exact akin_pure hd (.signature ⟨rfl, rfl, hspan, rfl, .none, .nil⟩)
  case case16 test before hk =>
    obtain rfl : kind = _ := hk
    cases hq with
    | parameter _ ht => exact akin_pure hd (.testColon { ht with signature? := rfl })
  case case17 test before name hk =>
    obtain rfl : kind = _ := hk
    cases hq with
    | parameter _ ht =>
      exact akin_type_bind hd name hspan fun _ hR hd ↦
        akin_pure hd (.parameterEnd _ (ht.mono hR))
  case case19 test before hk =>
    obtain rfl : kind = _ := hk
    cases hq with
    | parameterEnd _ ht => exact akin_pure hd (.testColon { ht with signature? := rfl })
  case case22 test hk =>
    obtain rfl : kind = _ := hk
    cases hq with
    | entry ht => exact akin_pure hd (.value ⟨ht, .activator, .nil⟩)
  case case24 test hk =>
    obtain rfl : kind = _ := hk
    cases hq with
    | caseOpen ht => exact akin_pure hd (.value ⟨ht, .argument .nil, .nil⟩)
  case case25 place =>
    cases hq with
    | value hp => exact Place.akin_begin hd hp kind hspan
  case case27 place hk =>
    obtain rfl : kind = _ := hk
    cases hq with
    | valueEnd hp => exact Place.akin_close hd hp .separator hspan
  case case28 place _ name hk =>
    obtain rfl : kind = _ := hk
    cases hq with
    | callType hp hcall =>
      exact akin_type_bind hd name hspan fun type hR hd ↦
        akin_pure hd (.callOpen type (hp.mono hR) hcall)
  case case29 place _ hk =>
    obtain rfl : kind = _ := hk
    cases hq with
    | callType hp hcall =>
      refine akin_pure hd (.value ?_)
      rw [hp.test.owner]
      exact hp.inCall hcall _
  case case30 place _ type hk =>
    obtain rfl : kind = _ := hk
    cases hq with
    | callOpen _ hp hcall => exact akin_pure hd (.value (hp.inCall hcall type))
  case case33 test arguments channel hk =>
    obtain rfl : kind = _ := hk
    cases hq with
    | expectation _ ht harguments =>
      exact akin_pure hd (.value ⟨ht, .expected channel true harguments, .nil⟩)
  case case34 test arguments channel hk =>
    cases hq with
    | @expectation _ test' _ arguments' _ ht harguments =>
      have hstep : step loader (.expectation test' arguments' channel) ⟨kind, span'⟩ =
          Place.begin ⟨test', .expected arguments' channel false, []⟩ ⟨kind, span'⟩ := by
        simp_all [step]
      rw [hstep]
      exact Place.akin_begin hd ⟨ht, .expected channel false harguments, .nil⟩ kind hspan
  case case36 test hk =>
    obtain rfl : kind = _ := hk
    cases hq with
    | caseEnd ht => exact akin_bind (akin_closeTest hd ht) fun _ _ hd ↦ akin_pure hd .item
  -- No token fits that fits none in the first reading, as both wait for the same.
  case case37 =>
    have hwanted : q.wanted = q'.wanted := by cases hq <;> rfl
    have hfail : q'.step loader ⟨kind, span'⟩ = fail (.grammar q'.wanted) span' := by
      cases hq <;> simp_all [step]
    rw [hfail, hwanted]
    exact akin_fail hd (.refl _) hspan

/-- All tokens are read in both readings. -/
theorem akin_foldlM (hloader : loader.Constructs K.RespectedBy) {tokens tokens' : List Token}
    (htokens : List.Forall₂ (fun t t' ↦ t.kind = t'.kind ∧ σ t.span t'.span) tokens tokens')
    {q q' : Unfinished} (hd : d.Akin K R d') (hq : q.Akin K σ R q') :
    Drafting.Akin K σ (Unfinished.Akin K σ) R (tokens.foldlM (step loader) q) d
      (tokens'.foldlM (step loader) q') d' := by
  induction htokens generalizing q q' d d' R with
  | nil => exact akin_pure hd hq
  | @cons t t' _ _ ht _ ih =>
    obtain ⟨kind, span⟩ := t
    obtain ⟨_, span'⟩ := t'
    obtain ⟨rfl, hspan⟩ := ht
    rw [List.foldlM_cons, List.foldlM_cons]
    exact akin_bind (akin_step hloader hd hq kind hspan) fun _ hq hd ↦ ih hd hq

end Unfinished

/-! ### Sources -/

namespace Plan

variable {tokens tokens' : List Token}

/-- Two places are those of one token, the same in two lists, or both are behind all tokens. -/
inductive SameSite (tokens tokens' : List Token) : Span → Span → Prop where
  | token {i : Nat} {t t' : Token} : tokens[i]? = some t → tokens'[i]? = some t' →
      SameSite tokens tokens' t.span t'.span
  | behind : SameSite tokens tokens' (endSpan tokens) (endSpan tokens')

private theorem forall₂_sameSite (hkinds : tokens.map Token.kind = tokens'.map Token.kind) :
    List.Forall₂ (fun t t' ↦ t.kind = t'.kind ∧ SameSite tokens tokens' t.span t'.span)
      tokens tokens' := by
  have hlength : tokens.length = tokens'.length := by simpa using congrArg List.length hkinds
  refine List.forall₂_iff_get.mpr ⟨hlength, fun i h h' ↦ ⟨?_, ?_⟩⟩
  · have hkind := congrArg (·[i]?) hkinds
    simpa [h, h'] using hkind
  · exact .token (List.getElem?_eq_getElem h) (List.getElem?_eq_getElem h')

/-- Tokens of the same kinds are read to plans that are akin, or to errors that are akin at the same
token, over the same units. -/
theorem akin_read (hkinds : tokens.map Token.kind = tokens'.map Token.kind)
    (hloader : loader.Constructs K.RespectedBy) (hd : d.Akin K R d') :
    ∃ R', R ≤ R' ∧ Draft.Akin K R' (read loader tokens d).2 (read loader tokens' d').2 ∧
      EndAkin (PlanError.Akin K (SameSite tokens tokens') R') (Plan.Akin K R')
        (read loader tokens d).1 (read loader tokens' d').1 := by
  obtain ⟨R', hR, hd', hends⟩ :=
    Unfinished.akin_foldlM hloader (forall₂_sameSite hkinds) hd .item
  rw [read_eq, read_eq]
  generalize (tokens.foldlM (Unfinished.step loader) .item).run d = r at hd' hends ⊢
  generalize (tokens'.foldlM (Unfinished.step loader) .item).run d' = r' at hd' hends ⊢
  obtain ⟨_, d₁⟩ := r
  obtain ⟨_, d₁'⟩ := r'
  refine ⟨R', hR, ?_⟩
  cases hends with
  | error he => exact ⟨hd', .error he⟩
  | @ok q q' hq =>
    have hcomplete : q.complete = q'.complete := by cases hq <;> rfl
    have hwanted : q.wanted = q'.wanted := by cases hq <;> rfl
    simp only [hcomplete, hwanted]
    split
    · exact ⟨hd', .ok hd'.plan⟩
    · exact ⟨hd', .error ⟨.refl _, .behind⟩⟩

variable (hkinds : tokens.map Token.kind = tokens'.map Token.kind) (loader : Loader)
  (library : Library)

include hkinds

/-- From the same draft, tokens of the same kinds are read to the same plan or to the same problem
at the same token, and leave the same draft. -/
theorem read_same (heap : Heap) :
    (read loader tokens (.start library heap)).2 = (read loader tokens' (.start library heap)).2 ∧
      EndAkin (fun e e' ↦ e.problem = e'.problem ∧ SameSite tokens tokens' e.span e'.span) Eq
        (read loader tokens (.start library heap)).1
        (read loader tokens' (.start library heap)).1 := by
  have hrespected : ∀ u : CodeUnit, u.Constructs Kinship.identity.RespectedBy :=
    fun _ _ _ c _ ↦ Kinship.identity_respectedBy c
  have hstart : Draft.Akin .identity (fun _ _ ↦ False) (.start library heap)
      (.start library heap) := .start (fun u _ ↦ hrespected u) rfl
  obtain ⟨R, -, hd, hends⟩ := akin_read hkinds (fun _ u _ ↦ hrespected u) hstart
  exact ⟨hd.eq, hends.imp (fun _ _ he ↦ ⟨he.problem.eq, he.span⟩) fun _ _ hp ↦ hp.eq⟩

/-- From any heaps, tokens of the same kinds are read to the same plans up to objects, or to the
same problems, if constructors see their arguments only. -/
theorem read_same_upTo {kinds : TypeName → Prop}
    (hl : library.Constructs (Constructor.Local kinds))
    (hloader : loader.Constructs (Constructor.Local kinds)) (h k : Heap) :
    ∃ R : Pairing,
      (read loader tokens (.start library h)).2.heap.Corresponds kinds R
        (read loader tokens' (.start library k)).2.heap ∧
      (read loader tokens (.start library h)).2.library =
        (read loader tokens' (.start library k)).2.library ∧
      EndAkin (fun e e' ↦ e.problem.message = e'.problem.message ∧
          SameSite tokens tokens' e.span e'.span) (Plan.Akin (.upTo kinds) R)
        (read loader tokens (.start library h)).1 (read loader tokens' (.start library k)).1 := by
  have hrespected : ∀ u : CodeUnit, u.Constructs (Constructor.Local kinds) →
      u.Constructs (Kinship.upTo kinds).RespectedBy :=
    fun u hu d hd c hc ↦ Kinship.upTo_respectedBy (hu d hd c hc)
  have hstart : Draft.Akin (.upTo kinds) (fun _ _ ↦ False) (.start library h)
      (.start library k) :=
    .start (fun u hu ↦ hrespected u (hl u hu)) (Heap.corresponds_empty kinds h k)
  obtain ⟨R, -, hd, hends⟩ :=
    akin_read hkinds (fun path u hu ↦ hrespected u (hloader path u hu)) hstart
  refine ⟨R, hd.heap, hd.library, hends.imp (fun _ _ he ↦ ?_) fun _ _ ↦ id⟩
  exact ⟨he.problem.message_eq, he.span⟩

end Plan

end TestDeclaration

import TestDeclaration.Proofs.Plan.Continuation
import TestDeclaration.Proofs.Plan.Language

/-!
# Errors of the grammar are early

What completes a source from some point on is a language: for each unfinished item, the texts that
make a sentence of what has been read. A step of the reader takes the left quotient of this language
by the token that it reads, and it complains about the grammar only if the quotient is empty. No
unfinished item is hopeless, so the error is at the first token with which no sentence starts.
-/

namespace TestDeclaration

open Grammar Language Text

/-! ### What completes a source

Each of these languages goes up to the end of the source. -/

namespace Grammar

/-- What can stand behind the signature of a test. -/
def afterSignature : Language TokenKind := token (.symbol .colon) * (blocks * sentences)

/-- What can stand behind a case. -/
def afterCase : Language TokenKind :=
  token (.symbol .comma) * (blocks * sentences) + token (.symbol .semicolon) * sentences

/-- What can stand behind the arguments of a case. -/
def afterArguments : Language TokenKind :=
  (token (.keyword .expect) + token (.keyword .throws)) * (demands * afterCase)

/-- What can stand behind a part of a list, if some language follows the list. -/
def afterPart (part L : Language TokenKind) : Language TokenKind :=
  token (.symbol .comma) * (listings part * L) + token (.symbol .rightParen) * L

@[simp]
private theorem afterSignature_ne_zero : afterSignature ≠ 0 := by simp [afterSignature]

@[simp]
private theorem afterCase_ne_zero : afterCase ≠ 0 := by simp [afterCase]

@[simp]
private theorem afterArguments_ne_zero : afterArguments ≠ 0 := by simp [afterArguments]

variable (P L : Language TokenKind) (ks : List TokenKind)

@[simp]
private theorem afterPart_eq_zero_iff : afterPart P L = 0 ↔ L = 0 := by simp [afterPart]

private theorem listings_mul :
    listings P * L = token (.symbol .rightParen) * L + P * afterPart P L := by
  conv_lhs => rw [listings_eq]
  simp only [add_mul, mul_assoc, afterPart]

/-! The rules of the grammar as rewriting rules. They apply to left quotients only: anywhere else
they could be used again and again. -/

@[simp]
private theorem leftQuotient_listings_mul : (listings P * L).leftQuotient ks =
    (token (.symbol .rightParen) * L).leftQuotient ks + (P * afterPart P L).leftQuotient ks := by
  rw [listings_mul, leftQuotient_add]

@[simp]
private theorem leftQuotient_terms_mul : (terms * L).leftQuotient ks =
    (literals * L).leftQuotient ks + (names * L).leftQuotient ks +
      (token (.keyword .create) * ((names + 1) *
        (token (.symbol .leftParen) * (listings terms * L)))).leftQuotient ks := by
  conv_lhs => rw [terms_eq]
  simp only [add_mul, mul_assoc, leftQuotient_add]

@[simp]
private theorem leftQuotient_signatures_mul : (signatures * L).leftQuotient ks =
    L.leftQuotient ks + (token (.symbol .leftParen) * (listings names * L)).leftQuotient ks := by
  simp only [signatures_eq, add_mul, one_mul, mul_assoc, leftQuotient_add]

@[simp]
private theorem leftQuotient_demands_mul : (demands * L).leftQuotient ks =
    (token (.symbol .tilde) * (terms * L)).leftQuotient ks + (terms * L).leftQuotient ks := by
  simp only [demands_eq, add_mul, mul_assoc, leftQuotient_add]

@[simp]
private theorem leftQuotient_blocks_mul_sentences : (blocks * sentences).leftQuotient ks =
    (token (.keyword .onTarget) * (terms * afterSignature)).leftQuotient ks +
      (token (.keyword .testCase) * (token (.symbol .leftParen) *
        (listings terms * afterArguments))).leftQuotient ks := by
  conv_lhs => rw [blocks_eq]
  simp only [add_mul, mul_assoc, afterSignature, afterArguments, afterCase, leftQuotient_add]

@[simp]
private theorem leftQuotient_sentences (k : TokenKind) : sentences.leftQuotient [k] =
    (token (.keyword .use) * ((paths + token (.keyword .inNamespace) * names) *
      (token (.symbol .semicolon) * sentences))).leftQuotient [k] +
    (token (.keyword .testGroup) *
      (names * (token (.symbol .semicolon) * sentences))).leftQuotient [k] +
    (token (.keyword .perform) * (names * (token (.symbol .arrow) * (names *
      (signatures * afterSignature))))).leftQuotient [k] := by
  conv_lhs => rw [sentences_eq, items_eq]
  simp only [add_mul, mul_add, mul_assoc, afterSignature, leftQuotient_add,
    leftQuotient_one_singleton, zero_add]

end Grammar

/-- What can stand behind a value in a role. -/
def Role.after : Role → Language TokenKind
  | .activator => afterSignature
  | .argument _ => afterPart terms afterArguments
  | .expected .. => afterCase

/-- What can stand behind the list that values in a role are in, if they are in one. -/
def Role.closed : Role → Language TokenKind
  | .argument _ => afterArguments
  | .activator | .expected .. => 0

/-- What can stand behind a value in some calls. -/
def OpenCall.after (role : Role) : List OpenCall → Language TokenKind
  | [] => role.after
  | _ :: outer => afterPart terms (OpenCall.after role outer)

namespace Place

/-- What can stand behind the value at a place. -/
def after (p : Place) : Language TokenKind := OpenCall.after p.role p.within

/-- What can stand behind the list around a place. -/
def closed (p : Place) : Language TokenKind :=
  match p.within with
  | [] => p.role.closed
  | _ :: outer => OpenCall.after p.role outer

/-- A value or the end of the list around its place, and what can stand behind that. -/
def follows (p : Place) : Language TokenKind :=
  terms * p.after + token (.symbol .rightParen) * p.closed

end Place

/-- What can stand behind the tokens of an unfinished item. -/
def Unfinished.follows : Unfinished → Language TokenKind
  | .item => sentences
  | .unitPath => (paths + token (.keyword .inNamespace) * names) *
      (token (.symbol .semicolon) * sentences)
  | .unitEnd | .namespaceEnd | .groupEnd .. => token (.symbol .semicolon) * sentences
  | .namespaceName | .groupName => names * (token (.symbol .semicolon) * sentences)
  | .testType => names * (token (.symbol .arrow) * (names * (signatures * afterSignature)))
  | .arrow _ => token (.symbol .arrow) * (names * (signatures * afterSignature))
  | .methodName _ => names * (signatures * afterSignature)
  | .signature _ => signatures * afterSignature
  | .parameter .. => listings names * afterSignature
  | .parameterEnd .. => afterPart names afterSignature
  | .testColon _ | .activatorEnd _ => afterSignature
  | .entry _ => blocks * sentences
  | .caseOpen _ => token (.symbol .leftParen) * (listings terms * afterArguments)
  | .value p => p.follows
  | .valueEnd p => token (.symbol .comma) * p.follows + token (.symbol .rightParen) * p.closed
  | .callType p _ => (names + 1) * (token (.symbol .leftParen) * (listings terms * p.after))
  | .callOpen p .. => token (.symbol .leftParen) * (listings terms * p.after)
  | .verdict .. => afterArguments
  | .expectation .. => demands * afterCase
  | .caseEnd _ => afterCase

/-! ### Steps of drafting -/

namespace Drafting

variable {α β : Type} {span : Span} {L : Language TokenKind}

/-- From any draft, the result of a step has some property, or the error has another one. -/
def Ends (x : Drafting α) (post : α → Prop) (blame : PlanError → Prop) : Prop :=
  ∀ (d : Draft), match x.run d with
    | (.ok a, _) => post a
    | (.error e, _) => blame e

private theorem Ends.bind {x : Drafting α} {f : α → Drafting β} {post : α → Prop} {post' : β → Prop}
    {blame blame' : PlanError → Prop} (hx : Ends x post blame) (hblame : ∀ e, blame e → blame' e)
    (hf : ∀ a, post a → Ends (f a) post' blame') : Ends (x >>= f) post' blame' := by
  intro d
  have hd := hx d
  rw [run_bind]
  generalize x.run d = r at hd ⊢
  obtain ⟨e | a, d'⟩ := r
  · exact hblame e hd
  · exact hf a hd d'

/-- Whatever a step of drafting complains about, it is not the grammar. -/
def Semantic (x : Drafting α) : Prop :=
  Ends x (fun _ ↦ True) fun e ↦ ∀ wanted, e.problem ≠ .grammar wanted

/-- A step of drafting leaves an item that some language completes. If it complains about the
grammar, it does so at some place, and the language is empty. -/
def Leaves (x : Drafting Unfinished) (span : Span) (L : Language TokenKind) : Prop :=
  Ends x (fun q ↦ q.follows = L) fun e ↦ ∀ wanted, e.problem = .grammar wanted →
    e.span = span ∧ L = 0

namespace Semantic

private theorem orFail (a? : Option α) {problem : PlanProblem} (hp : ∀ w, problem ≠ .grammar w) :
    Semantic (orFail a? problem span) := by
  intro d
  cases a? with
  | none => exact hp
  | some a => trivial

private theorem bind {x : Drafting α} {f : α → Drafting β} (hx : Semantic x)
    (hf : ∀ a, Semantic (f a)) : Semantic (x >>= f) :=
  Ends.bind hx (fun _ ↦ id) fun a _ ↦ hf a

private theorem get_bind {f : Draft → Drafting β} (hf : ∀ d, Semantic (f d)) :
    Semantic (get >>= f) := fun d ↦ hf d d

private theorem set (d : Draft) : Semantic (MonadStateOf.set d : Drafting PUnit) := fun _ ↦ trivial

private theorem type (name : String) : Semantic (type name span) :=
  get_bind fun _ ↦ orFail _ nofun

private theorem evaluate (e : Expression) : Semantic (evaluate e span) := by
  refine get_bind fun d ↦ ?_
  rcases e.evaluate d.heap with ⟨f | v, heap⟩
  · exact (set _).bind fun _ _ ↦ nofun
  · exact (set _).bind fun _ _ ↦ trivial

private theorem loadUnit (loader : Loader) (path : String) :
    Semantic (loadUnit loader path span) := by
  refine get_bind fun d ↦ ?_
  split
  · exact set _
  · exact fun _ ↦ nofun

private theorem addNamespace (name : String) : Semantic (addNamespace name) := fun _ ↦ trivial

private theorem openGroup (name : String) : Semantic (openGroup name span) := by
  refine get_bind fun d ↦ ?_
  split
  · exact fun _ ↦ nofun
  · exact set _

private theorem closeTest (t : OpenTest) : Semantic (closeTest t) := by
  refine get_bind fun d ↦ ?_
  have htarget : Semantic (Drafting.orFail (d.library.callable? t.owner t.method t.signature)
    (.unknownMethod t.method t.owner) t.methodSpan) := orFail _ nofun
  exact htarget.bind fun _ ↦ set _

end Semantic

namespace Leaves

private theorem pure {q : Unfinished} (hq : q.follows = L) :
    Leaves (Pure.pure q) span L := fun _ ↦ hq

private theorem fail {problem : PlanProblem} (hL : L = 0) : Leaves (fail problem span) span L :=
  fun _ _ _ ↦ ⟨rfl, hL⟩

private theorem bind {x : Drafting α} {f : α → Drafting Unfinished} (hx : Semantic x)
    (hf : ∀ a, Leaves (f a) span L) : Leaves (x >>= f) span L :=
  Ends.bind hx (fun _ he wanted hwanted ↦ absurd hwanted (he wanted)) fun a _ ↦ hf a

private theorem get_bind {f : Draft → Drafting Unfinished} (hf : ∀ d, Leaves (f d) span L) :
    Leaves (get >>= f) span L := fun d ↦ hf d d

end Leaves

end Drafting

/-! ### Tokens -/

open Drafting

namespace Place

variable {p : Place} {span : Span}

/-- Something can stand behind every value. -/
@[simp]
theorem after_ne_zero (p : Place) : p.after ≠ 0 := by
  obtain ⟨test, role, within⟩ := p
  have hcalls : ∀ calls, OpenCall.after role calls ≠ 0 := by
    intro calls
    induction calls with
    | nil => cases role <;> simp [OpenCall.after, Role.after]
    | cons call outer ih => simp [OpenCall.after, ih]
  exact hcalls within

@[simp]
private theorem follows_activator {test : OpenTest} :
    (⟨test, .activator, []⟩ : Place).follows = terms * afterSignature := by
  rw [follows, closed, Role.closed, mul_zero, add_zero]
  rfl

@[simp]
private theorem follows_argument {test : OpenTest} {before : List Value} :
    (⟨test, .argument before, []⟩ : Place).follows = listings terms * afterArguments := by
  rw [listings_mul, add_comm]
  rfl

@[simp]
private theorem follows_expected {test : OpenTest} {arguments : List Value} {channel : Channel}
    {loose : Bool} :
    (⟨test, .expected arguments channel loose, []⟩ : Place).follows = terms * afterCase := by
  rw [follows, closed, Role.closed, mul_zero, add_zero]
  rfl

/-- In a call, a value or the end of the list around it is all that completes the list. -/
@[simp]
theorem follows_cons {test : OpenTest} {role : Role} {call : OpenCall} {outer : List OpenCall} :
    (⟨test, role, call :: outer⟩ : Place).follows = listings terms * OpenCall.after role outer := by
  rw [listings_mul, add_comm]
  rfl

@[simp]
private theorem follows_inCall {type : TypeName} :
    (p.inCall span type).follows = listings terms * p.after := follows_cons

/-- A value goes to its place. -/
theorem leaves_fill (start : Span) (e : Expression) : Leaves (p.fill start e) span p.after := by
  obtain ⟨test, role, within⟩ := p
  cases within with
  | cons call outer =>
    refine .bind (.evaluate e) fun v ↦ .pure ?_
    rw [Unfinished.follows, follows_cons]
    rfl
  | nil =>
    cases role with
    | activator => exact .pure rfl
    | argument before =>
      refine .bind (.evaluate e) fun v ↦ .pure ?_
      rw [Unfinished.follows, follows_argument]
      rfl
    | expected => exact .bind (.evaluate e) fun v ↦ .pure rfl

/-- A type goes to its place. -/
theorem leaves_fillType (start : Span) (t : TypeName) :
    Leaves (p.fillType start t) span p.after := by
  unfold fillType
  split
  · next hwithin hrole =>
    refine .pure ?_
    rw [after, hwithin, hrole]
    rfl
  · exact leaves_fill start _

/-- A list ends. -/
theorem leaves_close (wanted : Wanted) : Leaves (p.close span wanted) span p.closed := by
  obtain ⟨test, role, within⟩ := p
  cases within with
  | cons call outer =>
    exact .get_bind fun d ↦ .bind (.orFail _ nofun) fun c ↦ leaves_fill _ _
  | nil =>
    cases role with
    | argument => exact .pure rfl
    | activator | expected => exact .fail rfl

/-- A value begins. -/
theorem leaves_begin (t : Token) :
    Leaves (p.begin t) t.span (p.follows.leftQuotient [t.kind]) := by
  unfold «begin»
  split
  case h_1 heq =>
    have hleft : p.follows.leftQuotient [t.kind] = p.after := by simp [follows, heq]
    exact hleft ▸ leaves_fill _ _
  case h_2 heq =>
    have hleft : p.follows.leftQuotient [t.kind] = p.after := by simp [follows, heq]
    exact hleft ▸ .bind (.type _) fun _ ↦ leaves_fillType _ _
  case h_3 heq =>
    refine .pure ?_
    simp [follows, Unfinished.follows, heq]
  case h_4 heq =>
    have hleft : p.follows.leftQuotient [t.kind] = p.closed := by simp [follows, heq]
    exact hleft ▸ leaves_close _
  case h_5 =>
    refine .fail ?_
    simp_all [follows]

end Place

namespace Unfinished

variable {q : Unfinished}

/-- No unfinished item is hopeless: some text completes the source. -/
theorem follows_ne_zero (q : Unfinished) : q.follows ≠ 0 := by
  cases q <;> simp [follows, Place.follows]

/-- The empty text completes a source between two items only. -/
theorem nil_mem_follows : [] ∈ q.follows ↔ q.complete = true := by
  cases q <;> simp [follows, complete, Place.follows, afterPart, afterSignature, afterArguments,
    afterCase, mem_add]

/-- A step takes the left quotient by its token, which is empty if the grammar forbids it. -/
theorem leaves_step (loader : Loader) (t : Token) :
    Leaves (q.step loader t) t.span (q.follows.leftQuotient [t.kind]) := by
  unfold step
  split
  -- Most tokens only move on.
  all_goals try exact .pure (by
    simp [*, follows, afterPart, afterSignature, afterArguments, afterCase, add_mul, mul_assoc])
  -- Some look something up first.
  case h_4 heq =>
    exact .bind (.loadUnit _ _) fun _ ↦ .pure (by simp [heq, follows, add_mul, mul_assoc])
  case h_7 heq => exact .bind (.addNamespace _) fun _ ↦ .pure (by simp [heq, follows])
  case h_10 heq => exact .bind (.openGroup _) fun _ ↦ .pure (by simp [heq, follows])
  case h_11 heq => exact .bind (.type _) fun _ ↦ .pure (by simp [heq, follows])
  case h_17 heq => exact .bind (.type _) fun _ ↦ .pure (by simp [heq, follows])
  case h_28 heq => exact .bind (.type _) fun _ ↦ .pure (by simp [heq, follows, add_mul])
  case h_36 heq => exact .bind (.closeTest _) fun _ ↦ .pure (by simp [heq, follows, afterCase])
  -- The others are about values.
  case h_25 => exact Place.leaves_begin t
  case h_27 place heq =>
    have hleft : (valueEnd place).follows.leftQuotient [t.kind] = place.closed := by
      simp [heq, follows]
    exact hleft ▸ Place.leaves_close _
  case h_34 test arguments channel htilde =>
    have htilde : t.kind ≠ .symbol .tilde := htilde
    have hleft : (expectation test arguments channel).follows.leftQuotient [t.kind] =
        (⟨test, .expected arguments channel false, []⟩ : Place).follows.leftQuotient [t.kind] := by
      simp [follows, htilde]
    exact hleft ▸ Place.leaves_begin t
  -- And any other token is one that no rule for the item starts with.
  case h_37 q _ _ hvalue hexpectation huse hgroup hperform hpath hnamespace hunitEnd hnamespaceName
      hnamespaceEnd hgroupName hgroupEnd htype harrow hmethod hopenTypes hnoTypes hnoType htypeName
      hcommaType hlastType hentries hcase hon hactivated harguments hcomma hclose htypeName' hcall
      hcall' hexpect hthrows _ hnextCase hlastCase =>
    refine .fail ?_
    simp only [imp_false] at *
    cases q with
    | item => simp [follows, huse rfl, hgroup rfl, hperform rfl]
    | unitPath =>
      simp [follows, add_mul, mul_assoc, fun path ↦ hpath path rfl, hnamespace rfl]
    | unitEnd => simp [follows, hunitEnd rfl]
    | namespaceName => simp [follows, fun name ↦ hnamespaceName name rfl]
    | namespaceEnd => simp [follows, hnamespaceEnd rfl]
    | groupName => simp [follows, fun name ↦ hgroupName name rfl]
    | groupEnd name span => simp [follows, hgroupEnd name span rfl]
    | testType => simp [follows, fun name ↦ htype name rfl]
    | arrow owner => simp [follows, harrow owner rfl]
    | methodName owner => simp [follows, fun name ↦ hmethod owner name rfl]
    | signature test => simp [follows, afterSignature, hopenTypes test rfl, hnoTypes test rfl]
    | parameter test before =>
      simp [follows, hnoType test before rfl, fun name ↦ htypeName test before name rfl]
    | parameterEnd test before =>
      simp [follows, afterPart, hcommaType test before rfl, hlastType test before rfl]
    | testColon test => simp [follows, afterSignature, hentries test rfl]
    | entry test => simp [follows, hcase test rfl, hon test rfl]
    | activatorEnd test => simp [follows, afterSignature, hactivated test rfl]
    | caseOpen test => simp [follows, harguments test rfl]
    | value p => exact absurd rfl (hvalue p)
    | valueEnd p => simp [follows, hcomma p rfl, hclose p rfl]
    | callType p span =>
      simp [follows, add_mul, fun name ↦ htypeName' p span name rfl, hcall p span rfl]
    | callOpen p span type => simp [follows, hcall' p span type rfl]
    | verdict test arguments =>
      simp [follows, afterArguments, add_mul, hexpect test arguments rfl,
        hthrows test arguments rfl]
    | expectation test arguments channel => exact absurd rfl (hexpectation test arguments channel)
    | caseEnd test => simp [follows, afterCase, hnextCase test rfl, hlastCase test rfl]

/-- Reading tokens takes the left quotient by them. If the grammar forbids them, it is because of one
of them, and of none in front of it; what follows that one makes no difference. -/
theorem follows_of_foldlM (loader : Loader) (tokens : List Token) (d : Draft) :
    match (tokens.foldlM (step loader) q).run d with
    | (.ok q', _) => q'.follows = q.follows.leftQuotient (tokens.map Token.kind)
    | (.error e, d') => ∀ wanted, e.problem = .grammar wanted →
      ∃ before t after, tokens = before ++ t :: after ∧ e.span = t.span ∧
        (∀ rest, ((before ++ t :: rest).foldlM (step loader) q).run d = (.error e, d')) ∧
        q.follows.leftQuotient (before.map Token.kind) ≠ 0 ∧
        q.follows.leftQuotient ((before ++ [t]).map Token.kind) = 0 := by
  induction tokens generalizing q d with
  | nil => rfl
  | cons t tokens ih =>
    have hstep := leaves_step (q := q) loader t d
    rcases hr : (q.step loader t).run d with ⟨e | q₁, d₁⟩
    · have hfold : ∀ rest, ((t :: rest).foldlM (step loader) q).run d = (.error e, d₁) := by
        intro rest
        rw [List.foldlM_cons, run_bind, hr]
      rw [hr] at hstep
      rw [hfold]
      intro wanted hwanted
      obtain ⟨hspan, hzero⟩ := hstep wanted hwanted
      exact ⟨[], t, tokens, rfl, hspan, hfold, q.follows_ne_zero, hzero⟩
    -- Behind the first token the quotient is that of the next item by the other tokens.
    · have hfold : ∀ rest,
          ((t :: rest).foldlM (step loader) q).run d = (rest.foldlM (step loader) q₁).run d₁ := by
        intro rest
        rw [List.foldlM_cons, run_bind, hr]
      rw [hr] at hstep
      have hquotient : ∀ ks, q₁.follows.leftQuotient ks = q.follows.leftQuotient (t.kind :: ks) :=
        fun ks ↦ hstep ▸ (leftQuotient_append _ [t.kind] ks).symm
      have hrest := ih (q := q₁) d₁
      simp only [hquotient] at hrest
      rw [hfold]
      generalize (tokens.foldlM (step loader) q₁).run d₁ = r at hrest ⊢
      obtain ⟨e | q', d'⟩ := r
      · intro wanted hwanted
        obtain ⟨before, u, after, rfl, hspan, hrun, hviable, hbreak⟩ := hrest wanted hwanted
        exact ⟨t :: before, u, after, rfl, hspan, fun rest ↦ (hfold _).trans (hrun rest), hviable,
          hbreak⟩
      · exact hrest

end Unfinished

/-! ### The first error -/

namespace Grammar

/-- Some sentence starts with a text. -/
def StartsSentence (ks : List TokenKind) : Prop := ∃ p : Program, ks <+: p.kinds

private theorem startsSentence_iff {ks : List TokenKind} :
    StartsSentence ks ↔ sentences.leftQuotient ks ≠ 0 := by
  rw [ne_zero_iff]
  constructor
  · rintro ⟨p, rest, hp⟩
    exact ⟨rest, p, hp.symm⟩
  · rintro ⟨rest, p, hp⟩
    exact ⟨p, rest, hp.symm⟩

end Grammar

namespace Plan

variable {loader : Loader} {tokens : List Token} {d₀ d : Draft} {e : PlanError} {wanted : Wanted}

/-- A syntax error is at the first token with which the tokens start no sentence, or at the end of
tokens that only start one. -/
theorem first_break_of_read (hread : read loader tokens d₀ = (.error e, d))
    (he : e.problem = .grammar wanted) :
    (∃ before t after, tokens = before ++ t :: after ∧ e.span = t.span ∧
      (∀ rest, read loader (before ++ t :: rest) d₀ = (.error e, d)) ∧
      StartsSentence (before.map Token.kind) ∧
      ¬ StartsSentence ((before ++ [t]).map Token.kind)) ∨
    e.span = endSpan tokens ∧ StartsSentence (tokens.map Token.kind) ∧
      ∀ p : Program, p.kinds ≠ tokens.map Token.kind := by
  have hfollows := Unfinished.follows_of_foldlM (q := .item) loader tokens d₀
  rw [read_eq] at hread
  simp only [startsSentence_iff, ne_eq, not_not]
  generalize (tokens.foldlM (Unfinished.step loader) .item).run d₀ = r at hread hfollows
  obtain ⟨e₁ | q, d₁⟩ := r
  · cases hread
    obtain ⟨before, t, after, htokens, hspan, hrun, hviable, hbreak⟩ := hfollows wanted he
    refine .inl ⟨before, t, after, htokens, hspan, fun rest ↦ ?_, hviable, hbreak⟩
    rw [read_eq, hrun]
  · simp only at hread hfollows
    by_cases hq : q.complete
    · rw [if_pos hq] at hread
      cases hread
    · rw [if_neg hq] at hread
      cases hread
      refine .inr ⟨rfl, hfollows ▸ q.follows_ne_zero, fun p hp ↦ ?_⟩
      have hnil : [] ∈ q.follows := by
        rw [hfollows, mem_leftQuotient, List.append_nil]
        exact ⟨p, hp⟩
      exact hq (Unfinished.nil_mem_follows.mp hnil)

/-- The tokens of `test_group first do`. -/
def groupWithoutEnd : List Token :=
  [⟨.keyword .testGroup, ⟨⟨0, 1, 1⟩, 10⟩⟩, ⟨.identifier "first", ⟨⟨11, 1, 12⟩, 5⟩⟩,
    ⟨.keyword .perform, ⟨⟨17, 1, 18⟩, 2⟩⟩]

/-- A group without its semicolon is an error at the token that follows, and it has to be there:
some sentence starts with the group and its name, and none goes on with `do`. -/
theorem first_break_of_groupWithoutEnd :
    (∃ d, read .standard groupWithoutEnd (.start .initial .empty) =
      (.error ⟨.grammar .groupEnd, ⟨⟨17, 1, 18⟩, 2⟩⟩, d)) ∧
    StartsSentence [.keyword .testGroup, .identifier "first"] ∧
    ¬ StartsSentence [.keyword .testGroup, .identifier "first", .keyword .perform] := by
  have hread : ∃ d, read .standard groupWithoutEnd (.start .initial .empty) =
      (.error ⟨.grammar .groupEnd, ⟨⟨17, 1, 18⟩, 2⟩⟩, d) := ⟨_, rfl⟩
  refine ⟨hread, ?_⟩
  obtain ⟨d, hread⟩ := hread
  obtain ⟨before, t, after, htokens, hspan, -, hstarts, hbreak⟩ | ⟨hspan, -⟩ :=
    first_break_of_read hread rfl
  · -- The span says which token it is.
    obtain _ | ⟨t₁, _ | ⟨t₂, _ | ⟨t₃, before⟩⟩⟩ := before
    · cases htokens
      exact absurd hspan (by decide)
    · cases htokens
      exact absurd hspan (by decide)
    · cases htokens
      exact ⟨hstarts, hbreak⟩
    · simp [groupWithoutEnd] at htokens
  · exact absurd hspan (by decide)

end Plan

end TestDeclaration

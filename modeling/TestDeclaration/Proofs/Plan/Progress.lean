import Mathlib.Data.List.Perm.Subperm
import TestDeclaration.Proofs.Plan.Descent
import TestDeclaration.Proofs.Plan.Values

/-!
# Progress of a descent

A log shows progress if the heads of loops, and the calls for arguments, stand at cursors that
grow. It goes on showing progress as long as a token is passed between two of them. What is left to
be proved of a procedure is put as a judgement: from some walk it ends, and either its result and
the walk behind it have some property, or it fails with the error that the source has.
-/

namespace TestDeclaration

open Text Drafting

/-! ### Logs -/

/-- A log shows progress up to some cursor over `n` tokens. -/
structure Progress (n cursor : Nat) (log : List Event) : Prop where
  inside : cursor ≤ n
  /-- The cursor is moved by the tokens that are passed, and by nothing else. -/
  passed : log.countP (·.mark == .pass) = cursor
  reached : ∀ e ∈ log, e.cursor ≤ cursor
  passes : ∀ e ∈ log, e.mark = .pass → e.cursor < n
  heads : log.Pairwise fun e e' ↦
    e.mark.isHead = true → e'.mark.isHead = true → e.cursor < e'.cursor
  calls : log.Pairwise fun e e' ↦ e.mark = .arguments → e'.mark = .arguments → e.cursor < e'.cursor
  entered : log.head? = some ⟨.enter, 0⟩

/-- Nothing has been done yet where a walk is. -/
def Walk.Fresh (w : Walk) : Prop := ∀ e ∈ w.log, e.cursor < w.cursor

namespace Progress

variable {n c : Nat} {log : List Event} {w : Walk}

/-- The log of a descent that has entered its first loop. -/
theorem entrance (n : Nat) : Progress n 0 [⟨.enter, 0⟩] where
  inside := Nat.zero_le n
  passed := rfl
  reached := List.forall_mem_singleton.mpr (Nat.le_refl 0)
  passes := List.forall_mem_singleton.mpr nofun
  heads := List.pairwise_singleton _ _
  calls := List.pairwise_singleton _ _
  entered := rfl

/-- Cursors that grow go on growing if the events that count are no passing of a token. -/
theorem pairwise_snoc {p : Mark → Prop} {mark : Mark} (hp : ¬ p .pass)
    (hlog : log.Pairwise fun e e' ↦ p e.mark → p e'.mark → e.cursor < e'.cursor)
    (hfresh : mark ≠ .pass → ∀ e ∈ log, e.cursor < c) :
    List.Pairwise (fun e e' : Event ↦ p e.mark → p e'.mark → e.cursor < e'.cursor)
      (log ++ [⟨mark, c⟩]) := by
  refine List.pairwise_append.mpr ⟨hlog, List.pairwise_singleton _ _, ?_⟩
  rintro e he e' he' - hmark
  rw [List.mem_singleton.mp he'] at hmark ⊢
  exact hfresh (by rintro rfl; exact hp hmark) e he

/-- One more event is progress if a token is passed, or if nothing else was done at the cursor. -/
theorem snoc {c' : Nat} {mark : Mark} (hlog : Progress n c log) (hc : c ≤ c') (hn : c' ≤ n)
    (hpassed : List.countP (fun e : Event ↦ e.mark == .pass) (log ++ [⟨mark, c⟩]) = c')
    (hpass : mark = .pass → c < n)
    (hfresh : mark ≠ .pass → ∀ e ∈ log, e.cursor < c) : Progress n c' (log ++ [⟨mark, c⟩]) where
  inside := hn
  passed := hpassed
  reached :=
    List.forall_mem_append.mpr ⟨fun e he ↦ Nat.le_trans (hlog.reached e he) hc,
      List.forall_mem_singleton.mpr hc⟩
  passes := List.forall_mem_append.mpr ⟨hlog.passes, List.forall_mem_singleton.mpr hpass⟩
  heads := pairwise_snoc (p := (·.isHead = true)) (by decide) hlog.heads hfresh
  calls := pairwise_snoc (p := (· = .arguments)) (by decide) hlog.calls hfresh
  entered := by
    rw [List.head?_append, hlog.entered]
    rfl

/-- A token can be passed if there is one. -/
theorem pass (hw : Progress n w.cursor w.log) (hn : w.cursor < n) :
    Progress n w.pass.cursor w.pass.log := by
  refine hw.snoc (Nat.le_succ _) hn ?_ (fun _ ↦ hn) fun h ↦ absurd rfl h
  rw [List.countP_append, hw.passed]
  rfl

/-- Something else can be done where nothing has been done yet. -/
theorem note (hw : Progress n w.cursor w.log) (hf : w.Fresh) {mark : Mark} (hm : mark ≠ .pass) :
    Progress n (w.note mark).cursor (w.note mark).log := by
  refine hw.snoc (Nat.le_refl _) hw.inside ?_ (absurd · hm) fun _ ↦ hf
  rw [List.countP_append, hw.passed, List.countP_singleton, beq_eq_false_iff_ne.mpr hm]
  rfl

/-- A walk that has just passed a token is fresh. -/
theorem fresh_pass (hw : Progress n w.cursor w.log) : w.pass.Fresh := by
  intro e he
  rcases List.mem_append.mp he with he | he
  · exact Nat.lt_succ_of_le (hw.reached e he)
  · rw [List.mem_singleton.mp he]
    exact Nat.lt_succ_self _

/-- There are at most as many heads of loops as there are tokens, and one for each loop. -/
theorem countP_isHead_le (hlog : Progress n c log) :
    log.countP (·.mark.isHead) ≤ n + log.countP (·.mark == .enter) := by
  let cursors := (log.filter (·.mark.isHead)).map Event.cursor
  have hsorted : cursors.Pairwise (· < ·) := by
    refine List.pairwise_map.mpr (List.pairwise_filter.mpr ?_)
    exact hlog.heads.imp fun h he he' ↦ h he he'
  have hrange : cursors ⊆ List.range (n + 1) := by
    intro c hc
    obtain ⟨e, he, rfl⟩ := List.mem_map.mp hc
    have hle := hlog.reached e (List.mem_filter.mp he).1
    exact List.mem_range.mpr (Nat.lt_succ_of_le (Nat.le_trans hle hlog.inside))
  have hheads : log.countP (·.mark.isHead) ≤ n + 1 := by
    have hnodup : cursors.Nodup := hsorted.imp Nat.ne_of_lt
    have hle := (List.subperm_of_subset hnodup hrange).length_le
    rwa [List.length_map, List.length_range, ← List.countP_eq_length_filter] at hle
  have henter : 0 < log.countP (·.mark == .enter) :=
    List.countP_pos_iff.mpr ⟨_, List.mem_of_mem_head? hlog.entered, rfl⟩
  omega

end Progress

/-! ### What an item can go on with -/

namespace Place

variable {p : Place} {span : Span} {token : Token}

/-- Only a list can be closed. -/
theorem close_of_not_listed (hp : ¬ p.Listed) (wanted : Wanted) :
    p.close span wanted = fail (.grammar wanted) span := by
  rcases p with ⟨test, _ | before | _, _ | ⟨call, outer⟩⟩
  case activator.nil | expected.nil => rfl
  all_goals exact absurd trivial hp

/-- The tokens that a value can begin with, and the one that ends a list instead. -/
def Takes (p : Place) (k : TokenKind) : Prop :=
  (∃ value, k = .literal value) ∨ (∃ name, k = .identifier name) ∨ k = .keyword .create ∨
    k = .symbol .rightParen ∧ p.Listed

private theorem begin_of_not_takes (hp : ¬ p.Takes token.kind) :
    p.begin token = fail (.grammar .value) token.span := by
  unfold begin
  split
  · next hk => exact absurd (.inl ⟨_, hk⟩) hp
  · next hk => exact absurd (.inr (.inl ⟨_, hk⟩)) hp
  · next hk => exact absurd (.inr (.inr (.inl hk))) hp
  · next hk => exact close_of_not_listed (fun h ↦ hp (.inr (.inr (.inr ⟨hk, h⟩)))) .value
  · rfl

end Place

namespace Unfinished

variable {loader : Loader} {q : Unfinished} {token : Token}

/-- The tokens that an item can go on with. -/
def Takes : Unfinished → TokenKind → Prop
  | .item, k => k = .keyword .use ∨ k = .keyword .testGroup ∨ k = .keyword .perform
  | .unitPath, k => (∃ path, k = .literal (.string path)) ∨ k = .keyword .inNamespace
  | .unitEnd, k | .namespaceEnd, k | .groupEnd .., k => k = .symbol .semicolon
  | .namespaceName, k | .groupName, k | .testType, k | .methodName _, k =>
    ∃ name, k = .identifier name
  | .arrow _, k => k = .symbol .arrow
  | .signature _, k => k = .symbol .leftParen ∨ k = .symbol .colon
  | .parameter .., k => k = .symbol .rightParen ∨ ∃ name, k = .identifier name
  | .parameterEnd .., k | .valueEnd _, k => k = .symbol .comma ∨ k = .symbol .rightParen
  | .testColon _, k | .activatorEnd _, k => k = .symbol .colon
  | .entry _, k => k = .keyword .testCase ∨ k = .keyword .onTarget
  | .caseOpen _, k | .callOpen .., k => k = .symbol .leftParen
  | .value p, k => p.Takes k
  | .callType .., k => (∃ name, k = .identifier name) ∨ k = .symbol .leftParen
  | .verdict .., k => k = .keyword .expect ∨ k = .keyword .throws
  | .expectation test arguments channel, k =>
    k = .symbol .tilde ∨ Place.Takes ⟨test, .expected arguments channel false, []⟩ k
  | .caseEnd _, k => k = .symbol .comma ∨ k = .symbol .semicolon

/-- Without a tilde, an expected value is compared exactly. -/
theorem step_expectation {test : OpenTest} {arguments : List Value} {channel : Channel}
    (hk : token.kind ≠ .symbol .tilde) :
    step loader (.expectation test arguments channel) token =
      step loader (.value ⟨test, .expected arguments channel false, []⟩) token := by
  obtain ⟨kind, span⟩ := token
  cases kind with
  | symbol sym =>
    cases sym
    case tilde => exact absurd rfl hk
    all_goals rfl
  | identifier | keyword | literal => rfl

/-- Any other token breaks the grammar. -/
theorem step_of_not_takes (hq : ¬ q.Takes token.kind) :
    q.step loader token = fail (.grammar q.wanted) token.span := by
  obtain ⟨kind, span⟩ := token
  cases q with
  | value p => exact Place.begin_of_not_takes hq
  | expectation test arguments channel =>
    obtain ⟨htilde, hplace⟩ := not_or.mp hq
    rw [step_expectation htilde]
    exact Place.begin_of_not_takes hplace
  | _ =>
    -- Either the token breaks the grammar, or the item takes it.
    cases kind with
    | identifier name => first | rfl | simp [Takes] at hq
    | keyword k => cases k <;> first | rfl | simp [Takes] at hq
    | symbol sym => cases sym <;> first | rfl | simp [Takes] at hq
    | literal value => cases value <;> first | rfl | simp [Takes] at hq

end Unfinished

/-! ### What is left of a source -/

namespace Plan

/-- Read the tokens from some cursor on, with an item that the tokens in front of it leave. -/
def readOn (loader : Loader) (tokens : List Token) (c : Nat) (q : Unfinished) : Drafting Plan := do
  let q ← (tokens.drop c).foldlM (Unfinished.step loader) q
  if q.complete then return (← get).plan
  else Drafting.fail (.grammar q.wanted) (endSpan tokens)

end Plan

/-- A source, and what comes of reading it. -/
structure ReadSource extends Source where
  outcome : Except PlanError Plan × Draft

namespace ReadSource

/-- A step of drafting is due, and what the tokens from some cursor on make of the item that it
leaves is what comes of the source. -/
def Remains (s : ReadSource) (x : Drafting Unfinished) (c : Nat) (d : Draft) : Prop :=
  (x >>= Plan.readOn s.loader s.tokens c).run d = s.outcome

variable {s : ReadSource} {q q' : Unfinished} {x : Drafting Unfinished} {c : Nat} {d : Draft}
  {token : Token}

/-- An item takes the token at the cursor. -/
theorem remains_step (ht : s.tokens[c]? = some token) :
    s.Remains (pure q) c d ↔ s.Remains (q.step s.loader token) (c + 1) d := by
  obtain ⟨hc, rfl⟩ := List.getElem?_eq_some_iff.mp ht
  have hread : Plan.readOn s.loader s.tokens c q =
      q.step s.loader s.tokens[c] >>= Plan.readOn s.loader s.tokens (c + 1) := by
    rw [Plan.readOn, List.drop_eq_getElem_cons hc, List.foldlM_cons, bind_assoc]
    rfl
  rw [Remains, pure_bind, hread]
  rfl

/-- Behind the last token, it is told from an item what comes of the source. -/
theorem remains_end (ht : s.tokens[c]? = none) : s.Remains (pure q) c d ↔
    (if q.complete then (.ok d.plan, d)
      else (.error ⟨.grammar q.wanted, Plan.endSpan s.tokens⟩, d)) = s.outcome := by
  rw [Remains, pure_bind, Plan.readOn, List.drop_eq_nil_of_le (List.getElem?_eq_none_iff.mp ht),
    List.foldlM_nil, pure_bind]
  cases q.complete <;> rfl

private theorem remains_bind {α : Type} {y : Drafting α} {f : α → Drafting Unfinished}
    (hr : s.Remains (y >>= f) c d) : match y.run d with
      | (.ok a, d') => s.Remains (f a) c d'
      | (.error e, d') => s.outcome = (.error e, d') := by
  rw [Remains, bind_assoc, run_bind] at hr
  generalize y.run d = p at hr ⊢
  obtain ⟨e | a, d'⟩ := p
  · exact hr.symm
  · exact hr

/-- Items that go on alike can stand for each other. -/
theorem Remains.congr (hr : s.Remains (pure q) c d)
    (hstep : ∀ token, s.tokens[c]? = some token → q.step s.loader token = q'.step s.loader token)
    (hwanted : q.wanted = q'.wanted) (hcomplete : q.complete = q'.complete) :
    s.Remains (pure q') c d := by
  cases ht : s.tokens[c]? with
  | some token =>
    rw [remains_step ht] at hr ⊢
    rwa [← hstep token ht]
  | none =>
    rw [remains_end ht] at hr ⊢
    rwa [← hwanted, ← hcomplete]

/-- An item that cannot go on decides what comes of the source: a break of the grammar. -/
theorem Remains.stuck (hr : s.Remains (pure q) c d)
    (hend : s.tokens[c]? = none → q.complete = false)
    (hno : ∀ token, s.tokens[c]? = some token → ¬ q.Takes token.kind) :
    s.outcome = (.error ⟨.grammar q.wanted, s.place s.tokens[c]?⟩, d) := by
  cases ht : s.tokens[c]? with
  | some token =>
    rw [remains_step ht, Unfinished.step_of_not_takes (hno token ht)] at hr
    exact hr.symm
  | none =>
    rw [remains_end ht, hend ht] at hr
    exact hr.symm

/-! ### Descents that end -/

/-- A part of a descent ends. Either its result and the walk behind it have some property, or it
fails with the error that comes of the source. -/
def Leads (s : ReadSource) {α : Type} (x : Descent α) (w : Walk) (post : α → Walk → Prop) : Prop :=
  ∃ r w', x.run w = some (r, w') ∧ match r with
    | .ok a => post a w'
    | .error e => Progress s.tokens.length w'.cursor w'.log ∧
        ∃ e', e = .problem e' ∧ s.outcome = (.error e', w'.draft)

namespace Leads

variable {α β : Type} {y : Descent α} {f : α → Descent β} {w : Walk} {post : α → Walk → Prop}
  {post' : β → Walk → Prop} {a : α}

/-- Returning leads to where it starts. -/
theorem pure (h : post a w) : s.Leads (Pure.pure a) w post := ⟨.ok a, w, rfl, h⟩

/-- What a procedure leads to can be weakened. -/
theorem mono {post' : α → Walk → Prop} (hy : s.Leads y w post)
    (h : ∀ a w', post a w' → post' a w') : s.Leads y w post' := by
  obtain ⟨r, w', hrun, hpost⟩ := hy
  refine ⟨r, w', hrun, ?_⟩
  cases r with
  | ok a => exact h a w' hpost
  | error e => exact hpost

/-- What leads on from every result of the first part leads on from the whole. -/
theorem bind (hy : s.Leads y w post) (hf : ∀ a w', post a w' → s.Leads (f a) w' post') :
    s.Leads (y >>= f) w post' := by
  obtain ⟨r, w', hrun, hpost⟩ := hy
  have hbind : (y >>= f).run w = (y.run w).bind fun p ↦ ExceptT.bindCont f p.1 p.2 := rfl
  cases r with
  | error e => exact ⟨.error e, w', by rw [hbind, hrun]; rfl, hpost⟩
  | ok a =>
    obtain ⟨r, w'', hrun', hpost'⟩ := hf a w' hpost
    exact ⟨r, w'', by rw [hbind, hrun]; exact hrun', hpost'⟩

/-- Looking at the walk leaves it as it is. -/
theorem get_bind {f : Walk → Descent β} (hf : s.Leads (f w) w post') :
    s.Leads (get >>= f) w post' := hf

/-- Looking at the current token leaves the walk as it is. -/
theorem current_bind {f : Option Token → Descent β} (hf : s.Leads (f s.tokens[w.cursor]?) w post') :
    s.Leads (s.current >>= f) w post' := hf

/-- The cursor passes one token. -/
theorem advance {post : Unit → Walk → Prop} (h : post () w.pass) :
    s.Leads Descent.advance w post := ⟨.ok (), w.pass, rfl, h⟩

/-- What follows goes on behind the token that was passed. -/
theorem advance_bind {f : Unit → Descent β} (hf : s.Leads (f ()) w.pass post') :
    s.Leads (Descent.advance >>= f) w post' := hf

/-- A mark is noted on the way. -/
theorem note_bind {mark : Mark} {f : Unit → Descent β} (hf : s.Leads (f ()) (w.note mark) post') :
    s.Leads (Descent.note mark >>= f) w post' := hf

/-- A check for a kind of token goes by the current token. -/
theorem check_bind {kind : TokenKind} {f : Bool → Descent β}
    (hyes : ∀ span, s.tokens[w.cursor]? = some ⟨kind, span⟩ → s.Leads (f true) w post')
    (hno : (∀ token, s.tokens[w.cursor]? = some token → token.kind ≠ kind) →
      s.Leads (f false) w post') :
    s.Leads (s.check kind >>= f) w post' := by
  change s.Leads (f (s.tokens[w.cursor]?.any fun t ↦ t.kind == kind)) w post'
  cases ht : s.tokens[w.cursor]? with
  | none => exact hno fun token h ↦ nomatch ht.symm.trans h
  | some token =>
    rw [Option.any_some]
    by_cases hk : token.kind = kind
    · rw [hk, beq_self_eq_true]
      subst hk
      exact hyes token.span ht
    · rw [beq_eq_false_iff_ne.mpr hk]
      exact hno fun _ h ↦ Option.some.inj (ht.symm.trans h) ▸ hk

/-- A check for an identifier goes by the current token. -/
theorem checkIdentifier_bind {f : Bool → Descent β}
    (hyes : ∀ name span, s.tokens[w.cursor]? = some ⟨.identifier name, span⟩ →
      s.Leads (f true) w post')
    (hno : (∀ name span, s.tokens[w.cursor]? ≠ some ⟨.identifier name, span⟩) →
      s.Leads (f false) w post') :
    s.Leads (s.checkIdentifier >>= f) w post' := by
  have hcheck : s.Leads s.checkIdentifier w fun b w' ↦ w' = w ∧ s.Leads (f b) w post' := by
    refine .current_bind ?_
    split
    · next name span ht => exact .pure ⟨rfl, hyes name span ht⟩
    · next hname => exact .pure ⟨rfl, hno hname⟩
  refine hcheck.bind ?_
  rintro b _ ⟨rfl, hb⟩
  exact hb

/-- A step of drafting that is due is done. -/
theorem draft {x : Drafting α} {k : α → Drafting Unfinished}
    (hp : Progress s.tokens.length w.cursor w.log) (hr : s.Remains (x >>= k) c w.draft) :
    s.Leads (Descent.draft x) w fun a w' ↦
      ∃ d, w' = { w with draft := d } ∧ s.Remains (k a) c d := by
  have hrun : (Descent.draft x).run w =
      (MonadExcept.ofExcept ((x.run w.draft).1.mapError .problem) : Descent α).run
        { w with draft := (x.run w.draft).2 } := rfl
  have hrest := remains_bind hr
  generalize x.run w.draft = p at hrun hrest
  obtain ⟨e | a, d⟩ := p
  · exact ⟨_, _, hrun, hp, e, rfl, hrest⟩
  · exact ⟨_, _, hrun, d, rfl, hrest⟩

/-- A descent fails where an item cannot go on. -/
theorem fail {wanted : Wanted} (hp : Progress s.tokens.length w.cursor w.log)
    (hr : s.Remains (Pure.pure q) w.cursor w.draft) (hwanted : q.wanted = wanted)
    (hend : s.tokens[w.cursor]? = none → q.complete = false)
    (hno : ∀ token, s.tokens[w.cursor]? = some token → ¬ q.Takes token.kind) :
    s.Leads (s.fail wanted) w post := by
  subst hwanted
  exact ⟨_, w, rfl, hp, _, rfl, hr.stuck hend hno⟩

end Leads

/-- A walk has come to some cursor or behind it, and its log shows progress. -/
structure Reached (s : ReadSource) (c : Nat) (w : Walk) : Prop where
  progress : Progress s.tokens.length w.cursor w.log
  le : c ≤ w.cursor

/-- A walk has passed the token at some cursor, and has done nothing else since it passed the last
token. -/
structure Past (s : ReadSource) (c : Nat) (w : Walk) : Prop where
  progress : Progress s.tokens.length w.cursor w.log
  lt : c < w.cursor
  fresh : w.Fresh

variable {w : Walk}

namespace Reached

/-- A walk has reached where it is. -/
theorem self (hw : s.Reached c w) : s.Reached w.cursor w := ⟨hw.progress, Nat.le_refl _⟩

/-- The draft has no part in how far a walk has come. -/
theorem withDraft (hw : s.Reached c w) (d : Draft) : s.Reached c { w with draft := d } :=
  ⟨hw.progress, hw.le⟩

/-- Passing a token leads past the place that was reached. -/
theorem pass (hw : s.Reached c w) (ht : s.tokens[w.cursor]? = some token) : s.Past c w.pass where
  progress := hw.progress.pass (List.getElem?_eq_some_iff.mp ht).1
  lt := Nat.lt_succ_of_le hw.le
  fresh := hw.progress.fresh_pass

end Reached

namespace Past

/-- What is past a place has reached it. -/
theorem reached (hw : s.Past c w) : s.Reached c w := ⟨hw.progress, Nat.le_of_lt hw.lt⟩

/-- The draft has no part in what a walk has passed. -/
theorem withDraft (hw : s.Past c w) (d : Draft) : s.Past c { w with draft := d } :=
  ⟨hw.progress, hw.lt, hw.fresh⟩

/-- What is past a place is past every earlier one. -/
theorem mono {c' : Nat} (hw : s.Past c w) (hc : c' ≤ c) : s.Past c' w :=
  ⟨hw.progress, Nat.lt_of_le_of_lt hc hw.lt, hw.fresh⟩

/-- Between two heads of loops, or two calls for arguments, a token is passed. -/
theorem note (hw : s.Past c w) (mark : Mark) (hm : mark ≠ .pass) : s.Reached c (w.note mark) :=
  ⟨hw.progress.note hw.fresh hm, Nat.le_of_lt hw.lt⟩

end Past

/-! ### Single tokens -/

/-- Where a walk is, an item is left that can go on with one symbol only, by some step of
drafting. -/
structure Awaits (s : ReadSource) (q : Unfinished) (sym : Symbol) (wanted : Wanted)
    (x : Drafting Unfinished) (w : Walk) : Prop where
  remains : s.Remains (pure q) w.cursor w.draft
  incomplete : q.complete = false
  wants : q.wanted = wanted
  step : ∀ span, q.step s.loader ⟨.symbol sym, span⟩ = x
  only : ∀ token, s.tokens[w.cursor]? = some token → q.Takes token.kind → token.kind = .symbol sym

/-- A symbol that is awaited is passed, or its lack is the problem of the reader. -/
theorem leads_consumeSymbol {sym : Symbol} {wanted : Wanted} (hw : s.Reached c w)
    (hq : s.Awaits q sym wanted x w) :
    s.Leads (s.consumeSymbol sym wanted) w fun _ w' ↦
      s.Past c w' ∧ s.Remains x w'.cursor w'.draft := by
  have hr := hq.remains
  refine .check_bind (fun span ht ↦ ?_) fun hno ↦ ?_
  · rw [remains_step ht, hq.step] at hr
    exact .advance ⟨hw.pass ht, hr⟩
  · exact .fail hw.progress hr hq.wants (fun _ ↦ hq.incomplete) fun token ht htakes ↦
      hno token ht (hq.only token ht htakes)

/-- An identifier that is awaited is passed, or its lack is the problem of the reader. -/
theorem leads_consumeIdentifier {wanted : Wanted} {f : String → Span → Drafting Unfinished}
    (hw : s.Reached c w) (hr : s.Remains (pure q) w.cursor w.draft) (hq : q.complete = false)
    (hwanted : q.wanted = wanted)
    (hstep : ∀ name span, q.step s.loader ⟨.identifier name, span⟩ = f name span)
    (honly : ∀ token, s.tokens[w.cursor]? = some token → q.Takes token.kind →
      ∃ name, token.kind = .identifier name) :
    s.Leads (s.consumeIdentifier wanted) w fun a w' ↦
      s.Past c w' ∧ s.Remains (f a.1 a.2) w'.cursor w'.draft := by
  refine .current_bind ?_
  split
  · next name span ht =>
    rw [remains_step ht, hstep] at hr
    exact .advance_bind (.pure ⟨hw.pass ht, hr⟩)
  · next hno =>
    refine .fail hw.progress hr hwanted (fun _ ↦ hq) ?_
    rintro ⟨kind, span⟩ ht htakes
    obtain ⟨name, hk⟩ := honly _ ht htakes
    cases hk
    exact hno name span ht

/-- Behind the last token that was passed, a step of drafting that is due is done. -/
theorem leads_draft {α : Type} {y : Drafting α} {k : α → Drafting Unfinished} (hw : s.Past c w)
    (hr : s.Remains (y >>= k) w.cursor w.draft) :
    s.Leads (Descent.draft y) w fun a w' ↦
      s.Past c w' ∧ s.Remains (k a) w'.cursor w'.draft := by
  refine (Leads.draft hw.progress hr).mono ?_
  rintro a _ ⟨d, rfl, hr'⟩
  exact ⟨hw.withDraft d, hr'⟩

/-- Behind a comma a list goes on, and in front of its end it can be ended as if it went on. -/
theorem leads_listSeparator (q' : Unfinished) (hw : s.Past c w)
    (hr : s.Remains (pure q) w.cursor w.draft) (hq : q.complete = false)
    (hwanted : q.wanted = .separator)
    (honly : ∀ k, q.Takes k → k = .symbol .comma ∨ k = .symbol .rightParen)
    (hcomma : ∀ span, q.step s.loader ⟨.symbol .comma, span⟩ = pure q')
    (hclose : ∀ span, q.step s.loader ⟨.symbol .rightParen, span⟩ =
      q'.step s.loader ⟨.symbol .rightParen, span⟩) :
    s.Leads s.listSeparator w fun _ w' ↦
      s.Past c w' ∧ s.Remains (pure q') w'.cursor w'.draft := by
  refine .check_bind (fun span ht ↦ ?_) fun hnoComma ↦
    .check_bind (fun span ht ↦ ?_) fun hnoClose ↦ ?_
  · rw [remains_step ht, hcomma] at hr
    exact .advance ⟨hw.reached.pass ht, hr⟩
  · refine .pure ⟨hw, ?_⟩
    rw [remains_step ht] at hr ⊢
    rwa [← hclose]
  · exact .fail hw.progress hr hwanted (fun _ ↦ hq) fun token ht htakes ↦
      (honly _ htakes).elim (hnoComma token ht) (hnoClose token ht)

end ReadSource

end TestDeclaration

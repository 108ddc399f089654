import TestDeclaration.Proofs.Plan.Progress

/-!
# A descent ends

The procedures of a descent are followed one by one. Where each begins, some item of the reader is
left; what the procedure does to the draft is what the reader does to it, up to the item that is
left where the procedure ends. Loops, and calls for arguments inside calls, go on behind the token
where they began only, so they are inductions on the tokens that are left. A descent thus comes to
what the reader comes to.
-/

namespace TestDeclaration

open Text Drafting

/-- What holds at a walk if it holds at all walks further on, up to the end of the tokens, holds at
every walk. -/
theorem Walk.induction {motive : Walk → Prop} (n : Nat)
    (step : ∀ w : Walk, (∀ w' : Walk, w.cursor < w'.cursor → w'.cursor ≤ n → motive w') → motive w)
    (w : Walk) : motive w := by
  induction hn : n - w.cursor using Nat.strongRecOn generalizing w with
  | ind m ih =>
    refine step w fun w' hlt hle ↦ ih (n - w'.cursor) ?_ w' rfl
    omega

namespace Place

variable {p : Place} {span span' : Span}

/-- In a list, it does not matter where the list is ended. -/
theorem Listed.close_eq (hp : p.Listed) (wanted wanted' : Wanted) :
    p.close span wanted = p.close span' wanted' := by
  rcases p with ⟨test, _ | before | _, _ | ⟨call, outer⟩⟩
  case activator.nil | expected.nil => exact absurd hp id
  all_goals rfl

/-- A value of a list is made at once. -/
theorem Listed.fill_eq (hp : p.Listed) (e : Expression) :
    p.fill span e = evaluate e span >>= fun v ↦ pure (.valueEnd (p.add [v])) := by
  rcases p with ⟨test, _ | before | _, _ | ⟨call, outer⟩⟩
  case activator.nil | expected.nil => exact absurd hp id
  all_goals rfl

/-- Where no type stands for its values, it is a value like others. -/
theorem fillType_of_not_strict {t : TypeName} (hp : ¬ p.Strict) :
    p.fillType span t = p.fill span (.value (.type t)) := by
  unfold fillType
  split
  · next arguments channel hw hr =>
    obtain ⟨test, role, within⟩ := p
    cases hw
    cases hr
    exact absurd trivial hp
  · rfl

end Place

namespace ReadSource

variable {s : ReadSource} {q : Unfinished} {c : Nat} {token : Token} {w : Walk} {p : Place}
  {test : OpenTest}

/-! ### Values -/

/-- Where a loop over arguments begins, it reads the rest of a list and its end. -/
def ReadsArguments (s : ReadSource) (w : Walk) : Prop :=
  ∀ ⦃c : Nat⦄ ⦃p : Place⦄ (before : List Value), s.Reached c w → p.Listed →
    s.Remains (pure (.value p)) w.cursor w.draft →
    s.Leads (s.argumentLoop (some p.test.owner) before) w fun vs w' ↦
      ∃ new, vs = before ++ new ∧ s.Past c w' ∧
        ∀ span wanted, s.Remains ((p.add new).close span wanted) w'.cursor w'.draft

/-- A call for arguments passes the parenthesis in front of them before it comes to its loop. -/
theorem leads_arguments (hloop : ∀ w', w.cursor < w'.cursor → s.ReadsArguments w')
    (hw : s.Past c w) (hp : p.Listed) (hq : s.Awaits q .leftParen .openParen (pure (.value p)) w) :
    s.Leads (s.arguments (some p.test.owner)) w fun vs w' ↦
      s.Past c w' ∧ ∀ span wanted, s.Remains ((p.add vs).close span wanted) w'.cursor w'.draft := by
  unfold Source.arguments
  have hawaits : s.Awaits q .leftParen .openParen (pure (.value p)) (w.note .arguments) :=
    ⟨hq.remains, hq.incomplete, hq.wants, hq.step, hq.only⟩
  refine .note_bind ((leads_consumeSymbol (hw.note .arguments (by decide)).self hawaits).bind ?_)
  rintro _ w₁ ⟨hw₁, hr₁⟩
  have hlt : w.cursor < w₁.cursor := hw₁.lt
  refine .note_bind ((hloop (w₁.note .enter) hlt [] (hw₁.note .enter (by decide)) hp hr₁).mono ?_)
  rintro _ w' ⟨new, rfl, hw', hr'⟩
  exact ⟨hw'.mono (Nat.le_of_lt hw.lt), hr'⟩

/-- A constructor call names its type, or it is of the type that is tested. -/
theorem leads_createdType {span : Span} (hw : s.Past c w)
    (hr : s.Remains (pure (.callType p span)) w.cursor w.draft) :
    s.Leads (s.createdType (some p.test.owner)) w fun type w' ↦
      s.Past c w' ∧
        ∃ q, s.Awaits q .leftParen .openParen (pure (.value (p.inCall span type))) w' := by
  refine .current_bind ?_
  split
  · next name nameSpan _ ht =>
    rw [remains_step ht] at hr
    refine (Leads.draft hw.progress hr).bind ?_
    rintro type _ ⟨d, rfl, hr⟩
    have hw' : s.Past c (Walk.pass { w with draft := d }) := (hw.withDraft d).reached.pass ht
    have hq : s.Awaits (.callOpen p span type) .leftParen .openParen
        (pure (.value (p.inCall span type))) (Walk.pass { w with draft := d }) :=
      ⟨hr, rfl, rfl, fun _ ↦ rfl, fun _ _ ↦ id⟩
    exact .advance_bind (.pure ⟨hw', _, hq⟩)
  · next owner howner hno =>
    cases howner
    refine .pure ⟨hw, .callType p span, hr, rfl, rfl, fun _ ↦ rfl, ?_⟩
    rintro ⟨kind, _⟩ ht htakes
    refine htakes.resolve_left ?_
    rintro ⟨name, hk⟩
    cases hk
    exact hno name _ ht
  · next hnone _ => cases hnone

/-- A value goes to its place. -/
theorem leads_valueExpression (hloop : ∀ w', w.cursor < w'.cursor → s.ReadsArguments w')
    (hw : s.Reached c w) (hr : s.Remains (pure (.value p)) w.cursor w.draft)
    (hclose : p.Listed → ∀ token, s.tokens[w.cursor]? = some token →
      token.kind ≠ .symbol .rightParen)
    (hstrict : p.Strict → ∀ name span, s.tokens[w.cursor]? ≠ some ⟨.identifier name, span⟩) :
    s.Leads (s.valueExpression (some p.test.owner)) w fun e w' ↦
      s.Past c w' ∧ s.Remains (p.fill (s.place s.tokens[w.cursor]?) e) w'.cursor w'.draft := by
  unfold Source.valueExpression
  refine .current_bind ?_
  split
  · next value span ht =>
    rw [remains_step ht] at hr
    rw [ht]
    exact .advance_bind (.pure ⟨hw.pass ht, hr⟩)
  · next name span ht =>
    rw [remains_step ht] at hr
    have hn : ¬ p.Strict := fun h ↦ hstrict h name span ht
    have hr : s.Remains (type name span >>= fun t ↦ p.fill span (.value (.type t)))
        (w.cursor + 1) w.draft := by
      simp only [← Place.fillType_of_not_strict hn]
      exact hr
    refine (Leads.draft hw.progress hr).bind ?_
    rintro t _ ⟨d, rfl, hr⟩
    rw [ht]
    exact .advance_bind (.pure ⟨(hw.withDraft d).pass ht, hr⟩)
  · next span ht =>
    rw [remains_step ht] at hr
    rw [ht]
    refine .advance_bind ((leads_createdType (hw.self.pass ht) hr).bind ?_)
    rintro type w₁ ⟨hw₁, q, hq⟩
    have hloop₁ : ∀ w', w₁.cursor < w'.cursor → s.ReadsArguments w' :=
      fun w' h ↦ hloop w' (Nat.lt_trans hw₁.lt h)
    have hcall : (p.inCall span type).Listed := trivial
    refine (leads_arguments hloop₁ (hw₁.mono hw.le) hcall hq).bind ?_
    rintro vs w₂ ⟨hw₂, hr₂⟩
    -- The end of the arguments makes the call a value of the place around it.
    have hr₂ : s.Remains (orFail (w₂.draft.library.constructor? type (vs.map Value.typeName))
        (.unknownConstructor type) span >>= fun constructor ↦
          p.fill span (.construct constructor vs)) w₂.cursor w₂.draft := hr₂ span .value
    refine .get_bind ((leads_draft hw₂ hr₂).bind ?_)
    rintro constructor w₃ ⟨hw₃, hr₃⟩
    exact .pure ⟨hw₃, hr₃⟩
  · next hliteral hname hcreate =>
    refine .fail hw.progress hr rfl (fun _ ↦ rfl) ?_
    rintro ⟨kind, span⟩ ht (⟨value, rfl⟩ | ⟨name, rfl⟩ | rfl | ⟨rfl, hp⟩)
    · exact hliteral value span ht
    · exact hname name span ht
    · exact hcreate span ht
    · exact hclose hp _ ht rfl

/-- A value that is made at once goes to its place. -/
theorem leads_value {k : Value → Drafting Unfinished}
    (hloop : ∀ w', w.cursor < w'.cursor → s.ReadsArguments w')
    (hw : s.Reached c w) (hr : s.Remains (pure (.value p)) w.cursor w.draft)
    (hclose : p.Listed → ∀ token, s.tokens[w.cursor]? = some token →
      token.kind ≠ .symbol .rightParen)
    (hstrict : p.Strict → ∀ name span, s.tokens[w.cursor]? ≠ some ⟨.identifier name, span⟩)
    (hfill : ∀ span e, p.fill span e = evaluate e span >>= k) :
    s.Leads (s.value (some p.test.owner)) w fun v w' ↦
      s.Past c w' ∧ s.Remains (k v) w'.cursor w'.draft := by
  unfold Source.value
  refine .current_bind ((leads_valueExpression hloop hw hr hclose hstrict).bind ?_)
  rintro e w' ⟨hw', hr'⟩
  rw [hfill] at hr'
  exact leads_draft hw' hr'

/-- A loop over arguments reads the rest of its list, wherever it begins: a call among the arguments
has its own loop behind a token of this one, and so has the next iteration. -/
theorem readsArguments (s : ReadSource) (w : Walk) : s.ReadsArguments w := by
  induction w using Walk.induction s.tokens.length with
  | step w ih =>
    intro c p before hw hlisted hr
    have hloop : ∀ w', w.cursor < w'.cursor → s.ReadsArguments w' :=
      fun w' hlt _ _ before hw' ↦ ih w' hlt hw'.progress.inside before hw'
    unfold Source.argumentLoop
    refine .check_bind (fun span ht ↦ ?_) fun hno ↦ ?_
    · rw [remains_step ht] at hr
      refine .advance_bind (.pure ⟨[], (List.append_nil _).symm, hw.pass ht, ?_⟩)
      intro span' wanted
      rw [Place.add_nil, hlisted.close_eq wanted .value]
      exact hr
    · refine (leads_value hloop hw.self hr (fun _ ↦ hno) (fun h ↦ absurd h hlisted.not_strict)
        fun span e ↦ hlisted.fill_eq e).bind ?_
      rintro v w₁ ⟨hw₁, hr₁⟩
      refine (leads_listSeparator (.value (p.add [v])) hw₁ hr₁ rfl rfl (fun _ ↦ id)
        (fun _ ↦ rfl) fun span ↦ hlisted.add.close_eq _ _).bind ?_
      rintro _ w₂ ⟨hw₂, hr₂⟩
      have hrest := hloop (w₂.note .again) hw₂.lt (before ++ [v])
        ((hw₂.mono hw.le).note .again (by decide)) hlisted.add hr₂
      rw [Place.test_add] at hrest
      refine .note_bind (hrest.mono ?_)
      rintro _ w' ⟨new, rfl, hw', hr'⟩
      refine ⟨v :: new, by simp, hw', fun span wanted ↦ ?_⟩
      rw [← List.singleton_append, Place.add_append]
      exact hr' span wanted

/-! ### Parts of a test -/

private theorem leads_parameterLoop (s : ReadSource) (w : Walk) {before : List TypeName}
    (hw : s.Reached c w) (hr : s.Remains (pure (.parameter test before)) w.cursor w.draft) :
    s.Leads (s.parameterLoop before) w fun ts w' ↦
      s.Past c w' ∧
        s.Remains (pure (.testColon { test with signature? := some ts })) w'.cursor w'.draft := by
  induction w using Walk.induction s.tokens.length generalizing before with
  | step w ih =>
    unfold Source.parameterLoop
    refine .check_bind (fun span ht ↦ ?_) fun hno ↦ ?_
    · rw [remains_step ht] at hr
      exact .advance_bind (.pure ⟨hw.pass ht, hr⟩)
    · refine (leads_consumeIdentifier hw.self hr rfl rfl (fun _ _ ↦ rfl)
        fun token ht htakes ↦ htakes.resolve_left (hno token ht)).bind ?_
      rintro ⟨name, span⟩ w₁ ⟨hw₁, hr₁⟩
      refine (leads_draft hw₁ hr₁).bind ?_
      rintro type w₂ ⟨hw₂, hr₂⟩
      refine (leads_listSeparator (.parameter test (before ++ [type])) hw₂ hr₂ rfl rfl
        (fun _ ↦ id) (fun _ ↦ rfl) fun _ ↦ rfl).bind ?_
      rintro _ w₃ ⟨hw₃, hr₃⟩
      exact .note_bind (ih (w₃.note .again) hw₃.lt hw₃.progress.inside
        ((hw₃.mono hw.le).note .again (by decide)) hr₃)

private theorem leads_signature {owner : TypeName} {method : String} {span : Span} (hw : s.Past c w)
    (hr : s.Remains (pure (.signature ⟨owner, method, span, none, none, []⟩)) w.cursor w.draft) :
    s.Leads s.signature w fun signature? w' ↦ s.Past c w' ∧
      ∃ q, s.Awaits q .colon .colon
        (pure (.entry ⟨owner, method, span, signature?, none, []⟩)) w' := by
  refine .check_bind (fun _ ht ↦ ?_) fun hno ↦ ?_
  · rw [remains_step ht] at hr
    have hparen : s.Leads (s.consumeSymbol .leftParen .openParen) w fun _ w' ↦
        s.Past c w' ∧ s.Remains (pure (.parameter ⟨owner, method, span, none, none, []⟩ []))
          w'.cursor w'.draft :=
      .check_bind (fun _ _ ↦ .advance ⟨hw.reached.pass ht, hr⟩) fun hno ↦ absurd rfl (hno _ ht)
    have hparameters : s.Leads s.parameters w fun ts w' ↦ s.Past c w' ∧
        s.Remains (pure (.testColon ⟨owner, method, span, some ts, none, []⟩))
          w'.cursor w'.draft := by
      refine hparen.bind ?_
      rintro _ w₁ ⟨hw₁, hr₁⟩
      exact .note_bind (leads_parameterLoop s (w₁.note .enter) (hw₁.note .enter (by decide)) hr₁)
    refine hparameters.bind ?_
    rintro ts w' ⟨hw', hr'⟩
    exact .pure ⟨hw', _, hr', rfl, rfl, fun _ ↦ rfl, fun _ _ ↦ id⟩
  · exact .pure ⟨hw, _, hr, rfl, rfl, fun _ ↦ rfl, fun token ht htakes ↦
      htakes.resolve_left (hno token ht)⟩

private theorem leads_channel {arguments : List Value} (hw : s.Reached c w)
    (hr : s.Remains (pure (.verdict test arguments)) w.cursor w.draft) :
    s.Leads s.channel w fun channel w' ↦
      s.Past c w' ∧ s.Remains (pure (.expectation test arguments channel)) w'.cursor w'.draft := by
  refine .check_bind (fun span ht ↦ ?_) fun hnoExpect ↦
    .check_bind (fun span ht ↦ ?_) fun hnoThrows ↦ ?_
  · rw [remains_step ht] at hr
    exact .advance_bind (.pure ⟨hw.pass ht, hr⟩)
  · rw [remains_step ht] at hr
    exact .advance_bind (.pure ⟨hw.pass ht, hr⟩)
  · exact .fail hw.progress hr rfl (fun _ ↦ rfl) fun token ht htakes ↦
      htakes.elim (hnoExpect token ht) (hnoThrows token ht)

section Expectation

variable {arguments : List Value} {channel : Channel}

private theorem criterion_eq {loose named : Bool} (hbare : (!loose && named) = false) (v : Value) :
    Source.criterion loose named v = if loose then .equivalentTo v else .exactly v := by
  rw [Source.criterion, hbare]
  cases v.asType? <;> rfl

/-- An expected value that is not a bare name is compared as a value. -/
theorem leads_comparedValue {loose named : Bool} (hw : s.Reached c w)
    (hr : s.Remains (pure (.value ⟨test, .expected arguments channel loose, []⟩)) w.cursor w.draft)
    (hbare : (!loose && named) = false)
    (hname : loose = false → ∀ name span, s.tokens[w.cursor]? ≠ some ⟨.identifier name, span⟩) :
    s.Leads (do
      let v ← s.value (some test.owner)
      return ⟨channel, Source.criterion loose named v⟩) w fun e w' ↦
        s.Past c w' ∧
          s.Remains (pure (.caseEnd (test.addCase arguments e))) w'.cursor w'.draft := by
  have hstrict (h : Place.Strict ⟨test, .expected arguments channel loose, []⟩) :
      loose = false := by
    cases loose with
    | false => rfl
    | true => exact absurd h id
  refine (leads_value (fun w' _ ↦ readsArguments s w') hw hr (fun h ↦ absurd h id)
    (fun h ↦ hname (hstrict h)) fun _ _ ↦ rfl).bind ?_
  rintro v w' ⟨hw', hr'⟩
  refine .pure ⟨hw', ?_⟩
  rw [criterion_eq hbare]
  exact hr'

/-- A bare name as an expected value is a type that stands for its values. -/
theorem leads_bareType {name : String} {span : Span} (hw : s.Reached c w)
    (hr : s.Remains (pure (.expectation test arguments channel)) w.cursor w.draft)
    (ht : s.tokens[w.cursor]? = some ⟨.identifier name, span⟩) :
    s.Leads (do
      let v ← s.value (some test.owner)
      return ⟨channel, Source.criterion false true v⟩) w fun e w' ↦
        s.Past c w' ∧
          s.Remains (pure (.caseEnd (test.addCase arguments e))) w'.cursor w'.draft := by
  rw [remains_step ht] at hr
  have hexpression : s.Leads (s.valueExpression (some test.owner)) w fun e w' ↦
      ∃ t, e = .value (.type t) ∧ s.Past c w' ∧ s.Remains
        (pure (.caseEnd (test.addCase arguments ⟨channel, .ofType t⟩))) w'.cursor w'.draft := by
    unfold Source.valueExpression
    refine .current_bind ?_
    rw [ht]
    refine (Leads.draft hw.progress hr).bind ?_
    rintro t _ ⟨d, rfl, hr⟩
    exact .advance_bind (.pure ⟨t, rfl, (hw.withDraft d).pass ht, hr⟩)
  unfold Source.value
  rw [bind_assoc]
  refine .current_bind ?_
  rw [bind_assoc]
  refine hexpression.bind ?_
  rintro _ w' ⟨t, rfl, hpost⟩
  -- A value that is there is made without any change.
  exact ⟨_, w', rfl, hpost⟩

private theorem leads_expectation (hw : s.Reached c w)
    (hr : s.Remains (pure (.expectation test arguments channel)) w.cursor w.draft) :
    s.Leads (s.expectation channel test.owner) w fun e w' ↦
      s.Past c w' ∧ s.Remains (pure (.caseEnd (test.addCase arguments e))) w'.cursor w'.draft := by
  refine .check_bind (fun span ht ↦ ?_) fun hno ↦
    .checkIdentifier_bind (fun name span ht ↦ leads_bareType hw hr ht) fun hname ↦ ?_
  · rw [remains_step ht] at hr
    exact .advance_bind (.checkIdentifier_bind
      (fun _ _ _ ↦ leads_comparedValue (hw.pass ht).reached hr rfl nofun)
      fun _ ↦ leads_comparedValue (hw.pass ht).reached hr rfl nofun)
  · have hr := hr.congr (fun token ht ↦ Unfinished.step_expectation (hno token ht)) rfl rfl
    exact leads_comparedValue hw hr rfl fun _ ↦ hname

end Expectation

/-- The loop over the entries of a test passes the word of each. -/
theorem leads_entryLoop (s : ReadSource) (w : Walk) {test : OpenTest} (hw : s.Reached c w)
    (hr : s.Remains (pure (.entry test)) w.cursor w.draft) :
    s.Leads (s.entryLoop test) w fun t w' ↦
      s.Past c w' ∧ s.Remains (closeTest t >>= fun _ ↦ pure .item) w'.cursor w'.draft := by
  induction w using Walk.induction s.tokens.length generalizing test with
  | step w ih =>
    unfold Source.entryLoop
    refine .check_bind (fun span ht ↦ ?_) fun hnoCase ↦
      .check_bind (fun span ht ↦ ?_) fun hnoTarget ↦ ?_
    · rw [remains_step ht] at hr
      have hopen : s.Awaits (.caseOpen test) .leftParen .openParen
          (pure (.value ⟨test, .argument [], []⟩)) w.pass :=
        ⟨hr, rfl, rfl, fun _ ↦ rfl, fun _ _ ↦ id⟩
      refine .advance_bind ((leads_arguments (fun w' _ ↦ readsArguments s w') (hw.self.pass ht)
        (p := ⟨test, .argument [], []⟩) trivial hopen).bind ?_)
      rintro vs w₁ ⟨hw₁, hr₁⟩
      refine (leads_channel hw₁.reached (hr₁ span .value)).bind ?_
      rintro channel w₂ ⟨hw₂, hr₂⟩
      refine (leads_expectation hw₂.reached hr₂).bind ?_
      rintro e w₃ ⟨hw₃, hr₃⟩
      refine .check_bind (fun span ht ↦ ?_) fun hnoComma ↦
        .check_bind (fun span ht ↦ ?_) fun hnoEnd ↦ ?_
      · rw [remains_step ht] at hr₃
        have hw₄ := hw₃.reached.pass ht
        exact .advance_bind (.note_bind (ih (w₃.pass.note .again) hw₄.lt hw₄.progress.inside
          ((hw₄.mono hw.le).note .again (by decide)) hr₃))
      · rw [remains_step ht] at hr₃
        exact .advance_bind (.pure ⟨(hw₃.reached.pass ht).mono hw.le, hr₃⟩)
      · exact .fail hw₃.progress hr₃ rfl (fun _ ↦ rfl) fun token ht htakes ↦
          htakes.elim (hnoComma token ht) (hnoEnd token ht)
    · rw [remains_step ht] at hr
      refine .advance_bind ((leads_valueExpression (fun w' _ ↦ readsArguments s w')
        (p := ⟨test, .activator, []⟩) (hw.self.pass ht).reached hr (fun h ↦ absurd h id)
        fun h ↦ absurd h id).bind ?_)
      rintro e w₁ ⟨hw₁, hr₁⟩
      have hcolon : s.Awaits (.activatorEnd { test with activator? := some e }) .colon .colon
          (pure (.entry { test with activator? := some e })) w₁ :=
        ⟨hr₁, rfl, rfl, fun _ ↦ rfl, fun _ _ ↦ id⟩
      refine (leads_consumeSymbol hw₁.reached hcolon).bind ?_
      rintro _ w₂ ⟨hw₂, hr₂⟩
      exact .note_bind (ih (w₂.note .again) hw₂.lt hw₂.progress.inside
        ((hw₂.mono hw.le).note .again (by decide)) hr₂)
    · exact .fail hw.progress hr rfl (fun _ ↦ rfl) fun token ht htakes ↦
        htakes.elim (hnoCase token ht) (hnoTarget token ht)

/-! ### Items -/

private theorem leads_test (hw : s.Reached c w) (hr : s.Remains (pure .testType) w.cursor w.draft) :
    s.Leads s.test w fun _ w' ↦ s.Past c w' ∧ s.Remains (pure .item) w'.cursor w'.draft := by
  unfold Source.test
  refine (leads_consumeIdentifier hw hr rfl rfl (fun _ _ ↦ rfl) fun _ _ ↦ id).bind ?_
  rintro ⟨name, span⟩ w₁ ⟨hw₁, hr₁⟩
  refine (leads_draft hw₁ hr₁).bind ?_
  rintro owner w₂ ⟨hw₂, hr₂⟩
  have harrow : s.Awaits (.arrow owner) .arrow .arrow (pure (.methodName owner)) w₂ :=
    ⟨hr₂, rfl, rfl, fun _ ↦ rfl, fun _ _ ↦ id⟩
  refine (leads_consumeSymbol hw₂.reached harrow).bind ?_
  rintro _ w₃ ⟨hw₃, hr₃⟩
  refine (leads_consumeIdentifier hw₃.reached hr₃ rfl rfl (fun _ _ ↦ rfl) fun _ _ ↦ id).bind ?_
  rintro ⟨method, methodSpan⟩ w₄ ⟨hw₄, hr₄⟩
  refine (leads_signature hw₄ hr₄).bind ?_
  rintro signature? w₅ ⟨hw₅, q, hq⟩
  refine (leads_consumeSymbol hw₅.reached hq).bind ?_
  rintro _ w₆ ⟨hw₆, hr₆⟩
  have hentered : s.Reached c (w₆.note .enter) := hw₆.note .enter (by decide)
  refine .note_bind ((leads_entryLoop s (w₆.note .enter) hentered hr₆).bind ?_)
  rintro t w₇ ⟨hw₇, hr₇⟩
  exact leads_draft hw₇ hr₇

private theorem leads_directive (hw : s.Reached c w)
    (hr : s.Remains (pure .unitPath) w.cursor w.draft) :
    s.Leads s.directive w fun _ w' ↦ s.Past c w' ∧ s.Remains (pure .item) w'.cursor w'.draft := by
  refine .current_bind ?_
  split
  · next path span ht =>
    rw [remains_step ht] at hr
    refine (Leads.draft hw.progress hr).bind ?_
    rintro _ _ ⟨d, rfl, hr₁⟩
    have hend : s.Awaits .unitEnd .semicolon .unitEnd (pure .item)
        (Walk.pass { w with draft := d }) := ⟨hr₁, rfl, rfl, fun _ ↦ rfl, fun _ _ ↦ id⟩
    exact .advance_bind (leads_consumeSymbol ((hw.withDraft d).pass ht).reached hend)
  · next span ht =>
    rw [remains_step ht] at hr
    refine .advance_bind ((leads_consumeIdentifier (hw.pass ht).reached hr rfl rfl (fun _ _ ↦ rfl)
      fun _ _ ↦ id).bind ?_)
    rintro ⟨name, _⟩ w₁ ⟨hw₁, hr₁⟩
    refine (leads_draft hw₁ hr₁).bind ?_
    rintro _ w₂ ⟨hw₂, hr₂⟩
    have hend : s.Awaits .namespaceEnd .semicolon .namespaceEnd (pure .item) w₂ :=
      ⟨hr₂, rfl, rfl, fun _ ↦ rfl, fun _ _ ↦ id⟩
    exact leads_consumeSymbol hw₂.reached hend
  · next hpath hnamespace =>
    refine .fail hw.progress hr rfl (fun _ ↦ rfl) ?_
    rintro ⟨kind, span⟩ ht (⟨path, rfl⟩ | rfl)
    · exact hpath path span ht
    · exact hnamespace span ht

private theorem leads_group (hw : s.Reached c w)
    (hr : s.Remains (pure .groupName) w.cursor w.draft) :
    s.Leads s.group w fun _ w' ↦ s.Past c w' ∧ s.Remains (pure .item) w'.cursor w'.draft := by
  unfold Source.group
  refine (leads_consumeIdentifier hw hr rfl rfl (fun _ _ ↦ rfl) fun _ _ ↦ id).bind ?_
  rintro ⟨name, span⟩ w₁ ⟨hw₁, hr₁⟩
  have hend : s.Awaits (.groupEnd name span) .semicolon .groupEnd
      (openGroup name span >>= fun _ ↦ pure .item) w₁ :=
    ⟨hr₁, rfl, rfl, fun _ ↦ rfl, fun _ _ ↦ id⟩
  refine (leads_consumeSymbol hw₁.reached hend).bind ?_
  rintro _ w₂ ⟨hw₂, hr₂⟩
  exact leads_draft hw₂ hr₂

/-- An item passes its first word and leaves the reader between two items. -/
theorem leads_item (hw : s.Reached c w) (hr : s.Remains (pure .item) w.cursor w.draft)
    (ht : s.tokens[w.cursor]? = some token) :
    s.Leads (s.item token) w fun _ w' ↦
      s.Past c w' ∧ s.Remains (pure .item) w'.cursor w'.draft := by
  obtain ⟨kind, span⟩ := token
  have hstep := hr
  rw [remains_step ht] at hstep
  unfold Source.item
  split
  · next hk =>
    cases hk
    exact .advance_bind (leads_directive (hw.pass ht).reached hstep)
  · next hk =>
    cases hk
    exact .advance_bind (leads_group (hw.pass ht).reached hstep)
  · next hk =>
    cases hk
    exact .advance_bind (leads_test (hw.pass ht).reached hstep)
  · next huse hgroup htest =>
    refine .fail hw.progress hr rfl (fun hend ↦ nomatch ht.symm.trans hend) fun _ ht' ↦ ?_
    cases ht.symm.trans ht'
    rintro (hk | hk | hk)
    · exact huse hk
    · exact hgroup hk
    · exact htest hk

/-- The loop over items comes to the end of the tokens, between two items. -/
theorem leads_itemLoop (s : ReadSource) (w : Walk) (hw : s.Reached c w)
    (hr : s.Remains (pure .item) w.cursor w.draft) :
    s.Leads s.itemLoop w fun _ w' ↦
      s.Reached c w' ∧ s.outcome = (.ok w'.draft.plan, w'.draft) := by
  induction w using Walk.induction s.tokens.length with
  | step w ih =>
    unfold Source.itemLoop
    refine .current_bind ?_
    split
    · next ht =>
      rw [remains_end ht] at hr
      exact .pure ⟨hw, hr.symm⟩
    · next token ht =>
      refine (leads_item hw.self hr ht).bind ?_
      rintro _ w₁ ⟨hw₁, hr₁⟩
      exact .note_bind (ih (w₁.note .again) hw₁.lt hw₁.progress.inside
        ((hw₁.mono hw.le).note .again (by decide)) hr₁)

/-- A descent over all tokens comes to what the reader comes to. -/
theorem leads_plan (s : Source) (d : Draft) :
    (⟨s, Plan.read s.loader s.tokens d⟩ : ReadSource).Leads s.plan (.start d) fun p w' ↦
      Progress s.tokens.length w'.cursor w'.log ∧
        Plan.read s.loader s.tokens d = (.ok p, w'.draft) := by
  let r : ReadSource := ⟨s, Plan.read s.loader s.tokens d⟩
  have hw : r.Reached 0 ((Walk.start d).note .enter) := ⟨.entrance s.tokens.length, Nat.le_refl 0⟩
  have hr : r.Remains (pure .item) 0 d := rfl
  refine .note_bind ((leads_itemLoop r _ hw hr).bind ?_)
  rintro _ w' ⟨hw', hread⟩
  exact .get_bind (.pure ⟨hw'.progress, hread⟩)

end ReadSource

/-- A descent ends as the reader does, and its cursor moves on between heads of loops and between
calls for arguments. -/
theorem Source.plan_progresses (s : Source) (d : Draft) :
    ∃ result w, s.plan.run (.start d) = some (result, w) ∧
      (∀ span, result ≠ .error (.noType span)) ∧
      result = (Plan.read s.loader s.tokens d).1.mapError .problem ∧
      w.draft = (Plan.read s.loader s.tokens d).2 ∧
      w.log.countP (·.mark == .pass) = w.cursor ∧ w.cursor ≤ s.tokens.length ∧
      (∀ e ∈ w.log, e.cursor ≤ w.cursor ∧ (e.mark = .pass → e.cursor < s.tokens.length)) ∧
      (w.log.Pairwise fun e e' ↦
        e.mark.isHead = true → e'.mark.isHead = true → e.cursor < e'.cursor) ∧
      (w.log.Pairwise fun e e' ↦
        e.mark = .arguments → e'.mark = .arguments → e.cursor < e'.cursor) ∧
      w.log.countP (·.mark.isHead) ≤ s.tokens.length + w.log.countP (·.mark == .enter) := by
  obtain ⟨r, w, hrun, hpost⟩ := ReadSource.leads_plan s d
  have hend : Progress s.tokens.length w.cursor w.log ∧ (∀ span, r ≠ .error (.noType span)) ∧
      r = (Plan.read s.loader s.tokens d).1.mapError .problem ∧
      w.draft = (Plan.read s.loader s.tokens d).2 := by
    cases r with
    | ok p =>
      obtain ⟨hw, hread⟩ := hpost
      rw [hread]
      exact ⟨hw, nofun, rfl, rfl⟩
    | error e =>
      obtain ⟨hw, e', rfl, hread⟩ := hpost
      change Plan.read s.loader s.tokens d = (.error e', w.draft) at hread
      rw [hread]
      exact ⟨hw, nofun, rfl, rfl⟩
  obtain ⟨hw, htype, hresult, hdraft⟩ := hend
  exact ⟨r, w, hrun, htype, hresult, hdraft, hw.passed, hw.inside,
    fun e he ↦ ⟨hw.reached e he, hw.passes e he⟩, hw.heads, hw.calls, hw.countP_isHead_le⟩

end TestDeclaration

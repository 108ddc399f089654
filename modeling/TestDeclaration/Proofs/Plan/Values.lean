import TestDeclaration.Proofs.Plan.Meaning
import TestDeclaration.Proofs.Plan.Transition

/-!
# Which values are read

The reader keeps open calls on a stack, the grammar nests values in values. `After` joins the two:
it says that tokens begin with those of some tree and that a run goes on behind them. That the
tokens of a value are read is an induction on the value; that only these are read is one on the
number of tokens that are left.
-/

namespace TestDeclaration

open Grammar Unfinished

variable {loader : Loader} {d d₁ d' : Draft} {q : Unfinished} {ts : List Token}

/-- The scope of a test about some type. -/
def Draft.scope (d : Draft) (owner : TypeName) : Scope := ⟨d.library, d.namespaces, owner⟩

/-- The tokens begin with some kinds, and the item `q` takes those behind them to the end of the
source. -/
def After (loader : Loader) (ks : List TokenKind) (q : Unfinished) (d : Draft) (ts : List Token)
    (d' : Draft) : Prop :=
  ∃ front rest, ts = front ++ rest ∧ front.map Token.kind = ks ∧ Run loader q d rest .item d'

namespace After

variable {ks ks' : List TokenKind} {k : TokenKind}

/-- After no tokens the item is finished. -/
theorem nil_iff : After loader [] q d ts d' ↔ Run loader q d ts .item d' := by
  constructor
  · rintro ⟨front, rest, rfl, hk, hr⟩
    rw [List.map_eq_nil_iff] at hk
    rwa [hk, List.nil_append]
  · intro hr
    exact ⟨[], ts, rfl, rfl, hr⟩

/-- Tokens of two lists of kinds are those of one, and then those of the other. -/
theorem append_iff : After loader (ks ++ ks') q d ts d' ↔
    ∃ front rest, ts = front ++ rest ∧ front.map Token.kind = ks ∧
      After loader ks' q d rest d' := by
  constructor
  · rintro ⟨front, rest, rfl, hk, hr⟩
    obtain ⟨left, right, rfl, hl, hr'⟩ := List.map_eq_append_iff.mp hk
    exact ⟨left, right ++ rest, by rw [List.append_assoc], hl, right, rest, rfl, hr', hr⟩
  · rintro ⟨left, _, rfl, hl, right, rest, rfl, hr', hr⟩
    exact ⟨left ++ right, rest, by rw [List.append_assoc], by rw [List.map_append, hl, hr'], hr⟩

/-- The first token has the first kind. -/
theorem cons_iff : After loader (k :: ks) q d ts d' ↔
    ∃ t rest, ts = t :: rest ∧ t.kind = k ∧ After loader ks q d rest d' := by
  constructor
  · rintro ⟨_ | ⟨t, front⟩, rest, rfl, hk, hr⟩
    · cases hk
    · rw [List.map_cons, List.cons.injEq] at hk
      exact ⟨t, front ++ rest, rfl, hk.1, front, rest, rfl, hk.2, hr⟩
  · rintro ⟨t, _, rfl, rfl, front, rest, rfl, rfl, hr⟩
    exact ⟨t :: front, rest, rfl, rfl, hr⟩

/-- A token of the first kind can be put in front. -/
theorem of_cons {t : Token} (hk : t.kind = k) (h : After loader ks q d ts d') :
    After loader (k :: ks) q d (t :: ts) d' :=
  cons_iff.mpr ⟨t, ts, rfl, hk, h⟩

end After

/-- A run to the end from within an item takes at least one step. -/
theorem run_iff_step (hq : q ≠ .item) : Run loader q d ts .item d' ↔
    ∃ t rest q₁ d₁, ts = t :: rest ∧ Step loader q d t q₁ d₁ ∧ Run loader q₁ d₁ rest .item d' := by
  constructor
  · rintro (_ | ⟨hs, hr⟩)
    · exact absurd rfl hq
    · exact ⟨_, _, _, _, rfl, hs, hr⟩
  · rintro ⟨t, rest, q₁, d₁, rfl, hs, hr⟩
    exact .cons hs hr

/-! ### Lists of values -/

namespace Place

variable {p : Place} {e : Expression} {vs ws : List Value}

/-- Whether a place stands in a list of values. -/
def Listed : Place → Prop
  | ⟨_, _, _ :: _⟩ | ⟨_, .argument _, []⟩ => True
  | _ => False

/-- The place behind some more values of its list. -/
def add : Place → List Value → Place
  | ⟨test, role, call :: outer⟩, vs =>
    ⟨test, role, { call with arguments := call.arguments ++ vs } :: outer⟩
  | ⟨test, .argument before, []⟩, vs => ⟨test, .argument (before ++ vs), []⟩
  | p, _ => p

/-- Adding no values changes nothing. -/
theorem add_nil : p.add [] = p := by
  rcases p with ⟨test, _ | before | _, _ | ⟨call, outer⟩⟩ <;> simp [add]

/-- Values can be added in two parts. -/
theorem add_append : p.add (vs ++ ws) = (p.add vs).add ws := by
  rcases p with ⟨test, _ | before | _, _ | ⟨call, outer⟩⟩ <;> simp [add]

/-- The test of a place does not depend on the values that are added. -/
theorem test_add : (p.add vs).test = p.test := by
  rcases p with ⟨test, _ | before | _, _ | ⟨call, outer⟩⟩ <;> rfl

/-- A place in a list stays one behind further values. -/
theorem Listed.add (h : p.Listed) : (p.add vs).Listed := by
  rcases p with ⟨test, _ | before | _, _ | ⟨call, outer⟩⟩ <;> simp_all [Listed, Place.add]

/-- A type in a list is a value like others. -/
theorem Listed.not_strict (h : p.Listed) : ¬ p.Strict := by
  rcases p with ⟨test, _ | before | _, _ | ⟨call, outer⟩⟩ <;> simp_all [Listed, Strict]

/-- Only a list is closed. -/
theorem Closes.listed (h : p.Closes d q d') : p.Listed := by
  cases h <;> exact trivial

/-- The end of an argument list makes the call a value in the place around it. -/
theorem closes_inCall_iff {span : Text.Span} {type : TypeName} :
    ((p.inCall span type).add vs).Closes d q d' ↔
      ∃ c, d.library.constructor? type (vs.map Value.typeName) = some c ∧
        p.Fills (.construct c vs) d q d' := by
  obtain ⟨test, role, within⟩ := p
  constructor
  · rintro (⟨hc, hf⟩)
    exact ⟨_, hc, hf⟩
  · rintro ⟨c, hc, hf⟩
    exact .call hc hf

/-- A value of a list is made and stands behind those before it. -/
theorem Listed.fills_iff (h : p.Listed) : p.Fills e d q d' ↔
    ∃ v heap, e.evaluate d.heap = (.ok v, heap) ∧ q = .valueEnd (p.add [v]) ∧
      d' = { d with heap } := by
  constructor
  · rintro (he | _ | he | he)
    · exact ⟨_, _, he, rfl, rfl⟩
    · exact absurd h id
    · exact ⟨_, _, he, rfl, rfl⟩
    · exact absurd h id
  · rintro ⟨v, heap, he, rfl, rfl⟩
    rcases p with ⟨test, _ | before | _, _ | ⟨call, outer⟩⟩
    · exact absurd h id
    · exact .call he
    · exact .argument he
    · exact .call he
    · exact absurd h id
    · exact .call he

end Place

/-! ### The tokens of a tree are read -/

/-- The tokens of a value are read, wherever it stands. A bare type where its values are expected
is no such value. -/
def ReadsValue (loader : Loader) (t : Term) : Prop :=
  ∀ ⦃p : Place⦄ ⦃d d₁ d' : Draft⦄ ⦃e : Expression⦄ ⦃h : Heap⦄ ⦃q : Unfinished⦄ ⦃ts : List Token⦄,
    (p.Strict → ∀ name, t ≠ .typeName name) → Denotes (d.scope p.test.owner) t d.heap e h →
    p.Fills e { d with heap := h } q d₁ → After loader t.kinds q d₁ ts d' →
    Run loader (.value p) d ts .item d'

/-- The tokens of a list are read if those of its values are. -/
theorem run_listing {terms : List Term} {trailing : Bool}
    (hterms : ∀ t ∈ terms, ReadsValue loader t) {p : Place} {vs : List Value} {h : Heap}
    (hp : p.Listed)
    (hvs : MakesAll (d.scope p.test.owner) terms d.heap vs h)
    (hc : (p.add vs).Closes { d with heap := h } q d₁)
    (ha : After loader (listing trailing (terms.map Term.kinds)) q d₁ ts d') :
    Run loader (.value p) d ts .item d' := by
  induction terms generalizing p d vs ts with
  | nil =>
    cases hvs
    obtain ⟨t, rest, rfl, hk, ha⟩ := After.cons_iff.mp ha
    rw [Place.add_nil] at hc
    exact .cons (.value (.close hk hc)) (After.nil_iff.mp ha)
  | cons term rest ih =>
    obtain ⟨htm, hrest⟩ := List.forall_mem_cons.mp hterms
    rcases hvs with _ | ⟨hd, he, hvs⟩
    rename_i v vs h₁ h₂
    have hfill := (hp.fills_iff (d := { d with heap := h₁ })).mpr ⟨v, h₂, he, rfl, rfl⟩
    refine htm (fun hs ↦ absurd hs hp.not_strict) hd hfill ?_
    rw [← List.singleton_append, Place.add_append] at hc
    have hscope : p.test.owner = (p.add [v]).test.owner := by rw [Place.test_add]
    rw [hscope] at hvs
    -- Behind the value stands a comma with more values, or the end of the list.
    have hcomma : ∀ ts, After loader (.symbol .comma :: listing trailing (rest.map Term.kinds))
        q d₁ ts d' → Run loader (.valueEnd (p.add [v])) { d with heap := h₂ } ts .item d' := by
      intro ts ha
      obtain ⟨t, ts, rfl, hk, ha⟩ := After.cons_iff.mp ha
      exact .cons (.valueComma hk) (ih hrest hp.add hvs hc ha)
    cases rest with
    | nil =>
      cases trailing with
      | true =>
        simp only [listing, List.map_cons, List.map_nil, if_true] at ha
        obtain ⟨front, back, rfl, hk, ha⟩ := After.append_iff.mp ha
        exact ⟨front, back, rfl, hk, hcomma back ha⟩
      | false =>
        simp only [listing, List.map_cons, List.map_nil, Bool.false_eq_true, if_false] at ha
        obtain ⟨front, back, rfl, hk, ha⟩ := After.append_iff.mp ha
        obtain ⟨t, ts, rfl, hk', ha⟩ := After.cons_iff.mp ha
        cases hvs
        rw [Place.add_nil] at hc
        exact ⟨front, _, rfl, hk, .cons (.lastValue hk' hc) (After.nil_iff.mp ha)⟩
    | cons next rest =>
      simp only [listing, List.map_cons] at ha
      obtain ⟨front, back, rfl, hk, ha⟩ := After.append_iff.mp ha
      exact ⟨front, back, rfl, hk, hcomma back ha⟩

/-- The tokens of every value are read. -/
theorem readsValue (t : Term) : ReadsValue loader t := by
  induction t using Term.induction with
  | literal value =>
    intro p d d₁ d' e h q ts _ hd hf ha
    cases hd
    obtain ⟨t, rest, rfl, hk, ha⟩ := After.cons_iff.mp ha
    exact .cons (.value (.literal hk hf)) (After.nil_iff.mp ha)
  | typeName name =>
    intro p d d₁ d' e h q ts hs hd hf ha
    rcases hd with _ | ht
    obtain ⟨t, rest, rfl, hk, ha⟩ := After.cons_iff.mp ha
    have hp : ¬ p.Strict := fun hp ↦ hs hp name rfl
    exact .cons (.value (.typeName hk ht (.value hp hf))) (After.nil_iff.mp ha)
  | create type? arguments trailing ih =>
    intro p d d₁ d' e h q ts _ hd hf ha
    rcases hd with _ | _ | ⟨ht, hvs, hc⟩
    rename_i type c vs
    rw [Term.kinds, Term.kindsOfAll_eq_map, enclosed_eq, List.cons_append] at ha
    obtain ⟨t, ts, rfl, hk, ha⟩ := After.cons_iff.mp ha
    refine .cons (.value (.create hk)) ?_
    -- The arguments are a list in the call that is open now.
    have harguments : ∀ ts, After loader (listing trailing (arguments.map Term.kinds)) q d₁ ts d' →
        Run loader (.value (p.inCall t.span type)) d ts .item d' := by
      intro ts ha
      exact run_listing ih trivial hvs (Place.closes_inCall_iff.mpr ⟨c, hc, hf⟩) ha
    cases type? with
    | none =>
      cases ht
      obtain ⟨t₁, ts, rfl, hk₁, ha⟩ := After.cons_iff.mp ha
      exact .cons (.unnamedCall hk₁) (harguments ts ha)
    | some name =>
      obtain ⟨t₁, ts, rfl, hk₁, ha⟩ := After.cons_iff.mp ha
      obtain ⟨t₂, ts, rfl, hk₂, ha⟩ := After.cons_iff.mp ha
      exact .cons (.namedCall hk₁ ht) (.cons (.callOpen hk₂) (harguments ts ha))

/-! ### What is read are the tokens of a tree -/

/-- The tokens begin with a value, and the run goes on with the value in its place. -/
def BeginsValue (loader : Loader) (p : Place) (d : Draft) (ts : List Token) (d' : Draft) : Prop :=
  ∃ t e h q d₁, (p.Strict → ∀ name, t ≠ .typeName name) ∧
    Denotes (d.scope p.test.owner) t d.heap e h ∧ p.Fills e { d with heap := h } q d₁ ∧
    After loader t.kinds q d₁ ts d'

/-- The tokens begin with the values of a list up to its end, and the run goes on behind it. -/
def BeginsList (loader : Loader) (p : Place) (d : Draft) (ts : List Token) (d' : Draft) : Prop :=
  ∃ terms trailing vs h q d₁, MakesAll (d.scope p.test.owner) terms d.heap vs h ∧
    (p.add vs).Closes { d with heap := h } q d₁ ∧
    After loader (listing trailing (terms.map Term.kinds)) q d₁ ts d'

/-- A type stands for its values where these are expected. -/
def BeginsType (loader : Loader) (p : Place) (d : Draft) (ts : List Token) (d' : Draft) : Prop :=
  ∃ name t q d₁, p.Strict ∧ d.library.type? d.namespaces name = some t ∧
    p.FillsType t d q d₁ ∧ After loader [.identifier name] q d₁ ts d'

/-- A list ends at once. -/
def EndsList (loader : Loader) (p : Place) (d : Draft) (ts : List Token) (d' : Draft) : Prop :=
  ∃ q d₁, p.Closes d q d₁ ∧ After loader [.symbol .rightParen] q d₁ ts d'

/-- Arguments that end a call stand for a value in the place around it. -/
theorem denotes_of_beginsList {p : Place} {span : Text.Span} (type? : Option String)
    {type : TypeName} (ht : (d.scope p.test.owner).created? type? = some type)
    (hl : BeginsList loader (p.inCall span type) d ts d') :
    ∃ arguments trailing e h q d₁,
      Denotes (d.scope p.test.owner) (.create type? arguments trailing) d.heap e h ∧
      p.Fills e { d with heap := h } q d₁ ∧
      After loader (listing trailing (arguments.map Term.kinds)) q d₁ ts d' := by
  obtain ⟨arguments, trailing, vs, h, q, d₁, hvs, hc, ha⟩ := hl
  obtain ⟨c, hc, hf⟩ := Place.closes_inCall_iff.mp hc
  exact ⟨arguments, trailing, _, h, q, d₁, .create ht hvs hc, hf, ha⟩

/-- Where a value can stand, a run takes a value, a type or the end of a list, provided that all
shorter runs take lists where these stand. -/
theorem value_of_run {p : Place}
    (hlists : ∀ ⦃ts' : List Token⦄ ⦃p : Place⦄ ⦃d : Draft⦄, ts'.length < ts.length → p.Listed →
      Run loader (.value p) d ts' .item d' → BeginsList loader p d ts' d')
    (h : Run loader (.value p) d ts .item d') :
    BeginsValue loader p d ts d' ∨ BeginsType loader p d ts d' ∨ EndsList loader p d ts d' := by
  obtain ⟨t, ts, q, d₁, rfl, hs, hr⟩ := (run_iff_step (by simp)).mp h
  cases hs.begins with
  | @literal value _ _ _ _ hk hf =>
    exact .inl ⟨.literal value, _, d.heap, q, d₁, by simp, .literal, hf,
      .of_cons hk (After.nil_iff.mpr hr)⟩
  | @typeName name type _ _ _ _ hk ht hf =>
    have ha : After loader [.identifier name] q d₁ (t :: ts) d' :=
      .of_cons hk (After.nil_iff.mpr hr)
    by_cases hp : p.Strict
    · exact .inr (.inl ⟨name, type, q, d₁, hp, ht, hf, ha⟩)
    · rcases hf with _ | ⟨-, hf⟩
      · exact absurd trivial hp
      · exact .inl ⟨.typeName name, _, d.heap, q, d₁, fun h ↦ absurd h hp, .typeName ht, hf, ha⟩
  | close hk hc => exact .inr (.inr ⟨q, d₁, hc, .of_cons hk (After.nil_iff.mpr hr)⟩)
  | create hk =>
    left
    -- The arguments of the call are a list, which a shorter run takes.
    have harguments : ∀ (type : TypeName) (ts' : List Token), ts'.length < ts.length →
        Run loader (.value (p.inCall t.span type)) d ts' .item d' →
        BeginsList loader (p.inCall t.span type) d ts' d' := by
      intro type ts' hlt hr
      exact hlists (by rw [List.length_cons]; omega) trivial hr
    obtain ⟨t₁, ts, q, d₁, rfl, hs, hr⟩ := (run_iff_step (by simp)).mp hr
    cases hs with
    | @unnamedCall _ _ _ _ hk₁ =>
      obtain ⟨arguments, trailing, e, h, q, d₁, hd, hf, ha⟩ :=
        denotes_of_beginsList none rfl (harguments p.test.owner ts (by simp) hr)
      refine ⟨_, e, h, q, d₁, by simp, hd, hf, ?_⟩
      rw [Term.kinds, Term.kindsOfAll_eq_map, enclosed_eq, List.cons_append]
      exact .of_cons hk (.of_cons hk₁ ha)
    | @namedCall _ _ name type _ _ hk₁ ht =>
      obtain ⟨t₂, ts, q, d₁, rfl, hs, hr⟩ := (run_iff_step (by simp)).mp hr
      cases hs with
      | callOpen hk₂ =>
        have hlt : ts.length < (t₁ :: t₂ :: ts).length := by
          simp only [List.length_cons]
          omega
        obtain ⟨arguments, trailing, e, h, q, d₁, hd, hf, ha⟩ :=
          denotes_of_beginsList (some name) ht (harguments type ts hlt hr)
        refine ⟨_, e, h, q, d₁, by simp, hd, hf, ?_⟩
        rw [Term.kinds, Term.kindsOfAll_eq_map, enclosed_eq, List.cons_append]
        exact .of_cons hk (.of_cons hk₁ (.of_cons hk₂ ha))

/-- Where a list can go on, a run takes its values up to its end. -/
theorem list_of_run {p : Place} (hp : p.Listed) (h : Run loader (.value p) d ts .item d') :
    BeginsList loader p d ts d' := by
  induction hn : ts.length using Nat.strongRecOn generalizing ts p d with
  | ind n ih =>
    have hlists : ∀ ⦃ts' : List Token⦄ ⦃p : Place⦄ ⦃d : Draft⦄, ts'.length < ts.length →
        p.Listed → Run loader (.value p) d ts' .item d' → BeginsList loader p d ts' d' :=
      fun ts' p d hlt hp hr ↦ ih ts'.length (hn ▸ hlt) hp hr rfl
    rcases value_of_run hlists h with hv | ⟨_, _, _, _, hs, _⟩ | ⟨q, d₁, hc, ha⟩
    · obtain ⟨t, e, h₁, q, d₁, _, hd, hf, front, rest, rfl, hk, hr⟩ := hv
      obtain ⟨v, h₂, he, rfl, rfl⟩ := hp.fills_iff.mp hf
      obtain ⟨t₁, rest, q, d₁, rfl, hs, hr⟩ := (run_iff_step (by simp)).mp hr
      cases hs with
      | lastValue hk₁ hc =>
        refine ⟨[t], false, [v], h₂, q, d₁, .cons hd he .nil, hc, ?_⟩
        refine After.append_iff.mpr ⟨front, t₁ :: rest, rfl, hk, ?_⟩
        exact .of_cons hk₁ (After.nil_iff.mpr hr)
      | valueComma hk₁ =>
        obtain ⟨terms, trailing, vs, h₃, q, d₁, hvs, hc, ha⟩ :=
          ih rest.length (by rw [← hn, List.length_append, List.length_cons]; omega) hp.add hr rfl
        rw [Place.test_add] at hvs
        rw [← Place.add_append] at hc
        have hall := MakesAll.cons hd he hvs
        cases terms with
        | nil =>
          refine ⟨[t], true, v :: vs, h₃, q, d₁, hall, hc, ?_⟩
          exact After.append_iff.mpr ⟨front, t₁ :: rest, rfl, hk, .of_cons hk₁ ha⟩
        | cons next terms =>
          refine ⟨t :: next :: terms, trailing, v :: vs, h₃, q, d₁, hall, hc, ?_⟩
          exact After.append_iff.mpr ⟨front, t₁ :: rest, rfl, hk, .of_cons hk₁ ha⟩
    · exact absurd hs hp.not_strict
    · refine ⟨[], false, [], d.heap, q, d₁, .nil, ?_, ha⟩
      rwa [Place.add_nil]

/-- Where a value can stand, a run takes a value, a type or the end of a list. -/
theorem begins_of_run {p : Place} (h : Run loader (.value p) d ts .item d') :
    BeginsValue loader p d ts d' ∨ BeginsType loader p d ts d' ∨ EndsList loader p d ts d' :=
  value_of_run (fun _ _ _ _ hp hr ↦ list_of_run hp hr) h

end TestDeclaration

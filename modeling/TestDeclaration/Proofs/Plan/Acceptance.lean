import TestDeclaration.Proofs.Plan.Values

/-!
# Which declarations are read

`Plan.read` accepts exactly the programs that declare something, and its plan is what they
declare. For every nonterminal above values there are two lemmas: a run takes the tokens of each of
its trees, and a run from where it can stand takes the tokens of one of its trees.
-/

namespace TestDeclaration

open Grammar Unfinished

variable {loader : Loader} {d d₁ d' : Draft} {q : Unfinished} {ts : List Token}

/-! ### Cases -/

variable {test : OpenTest}

/-- The tokens of an expected result are read. -/
theorem run_expectation {arguments : List Value} {channel : Channel} {loose : Bool}
    {expected : Term} {c : Criterion} {h : Heap}
    (hc : Demands (d.scope test.owner) loose expected d.heap c h)
    (ha : After loader (demand loose expected)
      (.caseEnd (test.addCase arguments ⟨channel, c⟩)) { d with heap := h } ts d') :
    Run loader (.expectation test arguments channel) d ts .item d' := by
  cases hc with
  | ofType ht =>
    obtain ⟨t, rest, rfl, hk, ha⟩ := After.cons_iff.mp ha
    exact .cons (.strict (.typeName hk ht .strict)) (After.nil_iff.mp ha)
  | @exactly _ e v _ h₁ _ hne hd he =>
    have hr : Run loader (.value ⟨test, .expected arguments channel false, []⟩) d ts .item d' :=
      readsValue expected (fun _ ↦ hne) hd (.expected he) ha
    obtain ⟨t, rest, q, d₁, rfl, hs, hr⟩ := (run_iff_step (by simp)).mp hr
    exact .cons (.strict hs.begins) hr
  | equivalentTo hd he =>
    obtain ⟨t, rest, rfl, hk, ha⟩ := After.cons_iff.mp ha
    exact .cons (.loose hk) (readsValue expected (fun hs ↦ absurd hs id) hd (.expected he) ha)

/-- A run takes an expected result where one can stand. -/
theorem expectation_of_run {arguments : List Value} {channel : Channel}
    (h : Run loader (.expectation test arguments channel) d ts .item d') :
    ∃ loose expected c heap, Demands (d.scope test.owner) loose expected d.heap c heap ∧
      After loader (demand loose expected)
        (.caseEnd (test.addCase arguments ⟨channel, c⟩)) { d with heap } ts d' := by
  obtain ⟨t, rest, q, d₁, rfl, hs, hr⟩ := (run_iff_step (by simp)).mp h
  cases hs with
  | loose hk =>
    rcases begins_of_run hr with hv | ⟨_, _, _, _, hp, _⟩ | ⟨_, _, hc, _⟩
    · obtain ⟨t', e, h₁, q, d₁, _, hd, hf, ha⟩ := hv
      rcases hf with _ | _ | _ | he
      exact ⟨true, t', _, _, .equivalentTo hd he, .of_cons hk ha⟩
    · exact absurd hp id
    · exact absurd hc.listed id
  | strict hb =>
    have hv := Run.cons (.value hb) hr
    rcases begins_of_run hv with hv | ⟨name, type, q, d₁, _, ht, hf, ha⟩ | ⟨_, _, hc, _⟩
    · obtain ⟨t', e, h₁, q, d₁, hne, hd, hf, ha⟩ := hv
      rcases hf with _ | _ | _ | he
      exact ⟨false, t', _, _, .exactly (hne trivial) hd he, ha⟩
    · rcases hf with _ | ⟨hp, -⟩
      · exact ⟨false, .typeName name, _, d.heap, .ofType ht, ha⟩
      · exact absurd trivial hp
    · exact absurd hc.listed id

/-- The tokens of activators are read; the last one is in force behind them. -/
theorem run_activation {activators : List Term} {b? : Option Expression} {h : Heap}
    (hb : Activates (d.scope test.owner) test.activator? d.heap activators b? h)
    (ha : After loader (activation activators) (.entry { test with activator? := b? })
      { d with heap := h } ts d') : Run loader (.entry test) d ts .item d' := by
  induction activators generalizing test d ts with
  | nil =>
    cases hb
    exact After.nil_iff.mp ha
  | cons term rest ih =>
    rcases hb with _ | ⟨hd, hb⟩
    rename_i e h₁
    rw [activation, List.flatMap_cons, List.append_assoc, List.cons_append] at ha
    obtain ⟨t, ts, rfl, hk, ha⟩ := After.cons_iff.mp ha
    obtain ⟨front, back, rfl, hk', ha⟩ := After.append_iff.mp ha
    obtain ⟨t₁, back, rfl, hk₁, ha⟩ := After.cons_iff.mp ha
    refine .cons (.onTarget hk) (readsValue term (fun hs ↦ absurd hs id) hd .activator ?_)
    exact ⟨front, t₁ :: back, rfl, hk', .cons (.activatorEnd hk₁) (ih hb ha)⟩

/-- The tokens of an entry are read; it adds its case. -/
theorem run_entry {e : Entry} {c : Case} {h : Heap}
    (hc : DeclaresCase (d.scope test.owner) test.activator? d.heap e c h)
    (ha : After loader e.kinds
      (.caseEnd { test with activator? := c.activator?, cases := test.cases ++ [c] })
      { d with heap := h } ts d') : Run loader (.entry test) d ts .item d' := by
  cases hc with
  | @intro b? _ args _ _ _ h₂ _ hb hvs hc =>
    rw [Entry.kinds, enclosed_eq, List.append_assoc] at ha
    obtain ⟨front, back, rfl, hk, ha⟩ := After.append_iff.mp ha
    refine run_activation hb ⟨front, back, rfl, hk, ?_⟩
    obtain ⟨t₁, ts, rfl, hk₁, ha⟩ := After.cons_iff.mp ha
    obtain ⟨t₂, ts, rfl, hk₂, ha⟩ := After.cons_iff.mp ha
    refine .cons (.testCase hk₁) (.cons (.caseOpen hk₂) ?_)
    obtain ⟨front, back, rfl, hk, ha⟩ := After.append_iff.mp ha
    refine run_listing (fun t _ ↦ readsValue t) trivial hvs .arguments ⟨front, back, rfl, hk, ?_⟩
    obtain ⟨t₃, ts, rfl, hk₃, ha⟩ := After.cons_iff.mp ha
    have hr : Run loader (.expectation { test with activator? := b? } args e.channel)
        { d with heap := h₂ } ts .item d' := run_expectation hc ha
    cases hv : e.channel with
    | returned => exact .cons (.expect (by rw [hk₃, hv, channelWord])) (by rwa [hv] at hr)
    | thrown => exact .cons (.throws (by rw [hk₃, hv, channelWord])) (by rwa [hv] at hr)

/-- A run that has taken the arguments of a case takes the rest of its entry. -/
theorem entry_of_arguments {t t₁ t₂ : Token} {front rest : List Token} {arguments : List Term}
    {trailing : Bool} {vs : List Value} {h : Heap} (channel : Channel)
    (hk : t.kind = .keyword .testCase) (hk₁ : t₁.kind = .symbol .leftParen)
    (hkl : front.map Token.kind = listing trailing (arguments.map Term.kinds))
    (hvs : MakesAll (d.scope test.owner) arguments d.heap vs h)
    (hk₂ : t₂.kind = channelWord channel)
    (hr : Run loader (.expectation test vs channel) { d with heap := h } rest .item d') :
    ∃ e c heap, DeclaresCase (d.scope test.owner) test.activator? d.heap e c heap ∧
      After loader e.kinds
        (.caseEnd { test with activator? := c.activator?, cases := test.cases ++ [c] })
        { d with heap } (t :: t₁ :: (front ++ t₂ :: rest)) d' := by
  obtain ⟨loose, expected, c, heap, hc, ha⟩ := expectation_of_run hr
  refine ⟨⟨[], arguments, trailing, channel, loose, expected⟩, _, heap, ⟨.nil, hvs, hc⟩, ?_⟩
  rw [Entry.kinds, enclosed_eq, List.append_assoc]
  refine .of_cons hk (.of_cons hk₁ ?_)
  exact After.append_iff.mpr ⟨front, t₂ :: rest, rfl, hkl, .of_cons hk₂ ha⟩

/-- A run takes an entry where one can stand. -/
theorem entry_of_run (h : Run loader (.entry test) d ts .item d') :
    ∃ e c heap, DeclaresCase (d.scope test.owner) test.activator? d.heap e c heap ∧
      After loader e.kinds
        (.caseEnd { test with activator? := c.activator?, cases := test.cases ++ [c] })
        { d with heap } ts d' := by
  induction hn : ts.length using Nat.strongRecOn generalizing ts test d with
  | ind n ih =>
    obtain ⟨t, ts, q, d₁, rfl, hs, hr⟩ := (run_iff_step (by simp)).mp h
    cases hs with
    | onTarget hk =>
      rcases begins_of_run hr with hv | ⟨_, _, _, _, hp, _⟩ | ⟨_, _, hc, _⟩
      · obtain ⟨term, a, h₁, q, d₁, _, hd, hf, front, rest, rfl, hk', hr⟩ := hv
        cases hf
        obtain ⟨t₁, rest, q, d₁, rfl, hs, hr⟩ := (run_iff_step (by simp)).mp hr
        cases hs with
        | activatorEnd hk₁ =>
          have hlt : rest.length < n := by
            rw [← hn, List.length_cons, List.length_append, List.length_cons]
            omega
          obtain ⟨e, c, heap, ⟨hb, hvs, hc⟩, ha⟩ := ih rest.length hlt hr rfl
          refine ⟨{ e with activators := term :: e.activators }, _, heap,
            ⟨.cons hd hb, hvs, hc⟩, ?_⟩
          rw [Entry.kinds, activation, List.flatMap_cons]
          simp only [List.cons_append, List.append_assoc]
          refine .of_cons hk (After.append_iff.mpr ⟨front, t₁ :: rest, rfl, hk', ?_⟩)
          simpa [Entry.kinds, activation] using After.of_cons hk₁ ha
      · exact absurd hp id
      · exact absurd hc.listed id
    | testCase hk =>
      obtain ⟨t₁, ts, q, d₁, rfl, hs, hr⟩ := (run_iff_step (by simp)).mp hr
      cases hs with
      | caseOpen hk₁ =>
        obtain ⟨arguments, trailing, vs, h₁, q, d₁, hvs, hc, front, rest, rfl, hkl, hr⟩ :=
          list_of_run (p := ⟨test, .argument [], []⟩) trivial hr
        cases hc
        obtain ⟨t₂, rest, q, d₁, rfl, hs, hr⟩ := (run_iff_step (by simp)).mp hr
        -- The keyword decides the channel, and the expected result follows.
        cases hs with
        | expect hk₂ => exact entry_of_arguments .returned hk hk₁ hkl hvs hk₂ hr
        | throws hk₂ => exact entry_of_arguments .thrown hk hk₁ hkl hvs hk₂ hr

/-! ### Tests -/

/-- The draft with one more test, made in some heap. -/
def Draft.withTest (d : Draft) (test : Test) (heap : Heap) : Draft :=
  { d with heap, current := { d.current with tests := d.current.tests ++ [test] } }

/-- The tokens of the entries of a test are read; the test gets their cases. -/
theorem run_block {e : Entry} {rest : List Entry} {cases : List Case} {h : Heap}
    {target : Callable}
    (hc : DeclaresCases (d.scope test.owner) test.activator? d.heap (e :: rest) cases h)
    (ht : d.library.callable? test.owner test.method
      (OpenTest.signature { test with cases := test.cases ++ cases }) = some target)
    (ha : After loader (block e rest) .item (d.withTest ⟨target, test.cases ++ cases⟩ h) ts d') :
    Run loader (.entry test) d ts .item d' := by
  induction rest generalizing e test d cases ts with
  | nil =>
    rcases hc with _ | ⟨hc, ⟨⟩⟩
    rw [block] at ha
    obtain ⟨front, back, rfl, hk, ha⟩ := After.append_iff.mp ha
    obtain ⟨t, back, rfl, hk₁, ha⟩ := After.cons_iff.mp ha
    exact run_entry hc ⟨front, t :: back, rfl, hk, .cons (.lastCase hk₁ ht) (After.nil_iff.mp ha)⟩
  | cons next rest ih =>
    rcases hc with _ | ⟨hc, hcs⟩
    rename_i c cases h₁
    rw [block] at ha
    obtain ⟨front, back, rfl, hk, ha⟩ := After.append_iff.mp ha
    obtain ⟨t, back, rfl, hk₁, ha⟩ := After.cons_iff.mp ha
    rw [← List.singleton_append, ← List.append_assoc] at ht ha
    refine run_entry hc ⟨front, t :: back, rfl, hk, .cons (.caseComma hk₁) ?_⟩
    exact ih (d := { d with heap := h₁ }) hcs ht ha

/-- A run takes the entries of a test up to its end. -/
theorem block_of_run (h : Run loader (.entry test) d ts .item d') :
    ∃ e rest c cases heap target,
      DeclaresCases (d.scope test.owner) test.activator? d.heap (e :: rest) (c :: cases) heap ∧
      d.library.callable? test.owner test.method
        (OpenTest.signature { test with cases := test.cases ++ c :: cases }) = some target ∧
      After loader (block e rest) .item (d.withTest ⟨target, test.cases ++ c :: cases⟩ heap)
        ts d' := by
  induction hn : ts.length using Nat.strongRecOn generalizing ts test d with
  | ind n ih =>
    obtain ⟨e, c, h₁, hc, front, rest, rfl, hk, hr⟩ := entry_of_run h
    obtain ⟨t, rest, q, d₁, rfl, hs, hr⟩ := (run_iff_step (by simp)).mp hr
    cases hs with
    | lastCase hk₁ ht =>
      refine ⟨e, [], c, [], h₁, _, .cons hc .nil, ht, ?_⟩
      exact After.append_iff.mpr ⟨front, t :: rest, rfl, hk, .of_cons hk₁ (After.nil_iff.mpr hr)⟩
    | caseComma hk₁ =>
      have hlt : rest.length < n := by
        rw [← hn, List.length_append, List.length_cons]
        omega
      obtain ⟨e', es, c', cases, heap, target, hcs, ht, ha⟩ := ih rest.length hlt hr rfl
      rw [List.append_assoc, List.singleton_append] at ht ha
      refine ⟨e, e' :: es, c, c' :: cases, heap, target, .cons hc hcs, ht, ?_⟩
      exact After.append_iff.mpr ⟨front, t :: rest, rfl, hk, .of_cons hk₁ ha⟩

/-- The tokens of parameter types are read. -/
theorem run_parameters {names : List String} {trailing : Bool} {before types : List TypeName}
    (ht : names.map (d.scope test.owner).type? = types.map some)
    (ha : After loader (listing trailing (names.map fun name ↦ [.identifier name]))
      (.testColon { test with signature? := some (before ++ types) }) d ts d') :
    Run loader (.parameter test before) d ts .item d' := by
  induction names generalizing before types ts with
  | nil =>
    rw [List.map_nil, eq_comm, List.map_eq_nil_iff] at ht
    obtain ⟨t, rest, rfl, hk, ha⟩ := After.cons_iff.mp ha
    rw [ht, List.append_nil] at ha
    exact .cons (.parametersEnd hk) (After.nil_iff.mp ha)
  | cons name rest ih =>
    rw [List.map_cons, eq_comm, List.map_eq_cons_iff] at ht
    obtain ⟨type, types, rfl, hn, ht⟩ := ht
    rw [← List.singleton_append (l := types), ← List.append_assoc] at ha
    -- Behind the name stands a comma with more names, or the end of the list.
    have hcomma : ∀ ts, After loader
        (.symbol .comma :: listing trailing (rest.map fun name ↦ [.identifier name]))
        (.testColon { test with signature? := some (before ++ [type] ++ types) }) d ts d' →
        Run loader (.parameterEnd test (before ++ [type])) d ts .item d' := by
      intro ts ha
      obtain ⟨t, ts, rfl, hk, ha⟩ := After.cons_iff.mp ha
      exact .cons (.parameterComma hk) (ih ht.symm ha)
    cases rest with
    | nil =>
      cases trailing with
      | true =>
        obtain ⟨t, ts, rfl, hk, ha⟩ := After.cons_iff.mp ha
        exact .cons (.parameter hk hn.symm) (hcomma ts ha)
      | false =>
        obtain ⟨t, ts, rfl, hk, ha⟩ := After.cons_iff.mp ha
        obtain ⟨t₁, ts, rfl, hk₁, ha⟩ := After.cons_iff.mp ha
        rw [List.map_nil, List.map_eq_nil_iff] at ht
        rw [ht, List.append_nil] at ha
        exact .cons (.parameter hk hn.symm) (.cons (.lastParameter hk₁) (After.nil_iff.mp ha))
    | cons next rest =>
      obtain ⟨t, ts, rfl, hk, ha⟩ := After.cons_iff.mp ha
      exact .cons (.parameter hk hn.symm) (hcomma ts ha)

/-- A run takes parameter types up to the end of their list. -/
theorem parameters_of_run {before : List TypeName}
    (h : Run loader (.parameter test before) d ts .item d') :
    ∃ (names : List String) (trailing : Bool) (types : List TypeName),
      names.map (d.scope test.owner).type? = types.map some ∧
      After loader (listing trailing (names.map fun name ↦ [.identifier name]))
        (.testColon { test with signature? := some (before ++ types) }) d ts d' := by
  induction hn : ts.length using Nat.strongRecOn generalizing ts before with
  | ind n ih =>
    obtain ⟨t, ts, q, d₁, rfl, hs, hr⟩ := (run_iff_step (by simp)).mp h
    cases hs with
    | parametersEnd hk =>
      refine ⟨[], false, [], rfl, .of_cons hk (After.nil_iff.mpr ?_)⟩
      rwa [List.append_nil]
    | @parameter _ _ name type _ _ hk ht =>
      obtain ⟨t₁, ts, q, d₁, rfl, hs, hr⟩ := (run_iff_step (by simp)).mp hr
      cases hs with
      | lastParameter hk₁ =>
        refine ⟨[name], false, [type], ?_, .of_cons hk (.of_cons hk₁ (After.nil_iff.mpr hr))⟩
        rw [List.map_singleton, List.map_singleton]
        exact congrArg (fun t? ↦ [t?]) ht
      | parameterComma hk₁ =>
        obtain ⟨names, trailing, types, hts, ha⟩ :=
          ih ts.length (by rw [← hn]; simp only [List.length_cons]; omega) hr rfl
        have hall : (name :: names).map (d.scope test.owner).type? = (type :: types).map some := by
          rw [List.map_cons, List.map_cons, hts]
          exact congrArg (fun t? ↦ t? :: types.map some) ht
        rw [List.append_assoc, List.singleton_append] at ha
        cases names with
        | nil => exact ⟨[name], true, type :: types, hall, .of_cons hk (.of_cons hk₁ ha)⟩
        | cons next names =>
          exact ⟨name :: next :: names, trailing, type :: types, hall,
            .of_cons hk (.of_cons hk₁ ha)⟩

/-- The method of a test has the listed parameter types, or else those of the first arguments. -/
theorem signature_eq (test : OpenTest) (first : Case) (others : List Case) :
    OpenTest.signature { test with cases := first :: others } =
      test.signature?.getD (first.arguments.map Value.typeName) := by
  obtain ⟨owner, method, span, signature?, activator?, cases⟩ := test
  cases signature? <;> rfl

/-- The tokens of a test are read; it is added to the draft. -/
theorem run_test {t : TestText} {owner : TypeName} {declared : Test} {h : Heap}
    (ho : d.library.type? d.namespaces t.owner = some owner)
    (ht : DeclaresTest (d.scope owner) t d.heap declared h)
    (ha : After loader t.kinds .item (d.withTest declared h) ts d') :
    Run loader .item d ts .item d' := by
  cases ht with
  | @intro listed? first others target _ _ htypes hcases htarget =>
    simp only [TestText.kinds, List.cons_append] at ha
    obtain ⟨t₁, ts, rfl, hk₁, ha⟩ := After.cons_iff.mp ha
    obtain ⟨t₂, ts, rfl, hk₂, ha⟩ := After.cons_iff.mp ha
    obtain ⟨t₃, ts, rfl, hk₃, ha⟩ := After.cons_iff.mp ha
    obtain ⟨t₄, ts, rfl, hk₄, ha⟩ := After.cons_iff.mp ha
    refine .cons (.perform hk₁) (.cons (.testType hk₂ ho) (.cons (.arrow hk₃) ?_))
    refine .cons (.methodName hk₄) ?_
    -- The entries are the same with and without listed types.
    have hblock : ∀ ts, After loader (block t.first t.others) .item
        (d.withTest ⟨target, first :: others⟩ h) ts d' →
        Run loader (.entry ⟨owner, t.method, t₄.span, listed?, none, []⟩) d ts .item d' := by
      intro ts ha
      refine run_block hcases ?_ ha
      rw [List.nil_append, signature_eq]
      exact htarget
    obtain ⟨front, back, rfl, hk, ha⟩ := After.append_iff.mp ha
    obtain ⟨t₅, back, rfl, hk₅, hentries⟩ := After.cons_iff.mp ha
    cases hp : t.parameters? with
    | none =>
      rw [hp] at htypes hk
      cases htypes
      rw [parameters, List.map_eq_nil_iff] at hk
      rw [hk, List.nil_append]
      exact .cons (.noParameters hk₅) (hblock back hentries)
    | some p =>
      rw [hp] at htypes hk
      rcases htypes with _ | ⟨htypes⟩
      rename_i names trailing types
      rw [parameters, enclosed_eq] at hk
      obtain ⟨t₆, front, rfl, hk₆, hk⟩ := List.map_eq_cons_iff.mp hk
      refine .cons (.parameters hk₆) (run_parameters htypes ⟨front, t₅ :: back, rfl, hk, ?_⟩)
      exact .cons (.testColon hk₅) (hblock back hentries)

/-- A run that has taken the head of a test, with or without listed types, takes its entries. -/
theorem test_of_entries {owner : TypeName} {name method : String} {t₂ t₃ t₄ t₅ : Token}
    {front back : List Token} {parameters? : Option (List String × Bool)}
    {listed? : Option (List TypeName)} (hk₂ : t₂.kind = .identifier name)
    (hk₃ : t₃.kind = .symbol .arrow) (hk₄ : t₄.kind = .identifier method)
    (htypes : DeclaresTypes (d.scope owner) parameters? listed?)
    (hk : front.map Token.kind = parameters parameters?) (hk₅ : t₅.kind = .symbol .colon)
    (hr : Run loader (.entry ⟨owner, method, t₄.span, listed?, none, []⟩) d back .item d') :
    ∃ (t : TestText) (declared : Test) (heap : Heap),
      t.owner = name ∧ DeclaresTest (d.scope owner) t d.heap declared heap ∧
      After loader t.kinds.tail .item (d.withTest declared heap)
        (t₂ :: t₃ :: t₄ :: (front ++ t₅ :: back)) d' := by
  obtain ⟨e, rest, c, cases, heap, target, hcases, ht, ha⟩ := block_of_run hr
  rw [List.nil_append] at ht ha
  rw [signature_eq] at ht
  refine ⟨⟨name, method, parameters?, e, rest⟩, _, heap, rfl, ⟨htypes, hcases, ht⟩, ?_⟩
  simp only [TestText.kinds, List.cons_append, List.tail_cons]
  refine .of_cons hk₂ (.of_cons hk₃ (.of_cons hk₄ ?_))
  exact After.append_iff.mpr ⟨front, t₅ :: back, rfl, hk, .of_cons hk₅ ha⟩

/-- A run takes a test from the name of its type on. -/
theorem test_of_run (h : Run loader .testType d ts .item d') :
    ∃ (t : TestText) (owner : TypeName) (declared : Test) (heap : Heap),
      d.library.type? d.namespaces t.owner = some owner ∧
      DeclaresTest (d.scope owner) t d.heap declared heap ∧
      After loader t.kinds.tail .item (d.withTest declared heap) ts d' := by
  obtain ⟨t₂, ts, q, d₁, rfl, hs, hr⟩ := (run_iff_step (by simp)).mp h
  cases hs with
  | @testType name owner _ _ hk₂ ho =>
    obtain ⟨t₃, ts, q, d₁, rfl, hs, hr⟩ := (run_iff_step (by simp)).mp hr
    cases hs with
    | arrow hk₃ =>
      obtain ⟨t₄, ts, q, d₁, rfl, hs, hr⟩ := (run_iff_step (by simp)).mp hr
      cases hs with
      | @methodName _ method _ _ hk₄ =>
        obtain ⟨t₅, ts, q, d₁, rfl, hs, hr⟩ := (run_iff_step (by simp)).mp hr
        cases hs with
        | noParameters hk₅ =>
          obtain ⟨t, declared, heap, rfl, ht, ha⟩ :=
            test_of_entries hk₂ hk₃ hk₄ .none List.map_nil hk₅ hr
          exact ⟨t, owner, declared, heap, ho, ht, ha⟩
        | parameters hk₅ =>
          obtain ⟨names, trailing, types, htypes, front, rest, rfl, hk, hr⟩ := parameters_of_run hr
          obtain ⟨t₆, rest, q, d₁, rfl, hs, hr⟩ := (run_iff_step (by simp)).mp hr
          cases hs with
          | testColon hk₆ =>
            have hks : (t₅ :: front).map Token.kind = parameters (some (names, trailing)) := by
              rw [parameters, enclosed_eq, List.map_cons, hk₅, hk]
            obtain ⟨t, declared, heap, rfl, ht, ha⟩ :=
              test_of_entries hk₂ hk₃ hk₄ (.some htypes) hks hk₆ hr
            exact ⟨t, owner, declared, heap, ho, ht, ha⟩

/-! ### Programs -/

/-- The tokens of an item are read; the draft gets what the item declares. -/
theorem run_item {i : Item} (hi : DeclaresItem loader i d d₁)
    (ha : After loader i.kinds .item d₁ ts d') : Run loader .item d ts .item d' := by
  cases hi with
  | unit hl =>
    obtain ⟨t₁, ts, rfl, hk₁, ha⟩ := After.cons_iff.mp ha
    obtain ⟨t₂, ts, rfl, hk₂, ha⟩ := After.cons_iff.mp ha
    obtain ⟨t₃, ts, rfl, hk₃, ha⟩ := After.cons_iff.mp ha
    exact .cons (.use hk₁) (.cons (.path hk₂ hl) (.cons (.unitEnd hk₃) (After.nil_iff.mp ha)))
  | inNamespace =>
    obtain ⟨t₁, ts, rfl, hk₁, ha⟩ := After.cons_iff.mp ha
    obtain ⟨t₂, ts, rfl, hk₂, ha⟩ := After.cons_iff.mp ha
    obtain ⟨t₃, ts, rfl, hk₃, ha⟩ := After.cons_iff.mp ha
    obtain ⟨t₄, ts, rfl, hk₄, ha⟩ := After.cons_iff.mp ha
    refine .cons (.use hk₁) (.cons (.inNamespace hk₂) (.cons (.namespaceName hk₃) ?_))
    exact .cons (.namespaceEnd hk₄) (After.nil_iff.mp ha)
  | group hn =>
    obtain ⟨t₁, ts, rfl, hk₁, ha⟩ := After.cons_iff.mp ha
    obtain ⟨t₂, ts, rfl, hk₂, ha⟩ := After.cons_iff.mp ha
    obtain ⟨t₃, ts, rfl, hk₃, ha⟩ := After.cons_iff.mp ha
    refine .cons (.testGroup hk₁) (.cons (.groupName hk₂) ?_)
    exact .cons (.groupEnd hk₃ hn) (After.nil_iff.mp ha)
  | test ho ht => exact run_test ho ht ha

/-- A run over some tokens takes an item first. -/
theorem item_of_run {t : Token} (h : Run loader .item d (t :: ts) .item d') :
    ∃ i d₁, DeclaresItem loader i d d₁ ∧ After loader i.kinds .item d₁ (t :: ts) d' := by
  rcases h with _ | ⟨hs, hr⟩
  cases hs with
  | use hk₁ =>
    obtain ⟨t₂, ts, q, d₁, rfl, hs, hr⟩ := (run_iff_step (by simp)).mp hr
    cases hs with
    | @path path u library _ _ hk₂ hl =>
      obtain ⟨t₃, ts, q, d₁, rfl, hs, hr⟩ := (run_iff_step (by simp)).mp hr
      cases hs with
      | unitEnd hk₃ =>
        exact ⟨.unit path, _, .unit hl,
          .of_cons hk₁ (.of_cons hk₂ (.of_cons hk₃ (After.nil_iff.mpr hr)))⟩
    | inNamespace hk₂ =>
      obtain ⟨t₃, ts, q, d₁, rfl, hs, hr⟩ := (run_iff_step (by simp)).mp hr
      cases hs with
      | @namespaceName name _ _ hk₃ =>
        obtain ⟨t₄, ts, q, d₁, rfl, hs, hr⟩ := (run_iff_step (by simp)).mp hr
        cases hs with
        | namespaceEnd hk₄ =>
          exact ⟨.inNamespace name, _, .inNamespace,
            .of_cons hk₁ (.of_cons hk₂ (.of_cons hk₃ (.of_cons hk₄ (After.nil_iff.mpr hr))))⟩
  | testGroup hk₁ =>
    obtain ⟨t₂, ts, q, d₁, rfl, hs, hr⟩ := (run_iff_step (by simp)).mp hr
    cases hs with
    | @groupName name _ _ hk₂ =>
      obtain ⟨t₃, ts, q, d₁, rfl, hs, hr⟩ := (run_iff_step (by simp)).mp hr
      cases hs with
      | groupEnd hk₃ hn =>
        exact ⟨.group name, _, .group hn,
          .of_cons hk₁ (.of_cons hk₂ (.of_cons hk₃ (After.nil_iff.mpr hr)))⟩
  | perform hk₁ =>
    obtain ⟨text, owner, declared, heap, ho, ht, ha⟩ := test_of_run hr
    exact ⟨.test text, _, .test ho ht, .of_cons hk₁ ha⟩

/-- Every item has a token. -/
theorem Grammar.Item.kinds_ne_nil (i : Item) : i.kinds ≠ [] := by
  cases i <;> simp [Item.kinds, TestText.kinds]

/-- The tokens of a program are read; the draft gets what the program declares. -/
theorem run_program {p : Program} (hp : Declares loader p d d') (hk : ts.map Token.kind = p.kinds) :
    Run loader .item d ts .item d' := by
  induction hp generalizing ts with
  | nil =>
    rw [Program.kinds, List.flatMap_nil, List.map_eq_nil_iff] at hk
    rw [hk]
    exact .nil
  | @cons i rest _ _ _ hi _ ih =>
    rw [Program.kinds, List.flatMap_cons] at hk
    obtain ⟨front, back, rfl, hf, hb⟩ := List.map_eq_append_iff.mp hk
    exact run_item hi ⟨front, back, rfl, hf, ih hb⟩

/-- A run between two items takes the tokens of a program. -/
theorem program_of_run (h : Run loader .item d ts .item d') :
    ∃ p : Program, ts.map Token.kind = p.kinds ∧ Declares loader p d d' := by
  induction hn : ts.length using Nat.strongRecOn generalizing ts d with
  | ind n ih =>
    cases ts with
    | nil =>
      rcases h with ⟨⟩
      exact ⟨[], rfl, .nil⟩
    | cons t ts =>
      obtain ⟨i, d₁, hi, front, rest, hts, hk, hr⟩ := item_of_run h
      have hlt : rest.length < n := by
        have hfront : 0 < front.length := by
          rw [← List.length_map Token.kind, hk]
          exact List.length_pos_iff.mpr i.kinds_ne_nil
        rw [← hn, hts, List.length_append]
        omega
      obtain ⟨p, hp, hd⟩ := ih rest.length hlt hr rfl
      refine ⟨i :: p, ?_, .cons hi hd⟩
      rw [hts, List.map_append, hk, hp, Program.kinds, Program.kinds, List.flatMap_cons]

namespace Plan

/-- A source that is read is a program that declares its plan. -/
theorem program_of_read {library : Library} {heap : Heap} {tokens : List Token} {plan : Plan}
    {d : Draft} (hread : read loader tokens (.start library heap) = (.ok plan, d)) :
    ∃ program : Program, tokens.map Token.kind = program.kinds ∧
      Declares loader program (.start library heap) d ∧ plan = d.plan := by
  obtain ⟨hrun, hplan⟩ := read_eq_ok_iff_run.mp hread
  obtain ⟨program, hkinds, hdeclares⟩ := program_of_run hrun
  exact ⟨program, hkinds, hdeclares, hplan⟩

/-- The reader accepts exactly the programs of the grammar that declare a plan, and gives this plan.
-/
theorem read_start_eq_ok_iff (loader : Loader) (library : Library) (heap : Heap)
    (tokens : List Token) (plan : Plan) (d : Draft) :
    read loader tokens (.start library heap) = (.ok plan, d) ↔
      ∃ program : Program, tokens.map Token.kind = program.kinds ∧
        Declares loader program (.start library heap) d ∧ plan = d.plan := by
  rw [read_eq_ok_iff_run]
  constructor
  · rintro ⟨hr, hplan⟩
    obtain ⟨program, hk, hd⟩ := program_of_run hr
    exact ⟨program, hk, hd, hplan⟩
  · rintro ⟨program, hk, hd, hplan⟩
    exact ⟨run_program hd hk, hplan⟩

end Plan

end TestDeclaration

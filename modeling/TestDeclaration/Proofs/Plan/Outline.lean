import TestDeclaration.Proofs.Plan.Acceptance

/-!
# The outline of a plan

Three keywords open something: `test_group` a group, `do` a test and `case` a case. No other part
of the grammar contains them. So the keywords alone, in the order of the text, say how many groups,
tests and cases there are and which are inside which: they are the outline of the plan.
-/

/-- Splitting a list and filtering it commute, as long as the separator passes the filter. -/
theorem List.splitOn_filter {α : Type} [BEq α] [LawfulBEq α] {p : α → Bool} {a : α} (ha : p a)
    (xs : List α) : (xs.filter p).splitOn a = (xs.splitOn a).map (List.filter p) := by
  induction xs with
  | nil => rfl
  | cons x xs ih =>
    rw [List.splitOn_cons_eq_if_modifyHead]
    by_cases hxa : x = a
    · subst hxa
      rw [List.filter_cons_of_pos ha, List.splitOn_cons_eq_if_modifyHead, ih]
      simp
    · have hne : (x == a) = false := beq_eq_false_iff_ne.mpr hxa
      rw [hne, if_neg Bool.false_ne_true]
      generalize xs.splitOn a = parts at ih ⊢
      by_cases hx : p x
      · rw [List.filter_cons_of_pos hx, List.splitOn_cons_eq_if_modifyHead, ih, hne,
          if_neg Bool.false_ne_true]
        cases parts <;> simp [hx]
      · rw [List.filter_cons_of_neg hx, ih]
        cases parts <;> simp [hx]

/-- Lists with a separator in front of each are split at it, behind an empty first part. -/
theorem List.splitOn_flatMap_cons {α β : Type} [BEq α] [LawfulBEq α] {a : α} {f : β → List α}
    (bs : List β) (hf : ∀ b ∈ bs, a ∉ f b) :
    (bs.flatMap fun b ↦ a :: f b).splitOn a = [] :: bs.map f := by
  have hflat : ∀ l : List α,
      [a].intercalate (l :: bs.map f) = l ++ bs.flatMap fun b ↦ a :: f b := by
    clear hf
    induction bs with
    | nil => simp
    | cons b rest ih =>
      intro l
      rw [List.map_cons, List.intercalate_cons_cons, ih, List.flatMap_cons]
      simp
  rw [← List.nil_append (bs.flatMap _), ← hflat []]
  refine List.splitOn_intercalate a ?_ (List.cons_ne_nil _ _)
  simpa using hf

namespace TestDeclaration

/-- Whether a token opens a group, a test or a case. -/
def TokenKind.opens : TokenKind → Bool
  | .keyword .testGroup | .keyword .perform | .keyword .testCase => true
  | _ => false

/-- The keywords that open a test and its cases. -/
def Test.outline (t : Test) : List TokenKind :=
  .keyword .perform :: List.replicate t.cases.length (.keyword .testCase)

/-- The keywords that open the tests of a group. -/
def Group.outline (g : Group) : List TokenKind := g.tests.flatMap Test.outline

/-- The keywords that open the groups of a plan. -/
def Plan.outline (p : Plan) : List TokenKind :=
  p.flatMap fun g ↦ .keyword .testGroup :: g.outline

/-! ### The keywords of a text -/

namespace Grammar

/-- A list in parentheses opens what its parts open. -/
theorem filter_opens_enclosed {parts : List (List TokenKind)} (trailing : Bool)
    (h : ∀ part ∈ parts, part.filter TokenKind.opens = []) :
    (enclosed parts trailing).filter TokenKind.opens = [] := by
  have hlisting : (listing trailing parts).filter TokenKind.opens = [] := by
    fun_induction listing trailing parts with
    | case1 => rfl
    | case2 part htrailing | case3 part htrailing =>
      rw [List.filter_append, h part List.mem_cons_self]
      rfl
    | case4 part next rest ih =>
      obtain ⟨hpart, hrest⟩ := List.forall_mem_cons.mp h
      rw [List.filter_append, hpart, List.nil_append, ← ih hrest]
      rfl
  rw [enclosed_eq, ← hlisting]
  rfl

/-- A value opens nothing. -/
theorem Term.filter_opens_kinds (t : Term) : t.kinds.filter TokenKind.opens = [] := by
  induction t using Term.induction with
  | literal | typeName => rfl
  | create type? arguments trailing ih =>
    have harguments : ∀ part ∈ kindsOfAll arguments, part.filter TokenKind.opens = [] := by
      rw [kindsOfAll_eq_map]
      intro part hpart
      obtain ⟨t, ht, rfl⟩ := List.mem_map.mp hpart
      exact ih t ht
    rw [kinds, List.filter_append, filter_opens_enclosed trailing harguments]
    cases type? <;> rfl

/-- Activators open nothing. -/
theorem filter_opens_activation (activators : List Term) :
    (activation activators).filter TokenKind.opens = [] := by
  rw [activation, List.filter_flatMap, List.flatMap_eq_nil_iff]
  intro t _
  rw [List.cons_append, List.filter_cons_of_neg (by decide), List.filter_append,
    t.filter_opens_kinds]
  rfl

/-- An expected result opens nothing. -/
theorem filter_opens_demand (loose : Bool) (expected : Term) :
    (demand loose expected).filter TokenKind.opens = [] := by
  unfold demand
  split
  · rw [List.filter_cons_of_neg (by decide), expected.filter_opens_kinds]
  · exact expected.filter_opens_kinds

/-- An entry opens one case. -/
theorem Entry.filter_opens_kinds (e : Entry) :
    e.kinds.filter TokenKind.opens = [.keyword .testCase] := by
  have harguments : ∀ part ∈ e.arguments.map Term.kinds, part.filter TokenKind.opens = [] := by
    intro part hpart
    obtain ⟨t, -, rfl⟩ := List.mem_map.mp hpart
    exact t.filter_opens_kinds
  have hword : (channelWord e.channel).opens = false := by cases e.channel <;> rfl
  rw [kinds, List.append_assoc, List.filter_append, filter_opens_activation, List.nil_append,
    List.cons_append, List.filter_cons_of_pos rfl, List.filter_append,
    filter_opens_enclosed e.trailing harguments, List.nil_append,
    List.filter_cons_of_neg (by simp [hword]), filter_opens_demand]

/-- Entries open one case each. -/
theorem filter_opens_block (e : Entry) (rest : List Entry) :
    (block e rest).filter TokenKind.opens =
      List.replicate (rest.length + 1) (.keyword .testCase) := by
  fun_induction block e rest with
  | case1 e =>
    rw [List.filter_append, e.filter_opens_kinds]
    rfl
  | case2 e next rest ih =>
    rw [List.filter_append, e.filter_opens_kinds, List.filter_cons_of_neg (by decide), ih]
    rfl

/-- A test opens itself and its cases. -/
theorem TestText.filter_opens_kinds (t : TestText) : t.kinds.filter TokenKind.opens =
    .keyword .perform :: List.replicate (t.others.length + 1) (.keyword .testCase) := by
  have hparameters : (parameters t.parameters?).filter TokenKind.opens = [] := by
    cases t.parameters? with
    | none => rfl
    | some listed =>
      apply filter_opens_enclosed
      intro part hpart
      obtain ⟨name, -, rfl⟩ := List.mem_map.mp hpart
      rfl
  have hhead : t.kinds = [.keyword .perform, .identifier t.owner, .symbol .arrow,
      .identifier t.method] ++ parameters t.parameters? ++ [.symbol .colon] ++
        block t.first t.others := by
    simp [kinds]
  rw [hhead, List.filter_append, List.filter_append, List.filter_append, hparameters,
    filter_opens_block]
  rfl

/-! ### The keywords of a plan -/

variable {s : Scope} {loader : Loader}

/-- Each entry declares one case. -/
theorem DeclaresCases.length_eq {a? : Option Expression} {h h' : Heap} {es : List Entry}
    {cs : List Case} (hd : DeclaresCases s a? h es cs h') : cs.length = es.length := by
  induction hd with
  | nil => rfl
  | cons _ _ ih => rw [List.length_cons, List.length_cons, ih]

/-- A test is declared with the outline of its text. -/
theorem DeclaresTest.outline_eq {t : TestText} {h h' : Heap} {test : Test}
    (hd : DeclaresTest s t h test h') : test.outline = t.kinds.filter TokenKind.opens := by
  obtain ⟨_, hcases, _⟩ := hd
  rw [t.filter_opens_kinds, Test.outline, hcases.length_eq, List.length_cons]

/-- An item adds its own keywords to the outline. -/
theorem DeclaresItem.outline_eq {i : Item} {d d' : Draft} (hi : DeclaresItem loader i d d') :
    d'.plan.outline = d.plan.outline ++ i.kinds.filter TokenKind.opens := by
  cases hi with
  | unit | inNamespace => exact (List.append_nil _).symm
  | group =>
    rw [Draft.plan, Plan.outline, List.flatMap_append]
    rfl
  | test _ htest =>
    simp only [Draft.plan, Plan.outline, Group.outline, Item.kinds, ← htest.outline_eq,
      List.flatMap_append, List.flatMap_singleton, List.cons_append, List.append_assoc]

/-- A program adds its keywords to the outline. -/
theorem Declares.outline_eq {p : Program} {d d' : Draft} (hp : Declares loader p d d') :
    d'.plan.outline = d.plan.outline ++ p.kinds.filter TokenKind.opens := by
  induction hp with
  | nil => exact (List.append_nil _).symm
  | @cons i rest _ _ _ hi _ ih =>
    have hkinds : Program.kinds (i :: rest) = i.kinds ++ Program.kinds rest := List.flatMap_cons
    rw [ih, hi.outline_eq, hkinds, List.filter_append, List.append_assoc]

end Grammar

/-! ### Counting -/

@[simp]
private theorem Test.count_perform_outline (t : Test) :
    t.outline.count (.keyword .perform) = 1 := by
  simp [outline, List.count_replicate]

@[simp]
private theorem Test.count_testCase_outline (t : Test) :
    t.outline.count (.keyword .testCase) = t.cases.length := by
  simp [outline]

@[simp]
private theorem Test.not_mem_outline (t : Test) : .keyword .testGroup ∉ t.outline := by
  simp [outline]

@[simp]
private theorem Group.count_perform_outline (g : Group) :
    g.outline.count (.keyword .perform) = g.tests.length := by
  simp [outline, List.count_flatMap, Function.comp_def, List.map_const']

@[simp]
private theorem Group.count_testCase_outline (g : Group) :
    g.outline.count (.keyword .testCase) = (g.tests.flatMap Test.cases).length := by
  simp [outline, List.count_flatMap, List.length_flatMap, Function.comp_def]

@[simp]
private theorem Group.not_mem_outline (g : Group) : .keyword .testGroup ∉ g.outline := by
  simp [outline]

/-- A group without tests has the empty outline. -/
theorem Group.perform_mem_outline (g : Group) :
    .keyword .perform ∈ g.outline ↔ g.tests ≠ [] := by
  rw [← List.count_pos_iff, count_perform_outline, List.length_pos_iff]

namespace Plan

private theorem count_testGroup_outline (p : Plan) :
    p.outline.count (.keyword .testGroup) = p.length := by
  have hone : ∀ g : Group,
      (.keyword .testGroup :: g.outline : List TokenKind).count (.keyword .testGroup) = 1 :=
    fun g ↦ by rw [List.count_cons_self, List.count_eq_zero.mpr g.not_mem_outline]
  simp [outline, List.count_flatMap, Function.comp_def, hone, List.map_const']

/-- The outline of a plan has one `do` for each test. -/
theorem count_perform_outline (p : Plan) :
    p.outline.count (.keyword .perform) = (p.flatMap Group.tests).length := by
  simp [outline, List.count_flatMap, List.length_flatMap, Function.comp_def]

private theorem count_testCase_outline (p : Plan) : p.outline.count (.keyword .testCase) =
    (p.flatMap fun g ↦ g.tests.flatMap Test.cases).length := by
  rw [outline, List.count_flatMap, List.length_flatMap]
  congr 2
  funext g
  simp

variable {loader : Loader} {library : Library} {heap : Heap} {tokens : List Token} {plan : Plan}
  {d : Draft} (hread : Plan.read loader tokens (.start library heap) = (.ok plan, d))

include hread

/-- Behind the keyword of the first group, which the text leaves out, the outline of a plan is the
list of the keywords of its text. -/
theorem outline_eq_of_read :
    plan.outline = .keyword .testGroup :: (tokens.map Token.kind).filter TokenKind.opens := by
  obtain ⟨program, hkinds, hdeclares, rfl⟩ := program_of_read hread
  rw [hdeclares.outline_eq, ← hkinds]
  rfl

/-- There is one group more than there are `test_group` keywords. -/
theorem length_of_read : plan.length = (tokens.map Token.kind).count (.keyword .testGroup) + 1 := by
  rw [← count_testGroup_outline, outline_eq_of_read hread, List.count_cons_self,
    List.count_filter rfl]

/-- There are as many tests as `do` keywords. -/
theorem length_tests_of_read :
    (plan.flatMap Group.tests).length = (tokens.map Token.kind).count (.keyword .perform) := by
  rw [← count_perform_outline, outline_eq_of_read hread, List.count_cons_of_ne (by decide),
    List.count_filter rfl]

/-- There are as many cases as `case` keywords. -/
theorem length_cases_of_read : (plan.flatMap fun g ↦ g.tests.flatMap Test.cases).length =
    (tokens.map Token.kind).count (.keyword .testCase) := by
  rw [← count_testCase_outline, outline_eq_of_read hread, List.count_cons_of_ne (by decide),
    List.count_filter rfl]

/-- Between two `test_group` keywords, a text has the keywords of one group. -/
theorem outline_groups_of_read :
    ((tokens.map Token.kind).splitOn (.keyword .testGroup)).map (List.filter TokenKind.opens) =
      plan.map Group.outline := by
  have hsplit := List.splitOn_flatMap_cons plan fun g _ ↦ g.not_mem_outline
  rw [← outline, outline_eq_of_read hread, List.splitOn_cons_eq_if_modifyHead,
    if_pos BEq.rfl] at hsplit
  rw [← List.splitOn_filter rfl]
  exact (List.cons.inj hsplit).2

/-- There are as many groups with tests as parts of the text between `test_group` keywords in
which there is a `do`. -/
theorem countP_tests_of_read :
    plan.countP (fun g ↦ !g.tests.isEmpty) =
      ((tokens.map Token.kind).splitOn (.keyword .testGroup)).countP
        (.keyword .perform ∈ ·) := by
  have hfilter : ∀ part : List TokenKind,
      .keyword .perform ∈ part ↔ .keyword .perform ∈ part.filter TokenKind.opens := by
    intro part
    simp [TokenKind.opens]
  have hgroups := congrArg (List.countP (.keyword .perform ∈ ·)) (outline_groups_of_read hread)
  rw [List.countP_map, List.countP_map] at hgroups
  simp only [Function.comp_def, ← hfilter, Group.perform_mem_outline] at hgroups
  rw [hgroups]
  congr 1
  funext g
  cases g.tests <;> rfl

end Plan

end TestDeclaration

import Mathlib.Computability.MyhillNerode
import TestDeclaration.Proofs.Plan.Grammar

/-!
# The language of declarations

The kinds of tokens that the trees of each nonterminal derive, as languages. Each language
satisfies the equation that is its rule in the grammar, and the equation says what is left of the
language once a first token has been read.
-/

/-! ### Left quotients -/

namespace Language

variable {α : Type*} {L M : Language α}

/-- A left quotient is taken in each summand. -/
@[simp]
theorem leftQuotient_add (ks : List α) :
    (L + M).leftQuotient ks = L.leftQuotient ks + M.leftQuotient ks := rfl

@[simp]
private theorem nil_mem_mul : [] ∈ L * M ↔ [] ∈ L ∧ [] ∈ M := by
  constructor
  · rintro ⟨ks, hks, ls, hls, happend⟩
    obtain ⟨rfl, rfl⟩ := List.append_eq_nil_iff.mp happend
    exact ⟨hks, hls⟩
  · rintro ⟨hL, hM⟩
    exact append_mem_mul hL hM

/-- Nothing follows a first word of the empty text. -/
@[simp]
theorem leftQuotient_one_singleton (k : α) : (1 : Language α).leftQuotient [k] = 0 := by
  ext ks
  exact iff_of_false (List.cons_ne_nil k ks) (notMem_zero ks)

/-- A language is not zero if it has a sentence. -/
theorem ne_zero_iff : L ≠ 0 ↔ ∃ ks, ks ∈ L := Set.nonempty_iff_ne_empty.symm

/-- Two words of two languages make a word of their product. -/
instance noZeroDivisors : NoZeroDivisors (Language α) where
  eq_zero_or_eq_zero_of_mul_eq_zero := by
    intro L M h
    by_contra hne
    obtain ⟨hL, hM⟩ := not_or.mp hne
    obtain ⟨ks, hks⟩ := ne_zero_iff.mp hL
    obtain ⟨ls, hls⟩ := ne_zero_iff.mp hM
    exact ne_zero_iff.mpr ⟨_, append_mem_mul hks hls⟩ h

end Language

namespace TestDeclaration.Grammar

open Language

/-! ### Languages -/

/-- One token of some kinds. -/
def oneOf (kinds : Set TokenKind) : Language TokenKind := {ks | ∃ k ∈ kinds, ks = [k]}

/-- One token. -/
abbrev token (kind : TokenKind) : Language TokenKind := oneOf {kind}

/-- Any identifier. -/
abbrev names : Language TokenKind := oneOf {k | ∃ name, k = .identifier name}

/-- Any string, as the path of a unit. -/
abbrev paths : Language TokenKind := oneOf {k | ∃ path, k = .literal (.string path)}

/-- Any literal. -/
abbrev literals : Language TokenKind := oneOf {k | ∃ value, k = .literal value}

/-- All written values. -/
def terms : Language TokenKind := {ks | ∃ t : Term, t.kinds = ks}

/-- What can stand behind the opening parenthesis of a list of some parts. -/
def listings (part : Language TokenKind) : Language TokenKind :=
  {ks | ∃ parts trailing, (∀ ks ∈ parts, ks ∈ part) ∧ listing trailing parts = ks}

/-- All lists of parameter types, and none. -/
def signatures : Language TokenKind := {ks | ∃ parameters?, parameters parameters? = ks}

/-- All expected results. -/
def demands : Language TokenKind := {ks | ∃ loose expected, demand loose expected = ks}

/-- All entries of a test, up to the semicolon. -/
def blocks : Language TokenKind := {ks | ∃ e rest, block e rest = ks}

/-- All items. -/
def items : Language TokenKind := {ks | ∃ i : Item, i.kinds = ks}

/-- All sentences of the grammar. -/
def sentences : Language TokenKind := {ks | ∃ p : Program, p.kinds = ks}

variable {p : Set TokenKind} {L : Language TokenKind} {k : TokenKind} {ks : List TokenKind}

/-! ### One token -/

private theorem mem_oneOf_mul : ks ∈ oneOf p * L ↔ ∃ k ∈ p, ∃ rest ∈ L, k :: rest = ks := by
  rw [mem_mul]
  constructor
  · rintro ⟨_, ⟨k, hk, rfl⟩, rest, hrest, rfl⟩
    exact ⟨k, hk, rest, hrest, rfl⟩
  · rintro ⟨k, hk, rest, hrest, rfl⟩
    exact ⟨[k], ⟨k, hk, rfl⟩, rest, hrest, rfl⟩

@[simp]
private theorem cons_mem_oneOf_mul : k :: ks ∈ oneOf p * L ↔ k ∈ p ∧ ks ∈ L := by
  rw [mem_oneOf_mul]
  constructor
  · rintro ⟨_, hk, _, hks, heq⟩
    cases heq
    exact ⟨hk, hks⟩
  · rintro ⟨hk, hks⟩
    exact ⟨k, hk, ks, hks, rfl⟩

@[simp]
private theorem singleton_mem_oneOf : [k] ∈ oneOf p ↔ k ∈ p := by
  constructor
  · rintro ⟨_, hk, heq⟩
    cases heq
    exact hk
  · exact fun hk ↦ ⟨k, hk, rfl⟩

/-- What is left behind a first token that fits. -/
@[simp]
theorem leftQuotient_oneOf_mul (hk : k ∈ p) : (oneOf p * L).leftQuotient [k] = L := by
  ext ks
  exact cons_mem_oneOf_mul.trans (and_iff_right hk)

/-- Nothing is left behind a first token that does not fit. -/
@[simp]
theorem leftQuotient_oneOf_mul_of_notMem (hk : k ∉ p) : (oneOf p * L).leftQuotient [k] = 0 := by
  ext ks
  exact iff_of_false (fun hks ↦ hk (cons_mem_oneOf_mul.mp hks).1) (notMem_zero ks)

@[simp]
private theorem nil_notMem_oneOf : [] ∉ oneOf p := by
  rintro ⟨k, -, ⟨⟩⟩

@[simp]
private theorem token_ne_zero : token k ≠ 0 := ne_zero_iff.mpr ⟨[k], k, rfl, rfl⟩

@[simp]
private theorem names_ne_zero : names ≠ 0 :=
  ne_zero_iff.mpr ⟨[.identifier ""], _, ⟨"", rfl⟩, rfl⟩

/-! ### Lists -/

variable {P : Language TokenKind}

/-- Behind an opening parenthesis comes the closing one, or a part with one of these behind it: a
comma and the rest, or the closing parenthesis. -/
theorem listings_eq (P : Language TokenKind) : listings P = token (.symbol .rightParen) +
    P * (token (.symbol .comma) * listings P + token (.symbol .rightParen)) := by
  have hclose : [.symbol .rightParen] ∈ listings P := ⟨[], false, List.forall_mem_nil _, rfl⟩
  ext ks
  constructor
  -- The cases are those of `listing`: no part, a last part with or without a comma, more parts.
  · rintro ⟨_ | ⟨part, rest⟩, trailing, hall, rfl⟩
    · exact .inl ⟨_, rfl, rfl⟩
    obtain ⟨hpart, hrest⟩ := List.forall_mem_cons.mp hall
    cases rest with
    | nil =>
      cases trailing with
      | true =>
        exact .inr (append_mem_mul hpart (.inl (cons_mem_oneOf_mul.mpr ⟨rfl, hclose⟩)))
      | false => exact .inr (append_mem_mul hpart (.inr ⟨_, rfl, rfl⟩))
    | cons next rest =>
      have htail : listing trailing (next :: rest) ∈ listings P := ⟨_, trailing, hrest, rfl⟩
      exact .inr (append_mem_mul hpart (.inl (cons_mem_oneOf_mul.mpr ⟨rfl, htail⟩)))
  · rintro (⟨_, rfl, rfl⟩ | hks)
    · exact hclose
    obtain ⟨part, hpart, _, htail | ⟨_, rfl, rfl⟩, rfl⟩ := mem_mul.mp hks
    · obtain ⟨_, rfl, _, ⟨parts, trailing, hall, rfl⟩, rfl⟩ := mem_oneOf_mul.mp htail
      have hall' := List.forall_mem_cons.mpr ⟨hpart, hall⟩
      cases parts with
      | nil => exact ⟨[part], true, hall', rfl⟩
      | cons next rest => exact ⟨part :: next :: rest, trailing, hall', rfl⟩
    · exact ⟨[part], false, List.forall_mem_singleton.mpr hpart, rfl⟩

@[simp]
private theorem nil_notMem_listings : [] ∉ listings P := by
  rw [listings_eq]
  simp [mem_add]

@[simp]
private theorem listings_ne_zero : listings P ≠ 0 :=
  ne_zero_iff.mpr ⟨_, [], false, List.forall_mem_nil _, rfl⟩

/-- Lists of some data, written part by part. -/
theorem mem_listings_iff {α : Type} {part : α → List TokenKind}
    (hP : ∀ ks, ks ∈ P ↔ ∃ a, part a = ks) :
    ks ∈ listings P ↔ ∃ (as : List α) (trailing : Bool), listing trailing (as.map part) = ks := by
  constructor
  · rintro ⟨parts, trailing, hall, rfl⟩
    have hparts : ∃ as : List α, as.map part = parts := by
      induction parts with
      | nil => exact ⟨[], rfl⟩
      | cons text rest ih =>
        obtain ⟨htext, hrest⟩ := List.forall_mem_cons.mp hall
        obtain ⟨a, rfl⟩ := (hP text).mp htext
        obtain ⟨as, rfl⟩ := ih hrest
        exact ⟨a :: as, rfl⟩
    obtain ⟨as, rfl⟩ := hparts
    exact ⟨as, trailing, rfl⟩
  · rintro ⟨as, trailing, rfl⟩
    refine ⟨_, trailing, fun ks hks ↦ ?_, rfl⟩
    obtain ⟨a, -, rfl⟩ := List.mem_map.mp hks
    exact (hP _).mpr ⟨a, rfl⟩

private theorem mem_listings_terms : ks ∈ listings terms ↔
    ∃ (ts : List Term) (trailing : Bool), listing trailing (ts.map Term.kinds) = ks :=
  mem_listings_iff fun _ ↦ Iff.rfl

/-! ### The rules of the grammar -/

/-- A value is a literal, an identifier, or `new`, perhaps an identifier, and arguments. -/
theorem terms_eq : terms = literals + names + token (.keyword .create) *
    ((names + 1) * (token (.symbol .leftParen) * listings terms)) := by
  have hcreate : ∀ (type? : Option String) (arguments : List Term) (trailing : Bool),
      (Term.create type? arguments trailing).kinds =
        .keyword .create :: ((type?.map TokenKind.identifier).toList ++
          .symbol .leftParen :: listing trailing (arguments.map Term.kinds)) := by
    intro type? arguments trailing
    rw [Term.kinds, Term.kindsOfAll_eq_map, enclosed_eq]
    rfl
  ext ks
  constructor
  · rintro ⟨value | name | ⟨type?, arguments, trailing⟩, rfl⟩
    · exact .inl (.inl ⟨_, ⟨value, rfl⟩, rfl⟩)
    · exact .inl (.inr ⟨_, ⟨name, rfl⟩, rfl⟩)
    · have hlist := mem_listings_terms.mpr ⟨arguments, trailing, rfl⟩
      have htype : (type?.map TokenKind.identifier).toList ∈ names + 1 := by
        cases type? with
        | none => exact .inr rfl
        | some name => exact .inl ⟨_, ⟨name, rfl⟩, rfl⟩
      rw [hcreate]
      exact .inr (cons_mem_oneOf_mul.mpr
        ⟨rfl, append_mem_mul htype (cons_mem_oneOf_mul.mpr ⟨rfl, hlist⟩)⟩)
  · rintro ((⟨_, ⟨value, rfl⟩, rfl⟩ | ⟨_, ⟨name, rfl⟩, rfl⟩) | hks)
    · exact ⟨.literal value, rfl⟩
    · exact ⟨.typeName name, rfl⟩
    · obtain ⟨_, rfl, _, hcall, rfl⟩ := mem_oneOf_mul.mp hks
      obtain ⟨type, htype, _, hopen, rfl⟩ := mem_mul.mp hcall
      obtain ⟨_, rfl, _, hlist, rfl⟩ := mem_oneOf_mul.mp hopen
      obtain ⟨arguments, trailing, rfl⟩ := mem_listings_terms.mp hlist
      rcases htype with ⟨_, ⟨name, rfl⟩, rfl⟩ | rfl
      · exact ⟨.create (some name) arguments trailing, hcreate _ _ _⟩
      · exact ⟨.create none arguments trailing, hcreate _ _ _⟩

@[simp]
private theorem nil_notMem_terms : [] ∉ terms := by
  rw [terms_eq]
  simp [mem_add]

@[simp]
private theorem terms_ne_zero : terms ≠ 0 := ne_zero_iff.mpr ⟨_, .typeName "", rfl⟩

/-- Parameter types are a list of identifiers, if they are there. -/
theorem signatures_eq : signatures = 1 + token (.symbol .leftParen) * listings names := by
  have hlist : ∀ ks, ks ∈ listings names ↔ ∃ (ns : List String) (trailing : Bool),
      listing trailing (ns.map fun name ↦ [.identifier name]) = ks := by
    intro ks
    refine mem_listings_iff fun ks ↦ ⟨?_, ?_⟩
    · rintro ⟨_, ⟨name, rfl⟩, rfl⟩
      exact ⟨name, rfl⟩
    · rintro ⟨name, rfl⟩
      exact ⟨_, ⟨name, rfl⟩, rfl⟩
  ext ks
  constructor
  · rintro ⟨_ | ⟨ns, trailing⟩, rfl⟩
    · exact .inl rfl
    · rw [parameters, enclosed_eq]
      exact .inr (cons_mem_oneOf_mul.mpr ⟨rfl, (hlist _).mpr ⟨ns, trailing, rfl⟩⟩)
  · rintro (rfl | hks)
    · exact ⟨none, rfl⟩
    · obtain ⟨_, rfl, _, hns, rfl⟩ := mem_oneOf_mul.mp hks
      obtain ⟨ns, trailing, rfl⟩ := (hlist _).mp hns
      exact ⟨some (ns, trailing), enclosed_eq _ _⟩

@[simp]
private theorem signatures_ne_zero : signatures ≠ 0 := ne_zero_iff.mpr ⟨_, none, rfl⟩

/-- An expected result is a value, perhaps behind `~`. -/
theorem demands_eq : demands = token (.symbol .tilde) * terms + terms := by
  ext ks
  constructor
  · rintro ⟨_ | _, t, rfl⟩
    · exact .inr ⟨t, rfl⟩
    · exact .inl (cons_mem_oneOf_mul.mpr ⟨rfl, t, rfl⟩)
  · rintro (hks | ⟨t, rfl⟩)
    · obtain ⟨_, rfl, _, ⟨t, rfl⟩, rfl⟩ := mem_oneOf_mul.mp hks
      exact ⟨true, t, rfl⟩
    · exact ⟨false, t, rfl⟩

@[simp]
private theorem nil_notMem_demands : [] ∉ demands := by
  rw [demands_eq]
  simp [mem_add]

@[simp]
private theorem demands_ne_zero : demands ≠ 0 := ne_zero_iff.mpr ⟨_, false, .typeName "", rfl⟩

/-- What stands behind a case: a semicolon, or a comma and the entries that follow. -/
def blockEnd : List Entry → List TokenKind
  | [] => [.symbol .semicolon]
  | next :: others => .symbol .comma :: block next others

/-- Entries, read from the keyword of the first case. -/
theorem block_eq (e : Entry) (rest : List Entry) :
    block e rest = activation e.activators ++ .keyword .testCase :: .symbol .leftParen ::
      (listing e.trailing (e.arguments.map Term.kinds) ++ channelWord e.channel ::
        (demand e.loose e.expected ++ blockEnd rest)) := by
  cases rest <;> simp [block, Entry.kinds, blockEnd, enclosed_eq]

private theorem mem_channelWords :
    ks ∈ token (.keyword .expect) + token (.keyword .throws) ↔
      ∃ channel, [channelWord channel] = ks := by
  constructor
  · rintro (⟨_, rfl, rfl⟩ | ⟨_, rfl, rfl⟩)
    · exact ⟨.returned, rfl⟩
    · exact ⟨.thrown, rfl⟩
  · rintro ⟨_ | _, rfl⟩
    · exact .inl ⟨_, rfl, rfl⟩
    · exact .inr ⟨_, rfl, rfl⟩

private theorem mem_blockEnds :
    ks ∈ token (.symbol .comma) * blocks + token (.symbol .semicolon) ↔
      ∃ rest, blockEnd rest = ks := by
  constructor
  · rintro (hcomma | ⟨_, rfl, rfl⟩)
    · obtain ⟨_, rfl, _, ⟨next, others, rfl⟩, rfl⟩ := mem_oneOf_mul.mp hcomma
      exact ⟨next :: others, rfl⟩
    · exact ⟨[], rfl⟩
  · rintro ⟨_ | ⟨next, others⟩, rfl⟩
    · exact .inr ⟨_, rfl, rfl⟩
    · exact .inl (cons_mem_oneOf_mul.mpr ⟨rfl, next, others, rfl⟩)

/-- Entries start with `on`, a value and `:` in front of entries, or they are a case with entries
behind a comma, or with a semicolon. -/
theorem blocks_eq : blocks =
    token (.keyword .onTarget) * (terms * (token (.symbol .colon) * blocks)) +
      token (.keyword .testCase) * (token (.symbol .leftParen) * (listings terms *
        ((token (.keyword .expect) + token (.keyword .throws)) * (demands *
          (token (.symbol .comma) * blocks + token (.symbol .semicolon)))))) := by
  ext ks
  constructor
  · rintro ⟨e, rest, rfl⟩
    rw [block_eq]
    -- An activator in front of an entry leaves an entry with one activator less.
    cases hactivators : e.activators with
    | nil =>
      have hlist : listing e.trailing (e.arguments.map Term.kinds) ∈ listings terms :=
        mem_listings_terms.mpr ⟨e.arguments, e.trailing, rfl⟩
      have hword := mem_channelWords.mpr ⟨e.channel, rfl⟩
      have hdemand : demand e.loose e.expected ∈ demands := ⟨_, _, rfl⟩
      have hend := mem_blockEnds.mpr ⟨rest, rfl⟩
      have hcase := append_mem_mul hlist (append_mem_mul hword (append_mem_mul hdemand hend))
      exact .inr (cons_mem_oneOf_mul.mpr ⟨rfl, cons_mem_oneOf_mul.mpr ⟨rfl, hcase⟩⟩)
    | cons t activators =>
      have hterm : t.kinds ∈ terms := ⟨t, rfl⟩
      have hrest : .symbol .colon :: block { e with activators } rest ∈
          token (.symbol .colon) * blocks := cons_mem_oneOf_mul.mpr ⟨rfl, _, rest, rfl⟩
      have hon := append_mem_mul hterm hrest
      rw [block_eq] at hon
      simpa [activation, mem_add] using hon
  · rintro (hks | hks)
    · obtain ⟨_, rfl, _, hterm, rfl⟩ := mem_oneOf_mul.mp hks
      obtain ⟨_, ⟨t, rfl⟩, _, hcolon, rfl⟩ := mem_mul.mp hterm
      obtain ⟨_, rfl, _, ⟨e, rest, rfl⟩, rfl⟩ := mem_oneOf_mul.mp hcolon
      refine ⟨{ e with activators := t :: e.activators }, rest, ?_⟩
      simp [block_eq, activation]
    · obtain ⟨_, rfl, _, hopen, rfl⟩ := mem_oneOf_mul.mp hks
      obtain ⟨_, rfl, _, hlist, rfl⟩ := mem_oneOf_mul.mp hopen
      obtain ⟨_, harguments, _, hword, rfl⟩ := mem_mul.mp hlist
      obtain ⟨arguments, trailing, rfl⟩ := mem_listings_terms.mp harguments
      obtain ⟨_, hchannel, _, hdemand, rfl⟩ := mem_mul.mp hword
      obtain ⟨_, ⟨loose, expected, rfl⟩, _, hend, rfl⟩ := mem_mul.mp hdemand
      obtain ⟨channel, rfl⟩ := mem_channelWords.mp hchannel
      obtain ⟨rest, rfl⟩ := mem_blockEnds.mp hend
      exact ⟨⟨[], arguments, trailing, channel, loose, expected⟩, rest, block_eq _ _⟩

@[simp]
private theorem nil_notMem_blocks : [] ∉ blocks := by
  rw [blocks_eq]
  simp [mem_add]

@[simp]
private theorem blocks_ne_zero : blocks ≠ 0 :=
  ne_zero_iff.mpr ⟨_, ⟨[], [], false, .returned, false, .typeName ""⟩, [], rfl⟩

/-- The items are units, namespaces, groups and tests. -/
theorem items_eq : items =
    token (.keyword .use) * (paths * token (.symbol .semicolon)) +
    token (.keyword .use) * (token (.keyword .inNamespace) * (names * token (.symbol .semicolon))) +
    token (.keyword .testGroup) * (names * token (.symbol .semicolon)) +
    token (.keyword .perform) * (names * (token (.symbol .arrow) * (names *
      (signatures * (token (.symbol .colon) * blocks))))) := by
  ext ks
  constructor
  · rintro ⟨path | name | name | t, rfl⟩
    · simp [Item.kinds, mem_add]
    · simp [Item.kinds, mem_add]
    · simp [Item.kinds, mem_add]
    · have hblock : .symbol .colon :: block t.first t.others ∈ token (.symbol .colon) * blocks :=
        cons_mem_oneOf_mul.mpr ⟨rfl, _, _, rfl⟩
      have hsignature : parameters t.parameters? ∈ signatures := ⟨_, rfl⟩
      have hrest := append_mem_mul hsignature hblock
      simpa [Item.kinds, TestText.kinds, mem_add] using hrest
  · rintro (((hks | hks) | hks) | hks)
    all_goals obtain ⟨_, rfl, _, hrest, rfl⟩ := mem_oneOf_mul.mp hks
    · obtain ⟨_, ⟨path, rfl⟩, _, ⟨_, rfl, rfl⟩, rfl⟩ := mem_oneOf_mul.mp hrest
      exact ⟨.unit path, rfl⟩
    · obtain ⟨_, rfl, _, hname, rfl⟩ := mem_oneOf_mul.mp hrest
      obtain ⟨_, ⟨name, rfl⟩, _, ⟨_, rfl, rfl⟩, rfl⟩ := mem_oneOf_mul.mp hname
      exact ⟨.inNamespace name, rfl⟩
    · obtain ⟨_, ⟨name, rfl⟩, _, ⟨_, rfl, rfl⟩, rfl⟩ := mem_oneOf_mul.mp hrest
      exact ⟨.group name, rfl⟩
    · obtain ⟨_, ⟨owner, rfl⟩, _, harrow, rfl⟩ := mem_oneOf_mul.mp hrest
      obtain ⟨_, rfl, _, hmethod, rfl⟩ := mem_oneOf_mul.mp harrow
      obtain ⟨_, ⟨method, rfl⟩, _, hsignature, rfl⟩ := mem_oneOf_mul.mp hmethod
      obtain ⟨_, ⟨parameters?, rfl⟩, _, hcolon, rfl⟩ := mem_mul.mp hsignature
      obtain ⟨_, rfl, _, ⟨first, others, rfl⟩, rfl⟩ := mem_oneOf_mul.mp hcolon
      refine ⟨.test ⟨owner, method, parameters?, first, others⟩, ?_⟩
      simp [Item.kinds, TestText.kinds]

/-- A sentence is empty, or an item in front of a sentence. -/
theorem sentences_eq : sentences = 1 + items * sentences := by
  ext ks
  constructor
  · rintro ⟨_ | ⟨i, rest⟩, rfl⟩
    · exact .inl rfl
    · exact .inr (append_mem_mul ⟨i, rfl⟩ ⟨rest, rfl⟩)
  · rintro (rfl | hks)
    · exact ⟨[], rfl⟩
    · obtain ⟨_, ⟨i, rfl⟩, _, ⟨rest, rfl⟩, rfl⟩ := mem_mul.mp hks
      exact ⟨i :: rest, rfl⟩

@[simp]
private theorem nil_mem_sentences : [] ∈ sentences := ⟨[], rfl⟩

@[simp]
private theorem sentences_ne_zero : sentences ≠ 0 := ne_zero_iff.mpr ⟨_, nil_mem_sentences⟩

end TestDeclaration.Grammar

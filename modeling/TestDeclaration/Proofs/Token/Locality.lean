import TestDeclaration.Proofs.Token.Emission

/-!
# A token is read from its own characters

What a reader of the lexer takes from a text is all that its value depends on: the same value is
read from the taken characters alone. There is one lemma for each reader.
-/

namespace TestDeclaration

open Number Token

namespace Token

variable {α β : Type} {read : List Char → Reading α} {c : Char} {text rest : List Char} {n : Nat}

/-- If a value is read from a text, it is also read from the part of the text that was taken. -/
def LocalAt (read : List Char → Reading α) (text : List Char) : Prop :=
  ∀ a n, read text = .ok (a, n) →
    ∃ taken rest, text = taken ++ rest ∧ taken.length = n ∧ read taken = .ok (a, n)

private theorem LocalAt.map (hl : LocalAt read text) (f : α → β) :
    LocalAt (fun text ↦ (read text).map f) text := by
  intro b n h
  obtain ⟨a, ha, rfl⟩ := Reading.exists_of_map h
  obtain ⟨taken, rest, htext, hn, hread⟩ := hl a n ha
  refine ⟨taken, rest, htext, hn, ?_⟩
  simp only [hread, Reading.map]

/-- A reader that takes one character and leaves the rest to a local one is local. -/
theorem LocalAt.cons {read' : List Char → Reading α} (hl : LocalAt read rest)
    (hc : ∀ rest, read' (c :: rest) = (read rest).after 1) : LocalAt read' (c :: rest) := by
  intro a n h
  rw [hc, Reading.after_eq_ok_iff] at h
  obtain ⟨i, h, rfl⟩ := h
  obtain ⟨taken, others, rfl, rfl, hread⟩ := hl a i h
  refine ⟨c :: taken, others, rfl, Nat.add_comm .., ?_⟩
  rw [hc, hread]
  rfl

private theorem localAt_of_error {e : LexProblem × Nat} (he : read text = .error e) :
    LocalAt read text := by
  intro a n h
  rw [he] at h
  cases h

/-- A reader that takes some characters whatever follows them is local there. -/
theorem localAt_append (taken rest : List Char) {a : α}
    (hread : ∀ rest, read (taken ++ rest) = .ok (a, taken.length)) :
    LocalAt read (taken ++ rest) := by
  intro b n h
  rw [hread] at h
  cases h
  refine ⟨taken, rest, rfl, rfl, ?_⟩
  rw [← hread [], List.append_nil]

/-! ### Quoted literals -/

private theorem localAt_stringBody (raw escaped : Bool) (text : List Char) :
    LocalAt (stringBody raw escaped) text := by
  induction text generalizing escaped with
  | nil => exact localAt_of_error rfl
  | cons c rest ih =>
    cases escaped with
    | true =>
      by_cases hnewline : c = '\n'
      · exact localAt_of_error (by rw [stringBody, if_pos hnewline])
      cases hv : unescape? c with
      | none => exact localAt_of_error (by rw [stringBody, if_neg hnewline, hv])
      | some v =>
        refine ((ih false).map (v :: ·)).cons fun rest ↦ ?_
        rw [stringBody, if_neg hnewline, hv]
    | false =>
      by_cases hnewline : c = '\n'
      · exact localAt_of_error (by rw [stringBody, if_pos hnewline])
      by_cases hquote : c = '"'
      · subst hquote
        exact localAt_append ['"'] rest fun _ ↦ rfl
      by_cases hslash : c = '\\' ∧ raw = false
      · refine (ih true).cons fun rest ↦ ?_
        rw [stringBody, if_neg hnewline, if_neg hquote, if_pos hslash]
      · refine ((ih false).map (c :: ·)).cons fun rest ↦ ?_
        rw [stringBody, if_neg hnewline, if_neg hquote, if_neg hslash]

private theorem localAt_closing (v : Char) (text : List Char) : LocalAt (closing v) text := by
  unfold LocalAt closing
  intro w n h
  split at h
  · next rest =>
    cases h
    exact ⟨['\''], rest, rfl, rfl, rfl⟩
  · cases h

private theorem localAt_escapedBody (text : List Char) : LocalAt escapedBody text := by
  cases text with
  | nil => exact localAt_of_error rfl
  | cons c rest =>
    by_cases hnewline : c = '\n'
    · exact localAt_of_error (by rw [escapedBody, if_pos hnewline])
    cases hv : unescape? c with
    | none => exact localAt_of_error (by rw [escapedBody, if_neg hnewline, hv])
    | some v =>
      refine (localAt_closing v rest).cons fun rest ↦ ?_
      rw [escapedBody, if_neg hnewline, hv]

private theorem localAt_charBody (raw : Bool) (text : List Char) : LocalAt (charBody raw) text := by
  cases text with
  | nil => exact localAt_of_error rfl
  | cons c rest =>
    by_cases hnewline : c = '\n'
    · exact localAt_of_error (by rw [charBody, if_pos hnewline])
    by_cases hquote : c = '\''
    · exact localAt_of_error (by rw [charBody, if_neg hnewline, if_pos hquote])
    by_cases hslash : c = '\\' ∧ raw = false
    · refine (localAt_escapedBody rest).cons fun rest ↦ ?_
      rw [charBody, if_neg hnewline, if_neg hquote, if_pos hslash]
    · refine (localAt_closing c rest).cons fun rest ↦ ?_
      rw [charBody, if_neg hnewline, if_neg hquote, if_neg hslash]

private theorem localAt_stringLiteral (raw : Bool) (text : List Char) :
    LocalAt (stringLiteral raw) text :=
  (localAt_stringBody raw false text).map _

private theorem localAt_charLiteral (raw : Bool) (text : List Char) :
    LocalAt (charLiteral raw) text :=
  (localAt_charBody raw text).map _

private theorem localAt_rawLiteral (text : List Char) : LocalAt rawLiteral text := by
  unfold LocalAt
  intro kind n h
  have h' := h
  unfold rawLiteral at h
  split at h
  · exact (localAt_stringLiteral true _).cons (fun _ ↦ rfl) kind n h'
  · exact (localAt_charLiteral true _).cons (fun _ ↦ rfl) kind n h'
  · cases h

/-! ### Numbers -/

namespace Numeral

private theorem finish_eq_ok_iff {m : Numeral} {kind : NumberKind} {taken : Nat} {v : Scalar} :
    m.finish kind taken = .ok (v, n) ↔
      kind.scalar? m.negative m.whole (m.fraction?.getD []) = some v ∧ n = taken := by
  unfold finish
  split
  · next w hw => simp [hw, eq_comm]
  · next hw => simp [hw]

/-- A text that starts with digits, perhaps behind a sign, starts with a numeral. -/
theorem split_eq (negative : Bool) {unsigned : List Char}
    (hdigit : unsigned.head?.any Char.isDigit) :
    ∃ m rest, split ((if negative then ['-'] else []) ++ unsigned) = (m, rest) ∧
      m.WellFormed ∧ (if negative then ['-'] else []) ++ unsigned = m.text ++ rest := by
  obtain ⟨d, others, rfl, hd⟩ : ∃ d others, unsigned = d :: others ∧ d.isDigit := by
    cases unsigned with
    | nil => cases hdigit
    | cons d others => exact ⟨d, others, rfl, hdigit⟩
  have hsign : (d :: others).head? ≠ some '-' := by
    rintro ⟨rfl⟩
    exact absurd hd (by decide)
  have hwhole : (d :: others).takeWhile Char.isDigit ≠ [] := by simp [hd]
  have hunsigned := List.takeWhile_append_dropWhile (p := Char.isDigit) (l := d :: others)
  rw [split_signed hsign]
  split
  · next fraction hfraction =>
    refine ⟨_, _, rfl, ⟨hwhole, fun c ↦ List.mem_takeWhile_imp, fun c ↦ List.mem_takeWhile_imp⟩, ?_⟩
    rw [hfraction] at hunsigned
    simp [text, hunsigned]
  · next hothers =>
    refine ⟨_, _, rfl, ⟨hwhole, fun c ↦ List.mem_takeWhile_imp,
      List.forall_mem_nil _⟩, ?_⟩
    simp [text, hunsigned]

/-- A number is read from its numeral and perhaps a letter, and the text of these alone is read as
the same number. -/
theorem number_text_append {m : Numeral} (h : m.WellFormed) {v : Scalar}
    (hsplit : split text = (m, rest)) (hread : number text = .ok (v, n)) :
    ∃ suffix others, rest = suffix ++ others ∧ (m.text ++ suffix).length = n ∧
      number (m.text ++ suffix) = .ok (v, n) := by
  unfold number at hread
  rw [hsplit] at hread
  dsimp only at hread
  split at hread
  · cases hread
  split at hread
  · next kind hletter =>
    obtain ⟨letter, others, rfl, hletter⟩ :
        ∃ letter others, rest = letter :: others ∧ NumberKind.ofLetter? letter = some kind := by
      cases rest with
      | nil => cases hletter
      | cons letter others => exact ⟨letter, others, rfl, hletter⟩
    split at hread
    · cases hread
    · next hobjection =>
      obtain ⟨hv, rfl⟩ := finish_eq_ok_iff.mp hread
      refine ⟨[letter], others, rfl, by simp, ?_⟩
      exact number_append_letter h hletter hobjection hv
  · obtain ⟨hv, rfl⟩ := finish_eq_ok_iff.mp hread
    refine ⟨[], rest, rfl, by simp, ?_⟩
    unfold number
    rw [split_text_append h (by simp) (.inr (by simp))]
    simpa using hread

end Numeral

/-! ### Tokens -/

/-- Read the token that a text starts with. -/
def first : List Char → Reading TokenKind
  | [] => .error (.endOfFile, 0)
  | c :: rest => one c rest

private theorem localAt_first_word (hc : isIdentifierStart c) : LocalAt first (c :: rest) := by
  intro kind n h
  have hbody := isIdentifierBody_of_isIdentifierStart hc
  refine ⟨c :: rest.takeWhile isIdentifierBody, rest.dropWhile isIdentifierBody, ?_, ?_, ?_⟩
  · rw [List.cons_append, List.takeWhile_append_dropWhile]
  · rw [first, one_of_isIdentifierStart hc, word] at h
    cases h
    rw [List.takeWhile_cons_of_pos hbody]
  · rw [first, one_of_isIdentifierStart hc] at h ⊢
    rw [← h, word, word, List.takeWhile_cons_of_pos hbody, List.takeWhile_cons_of_pos hbody,
      List.takeWhile_idem]

private theorem localAt_first_number (hc : c.isDigit ∨ (c = '-' ∧ rest.head?.any Char.isDigit)) :
    LocalAt first (c :: rest) := by
  intro kind n h
  -- The sign, if there is one, and the digits behind it.
  obtain ⟨negative, unsigned, htext, hdigit⟩ : ∃ (negative : Bool) (unsigned : List Char),
      c :: rest = (if negative then ['-'] else []) ++ unsigned ∧
        unsigned.head?.any Char.isDigit := by
    rcases hc with hc | ⟨rfl, hc⟩
    · exact ⟨false, c :: rest, rfl, hc⟩
    · exact ⟨true, rest, rfl, hc⟩
  obtain ⟨m, others, hsplit, hm, hothers⟩ := Numeral.split_eq negative hdigit
  rw [first, one_number hc] at h
  obtain ⟨v, hv, rfl⟩ := Reading.exists_of_map h
  rw [htext] at hv ⊢
  obtain ⟨suffix, others, rfl, hlength, hread⟩ := Numeral.number_text_append hm hsplit hv
  refine ⟨m.text ++ suffix, others, ?_, hlength, ?_⟩
  · rw [hothers, List.append_assoc]
  · obtain ⟨d, ds, hds, hstart⟩ := hm.exists_cons_text_append suffix
    have hstart := hstart []
    rw [List.append_nil] at hstart
    rw [hds] at hread ⊢
    rw [first, one_number hstart, hread]
    rfl

private theorem localAt_first_symbol (hone : ∀ rest', (∀ d ∈ rest'.head?, d ∈ rest.head?) →
    one c rest' = symbol c rest') : LocalAt first (c :: rest) := by
  intro kind n h
  rw [first, hone rest fun _ ↦ id] at h
  unfold symbol at h
  split at h
  · next s hs =>
    cases h
    refine ⟨[c], rest, rfl, rfl, ?_⟩
    rw [first, hone [] nofun, symbol, hs]
  · next hs =>
    split at h
    · next s hpair =>
      cases h
      obtain ⟨d, hd, hs'⟩ := Option.bind_eq_some_iff.mp hpair
      obtain ⟨others, rfl⟩ := List.head?_eq_some_iff.mp hd
      refine ⟨[c, d], others, rfl, rfl, ?_⟩
      rw [first, hone [d] (fun _ ↦ id), symbol, hs]
      simp only [List.head?_cons, Option.bind_some, hs']
    · cases h

private theorem localAt_first (text : List Char) : LocalAt first text := by
  cases text with
  | nil => exact localAt_of_error rfl
  | cons c rest =>
    by_cases hstring : c = '"'
    · subst hstring
      exact (localAt_stringLiteral false rest).cons fun _ ↦ rfl
    by_cases hchar : c = '\''
    · subst hchar
      exact (localAt_charLiteral false rest).cons fun _ ↦ rfl
    by_cases hraw : c = '&'
    · subst hraw
      exact (localAt_rawLiteral rest).cons fun _ ↦ rfl
    by_cases hstart : isIdentifierStart c
    · exact localAt_first_word hstart
    by_cases hnumber : c.isDigit ∨ (c = '-' ∧ rest.head?.any Char.isDigit)
    · exact localAt_first_number hnumber
    · refine localAt_first_symbol fun rest' hhead ↦ ?_
      have hnumber' : ¬ (c.isDigit ∨ (c = '-' ∧ rest'.head?.any Char.isDigit)) := by
        refine fun h ↦ hnumber (h.imp_right fun ⟨hc, hd⟩ ↦ ⟨hc, ?_⟩)
        cases rest' with
        | nil => cases hd
        | cons d others =>
          rw [show rest.head? = some d from hhead d rfl]
          exact hd
      rw [one, if_neg hstring, if_neg hchar, if_neg hraw, if_neg hstart, if_neg hnumber']

/-- A token is read from the characters that it takes alone. -/
theorem exists_of_one {kind : TokenKind} (h : one c rest = .ok (kind, n)) :
    ∃ taken behind, rest = taken ++ behind ∧ (c :: taken).length = n ∧
      one c taken = .ok (kind, n) := by
  obtain ⟨_ | ⟨d, taken⟩, behind, htaken, hlength, hread⟩ := localAt_first (c :: rest) kind n h
  · cases hread
  · rw [List.cons_append, List.cons.injEq] at htaken
    obtain ⟨rfl, rfl⟩ := htaken
    exact ⟨taken, behind, rfl, hlength, hread⟩

end Token

end TestDeclaration

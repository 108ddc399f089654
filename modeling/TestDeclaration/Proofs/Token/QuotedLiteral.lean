import TestDeclaration.Proofs.Text.Position
import TestDeclaration.Proofs.Token.NumberLiteral

/-!
# Quoted literals are read exactly

Between two quotes stand characters, each written as itself or as an escape, and in raw text only as
itself. A string literal is as many of them as there are in front of the first quote, a character
literal is one of them. The two sections below say what closes a literal and what breaks it off, and
that each text does one of the two; the last one says that the lexer reads accordingly.
-/

namespace TestDeclaration

open Text

namespace Token

/-! ### Written characters -/

/-- The characters that can follow a backslash, each with the character that the two stand for. -/
def escapes : List (Char × Char) :=
  [('\\', '\\'), ('n', '\n'), ('t', '\t'), ('\'', '\''), ('"', '"')]

/-- A character between quotes, as it is written, and the character that it stands for. -/
inductive Stands (raw : Bool) (quote : Char) : List Char → Char → Prop where
  | plain {c : Char} : c ≠ quote → c ≠ '\n' → (raw = false → c ≠ '\\') → Stands raw quote [c] c
  | escape {c v : Char} : raw = false → (c, v) ∈ escapes → Stands raw quote ['\\', c] v

/-- What breaks off a text between quotes, where a written character would follow: the end of the
text or of the line, here or behind a backslash, or a character that no backslash can precede. What
was begun of the written character lies before this place. -/
inductive Breaks (raw : Bool) : (begun behind : List Char) → LexProblem → Prop where
  | endOfFile : Breaks raw [] [] .endOfFile
  | endOfLine {rest : List Char} : Breaks raw [] ('\n' :: rest) .endOfLine
  | escapedEndOfFile : raw = false → Breaks raw ['\\'] [] .endOfFile
  | escapedEndOfLine {rest : List Char} : raw = false →
      Breaks raw ['\\'] ('\n' :: rest) .endOfLine
  | invalidEscape {c : Char} {rest : List Char} : raw = false → c ≠ '\n' →
      (∀ v, (c, v) ∉ escapes) → Breaks raw ['\\'] (c :: rest) (.invalidEscape c)

variable {raw : Bool} {quote c v : Char} {piece begun behind text rest : List Char}
  {problem : LexProblem}

private theorem unescape?_eq_some_iff : unescape? c = some v ↔ (c, v) ∈ escapes := by
  constructor
  · intro h
    unfold unescape? at h
    split at h <;> cases h <;> decide
  · intro h
    simp only [escapes, List.mem_cons, Prod.mk.injEq, List.not_mem_nil, or_false] at h
    rcases h with ⟨rfl, rfl⟩ | ⟨rfl, rfl⟩ | ⟨rfl, rfl⟩ | ⟨rfl, rfl⟩ | ⟨rfl, rfl⟩ <;> rfl

private theorem unescape?_eq_none_iff : unescape? c = none ↔ ∀ v, (c, v) ∉ escapes := by
  simp only [Option.eq_none_iff_forall_ne_some, ne_eq, unescape?_eq_some_iff]

/-- No escape is written with a newline. -/
theorem ne_newline_of_mem_escapes (h : (c, v) ∈ escapes) : c ≠ '\n' := by
  rintro rfl
  have hnone : unescape? '\n' = some v := unescape?_eq_some_iff.mpr h
  cases hnone

/-- Behind an opening quote, or a written character, stands the quote or a written character, or
the text is broken off. -/
theorem starts_or_breaks (raw : Bool) (quote : Char) (text : List Char) :
    (∃ rest, text = quote :: rest) ∨
    (∃ piece v rest, text = piece ++ rest ∧ Stands raw quote piece v) ∨
    ∃ begun behind problem, text = begun ++ behind ∧ Breaks raw begun behind problem := by
  cases text with
  | nil => exact .inr (.inr ⟨[], [], _, rfl, .endOfFile⟩)
  | cons c rest =>
    by_cases hquote : c = quote
    · exact .inl ⟨rest, by rw [hquote]⟩
    refine .inr ?_
    by_cases hnewline : c = '\n'
    · subst hnewline
      exact .inr ⟨[], _, _, rfl, .endOfLine⟩
    by_cases hslash : raw = false ∧ c = '\\'
    · obtain ⟨hraw, rfl⟩ := hslash
      cases rest with
      | nil => exact .inr ⟨['\\'], [], _, rfl, .escapedEndOfFile hraw⟩
      | cons d rest =>
        by_cases hnewline : d = '\n'
        · subst hnewline
          exact .inr ⟨['\\'], _, _, rfl, .escapedEndOfLine hraw⟩
        cases hv : unescape? d with
        | none =>
          exact .inr ⟨['\\'], d :: rest, _, rfl,
            .invalidEscape hraw hnewline (unescape?_eq_none_iff.mp hv)⟩
        | some v =>
          exact .inl ⟨['\\', d], v, rest, rfl, .escape hraw (unescape?_eq_some_iff.mp hv)⟩
    · exact .inl ⟨[c], c, rest, rfl, .plain hquote hnewline fun hraw hc ↦ hslash ⟨hraw, hc⟩⟩

/-! ### Strings -/

/-- Written characters, one behind the other, and the characters that they stand for. -/
inductive StandsAll (raw : Bool) (quote : Char) : List Char → List Char → Prop where
  | nil : StandsAll raw quote [] []
  | cons {piece rest : List Char} {v : Char} {vs : List Char} : Stands raw quote piece v →
      StandsAll raw quote rest vs → StandsAll raw quote (piece ++ rest) (v :: vs)

/-- What stands behind the opening of a string with some value, up to and with the closing quote. -/
def ClosesString (raw : Bool) (content : List Char) (s : Scalar) : Prop :=
  ∃ body value, content = body ++ ['"'] ∧ StandsAll raw '"' body value ∧
    s = .string (String.ofList value)

/-- What stands behind the opening of a string that is broken off somewhere. -/
def BreaksString (raw : Bool) (begun behind : List Char) (problem : LexProblem) : Prop :=
  ∃ body value start, begun = body ++ start ∧ StandsAll raw '"' body value ∧
    Breaks raw start behind problem

/-- A written character of a string is read as the character that it stands for. -/
theorem stringBody_stands (h : Stands raw '"' piece v) (rest : List Char) :
    stringBody raw false (piece ++ rest) =
      ((stringBody raw false rest).map (v :: ·)).after piece.length := by
  cases h with
  | plain hquote hnewline hslash =>
    have hplain : ¬ (v = '\\' ∧ raw = false) := fun ⟨hv, hraw⟩ ↦ hslash hraw hv
    rw [List.singleton_append, stringBody, if_neg hnewline, if_neg hquote, if_neg hplain]
    rfl
  | @escape c _ hraw hv =>
    subst hraw
    have hbehind : stringBody false true (c :: rest) =
        ((stringBody false false rest).map (v :: ·)).after 1 := by
      rw [stringBody, if_neg (ne_newline_of_mem_escapes hv), unescape?_eq_some_iff.mpr hv]
    rw [List.cons_append, List.singleton_append, stringBody, if_neg (by decide),
      if_neg (by decide), if_pos ⟨rfl, rfl⟩, hbehind, Reading.after_after]
    rfl

private theorem stringBody_breaks (h : Breaks raw begun behind problem) :
    stringBody raw false (begun ++ behind) = .error (problem, begun.length) := by
  cases h with
  | endOfFile | endOfLine => rfl
  | escapedEndOfFile hraw | escapedEndOfLine hraw =>
    subst hraw
    rfl
  | @invalidEscape c rest hraw hnewline hno =>
    subst hraw
    have hbehind : stringBody false true (c :: rest) = .error (.invalidEscape c, 0) := by
      rw [stringBody, if_neg hnewline, unescape?_eq_none_iff.mpr hno]
    rw [List.singleton_append, stringBody, if_neg (by decide), if_neg (by decide),
      if_pos ⟨rfl, rfl⟩, hbehind]
    rfl

/-- The body of a string is read written character by written character, up to its quote or to the
place where it is broken off. -/
theorem stringBody_standsAll {body value : List Char} (h : StandsAll raw '"' body value)
    (rest : List Char) :
    stringBody raw false (body ++ rest) =
      ((stringBody raw false rest).map (value ++ ·)).after body.length := by
  induction h with
  | nil => rcases hread : stringBody raw false rest with _ | _ <;>
      simp [hread, Reading.map, Reading.after]
  | cons hpiece _ ih =>
    rw [List.append_assoc, stringBody_stands hpiece, ih]
    rcases stringBody raw false rest with _ | _ <;>
      simp [Reading.map, Reading.after, Nat.add_assoc]

/-- Each text behind the opening of a string closes it or breaks it off. -/
theorem closes_or_breaksString (raw : Bool) (text : List Char) :
    (∃ content rest s, text = content ++ rest ∧ ClosesString raw content s) ∨
    ∃ begun behind problem, text = begun ++ behind ∧ BreaksString raw begun behind problem := by
  induction hlength : text.length using Nat.strongRecOn generalizing text with
  | ind n ih =>
    obtain ⟨rest, rfl⟩ | ⟨piece, v, rest, rfl, hpiece⟩ | ⟨begun, behind, problem, rfl, hbreaks⟩ :=
      starts_or_breaks raw '"' text
    · exact .inl ⟨['"'], rest, _, rfl, [], [], rfl, .nil, rfl⟩
    · have hlt : rest.length < n := by
        rw [← hlength, List.length_append]
        cases hpiece <;> simp
      obtain ⟨_, others, _, rfl, body, value, rfl, hbody, rfl⟩ |
        ⟨_, behind, problem, rfl, body, value, start, rfl, hbody, hbreaks⟩ := ih _ hlt rest rfl
      · exact .inl ⟨_, others, _, (List.append_assoc ..).symm, _, _,
          (List.append_assoc ..).symm, .cons hpiece hbody, rfl⟩
      · exact .inr ⟨_, behind, problem, (List.append_assoc ..).symm, _, _, start,
          (List.append_assoc ..).symm, .cons hpiece hbody, hbreaks⟩
    · exact .inr ⟨begun, behind, problem, rfl, [], [], begun, rfl, .nil, hbreaks⟩

/-! ### Characters -/

/-- What stands behind the opening of a character literal with some value, up to and with the
closing quote. -/
def ClosesChar (raw : Bool) (content : List Char) (s : Scalar) : Prop :=
  ∃ piece v, content = piece ++ ['\''] ∧ Stands raw '\'' piece v ∧ s = .char v

/-- What stands behind the opening of a character literal that is broken off somewhere: in front of
its character or inside it, at once by a quote, or where the quote is missing. -/
inductive BreaksChar (raw : Bool) : (begun behind : List Char) → LexProblem → Prop where
  | breaks {begun behind : List Char} {problem : LexProblem} : Breaks raw begun behind problem →
      BreaksChar raw begun behind problem
  | empty {rest : List Char} : BreaksChar raw [] ('\'' :: rest) .emptyCharacter
  | unclosed {piece behind : List Char} {v : Char} : Stands raw '\'' piece v →
      behind.head? ≠ some '\'' → BreaksChar raw piece behind .unclosedCharacter

private theorem closing_of_head?_ne (h : text.head? ≠ some '\'') (v : Char) :
    closing v text = .error (.unclosedCharacter, 0) := by
  unfold closing
  split
  · exact absurd rfl h
  · rfl

/-- Behind a written character a character literal has to be closed. -/
theorem charBody_stands (h : Stands raw '\'' piece v) (rest : List Char) :
    charBody raw (piece ++ rest) = (closing v rest).after piece.length := by
  cases h with
  | plain hquote hnewline hslash =>
    have hplain : ¬ (v = '\\' ∧ raw = false) := fun ⟨hv, hraw⟩ ↦ hslash hraw hv
    rw [List.singleton_append, charBody, if_neg hnewline, if_neg hquote, if_neg hplain]
    rfl
  | escape hraw hv =>
    subst hraw
    rw [List.cons_append, List.singleton_append, charBody, if_neg (by decide),
      if_neg (by decide), if_pos ⟨rfl, rfl⟩, escapedBody,
      if_neg (ne_newline_of_mem_escapes hv), unescape?_eq_some_iff.mpr hv, Reading.after_after]
    rfl

private theorem charBody_breaks (h : Breaks raw begun behind problem) :
    charBody raw (begun ++ behind) = .error (problem, begun.length) := by
  cases h with
  | endOfFile | endOfLine => rfl
  | escapedEndOfFile hraw | escapedEndOfLine hraw =>
    subst hraw
    rfl
  | invalidEscape hraw hnewline hno =>
    subst hraw
    rw [List.singleton_append, charBody, if_neg (by decide), if_neg (by decide),
      if_pos ⟨rfl, rfl⟩, escapedBody, if_neg hnewline, unescape?_eq_none_iff.mpr hno]
    rfl

/-- Each text behind the opening of a character literal closes it or breaks it off. -/
theorem closes_or_breaksChar (raw : Bool) (text : List Char) :
    (∃ content rest s, text = content ++ rest ∧ ClosesChar raw content s) ∨
    ∃ begun behind problem, text = begun ++ behind ∧ BreaksChar raw begun behind problem := by
  obtain ⟨rest, rfl⟩ | ⟨piece, v, rest, rfl, hpiece⟩ | ⟨begun, behind, problem, rfl, hbreaks⟩ :=
    starts_or_breaks raw '\'' text
  · exact .inr ⟨[], _, _, rfl, .empty⟩
  · by_cases hquote : rest.head? = some '\''
    · obtain ⟨others, rfl⟩ := List.head?_eq_some_iff.mp hquote
      refine .inl ⟨piece ++ ['\''], others, _, ?_, piece, v, rfl, hpiece, rfl⟩
      rw [List.append_assoc, List.singleton_append]
    · exact .inr ⟨piece, rest, _, rfl, .unclosed hpiece hquote⟩
  · exact .inr ⟨begun, behind, problem, rfl, .breaks hbreaks⟩

/-! ### Literals -/

/-- What opens a literal: the mark of raw text, if it is raw, and a quote. -/
def opening (raw : Bool) (quote : Char) : List Char := if raw then ['&', quote] else [quote]

/-- A reader takes what closes a literal and gives its value, and fails where a literal is broken
off; each text does one of the two. -/
structure Decides (read : List Char → Reading TokenKind) (closes : List Char → Scalar → Prop)
    (breaks : List Char → List Char → LexProblem → Prop) : Prop where
  ok : ∀ {content : List Char} {s : Scalar}, closes content s →
    ∀ rest, read (content ++ rest) = .ok (.literal s, content.length)
  error : ∀ {begun behind : List Char} {problem : LexProblem}, breaks begun behind problem →
    read (begun ++ behind) = .error (problem, begun.length)
  closes_or_breaks : ∀ text,
    (∃ content rest s, text = content ++ rest ∧ closes content s) ∨
      ∃ begun behind problem, text = begun ++ behind ∧ breaks begun behind problem

private theorem stringLiteral_decides (raw : Bool) :
    Decides (stringLiteral raw) (ClosesString raw) (BreaksString raw) where
  ok := by
    rintro _ _ ⟨body, value, rfl, hbody, rfl⟩ rest
    rw [stringLiteral, List.append_assoc, stringBody_standsAll hbody, List.length_append,
      List.length_singleton]
    simp [stringBody, Reading.map, Reading.after]
  error := by
    rintro _ behind problem ⟨body, value, start, rfl, hbody, hbreaks⟩
    rw [stringLiteral, List.append_assoc, stringBody_standsAll hbody, stringBody_breaks hbreaks,
      List.length_append]
    rfl
  closes_or_breaks := closes_or_breaksString raw

private theorem charLiteral_decides (raw : Bool) :
    Decides (charLiteral raw) (ClosesChar raw) (BreaksChar raw) where
  ok := by
    rintro _ _ ⟨piece, v, rfl, hpiece, rfl⟩ rest
    rw [charLiteral, List.append_assoc, charBody_stands hpiece, List.length_append,
      List.length_singleton]
    rfl
  error := by
    rintro begun behind problem hbreaks
    cases hbreaks with
    | breaks hbreaks =>
      rw [charLiteral, charBody_breaks hbreaks]
      rfl
    | empty => rfl
    | unclosed hpiece hquote =>
      rw [charLiteral, charBody_stands hpiece, closing_of_head?_ne hquote]
      rfl
  closes_or_breaks := closes_or_breaksChar raw

/-- Behind an opening, the lexer reads a literal exactly if it is closed, as one token with the
value that it stands for, and fails exactly if the literal is broken off, at this place; it does one
of the two. -/
structure ReadsQuoted (start : List Char) (closes : List Char → Scalar → Prop)
    (breaks : List Char → List Char → LexProblem → Prop) (p : Position) (text : List Char) :
    Prop where
  emits_iff : ∀ lexeme rest s, lexeme ++ rest = start ++ text →
    (EmitsLiteral p lexeme rest s ↔ ∃ content, lexeme = start ++ content ∧ closes content s)
  fails_iff : ∀ e, scanFrom p (start ++ text) = ⟨[], some e⟩ ↔
    ∃ begun behind problem, text = begun ++ behind ∧ breaks begun behind problem ∧
      e = errorAt problem (p.advance (start ++ begun)) behind
  emits_or_fails :
    (∃ lexeme rest s, lexeme ++ rest = start ++ text ∧ EmitsLiteral p lexeme rest s) ∨
      ∃ e, scanFrom p (start ++ text) = ⟨[], some e⟩

/-- A problem that is found where no layout starts is the error of the scan. -/
theorem scanFrom_error_of_one {p : Position} (hzero : layoutLength false (c :: begun ++ behind) = 0)
    (hone : one c (begun ++ behind) = .error (problem, (c :: begun).length)) :
    scanFrom p (c :: begun ++ behind) =
      ⟨[], some (errorAt problem (p.advance (c :: begun)) behind)⟩ := by
  have hdrop : (c :: begun ++ behind).drop (layoutLength false (c :: begun ++ behind)) =
      c :: (begun ++ behind) := by
    rw [hzero]
    rfl
  have hscan := scanFrom_of_error (p := p) hdrop hone
  rw [hzero, ← List.cons_append, List.take_left, List.drop_left] at hscan
  exact hscan

/-- A text starts with one literal at most. -/
theorem EmitsLiteral.unique {p : Position} {lexeme lexeme' rest' : List Char} {s s' : Scalar}
    (h : EmitsLiteral p lexeme rest s) (h' : EmitsLiteral p lexeme' rest' s')
    (hsplit : lexeme ++ rest = lexeme' ++ rest') : lexeme = lexeme' ∧ s = s' := by
  rw [EmitsLiteral, hsplit, h'] at h
  injection h with htokens
  injection htokens with htoken
  injection htoken with hkind hspan
  injection hkind with hs
  injection hspan with _ hlength
  have hprefix : lexeme' <+: lexeme ++ rest := hsplit ▸ List.prefix_append lexeme' rest'
  exact ⟨eq_of_byteLength_eq (List.prefix_append lexeme rest) hprefix hlength.symm, hs.symm⟩

private theorem EmitsLiteral.not_error {p : Position} {lexeme : List Char} {s : Scalar}
    {e : LexError}
    (h : EmitsLiteral p lexeme rest s) : scanFrom p (lexeme ++ rest) ≠ ⟨[], some e⟩ := by
  intro he
  rw [EmitsLiteral, he] at h
  cases h

namespace Decides

variable {read : List Char → Reading TokenKind} {closes : List Char → Scalar → Prop}
  {breaks : List Char → List Char → LexProblem → Prop} {more : List Char}
  (hd : Decides read closes breaks) (hlayout : ∀ rest, layoutLength false (c :: rest) = 0)
  (hone : ∀ text, one c (more ++ text) = (read text).after (c :: more).length)

include hd hlayout hone

/-- Behind an opening that the lexer leaves to a reader, a literal that is closed is emitted. -/
theorem emits {content : List Char} {s : Scalar} (hcloses : closes content s) (p : Position)
    (rest : List Char) : EmitsLiteral p (c :: more ++ content) rest s := by
  have hread := hone (content ++ rest)
  rw [hd.ok hcloses, Reading.after, ← List.length_append, ← List.append_assoc] at hread
  exact emitsLiteral_of_one (hlayout _) hread

/-- Behind an opening that the lexer leaves to a reader, a literal that is broken off is the
error. -/
theorem fails (hbreaks : breaks begun behind problem) (p : Position) :
    scanFrom p (c :: more ++ (begun ++ behind)) =
      ⟨[], some (errorAt problem (p.advance (c :: more ++ begun)) behind)⟩ := by
  have hread := hone (begun ++ behind)
  rw [hd.error hbreaks, Reading.after, ← List.length_append, ← List.append_assoc] at hread
  rw [← List.append_assoc]
  exact scanFrom_error_of_one (hlayout _) hread

/-- Behind an opening that the lexer leaves to a reader, it reads as the reader decides. -/
theorem readsQuoted (p : Position) (text : List Char) :
    ReadsQuoted (c :: more) closes breaks p text := by
  have hcases : (∃ content rest s, text = content ++ rest ∧ closes content s ∧
        EmitsLiteral p (c :: more ++ content) rest s) ∨
      ∃ begun behind problem, text = begun ++ behind ∧ breaks begun behind problem ∧
        scanFrom p (c :: more ++ text) =
          ⟨[], some (errorAt problem (p.advance (c :: more ++ begun)) behind)⟩ := by
    obtain ⟨content, others, s, rfl, hcloses⟩ | ⟨begun, behind, problem, rfl, hbreaks⟩ :=
      hd.closes_or_breaks text
    · exact .inl ⟨content, others, s, rfl, hcloses, hd.emits hlayout hone hcloses p others⟩
    · exact .inr ⟨begun, behind, problem, rfl, hbreaks, hd.fails hlayout hone hbreaks p⟩
  refine ⟨fun lexeme rest s hsplit ↦ ⟨fun hlexeme ↦ ?_, ?_⟩, fun e ↦ ⟨fun he ↦ ?_, ?_⟩, ?_⟩
  · obtain ⟨content, others, s', rfl, hcloses, hcontent⟩ | ⟨_, _, _, -, -, hfails⟩ := hcases
    · rw [← List.append_assoc] at hsplit
      obtain ⟨rfl, rfl⟩ := hlexeme.unique hcontent hsplit
      exact ⟨content, rfl, hcloses⟩
    · exact absurd (hsplit ▸ hfails) hlexeme.not_error
  · rintro ⟨content, rfl, hcloses⟩
    exact hd.emits hlayout hone hcloses p rest
  · obtain ⟨content, others, s, rfl, hcloses, hcontent⟩ |
        ⟨begun, behind, problem, ht, hb, hfails⟩ := hcases
    · rw [← List.append_assoc] at he
      exact absurd he hcontent.not_error
    · rw [hfails] at he
      cases he
      exact ⟨begun, behind, problem, ht, hb, rfl⟩
  · rintro ⟨begun, behind, problem, rfl, hbreaks, rfl⟩
    exact hd.fails hlayout hone hbreaks p
  · obtain ⟨content, others, s, rfl, -, hcontent⟩ | ⟨_, _, _, -, -, hfails⟩ := hcases
    · exact .inl ⟨_, others, s, List.append_assoc .., hcontent⟩
    · exact .inr ⟨_, hfails⟩

end Decides

/-- A string or character literal is one token exactly if it is closed, and else the lexer fails
where it is broken off. -/
theorem scan_quoted_literal (raw : Bool) (p : Position) (text : List Char) :
    ReadsQuoted (opening raw '"') (ClosesString raw) (BreaksString raw) p text ∧
    ReadsQuoted (opening raw '\'') (ClosesChar raw) (BreaksChar raw) p text ∧
    (text.head? ≠ some '"' ∧ text.head? ≠ some '\'' →
      scanFrom p ('&' :: text) = ⟨[], some (errorAt .rawTextExpected (p.advance ['&']) text)⟩) := by
  refine ⟨?_, ?_, fun ⟨hstring, hchar⟩ ↦ ?_⟩
  · cases raw with
    | false => exact (stringLiteral_decides false).readsQuoted (fun _ ↦ rfl) (fun _ ↦ rfl) p text
    | true =>
      refine (stringLiteral_decides true).readsQuoted (fun _ ↦ rfl) (fun text ↦ ?_) p text
      exact Reading.after_after (stringLiteral true text) 1 1
  · cases raw with
    | false => exact (charLiteral_decides false).readsQuoted (fun _ ↦ rfl) (fun _ ↦ rfl) p text
    | true =>
      refine (charLiteral_decides true).readsQuoted (fun _ ↦ rfl) (fun text ↦ ?_) p text
      exact Reading.after_after (charLiteral true text) 1 1
  · have hraw : rawLiteral text = .error (.rawTextExpected, 0) := by
      unfold rawLiteral
      split
      · exact absurd rfl hstring
      · exact absurd rfl hchar
      · rfl
    have hread : one '&' ([] ++ text) = .error (.rawTextExpected, ['&'].length) := by
      rw [List.nil_append, one, if_neg (by decide), if_neg (by decide), if_pos rfl, hraw]
      rfl
    exact scanFrom_error_of_one rfl hread

end Token

end TestDeclaration

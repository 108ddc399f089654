import TestDeclaration.Proofs.Token.Locality

/-!
# The end of a line

The end of a line ends whatever is being read, in the same way as the end of the text does: with a
newline and any text behind it, each reader of the lexer takes the same characters to the same
value, or finds the same problem at the same place. Only the wording tells an open literal at the
end of a line from one at the end of the text. There is one lemma for each reader.
-/

namespace TestDeclaration

/-! ### The end of a line -/

/-- The same problem where the line ends and not the text. -/
def LexProblem.atNewline : LexProblem → LexProblem
  | .endOfFile => .endOfLine
  | problem => problem

/-- The same error where the line ends and not the text: there is a character behind it. -/
def LexError.atNewline (e : LexError) : LexError :=
  ⟨e.problem.atNewline, ⟨e.span.start, max e.span.length 1⟩⟩

namespace LexProblem

/-- A text that starts with some words starts with the first character of these. -/
theorem head?_toList_append {a : String} {c : Char} (h : a.toList.head? = some c) (b : String) :
    (a ++ b).toList.head? = some c := by
  rw [String.toList_append, List.head?_append, h]
  rfl

/-- The wording of an open literal at the end of the text is that of no other problem. -/
theorem message_eq_iff_endOfFile {problem : LexProblem} :
    problem.message = "Reached end of file when parsing literal" ↔ problem = .endOfFile := by
  constructor
  · intro h
    have hstart : problem.message.toList.head? = some 'R' := by rw [h]; rfl
    cases problem with
    | endOfFile => rfl
    | unexpectedCharacter c =>
      have hfirst : (unexpectedCharacter c).message.toList.head? = some 'U' :=
        head?_toList_append (head?_toList_append rfl _) _
      rw [hfirst] at hstart
      cases hstart
    | invalidEscape c =>
      have hfirst : (invalidEscape c).message.toList.head? = some 'I' :=
        head?_toList_append (head?_toList_append rfl _) _
      rw [hfirst] at hstart
      cases hstart
    | outOfRange number kind =>
      have hfirst : (outOfRange number kind).message.toList.head? = some 'N' :=
        head?_toList_append (head?_toList_append (head?_toList_append rfl _) _) _
      rw [hfirst] at hstart
      cases hstart
    | _ => exact absurd h (by decide)
  · rintro rfl
    rfl

/-- A line end in place of the end of the text changes one message only. -/
theorem message_atNewline (problem : LexProblem) :
    problem.atNewline.message =
      if problem.message = "Reached end of file when parsing literal" then
        "Reached end of line when parsing literal"
      else problem.message := by
  split
  · next h =>
    rw [message_eq_iff_endOfFile.mp h]
    rfl
  · next h =>
    unfold atNewline
    split
    · exact absurd rfl h
    · rfl

end LexProblem

namespace Token

namespace Reading

variable {α β : Type}

/-- The same outcome where the line ends and not the text. -/
def atNewline : Reading α → Reading α
  | .ok r => .ok r
  | .error (problem, n) => .error (problem.atNewline, n)

private theorem atNewline_after (r : Reading α) (n : Nat) :
    (r.after n).atNewline = r.atNewline.after n := by
  rcases r with ⟨_, _⟩ | ⟨_, _⟩ <;> rfl

private theorem atNewline_map (r : Reading α) (f : α → β) :
    (r.map f).atNewline = r.atNewline.map f := by
  rcases r with ⟨_, _⟩ | ⟨_, _⟩ <;> rfl

end Reading

variable {c : Char} (text rest : List Char)

private theorem takeWhile_newline {q : Char → Bool} (hq : q '\n' = false) :
    (text ++ '\n' :: rest).takeWhile q = text.takeWhile q := by
  induction text with
  | nil => simp [hq]
  | cons c text ih =>
    rw [List.cons_append, List.takeWhile_cons, List.takeWhile_cons, ih]

private theorem dropWhile_newline {q : Char → Bool} (hq : q '\n' = false) :
    (text ++ '\n' :: rest).dropWhile q = text.dropWhile q ++ '\n' :: rest := by
  induction text with
  | nil => simp [hq]
  | cons c text ih =>
    rw [List.cons_append, List.dropWhile_cons, List.dropWhile_cons, ih]
    split <;> rfl

/-- A newline is not the character that is looked for behind a text. -/
theorem head?_newline {d : Char} (hd : d ≠ '\n') :
    (text ++ '\n' :: rest).head? = some d ↔ text.head? = some d := by
  cases text with
  | nil => simp [hd.symm]
  | cons c text => rfl

/-! ### Literals -/

private theorem stringBody_newline (raw escaped : Bool) :
    stringBody raw escaped (text ++ '\n' :: rest) = (stringBody raw escaped text).atNewline := by
  induction text generalizing escaped with
  | nil => cases escaped <;> rfl
  | cons c text ih =>
    rw [List.cons_append]
    cases escaped with
    | true =>
      rw [stringBody, stringBody]
      split
      · rfl
      split
      · rw [ih, Reading.atNewline_after, Reading.atNewline_map]
      · rfl
    | false =>
      rw [stringBody, stringBody]
      split
      · rfl
      split
      · rfl
      split
      · rw [ih, Reading.atNewline_after]
      · rw [ih, Reading.atNewline_after, Reading.atNewline_map]

private theorem closing_newline (v : Char) :
    closing v (text ++ '\n' :: rest) = (closing v text).atNewline := by
  cases text with
  | nil => rfl
  | cons c text =>
    rw [List.cons_append]
    unfold closing
    split
    · next heq =>
      cases heq
      rfl
    · next hne =>
      split
      · next heq =>
        cases heq
        exact absurd rfl (hne _)
      · rfl

private theorem escapedBody_newline :
    escapedBody (text ++ '\n' :: rest) = (escapedBody text).atNewline := by
  cases text with
  | nil => rfl
  | cons c text =>
    rw [List.cons_append, escapedBody, escapedBody]
    split
    · rfl
    split
    · rw [closing_newline, Reading.atNewline_after]
    · rfl

private theorem charBody_newline (raw : Bool) :
    charBody raw (text ++ '\n' :: rest) = (charBody raw text).atNewline := by
  cases text with
  | nil => rfl
  | cons c text =>
    rw [List.cons_append, charBody, charBody]
    split
    · rfl
    split
    · rfl
    split
    · rw [escapedBody_newline, Reading.atNewline_after]
    · rw [closing_newline, Reading.atNewline_after]

private theorem stringLiteral_newline (raw : Bool) :
    stringLiteral raw (text ++ '\n' :: rest) = (stringLiteral raw text).atNewline := by
  rw [stringLiteral, stringBody_newline, stringLiteral, Reading.atNewline_map]

private theorem charLiteral_newline (raw : Bool) :
    charLiteral raw (text ++ '\n' :: rest) = (charLiteral raw text).atNewline := by
  rw [charLiteral, charBody_newline, charLiteral, Reading.atNewline_map]

private theorem rawLiteral_newline :
    rawLiteral (text ++ '\n' :: rest) = (rawLiteral text).atNewline := by
  cases text with
  | nil => rfl
  | cons c text =>
    by_cases hstring : c = '"'
    · subst hstring
      rw [List.cons_append, rawLiteral, rawLiteral, stringLiteral_newline, Reading.atNewline_after]
    by_cases hchar : c = '\''
    · subst hchar
      rw [List.cons_append, rawLiteral, rawLiteral, charLiteral_newline, Reading.atNewline_after]
    · have hraw : ∀ others, rawLiteral (c :: others) = .error (.rawTextExpected, 0) := by
        intro others
        unfold rawLiteral
        split
        · next heq => exact absurd (List.cons.inj heq).1 hstring
        · next heq => exact absurd (List.cons.inj heq).1 hchar
        · rfl
      rw [List.cons_append, hraw, hraw]
      rfl

/-! ### Numbers -/

namespace Numeral

/-- Split digits, perhaps a point, and more digits from what stands behind the sign. -/
def splitUnsigned (negative : Bool) (unsigned : List Char) : Numeral × List Char :=
  match unsigned.dropWhile Char.isDigit with
  | '.' :: others => (⟨negative, unsigned.takeWhile Char.isDigit,
      some (others.takeWhile Char.isDigit)⟩, others.dropWhile Char.isDigit)
  | others => (⟨negative, unsigned.takeWhile Char.isDigit, none⟩, others)

private theorem split_of_ne_minus (h : text.head? ≠ some '-') :
    split text = splitUnsigned false text :=
  @split_signed false text h

private theorem splitUnsigned_newline (negative : Bool) :
    splitUnsigned negative (text ++ '\n' :: rest) =
      ((splitUnsigned negative text).1, (splitUnsigned negative text).2 ++ '\n' :: rest) := by
  unfold splitUnsigned
  rw [takeWhile_newline _ _ rfl, dropWhile_newline _ _ rfl]
  cases text.dropWhile Char.isDigit with
  | nil => rfl
  | cons c others =>
    by_cases hpoint : c = '.'
    · subst hpoint
      simp only [List.cons_append, takeWhile_newline others rest (q := Char.isDigit) rfl,
        dropWhile_newline others rest (q := Char.isDigit) rfl]
    · rw [List.cons_append]
      split
      · next heq => exact absurd (List.cons.inj heq).1 hpoint
      · split
        · next heq => exact absurd (List.cons.inj heq).1 hpoint
        · rfl

private theorem split_newline :
    split (text ++ '\n' :: rest) = ((split text).1, (split text).2 ++ '\n' :: rest) := by
  by_cases hsign : text.head? = some '-'
  · obtain ⟨unsigned, rfl⟩ := List.head?_eq_some_iff.mp hsign
    exact splitUnsigned_newline unsigned rest true
  · have hsign' : (text ++ '\n' :: rest).head? ≠ some '-' :=
      (head?_newline text rest (by decide)).not.mpr hsign
    rw [split_of_ne_minus _ hsign', split_of_ne_minus _ hsign, splitUnsigned_newline]

private theorem atNewline_finish (m : Numeral) (kind : NumberKind) (taken : Nat) :
    (m.finish kind taken).atNewline = m.finish kind taken := by
  unfold finish
  split <;> rfl

end Numeral

private theorem atNewline_of_objection? {kind : NumberKind} {negative point : Bool}
    {problem : LexProblem}
    (h : objection? kind negative point = some problem) : problem.atNewline = problem := by
  unfold objection? at h
  cases kind with
  | float | double => cases h
  | int | uint | long | short | byte =>
    dsimp only at h
    split_ifs at h <;> cases h <;> rfl

/-- A number ends in front of the end of the line. -/
theorem number_newline : number (text ++ '\n' :: rest) = (number text).atNewline := by
  unfold number
  rw [Numeral.split_newline]
  generalize Numeral.split text = parts
  obtain ⟨m, others⟩ := parts
  have hpoint := head?_newline others rest (d := '.') (by decide)
  have hletter : (others ++ '\n' :: rest).head?.bind NumberKind.ofLetter? =
      others.head?.bind NumberKind.ofLetter? := by
    cases others <;> rfl
  simp only [hpoint, hletter]
  split
  · rfl
  split
  · split
    · next hproblem => rw [Reading.atNewline, atNewline_of_objection? hproblem]
    · rw [Numeral.atNewline_finish]
  · rw [Numeral.atNewline_finish]

/-! ### Tokens -/

private theorem symbol_newline : symbol c (text ++ '\n' :: rest) = (symbol c text).atNewline := by
  have hpair : (text ++ '\n' :: rest).head?.bind (Symbol.ofPair? c) =
      text.head?.bind (Symbol.ofPair? c) := by
    cases text with
    | nil =>
      show Symbol.ofPair? c '\n' = none
      unfold Symbol.ofPair?
      split
      · next heq => exact absurd heq (by decide)
      · rfl
    | cons => rfl
  unfold symbol
  rw [hpair]
  split
  · rfl
  split <;> rfl

private theorem word_newline : word (text ++ '\n' :: rest) = (word text).atNewline := by
  rw [word, takeWhile_newline _ _ rfl]
  rfl

/-- A token ends in front of the end of the line, and what is no token in front of it is none at
the end of the text. -/
theorem one_newline : one c (text ++ '\n' :: rest) = (one c text).atNewline := by
  have hdigit : (text ++ '\n' :: rest).head?.any Char.isDigit = text.head?.any Char.isDigit := by
    cases text <;> rfl
  unfold one
  rw [hdigit]
  split
  · rw [stringLiteral_newline, Reading.atNewline_after]
  split
  · rw [charLiteral_newline, Reading.atNewline_after]
  split
  · rw [rawLiteral_newline, Reading.atNewline_after]
  split
  · rw [← List.cons_append, word_newline]
  split
  · rw [← List.cons_append, number_newline, Reading.atNewline_map]
  · rw [symbol_newline]

/-! ### Where a problem is -/

/-- A problem that a reader finds lies inside the text that is read, or at its end. -/
def Reading.StaysIn {α : Type} (r : Reading α) (length : Nat) : Prop :=
  ∀ problem n, r = .error (problem, n) → n ≤ length

namespace Reading

variable {α β : Type} {r : Reading α} {length : Nat}

private theorem staysIn_ok (a : α) (n : Nat) : StaysIn (.ok (a, n)) length := nofun

private theorem staysIn_zero (problem : LexProblem) :
    StaysIn (α := α) (.error (problem, 0)) length := by
  rintro _ _ ⟨⟩
  exact Nat.zero_le _

private theorem StaysIn.after (h : r.StaysIn length) : (r.after 1).StaysIn (length + 1) := by
  rcases r with ⟨problem, n⟩ | ⟨a, n⟩
  · rintro _ _ ⟨⟩
    have := h problem n rfl
    omega
  · exact nofun

private theorem StaysIn.map (h : r.StaysIn length) (f : α → β) : (r.map f).StaysIn length := by
  rcases r with ⟨problem, n⟩ | ⟨a, n⟩
  · rintro _ _ ⟨⟩
    exact h problem n rfl
  · exact nofun

end Reading

open Reading

private theorem staysIn_stringBody (raw escaped : Bool) :
    (stringBody raw escaped text).StaysIn text.length := by
  induction text generalizing escaped with
  | nil => exact staysIn_zero _
  | cons c text ih =>
    cases escaped with
    | true =>
      rw [stringBody]
      split
      · exact staysIn_zero _
      split
      · exact ((ih false).map _).after
      · exact staysIn_zero _
    | false =>
      rw [stringBody]
      split
      · exact staysIn_zero _
      split
      · exact staysIn_ok _ _
      split
      · exact (ih true).after
      · exact ((ih false).map _).after

private theorem staysIn_closing (v : Char) : (closing v text).StaysIn text.length := by
  unfold closing
  split
  · exact staysIn_ok _ _
  · exact staysIn_zero _

private theorem staysIn_escapedBody : (escapedBody text).StaysIn text.length := by
  cases text with
  | nil => exact staysIn_zero _
  | cons c text =>
    rw [escapedBody]
    split
    · exact staysIn_zero _
    split
    · exact (staysIn_closing text _).after
    · exact staysIn_zero _

private theorem staysIn_charBody (raw : Bool) : (charBody raw text).StaysIn text.length := by
  cases text with
  | nil => exact staysIn_zero _
  | cons c text =>
    rw [charBody]
    split
    · exact staysIn_zero _
    split
    · exact staysIn_zero _
    split
    · exact (staysIn_escapedBody text).after
    · exact (staysIn_closing text _).after

private theorem staysIn_rawLiteral : (rawLiteral text).StaysIn text.length := by
  unfold rawLiteral
  split
  · exact ((staysIn_stringBody _ true false).map _).after
  · exact ((staysIn_charBody _ true).map _).after
  · exact staysIn_zero _

/-- A numeral and what stands behind it are the text that is split. -/
theorem Numeral.text_split : (split text).1.text ++ (split text).2 = text := by
  have hunsigned : ∀ negative unsigned, (splitUnsigned negative unsigned).1.text ++
      (splitUnsigned negative unsigned).2 = (if negative then ['-'] else []) ++ unsigned := by
    intro negative unsigned
    have hparts := List.takeWhile_append_dropWhile (p := Char.isDigit) (l := unsigned)
    unfold splitUnsigned
    split
    · next others heq =>
      rw [heq] at hparts
      simp [Numeral.text, hparts]
    · simp [Numeral.text, hparts]
  by_cases hsign : text.head? = some '-'
  · obtain ⟨unsigned, rfl⟩ := List.head?_eq_some_iff.mp hsign
    exact hunsigned true unsigned
  · rw [split_of_ne_minus _ hsign]
    exact hunsigned false text

private theorem staysIn_number : (number text).StaysIn text.length := by
  have hlength : (Numeral.split text).1.text.length ≤ text.length := by
    conv_rhs => rw [← Numeral.text_split text]
    rw [List.length_append]
    exact Nat.le_add_right _ _
  have hfinish : ∀ (m : Numeral) (kind : NumberKind) (taken : Nat),
      (m.finish kind taken).StaysIn text.length := by
    intro m kind taken
    unfold Numeral.finish
    split
    · exact staysIn_ok _ _
    · exact staysIn_zero _
  unfold number
  dsimp only
  split
  · rintro _ _ ⟨⟩
    exact hlength
  split
  · split
    · rintro _ _ ⟨⟩
      exact hlength
    · exact hfinish _ _ _
  · exact hfinish _ _ _

/-- The problem of one token lies in the text or at its end. -/
theorem staysIn_one : (one c text).StaysIn (c :: text).length := by
  unfold one
  split
  · exact ((staysIn_stringBody _ false false).map _).after
  split
  · exact ((staysIn_charBody _ false).map _).after
  split
  · exact (staysIn_rawLiteral text).after
  split
  · exact staysIn_ok _ _
  split
  · exact (staysIn_number _).map _
  · unfold symbol
    split
    · exact staysIn_ok _ _
    split
    · exact staysIn_ok _ _
    · exact staysIn_zero _

end Token

end TestDeclaration

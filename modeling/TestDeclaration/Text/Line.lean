/-!
# Lines

The lines of a text, split at every newline.
-/

namespace TestDeclaration.Text

/-- The pieces of a text between its newlines; there is one more than there are newlines. -/
def splitLines : List Char → List (List Char)
  | [] => [[]]
  | c :: rest =>
    if c = '\n' then [] :: splitLines rest
    else match splitLines rest with
      | [] => [[c]]
      | line :: lines => (c :: line) :: lines

/-- The lines on the screen after some texts were printed, each with a newline behind it. -/
def printedLines (texts : List String) : List String :=
  texts.flatMap fun text ↦ (splitLines text.toList).map String.ofList

/-- A text has one more line than it has newlines. -/
theorem length_splitLines (text : List Char) :
    (splitLines text).length = text.count '\n' + 1 := by
  induction text with
  | nil => rfl
  | cons c rest ih =>
    unfold splitLines
    split
    · next h => simp [h, ih]
    · next h =>
      split
      · next heq => rw [heq] at ih; cases ih
      · next heq =>
        rw [heq] at ih
        rw [List.count_cons_of_ne h, ← ih]
        simp

/-- A text without newlines is one line. -/
theorem splitLines_of_not_mem {text : List Char} (h : '\n' ∉ text) : splitLines text = [text] := by
  induction text with
  | nil => rfl
  | cons c rest ih =>
    rw [List.mem_cons, not_or] at h
    rw [splitLines, if_neg (Ne.symm h.1), ih h.2]

/-- Texts are printed one after the other. -/
theorem printedLines_append (texts texts' : List String) :
    printedLines (texts ++ texts') = printedLines texts ++ printedLines texts' :=
  List.flatMap_append

/-- Texts without newlines are the lines that they print. -/
theorem printedLines_of_forall_not_mem {texts : List String}
    (h : ∀ text ∈ texts, '\n' ∉ text.toList) : printedLines texts = texts := by
  induction texts with
  | nil => rfl
  | cons text rest ih =>
    obtain ⟨htext, hrest⟩ := List.forall_mem_cons.mp h
    have hfirst : printedLines [text] = [text] := by
      simp [printedLines, splitLines_of_not_mem htext]
    rw [← List.singleton_append, printedLines_append, hfirst, ih hrest]

end TestDeclaration.Text

import Mathlib.Data.List.DropRight
import TestDeclaration.Text.Position

/-!
# Positions as counts

The position behind a text, in terms of the text alone: its bytes, its newlines, and its characters
behind the last newline. Going over the text character by character gives this position.
-/

namespace TestDeclaration.Text

/-- The position behind a text that starts at the first line and column. -/
def Position.behind (text : List Char) : Position where
  offset := byteLength text
  line := 1 + text.count '\n'
  column := 1 + (text.rtakeWhile (· ≠ '\n')).length

/-- Bytes add up. -/
theorem byteLength_append (a b : List Char) :
    byteLength (a ++ b) = byteLength a + byteLength b := by
  induction a with
  | nil => simp
  | cons c a ih => simp [ih, Nat.add_assoc]

/-- Every character has bytes. -/
theorem byteLength_pos {text : List Char} (h : text ≠ []) : 0 < byteLength text := by
  obtain ⟨c, text, rfl⟩ := List.exists_cons_of_ne_nil h
  have := c.utf8Size_pos
  rw [byteLength_cons]
  omega

/-- The starts of a text have different lengths in bytes. -/
theorem eq_of_byteLength_eq {text a b : List Char} (ha : a <+: text) (hb : b <+: text)
    (h : byteLength a = byteLength b) : a = b := by
  have hnil : ∀ {a b : List Char}, a <+: b → byteLength a = byteLength b → a = b := by
    rintro a _ ⟨rest, rfl⟩ h
    rw [byteLength_append] at h
    by_contra hne
    have hrest : rest ≠ [] := by
      rintro rfl
      exact hne (List.append_nil _).symm
    have := byteLength_pos hrest
    omega
  rcases List.prefix_or_prefix_of_prefix ha hb with hab | hba
  · exact hnil hab h
  · exact (hnil hba h.symm).symm

namespace Position

/-- The position behind a text goes one further with each character. -/
theorem behind_concat (text : List Char) (c : Char) :
    behind (text ++ [c]) = (behind text).next c := by
  unfold next behind
  split <;> simp [*, byteLength_append, Nat.add_assoc]

/-- From the start, passing over a text leads behind it. -/
theorem advance_start (text : List Char) : start.advance text = behind text := by
  induction text using List.reverseRecOn with
  | nil => rfl
  | append_singleton text c ih => rw [behind_concat, advance_append, ih, advance_cons, advance_nil]

/-- From behind a text, passing over another leads behind both. -/
theorem advance_behind (a b : List Char) : (behind a).advance b = behind (a ++ b) := by
  rw [← advance_start, ← advance_start, advance_append]

end Position

end TestDeclaration.Text

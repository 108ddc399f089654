import TestDeclaration.Text.Case.Table

/-!
# Letter case

The upper case and the lower case of a text, by the full mappings of Unicode: a character may
become several, and a capital sigma becomes a final sigma at the end of a word.
-/

namespace TestDeclaration.Text.Case

/-- The image of a code point under a list of runs; one that no run covers is its own. -/
def shifted (runs : List Run) (code : Nat) : Nat :=
  match runs.find? (·.covers code) with
  | some run => (code + run.shift).toNat
  | none => code

/-- The image of a character: its sequence if it has one, else one character. -/
def mapped (sequences : List (Nat × List Nat)) (runs : List Run) (c : Char) : List Char :=
  match sequences.lookup c.toNat with
  | some codes => codes.map Char.ofNat
  | none => [Char.ofNat (shifted runs c.toNat)]

/-- Whether a character lies in one of some ranges. -/
def inRanges (ranges : List (Nat × Nat)) (c : Char) : Bool :=
  ranges.any fun (first, last) ↦ first ≤ c.toNat && c.toNat ≤ last

/-- Whether a character has a case. -/
def isCased (c : Char) : Bool := inRanges casedRanges c

/-- Whether a character does not separate the letters of a word. -/
def isIgnorable (c : Char) : Bool := inRanges ignorableRanges c

/-- Whether a text continues a word: its first character that separates letters has a case. -/
def continuesWord (text : List Char) : Bool :=
  (text.find? fun c ↦ !isIgnorable c).any isCased

/-- The upper case of a text. -/
def upper (text : List Char) : List Char := text.flatMap (mapped upperSequences upperRuns)

/-- The lower case of a text that follows `before`, which is given in reverse. -/
def lowerAfter : List Char → List Char → List Char
  | _, [] => []
  | before, c :: rest =>
    let image :=
      if c = 'Σ' then
        if continuesWord before && !continuesWord rest then ['ς'] else ['σ']
      else mapped lowerSequences lowerRuns c
    image ++ lowerAfter (c :: before) rest

/-- The lower case of a text. -/
def lower (text : List Char) : List Char := lowerAfter [] text

end TestDeclaration.Text.Case

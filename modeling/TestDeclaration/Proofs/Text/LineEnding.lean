import TestDeclaration.Text.LineEnding

/-!
# Laws of line endings

Unifying line endings changes carriage returns only, and it goes from left to right: two texts one
behind the other are unified one behind the other, unless a carriage return and its newline are
torn apart between them. So a text whose newlines were written in another way is unified to the text
that it was.
-/

namespace TestDeclaration.Text.LineEnding

variable {a b text : List Char}

/-- The first of two texts ends in the middle of a line ending, and the second goes on with it. -/
def Splits (a b : List Char) : Prop := a.getLast? = some '\r' ∧ b.head? = some '\n'

instance (a b : List Char) : Decidable (Splits a b) := inferInstanceAs (Decidable (_ ∧ _))

/-! ### One text behind another -/

/-- What tears the end of a text apart tears the whole text apart. -/
theorem Splits.cons {c : Char} (h : Splits a b) : Splits (c :: a) b := by
  refine ⟨?_, h.2⟩
  rw [List.getLast?_cons, h.1]
  rfl

private theorem unify_append_of_not_splits (h : ¬ Splits a b) :
    unify (a ++ b) = unify a ++ unify b := by
  rw [unify_eq_read, unify_eq_read, unify_eq_read]
  fun_induction read a with
  | case1 rest ih =>
    have hrest : ¬ Splits rest b := fun hs ↦ h hs.cons.cons
    rw [List.cons_append, List.cons_append, read, ih hrest, List.cons_append]
  | case2 c rest hpair ih =>
    have hrest : ¬ Splits rest b := fun hs ↦ h hs.cons
    rw [List.cons_append, read, ih hrest, List.cons_append]
    -- A pair behind `c` is a pair of the first text, or it is split.
    intro more hc hmore
    cases rest with
    | nil => exact h ⟨by rw [hc]; rfl, by rw [show b = '\n' :: more from hmore]; rfl⟩
    | cons d rest =>
      obtain ⟨rfl, -⟩ := List.cons.inj hmore
      exact hpair rest hc rfl
  | case3 => rfl

/-- A text without carriage returns is unified apart from what follows. -/
theorem unify_append_of_not_mem (h : '\r' ∉ a) (b : List Char) :
    unify (a ++ b) = unify a ++ unify b :=
  unify_append_of_not_splits fun hs ↦ h (List.mem_of_getLast? hs.1)

/-- A line ending that is torn apart counts as two. -/
theorem unify_append_ne_of_splits (h : Splits a b) : unify (a ++ b) ≠ unify a ++ unify b := by
  obtain ⟨front, rfl⟩ := List.getLast?_eq_some_iff.mp h.1
  obtain ⟨back, rfl⟩ := List.head?_eq_some_iff.mp h.2
  have hjoined : unify (front ++ ['\r'] ++ '\n' :: back) =
      unify front ++ ('\n' :: unify back) := by
    rw [List.append_assoc, unify_append_of_not_splits (by simp [Splits])]
    rfl
  have hfront : unify (front ++ ['\r']) = unify front ++ ['\n'] :=
    unify_append_of_not_splits (by simp [Splits])
  have hback : unify ('\n' :: back) = '\n' :: unify back := rfl
  rw [hjoined, hfront, hback, List.append_assoc, List.singleton_append]
  simp

/-- Two texts are unified one behind the other exactly if no line ending is torn apart. -/
theorem unify_append_iff : unify (a ++ b) = unify a ++ unify b ↔ ¬ Splits a b :=
  ⟨fun h hs ↦ unify_append_ne_of_splits hs h, unify_append_of_not_splits⟩

/-! ### Texts without carriage returns -/

/-- Unifying line endings keeps a text without carriage returns. -/
theorem unify_eq_self (h : '\r' ∉ text) : unify text = text := by
  induction text with
  | nil => rfl
  | cons c rest ih =>
    obtain ⟨hc, hrest⟩ := List.ne_and_not_mem_of_not_mem_cons h
    have hfirst : unify [c] = [c] := by simp [unify, joinPairs, loneReturn, hc.symm]
    rw [← List.singleton_append, unify_append_of_not_mem (by simpa using hc), hfirst, ih hrest]

/-- The texts that stay as they are have no carriage returns. -/
theorem unify_eq_self_iff : unify text = text ↔ '\r' ∉ text :=
  ⟨fun h ↦ h ▸ return_not_mem_unify text, unify_eq_self⟩

/-- Line endings are unified in one pass. -/
theorem unify_unify (text : List Char) : unify (unify text) = unify text :=
  unify_eq_self (return_not_mem_unify text)

/-! ### Newlines written in another way -/

/-- A text with each newline written as some line ending. -/
def write (ending text : List Char) : List Char :=
  text.flatMap fun c ↦ if c = '\n' then ending else [c]

/-- A line ending that starts with a carriage return: both characters, or the first alone. -/
inductive HasReturn : List Char → Prop where
  | pair : HasReturn ['\r', '\n']
  | lone : HasReturn ['\r']

variable {ending : List Char}

private theorem write_cons (c : Char) (rest : List Char) :
    write ending (c :: rest) = (if c = '\n' then ending else [c]) ++ write ending rest := by
  rw [write, List.flatMap_cons]
  rfl

/-- A text whose newlines are written with carriage returns does not start with a newline. -/
theorem head?_write_ne (he : HasReturn ending) (text : List Char) :
    (write ending text).head? ≠ some '\n' := by
  cases text with
  | nil => simp [write]
  | cons c rest =>
    rw [write_cons]
    split
    · cases he <;> simp
    · next hc => simpa using hc

/-- Unifying line endings takes the carriage returns away that the newlines were written with. -/
theorem unify_write (he : HasReturn ending) (h : '\r' ∉ text) :
    unify (write ending text) = text := by
  induction text with
  | nil => rfl
  | cons c rest ih =>
    obtain ⟨hc, hrest⟩ := List.ne_and_not_mem_of_not_mem_cons h
    have hfirst : unify (if c = '\n' then ending else [c]) = [c] := by
      split
      · next hnewline =>
        rw [hnewline]
        cases he <;> rfl
      · have hreturn : '\r' ∉ [c] := by simpa using hc
        exact unify_eq_self hreturn
    have hwhole : ∀ first, ¬ Splits first (write ending rest) :=
      fun _ hs ↦ head?_write_ne he rest hs.2
    rw [write_cons, unify_append_of_not_splits (hwhole _), hfirst, ih hrest, List.singleton_append]

end TestDeclaration.Text.LineEnding

import TestDeclaration.Proofs.CodeUnit.WholeNumbers

/-!
# Parts of strings

A part of a string is asked for by its start and its length, both ints and both counted in
characters, however many bytes these take. It is given exactly if it is within the string; the end
is an exact sum, so no int is too large to be refused. Parts that follow one another are joined to
the part that covers them.
-/

namespace TestDeclaration

open Native Number

/-- A method of instances, resolved for the types of its arguments, returns a value and leaves the
heap alone. -/
def Library.Returns (l : Library) (target : Value) (name : String) (args : List Value)
    (result : Value) : Prop :=
  ∀ h, l.call? target.typeName name (some target) args h = some (.ok (some result), h)

/-- The difference of two ints that are not negative is exact. -/
theorem Number.toInt_sub_of_le {a b : Int32} (ha : 0 ≤ a.toInt) (hab : a.toInt ≤ b.toInt) :
    (b - a).toInt = b.toInt - a.toInt := by
  have hb := b.toInt_lt
  rw [Int32.toInt_sub]
  exact Int.bmod_eq_of_le_mul_two (by omega) (by omega)

namespace Core

variable {s t : String} {i j k n : Int32}

/-! ### What a part is -/

/-- A start and a length stay within a string: neither is negative, and the exact sum of both is not
beyond the end. -/
structure Within (s : String) (i n : Int32) : Prop where
  start : 0 ≤ i.toInt
  length : 0 ≤ n.toInt
  stop : i.toInt + n.toInt ≤ s.toList.length

/-- A string has some length, and its characters are those of another string from some start on. -/
structure IsPart (s : String) (i n : Int32) (t : String) : Prop where
  length : t.toList.length = n.toInt
  character : ∀ m < t.toList.length, t.toList[m]? = s.toList[i.toInt.toNat + m]?

/-- How it ends when a part of a string is asked for: with the part if start and length are within
the string, and with an argument fault otherwise. -/
inductive Slices (s : String) (i n : Int32) : Except Fault (Option Value) → Prop where
  | part {t : String} : Within s i n → IsPart s i n t → Slices s i n (.ok (some (.string t)))
  | refused {f : Fault} : ¬ Within s i n → f.type = Fault.Kind.argument.typeName →
      Slices s i n (.error f)

/-- The part of a string with some start and length. -/
def part (s : String) (i n : Int32) : String :=
  String.ofList ((s.toList.drop i.toInt.toNat).take n.toInt.toNat)

private theorem toList_part (s : String) (i n : Int32) :
    (part s i n).toList = (s.toList.drop i.toInt.toNat).take n.toInt.toNat :=
  String.toList_ofList

private theorem isPart_part (h : Within s i n) : IsPart s i n (part s i n) := by
  obtain ⟨hi, hn, hstop⟩ := h
  have hlength : (part s i n).toList.length = n.toInt.toNat := by
    rw [toList_part, List.length_take, List.length_drop]
    omega
  refine ⟨by omega, fun m hm ↦ ?_⟩
  rw [hlength] at hm
  rw [toList_part, List.getElem?_take_of_lt hm, List.getElem?_drop]

/-- A part is somewhere in the string. -/
theorem isInfix_part (s : String) (i n : Int32) : (part s i n).toList <:+: s.toList := by
  rw [toList_part]
  exact (List.take_prefix _ _).isInfix.trans (List.drop_suffix _ _).isInfix

private theorem part_zero (h : n.toInt = s.toList.length) : part s 0 n = s := by
  have hn : n.toInt.toNat = s.toList.length := by omega
  rw [← String.toList_inj, toList_part, hn]
  exact List.take_length

/-- Parts that follow one another make the part that covers both. -/
theorem part_append (hi : 0 ≤ i.toInt) (hij : i.toInt ≤ j.toInt) (hjk : j.toInt ≤ k.toInt) :
    part s i (j - i) ++ part s j (k - j) = part s i (k - i) := by
  have hsum : (k - i).toInt.toNat = (j - i).toInt.toNat + (k - j).toInt.toNat := by
    rw [toInt_sub_of_le hi hij, toInt_sub_of_le hi (hij.trans hjk),
      toInt_sub_of_le (hi.trans hij) hjk]
    omega
  have hstart : i.toInt.toNat + (j - i).toInt.toNat = j.toInt.toNat := by
    rw [toInt_sub_of_le hi hij]
    omega
  rw [← String.toList_inj, String.toList_append, toList_part, toList_part, toList_part, hsum,
    List.take_add, List.drop_drop, hstart]

/-- A text is found in another exactly if it stands somewhere in it. -/
theorem occursIn_iff {part text : List Char} : occursIn part text = true ↔ part <:+: text := by
  induction text with
  | nil => rw [occursIn, List.isEmpty_iff, List.infix_nil]
  | cons c rest ih =>
    rw [occursIn, Bool.or_eq_true, List.isPrefixOf_iff_prefix, ih, List.infix_cons_iff]

/-! ### The native code -/

/-- With two ints, the code first looks at their signs and then at the sum. -/
theorem slices_substring (s : String) (i n : Int32) (h : Heap) :
    ∃ result, (substring (some (.string s)) [.int i, .int n]).perform h = (result, h) ∧
      Slices s i n result ∧ (Within s i n → result = .ok (some (.string (part s i n)))) := by
  have hreads : substring (some (.string s)) [.int i, .int n] = (do
      if i < 0 ∨ n < 0 then
        raise (.argument "Start index and length cannot be negative")
      if s.toList.length < i.toInt.toNat + n.toInt.toNat then
        raise (.argument "Index and length must refer to a location within the string")
      stringResult ((s.toList.drop i.toInt.toNat).take n.toInt.toNat)) := rfl
  have hsigns : i < 0 ∨ n < 0 ↔ i.toInt < 0 ∨ n.toInt < 0 := by
    rw [Int32.lt_iff_toInt_lt, Int32.lt_iff_toInt_lt]
    rfl
  rw [hreads]
  by_cases hnegative : i < 0 ∨ n < 0
  · have hout : ¬ Within s i n := fun hw ↦
      (hsigns.mp hnegative).elim (Int.not_lt.mpr hw.start) (Int.not_lt.mpr hw.length)
    rw [if_pos hnegative]
    exact ⟨_, rfl, .refused hout rfl, fun hw ↦ absurd hw hout⟩
  rw [if_neg hnegative]
  rw [hsigns, not_or, Int.not_lt, Int.not_lt] at hnegative
  by_cases hbeyond : s.toList.length < i.toInt.toNat + n.toInt.toNat
  · have hout : ¬ Within s i n := fun hw ↦ by
      have hstop := hw.stop
      omega
    rw [if_pos hbeyond]
    exact ⟨_, rfl, .refused hout rfl, fun hw ↦ absurd hw hout⟩
  · have hin : Within s i n := ⟨hnegative.1, hnegative.2, by omega⟩
    rw [if_neg hbeyond]
    exact ⟨_, rfl, .part hin (isPart_part hin), fun _ ↦ rfl⟩

/-! ### Calls -/

variable {units : List CodeUnit}

/-- A library that starts with the core unit knows the standard methods of strings. -/
theorem definition?_string (units : List CodeUnit) :
    Library.definition? ⟨unit :: units⟩ string = some stringType := rfl

/-- The methods of strings run their code on a string. -/
theorem call?_string {name : String} {m : Method} {args : List Value}
    (hm : stringType.method? name (args.map Value.typeName) = some m)
    (hreceiver : m.receiver = .target) (hargs : argumentRefusal? m.parameters args = none)
    (s : String) (h : Heap) :
    Library.call? ⟨unit :: units⟩ string name (some (.string s)) args h =
      some ((m.body (some (.string s)) args).perform h) :=
  Library.call?_target (definition?_string units) hm hargs hreceiver rfl h

private theorem call?_substring (s : String) (i n : Int32) (h : Heap) :
    Library.call? ⟨unit :: units⟩ string "Substring" (some (.string s)) [.int i, .int n] h =
      some ((substring (some (.string s)) [.int i, .int n]).perform h) :=
  call?_string (m := ⟨"Substring", [int, int], .target, substring⟩) rfl rfl rfl s h

private theorem returns_substring (hw : Within s i n) :
    Library.Returns ⟨unit :: units⟩ (.string s) "Substring" [.int i, .int n]
      (.string (part s i n)) := by
  intro h
  obtain ⟨result, hresult, -, hpart⟩ := slices_substring s i n h
  rw [← hpart hw, ← hresult]
  exact call?_substring s i n h

/-- The length of a string is an int if it fits. -/
theorem returns_length (hn : t.toList.length = n.toInt) :
    Library.Returns ⟨unit :: units⟩ (.string t) "Length" [] (.int n) := by
  intro h
  have hfits : int? t.toList.length = some n := Range.words_int.word?_eq_some_iff.mpr hn.symm
  have hlength : (length (some (.string t)) []).perform h = (.ok (some (.int n)), h) := by
    have hreads : length (some (.string t)) [] = checkedInt t.toList.length := rfl
    rw [hreads, checkedInt, hfits]
    rfl
  rw [← hlength]
  exact call?_string (m := ⟨"Length", [], .target, length⟩) rfl rfl rfl t h

private theorem returns_contains (ht : t.toList <:+: s.toList) :
    Library.Returns ⟨unit :: units⟩ (.string s) "Contains" [.string t]
      (.scalar (.bool true)) := by
  intro h
  have hcontains : (contains (some (.string s)) [.string t]).perform h =
      (.ok (some (.scalar (.bool (occursIn t.toList s.toList)))), h) := rfl
  rw [occursIn_iff.mpr ht] at hcontains
  rw [← hcontains]
  exact call?_string (m := ⟨"Contains", [string], .target, contains⟩) rfl rfl rfl s h

/-- `Substring` ends on every string and all ints, with the exact slice of the characters if it is
within the string, and with an argument fault otherwise. -/
theorem substring_slices_exactly (units : List CodeUnit) (s : String) :
    let l : Library := ⟨unit :: units⟩
    (∀ (i n : Int32) (h : Heap), ∃ result,
      l.call? string "Substring" (some (.string s)) [.int i, .int n] h = some (result, h) ∧
      Slices s i n result) ∧
    (∀ i n : Int32, Within s i n → ∃ t,
      l.Returns (.string s) "Substring" [.int i, .int n] (.string t) ∧
      l.Returns (.string t) "Length" [] (.int n) ∧
      l.Returns (.string s) "Contains" [.string t] (.scalar (.bool true))) ∧
    (∀ n : Int32, n.toInt = s.toList.length →
      l.Returns (.string s) "Substring" [.int 0, .int n] (.string s)) ∧
    ∀ i j k : Int32, 0 ≤ i.toInt → i.toInt ≤ j.toInt → j.toInt ≤ k.toInt →
      k.toInt ≤ s.toList.length → ∃ t u,
        l.Returns (.string s) "Substring" [.int i, .int (j - i)] (.string t) ∧
        l.Returns (.string s) "Substring" [.int j, .int (k - j)] (.string u) ∧
        l.Returns (.string s) "Substring" [.int i, .int (k - i)] (.string (t ++ u)) := by
  intro l
  refine ⟨fun i n h ↦ ?_, fun i n hw ↦ ?_, fun n hn ↦ ?_, fun i j k hi hij hjk hk ↦ ?_⟩
  · obtain ⟨result, hresult, hslices, -⟩ := slices_substring s i n h
    refine ⟨result, ?_, hslices⟩
    rw [← hresult]
    exact call?_substring s i n h
  · have hpart := isPart_part hw
    exact ⟨part s i n, returns_substring hw, returns_length hpart.length,
      returns_contains (isInfix_part s i n)⟩
  · have hzero : (0 : Int32).toInt = 0 := rfl
    have hw : Within s 0 n := ⟨Int.le_refl 0, by omega, by omega⟩
    have hall : l.Returns (.string s) "Substring" [.int 0, .int n] (.string (part s 0 n)) :=
      returns_substring hw
    rwa [part_zero hn] at hall
  · have hleft : Within s i (j - i) := by
      refine ⟨hi, ?_, ?_⟩ <;>
      · rw [toInt_sub_of_le hi hij]
        omega
    have hright : Within s j (k - j) := by
      refine ⟨hi.trans hij, ?_, ?_⟩ <;>
      · rw [toInt_sub_of_le (hi.trans hij) hjk]
        omega
    have hboth : Within s i (k - i) := by
      refine ⟨hi, ?_, ?_⟩ <;>
      · rw [toInt_sub_of_le hi (hij.trans hjk)]
        omega
    refine ⟨part s i (j - i), part s j (k - j), returns_substring hleft,
      returns_substring hright, ?_⟩
    rw [part_append hi hij hjk]
    exact returns_substring hboth

/-- Four characters of one to four bytes are cut at each place, up to the empty part at the end; the
greatest int is beyond it. -/
theorem substring_slices_exactly_by_characters :
    let l : Library := ⟨[unit, ⟨"other", [.new string]⟩]⟩
    let s := "aé漢😀"
    Within s 1 3 ∧ Within s 4 0 ∧ ¬ Within s 1 2147483647 ∧
    (∃ t, l.Returns (.string s) "Substring" [.int 4, .int 0] (.string t) ∧
      l.Returns (.string t) "Length" [] (.int 0)) ∧
    (∃ t u, l.Returns (.string s) "Substring" [.int 1, .int (2 - 1)] (.string t) ∧
      l.Returns (.string s) "Substring" [.int 2, .int (4 - 2)] (.string u) ∧
      l.Returns (.string s) "Substring" [.int 1, .int (4 - 1)] (.string (t ++ u))) ∧
    ∃ result, l.call? string "Substring" (some (.string s)) [.int 1, .int 2147483647] .empty =
      some (result, .empty) ∧ Slices s 1 2147483647 result := by
  intro l s
  have hend : Within s 4 0 := ⟨by decide, by decide, by decide⟩
  obtain ⟨hslices, hpart, -, hjoin⟩ :=
    substring_slices_exactly [⟨"other", [.new string]⟩] s
  refine ⟨⟨by decide, by decide, by decide⟩, hend, fun hw ↦ absurd hw.stop (by decide), ?_, ?_,
    hslices 1 2147483647 .empty⟩
  · obtain ⟨t, ht, hlength, -⟩ := hpart 4 0 hend
    exact ⟨t, ht, hlength⟩
  · exact hjoin 1 2 4 (by decide) (by decide) (by decide) (by decide)

end Core

end TestDeclaration

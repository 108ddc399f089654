import Mathlib.Data.List.Basic

/-!
# First and last elements

What a search through a list finds is the first element with some property. In a list that is
turned around that is the last one.
-/

namespace TestDeclaration

/-- The first element of a list with some property, and its place. -/
def FirstAt {α : Type} (xs : List α) (P : α → Prop) (k : Nat) (a : α) : Prop :=
  xs[k]? = some a ∧ P a ∧ ∀ k' < k, ∀ b ∈ xs[k']?, ¬ P b

/-- The last element of a list with some property, and its place. -/
def LastAt {α : Type} (xs : List α) (P : α → Prop) (k : Nat) (a : α) : Prop :=
  xs[k]? = some a ∧ P a ∧ ∀ k' > k, ∀ b ∈ xs[k']?, ¬ P b

variable {α β : Type} {xs : List α} {P : α → Prop} {k k' : Nat} {a b : α}

/-- There is one first element at most. -/
theorem FirstAt.unique (h : FirstAt xs P k a) (h' : FirstAt xs P k' b) : k = k' ∧ a = b := by
  have hk : k = k' := by
    rcases Nat.lt_trichotomy k k' with hlt | heq | hgt
    · exact absurd h.2.1 (h'.2.2 k hlt a h.1)
    · exact heq
    · exact absurd h'.2.1 (h.2.2 k' hgt b h'.1)
  subst hk
  exact ⟨rfl, Option.some.inj (h.1.symm.trans h'.1)⟩

/-- An element is the first one if none in front of it has the property. -/
theorem firstAt_append {before after : List α} (hbefore : ∀ b ∈ before, ¬ P b) (ha : P a) :
    FirstAt (before ++ a :: after) P before.length a := by
  refine ⟨by simp, ha, fun k hk b hb ↦ hbefore b ?_⟩
  rw [List.getElem?_append_left hk] at hb
  exact List.mem_of_getElem? hb

/-- The first element from which something can be made is found. -/
theorem findSome?_eq_some_iff_firstAt {f : α → Option β} (hf : ∀ a, (f a).isSome ↔ P a) {c : β} :
    xs.findSome? f = some c ↔ ∃ k a, FirstAt xs P k a ∧ f a = some c := by
  have hfirst : ∀ {c}, xs.findSome? f = some c → ∃ k a, FirstAt xs P k a ∧ f a = some c := by
    intro c hc
    obtain ⟨before, a, after, rfl, ha, hbefore⟩ := List.findSome?_eq_some_iff.mp hc
    refine ⟨before.length, a, firstAt_append (fun b hb ↦ ?_) ?_, ha⟩
    · rw [← hf, hbefore b hb]
      exact Bool.false_ne_true
    · rw [← hf, ha]
      rfl
  refine ⟨hfirst, ?_⟩
  rintro ⟨k, a, h, ha⟩
  cases hfound : xs.findSome? f with
  | none =>
    have hnone := List.findSome?_eq_none_iff.mp hfound a (List.mem_of_getElem? h.1)
    rw [ha] at hnone
    cases hnone
  | some c' =>
    obtain ⟨k', a', h', ha'⟩ := hfirst hfound
    obtain ⟨-, rfl⟩ := h.unique h'
    rw [← ha', ha]

/-- The first element with a property is found. -/
theorem find?_eq_some_iff_firstAt {p : α → Bool} (hp : ∀ a, p a ↔ P a) :
    xs.find? p = some a ↔ ∃ k, FirstAt xs P k a := by
  rw [List.find?_eq_findSome?_guard,
    findSome?_eq_some_iff_firstAt fun a ↦ by rw [Option.isSome_guard, hp]]
  simp only [Option.guard_eq_some_iff]
  constructor
  · rintro ⟨k, _, h, rfl, -⟩
    exact ⟨k, h⟩
  · rintro ⟨k, h⟩
    exact ⟨k, a, h, rfl, (hp a).mpr h.2.1⟩

/-- In a list that is turned around the last element is the first one. -/
theorem firstAt_reverse_iff (hk : k' + k + 1 = xs.length) :
    FirstAt xs.reverse P k' a ↔ LastAt xs P k a := by
  have hturn : ∀ i j, i + j + 1 = xs.length → xs.reverse[i]? = xs[j]? :=
    fun _ _ ↦ List.getElem?_reverse'
  rw [FirstAt, LastAt, hturn k' k hk]
  refine and_congr_right fun _ ↦ and_congr_right fun _ ↦
    ⟨fun h i hi b hb ↦ ?_, fun h i hi b hb ↦ ?_⟩
  · have hlt : i < xs.length := (List.getElem?_eq_some_iff.mp hb).1
    refine h (xs.length - 1 - i) (by omega) b ?_
    rwa [hturn (xs.length - 1 - i) i (by omega)]
  · refine h (xs.length - 1 - i) (by omega) b ?_
    rwa [← hturn i (xs.length - 1 - i) (by omega)]

/-- A list that is turned around has a first such element where the list has a last one. -/
theorem exists_firstAt_reverse : (∃ k, FirstAt xs.reverse P k a) ↔ ∃ k, LastAt xs P k a := by
  constructor
  · rintro ⟨i, hi⟩
    have hlt : i < xs.reverse.length := (List.getElem?_eq_some_iff.mp hi.1).1
    rw [List.length_reverse] at hlt
    exact ⟨xs.length - 1 - i, (firstAt_reverse_iff (by omega)).mp hi⟩
  · rintro ⟨k, hk⟩
    have hlt : k < xs.length := (List.getElem?_eq_some_iff.mp hk.1).1
    exact ⟨xs.length - 1 - k, (firstAt_reverse_iff (by omega)).mpr hk⟩

/-- An element stays the first one whatever stands behind it. -/
theorem FirstAt.take_append (h : FirstAt xs P k a) (ys : List α) :
    FirstAt (xs.take (k + 1) ++ ys) P k a := by
  have hk : k < xs.length := (List.getElem?_eq_some_iff.mp h.1).1
  have hget : ∀ i < k + 1, (xs.take (k + 1) ++ ys)[i]? = xs[i]? := by
    intro i hi
    rw [List.getElem?_append_left (by rw [List.length_take]; omega), List.getElem?_take_of_lt hi]
  refine ⟨?_, h.2.1, fun i hi b hb ↦ h.2.2 i hi b ?_⟩
  · rw [hget k (Nat.lt_succ_self k), h.1]
  · rwa [hget i (Nat.lt_succ_of_lt hi)] at hb

end TestDeclaration

import Mathlib.Data.List.Forall2
import TestDeclaration.Fault

/-!
# Heaps up to the identity of objects

Two heaps correspond along a pairing of their addresses if the pairing is one-to-one and paired
objects have the same fields, where references to paired objects count as the same. What holds of
one heap then holds of the other, as long as objects are known by reference only. Pairs can be
added for new objects, and every heap corresponds to itself along a set of objects that hold only
objects of the set.
-/

namespace TestDeclaration

/-- Which object of one heap stands for which object of another, by address. -/
abbrev Pairing := Nat → Nat → Prop

variable (kinds : TypeName → Prop) (R : Pairing)

/-- Two values are the same up to paired objects, whose types are of some kinds. -/
inductive Value.Alike : Value → Value → Prop where
  | scalar (s : Scalar) : Alike (.scalar s) (.scalar s)
  | type (t : TypeName) : Alike (.type t) (.type t)
  | object {r s : Ref} : kinds r.type → r.type = s.type → R r.address s.address →
      Alike (.object r) (.object s)

/-- Two lists of fields have the same names and the same values up to paired objects. -/
def Fields.Alike (fields others : Fields) : Prop :=
  List.Forall₂ (fun f g ↦ f.1 = g.1 ∧ f.2.Alike kinds R g.2) fields others

/-- Two faults are the same up to paired objects. -/
structure Fault.Alike (f g : Fault) : Prop where
  type : f.type = g.type
  message : f.message = g.message
  extra : Fields.Alike kinds R f.extra g.extra

/-- Paired objects are there, and are the same up to paired objects. -/
structure Heap.Corresponds (h k : Heap) : Prop where
  unique : Relator.BiUnique R
  lt_left : ∀ {a b : Nat}, R a b → a < h.objects.size
  lt_right : ∀ {a b : Nat}, R a b → b < k.objects.size
  fields : ∀ {r s : Ref}, R r.address s.address → Fields.Alike kinds R (h.fields r) (k.fields s)

/-- While two heaps grow, a pairing gains pairs, and only pairs of new objects. -/
structure Pairing.Extends (h k : Heap) (R' : Pairing) (h' k' : Heap) : Prop where
  keeps : ∀ {a b : Nat}, R a b → R' a b
  fresh : ∀ {a b : Nat}, R' a b → R a b ∨ h.objects.size ≤ a ∧ k.objects.size ≤ b
  grows_left : h.objects.size ≤ h'.objects.size
  grows_right : k.objects.size ≤ k'.objects.size

/-- All objects keep their fields, except perhaps those at some addresses. -/
structure Heap.KeepsExcept (own : Nat → Prop) (h k : Heap) : Prop where
  grows : h.objects.size ≤ k.objects.size
  same : ∀ a < h.objects.size, ¬ own a → k.objects[a]? = h.objects[a]?

/-- All objects keep their fields. -/
abbrev Heap.Keeps (h k : Heap) : Prop := KeepsExcept (fun _ ↦ False) h k

variable {kinds R} {R' R'' : Pairing} {h k h' k' h'' k'' : Heap}

/-! ### Values, fields and faults -/

/-- Values stay alike when kinds and pairs are added. -/
theorem Value.Alike.mono {kinds' : TypeName → Prop} (hk : ∀ t, kinds t → kinds' t)
    (hR : ∀ a b, R a b → R' a b) {v w : Value} (hv : v.Alike kinds R w) :
    v.Alike kinds' R' w := by
  cases hv with
  | scalar s => exact .scalar s
  | type t => exact .type t
  | object hr ht ha => exact .object (hk _ hr) ht (hR _ _ ha)

private theorem Fields.Alike.mono {kinds' : TypeName → Prop} (hk : ∀ t, kinds t → kinds' t)
    (hR : ∀ a b, R a b → R' a b) {fs gs : Fields} (hf : Fields.Alike kinds R fs gs) :
    Fields.Alike kinds' R' fs gs :=
  List.Forall₂.imp (fun _ _ hfg ↦ ⟨hfg.1, hfg.2.mono hk hR⟩) hf

/-- Faults stay alike when kinds and pairs are added. -/
theorem Fault.Alike.mono {kinds' : TypeName → Prop} (hk : ∀ t, kinds t → kinds' t)
    (hR : ∀ a b, R a b → R' a b) {f g : Fault} (hf : f.Alike kinds R g) : f.Alike kinds' R' g :=
  ⟨hf.type, hf.message, hf.extra.mono hk hR⟩

/-- Values that are the same up to objects have the same type. -/
theorem Value.Alike.typeName_eq {v w : Value} (hv : v.Alike kinds R w) :
    v.typeName = w.typeName := by
  cases hv with
  | scalar | type => rfl
  | object _ ht _ => exact ht

/-- A value that is no object is the same only as itself. -/
theorem Value.Alike.eq_of_not_kinds {v w : Value} (hv : v.Alike kinds R w)
    (hk : ¬ kinds v.typeName) : v = w := by
  cases hv with
  | scalar | type => rfl
  | object hr _ _ => exact absurd hr hk

/-- A value that is no object is the same as itself. -/
theorem Value.alike_of_asObject?_eq_none {v : Value} (hv : v.asObject? = none) :
    v.Alike kinds R v := by
  cases v with
  | scalar s => exact .scalar s
  | type t => exact .type t
  | object r => cases hv

/-- The first fields of a name are the same. -/
theorem Fields.Alike.get? {fs gs : Fields} (hf : Fields.Alike kinds R fs gs) (name : String) :
    Option.Rel (Value.Alike kinds R) (fs.get? name) (gs.get? name) := by
  induction hf with
  | nil => exact .none
  | @cons f g _ _ hfg _ ih =>
    obtain ⟨first, v⟩ := f
    obtain ⟨_, w⟩ := g
    obtain ⟨rfl, hv⟩ := hfg
    unfold Fields.get? at ih ⊢
    simp only [List.lookup_cons]
    by_cases hn : name == first
    · rw [hn]
      exact .some hv
    · rw [Bool.not_eq_true] at hn
      rw [hn]
      exact ih

/-- Writing the same to a field of the same name keeps fields the same. -/
theorem Fields.Alike.set {fs gs : Fields} (hf : Fields.Alike kinds R fs gs) (name : String)
    {v w : Value} (hv : v.Alike kinds R w) :
    Fields.Alike kinds R (fs.set name v) (gs.set name w) := by
  induction hf with
  | nil => exact .cons ⟨rfl, hv⟩ .nil
  | @cons f g _ _ hfg hrest ih =>
    obtain ⟨first, v'⟩ := f
    obtain ⟨_, w'⟩ := g
    obtain ⟨rfl, hv'⟩ := hfg
    unfold Fields.set
    split
    · exact .cons ⟨rfl, hv⟩ hrest
    · exact .cons ⟨rfl, hv'⟩ ih

/-- The objects of two faults have the same fields. -/
theorem Fault.Alike.fields {f g : Fault} (hf : f.Alike kinds R g) :
    Fields.Alike kinds R f.fields g.fields := by
  refine List.Forall₂.cons ⟨rfl, ?_⟩ hf.extra
  show Value.Alike kinds R (.string f.message) (.string g.message)
  rw [hf.message]
  exact .scalar _

/-! ### Heaps that keep their objects -/

namespace Heap

variable {own : Nat → Prop}

/-- A heap keeps its own objects. -/
theorem KeepsExcept.refl (own : Nat → Prop) (h : Heap) : h.KeepsExcept own h :=
  ⟨Nat.le_refl _, fun _ _ _ ↦ rfl⟩

/-- What is kept twice is kept. -/
theorem KeepsExcept.trans (h₁ : h.KeepsExcept own h') (h₂ : h'.KeepsExcept own h'') :
    h.KeepsExcept own h'' where
  grows := Nat.le_trans h₁.grows h₂.grows
  same a ha ho := (h₂.same a (Nat.lt_of_lt_of_le ha h₁.grows) ho).trans (h₁.same a ha ho)

/-- More objects can be left out of those that are kept. -/
theorem KeepsExcept.mono {own' : Nat → Prop} (h₁ : h.KeepsExcept own h')
    (ho : ∀ a < h.objects.size, own a → own' a) : h.KeepsExcept own' h' :=
  ⟨h₁.grows, fun a ha hn ↦ h₁.same a ha fun hown ↦ hn (ho a ha hown)⟩

/-- Objects that are kept have the fields that they had. -/
theorem KeepsExcept.fields_eq (hk : h.KeepsExcept own h') {r : Ref}
    (hr : r.address < h.objects.size) (ho : ¬ own r.address) : h'.fields r = h.fields r := by
  unfold fields
  rw [hk.same _ hr ho]

/-- A heap that keeps all objects keeps their fields. -/
theorem Keeps.fields_eq (hk : h.Keeps h') {r : Ref} (hr : r.address < h.objects.size) :
    h'.fields r = h.fields r :=
  KeepsExcept.fields_eq hk hr id

/-- An object with fields is one of the heap. -/
theorem lt_size_of_fields_ne_nil {r : Ref} (hf : h.fields r ≠ []) :
    r.address < h.objects.size := by
  by_contra hout
  exact hf (by simp [fields, Array.getElem?_eq_none (Nat.le_of_not_lt hout)])

/-- Fields belong to the address of an object. -/
theorem fields_of_address_eq {r s : Ref} (ha : r.address = s.address) :
    h.fields r = h.fields s := by
  unfold fields
  rw [ha]

/-- Making an object keeps the others. -/
theorem keepsExcept_alloc (own : Nat → Prop) (h : Heap) (type : TypeName) (fields : Fields) :
    h.KeepsExcept own (h.alloc type fields).2 where
  grows := by simp [alloc]
  same a ha _ := by simp [alloc, Array.getElem?_push, Nat.ne_of_lt ha]

/-- Writing a field of an object changes the fields of that object. -/
theorem fields_set_self (h : Heap) {r s : Ref} (name : String) (v : Value)
    (hr : r.address < h.objects.size) (ha : r.address = s.address) :
    (h.set r name v).fields s = Fields.set (h.fields r) name v := by
  rw [← fields_of_address_eq ha]
  simp [set, fields, hr, Array.getElem_modify]

/-- Writing a field keeps the other objects. -/
theorem keepsExcept_set (h : Heap) {r : Ref} (name : String) (v : Value)
    (ho : own r.address) : h.KeepsExcept own (h.set r name v) where
  grows := by simp [set]
  same a _ hn := by
    have hne : r.address ≠ a := fun heq ↦ hn (heq ▸ ho)
    simp [set, Array.getElem?_modify, hne]

end Heap

/-! ### Corresponding heaps -/

namespace Pairing.Extends

/-- A pairing extends itself. -/
theorem refl (R : Pairing) (h k : Heap) : R.Extends h k R h k :=
  ⟨id, .inl, Nat.le_refl _, Nat.le_refl _⟩

/-- Extensions can be put one after the other. -/
theorem trans (h₁ : R.Extends h k R' h' k') (h₂ : R'.Extends h' k' R'' h'' k'') :
    R.Extends h k R'' h'' k'' where
  keeps hab := h₂.keeps (h₁.keeps hab)
  fresh {a b} hab := by
    rcases h₂.fresh hab with hab | ⟨ha, hb⟩
    · exact h₁.fresh hab
    · exact .inr ⟨Nat.le_trans h₁.grows_left ha, Nat.le_trans h₁.grows_right hb⟩
  grows_left := Nat.le_trans h₁.grows_left h₂.grows_left
  grows_right := Nat.le_trans h₁.grows_right h₂.grows_right

end Pairing.Extends

/-- One more pair. -/
def Pairing.add (R : Pairing) (a b : Nat) : Pairing := fun a' b' ↦ R a' b' ∨ a' = a ∧ b' = b

/-- A pair of addresses behind all others keeps a pairing one-to-one. -/
theorem Pairing.biUnique_add {m n : Nat} (hR : Relator.BiUnique R)
    (hlt : ∀ {a b : Nat}, R a b → a < m ∧ b < n) : Relator.BiUnique (R.add m n) := by
  constructor
  · rintro a b c (hac | ⟨ha, hc⟩) (hbc | ⟨hb, hc'⟩)
    · exact hR.left hac hbc
    · have := hlt hac
      omega
    · have := hlt hbc
      omega
    · omega
  · rintro a b c (hab | ⟨ha, hb⟩) (hac | ⟨ha', hc⟩)
    · exact hR.right hab hac
    · have := hlt hab
      omega
    · have := hlt hac
      omega
    · omega

namespace Heap.Corresponds

/-- A pairing can only shrink what counts as a kind. -/
theorem mono_kinds {kinds' : TypeName → Prop} (hc : Corresponds kinds R h k)
    (hk : ∀ t, kinds t → kinds' t) : Corresponds kinds' R h k :=
  ⟨hc.unique, hc.lt_left, hc.lt_right, fun hab ↦ (hc.fields hab).mono hk fun _ _ ↦ id⟩

/-- A heap that keeps its objects corresponds to what it corresponded to. -/
theorem keeps_left (hc : Corresponds kinds R h k) (hh : h.Keeps h') : Corresponds kinds R h' k where
  unique := hc.unique
  lt_left hab := Nat.lt_of_lt_of_le (hc.lt_left hab) hh.grows
  lt_right := hc.lt_right
  fields hab := by
    rw [hh.fields_eq (hc.lt_left hab)]
    exact hc.fields hab

/-- Corresponding heaps still do after one of them has gained objects. -/
theorem keeps_right (hc : Corresponds kinds R h k) (hk : k.Keeps k') :
    Corresponds kinds R h k' where
  unique := hc.unique
  lt_left := hc.lt_left
  lt_right hab := Nat.lt_of_lt_of_le (hc.lt_right hab) hk.grows
  fields hab := by
    rw [hk.fields_eq (hc.lt_right hab)]
    exact hc.fields hab

/-- The values of a field of paired objects are the same. -/
theorem get? (hc : Corresponds kinds R h k) {r s : Ref} (hrs : R r.address s.address)
    (name : String) : Option.Rel (Value.Alike kinds R) (h.get? r name) (k.get? s name) :=
  (hc.fields hrs).get? name

/-- References to paired objects are equal on one side if they are on the other. -/
theorem eq_iff (hc : Corresponds kinds R h k) {r r' s s' : Ref} (hr : R r.address r'.address)
    (hs : R s.address s'.address) (hrt : r.type = r'.type) (hst : s.type = s'.type) :
    r = s ↔ r' = s' := by
  obtain ⟨t, a⟩ := r
  obtain ⟨t', a'⟩ := r'
  obtain ⟨u, b⟩ := s
  obtain ⟨u', b'⟩ := s'
  simp only at hr hs hrt hst
  subst hrt hst
  simp only [Ref.mk.injEq, and_congr_right_iff]
  intro _
  constructor
  · rintro rfl
    exact hc.unique.right hr hs
  · rintro rfl
    exact hc.unique.left hr hs

/-- New objects with the same fields can be paired. -/
theorem alloc (hc : Corresponds kinds R h k) {fs gs : Fields} (hf : Fields.Alike kinds R fs gs)
    (t : TypeName) : R.Extends h k (R.add h.objects.size k.objects.size) (h.alloc t fs).2
        (k.alloc t gs).2 ∧
      Corresponds kinds (R.add h.objects.size k.objects.size) (h.alloc t fs).2
        (k.alloc t gs).2 := by
  have hkeeps : ∀ a b, R a b → R.add h.objects.size k.objects.size a b := fun _ _ ↦ .inl
  have hh : h.Keeps (h.alloc t fs).2 := keepsExcept_alloc _ _ _ _
  have hk : k.Keeps (k.alloc t gs).2 := keepsExcept_alloc _ _ _ _
  have hunique := Pairing.biUnique_add hc.unique fun hab ↦ ⟨hc.lt_left hab, hc.lt_right hab⟩
  refine ⟨⟨.inl, ?_, hh.grows, hk.grows⟩, ⟨hunique, ?_, ?_, ?_⟩⟩
  · rintro a b (hab | ⟨rfl, rfl⟩)
    · exact .inl hab
    · exact .inr ⟨Nat.le_refl _, Nat.le_refl _⟩
  · rintro a b (hab | ⟨rfl, rfl⟩)
    · exact Nat.lt_of_lt_of_le (hc.lt_left hab) hh.grows
    · simp [Heap.alloc]
  · rintro a b (hab | ⟨rfl, rfl⟩)
    · exact Nat.lt_of_lt_of_le (hc.lt_right hab) hk.grows
    · simp [Heap.alloc]
  · rintro r s (hrs | ⟨hr, hs⟩)
    · rw [hh.fields_eq (hc.lt_left hrs), hk.fields_eq (hc.lt_right hrs)]
      exact (hc.fields hrs).mono (fun _ ↦ id) hkeeps
    · rw [fields_of_address_eq (s := (h.alloc t fs).1) hr, fields_alloc,
        fields_of_address_eq (s := (k.alloc t gs).1) hs, fields_alloc]
      exact hf.mono (fun _ ↦ id) hkeeps

/-- The same can be written to a field of paired objects. -/
theorem set (hc : Corresponds kinds R h k) {r s : Ref} (hrs : R r.address s.address)
    (name : String) {v w : Value} (hv : v.Alike kinds R w) :
    R.Extends h k R (h.set r name v) (k.set s name w) ∧
      Corresponds kinds R (h.set r name v) (k.set s name w) := by
  have hh : h.objects.size ≤ (h.set r name v).objects.size := by simp [Heap.set]
  have hk : k.objects.size ≤ (k.set s name w).objects.size := by simp [Heap.set]
  refine ⟨⟨id, .inl, hh, hk⟩, hc.unique, ?_, ?_, ?_⟩
  · intro a b hab
    exact Nat.lt_of_lt_of_le (hc.lt_left hab) hh
  · intro a b hab
    exact Nat.lt_of_lt_of_le (hc.lt_right hab) hk
  · intro r' s' hrs'
    by_cases hr : r.address = r'.address
    · have hs : s.address = s'.address := hc.unique.right hrs (hr ▸ hrs')
      rw [fields_set_self h name v (hc.lt_left hrs) hr,
        fields_set_self k name w (hc.lt_right hrs) hs]
      exact (hc.fields hrs).set name hv
    · have hs : s.address ≠ s'.address := fun hs ↦ hr (hc.unique.left hrs (hs ▸ hrs'))
      rw [fields_set_of_ne h name v hr, fields_set_of_ne k name w hs]
      exact hc.fields hrs'

end Heap.Corresponds

/-! ### Closed sets of objects -/

/-- Every object of a set stands for itself. -/
def Pairing.diagonal (S : Nat → Prop) : Pairing := fun a b ↦ a = b ∧ S a

/-- The objects of a set are there, and hold only objects of the set. -/
def Heap.Closed (kinds : TypeName → Prop) (S : Nat → Prop) (h : Heap) : Prop :=
  Corresponds kinds (.diagonal S) h h

/-- A value is no object, or an object of a set. -/
def Value.Inside (kinds : TypeName → Prop) (S : Nat → Prop) (v : Value) : Prop :=
  v.Alike kinds (.diagonal S) v

variable {S T : Nat → Prop}

/-- A value inside some addresses is inside more of them. -/
theorem Value.Inside.mono {v : Value} (hv : v.Inside kinds S) (hST : ∀ a, S a → T a) :
    v.Inside kinds T :=
  Alike.mono (fun _ ↦ id) (fun _ _ hab ↦ ⟨hab.1, hST _ hab.2⟩) hv

/-- A value that is the same as itself is inside the set of objects that stand for themselves. -/
theorem Value.Alike.inside {v : Value} (hv : v.Alike kinds R v) :
    v.Inside kinds fun a ↦ R a a := by
  cases hv with
  | scalar s => exact .scalar s
  | type t => exact .type t
  | object hr ht ha => exact .object hr ht ⟨rfl, ha⟩

/-- In a heap that corresponds to itself, the objects that stand for themselves are closed. -/
theorem Heap.Corresponds.closed (hc : Corresponds kinds R h h) :
    h.Closed kinds fun a ↦ R a a where
  unique := ⟨fun _ _ _ hac hbc ↦ hac.1.trans hbc.1.symm,
    fun _ _ _ hab hac ↦ hab.1.symm.trans hac.1⟩
  lt_left hab := hc.lt_left hab.2
  lt_right hab := hab.1 ▸ hc.lt_left hab.2
  fields {r s} hrs := by
    have hf : Fields.Alike kinds R (h.fields s) (h.fields s) := hc.fields (hrs.1 ▸ hrs.2)
    rw [fields_of_address_eq hrs.1]
    unfold Fields.Alike at hf ⊢
    rw [List.forall₂_same] at hf ⊢
    intro f hmem
    exact ⟨rfl, (hf f hmem).2.inside⟩

/-- All heaps correspond if no objects are paired. -/
theorem Heap.corresponds_empty (kinds : TypeName → Prop) (h k : Heap) :
    h.Corresponds kinds (fun _ _ ↦ False) k :=
  ⟨⟨fun _ _ _ hac ↦ hac.elim, fun _ _ _ hab ↦ hab.elim⟩, False.elim, False.elim, False.elim⟩

/-- No object is needed for the empty set to be closed. -/
theorem Heap.closed_empty (kinds : TypeName → Prop) (h : Heap) : h.Closed kinds fun _ ↦ False :=
  ⟨⟨fun _ _ _ hac ↦ hac.2.elim, fun _ _ _ hab ↦ hab.2.elim⟩, fun hab ↦ hab.2.elim,
    fun hab ↦ hab.2.elim, fun hab ↦ hab.2.elim⟩

end TestDeclaration

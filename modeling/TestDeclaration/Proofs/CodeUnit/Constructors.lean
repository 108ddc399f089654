import TestDeclaration.Proofs.CodeUnit.Containment

/-!
# Constructors that see their arguments only

A constructor is local if it reads and writes nothing but its arguments, the objects inside them
and the objects that it makes itself. Every contained constructor is local, but a local one can
also write to its arguments.
-/

namespace TestDeclaration

/-- Calls of a constructor change no object outside a closed set that has the arguments, and depend
on nothing but the arguments and the objects inside them. -/
structure Constructor.Local (kinds : TypeName → Prop) (c : Constructor) : Prop where
  keeps : ∀ {S : Nat → Prop} {h : Heap} {args : List Value}, h.Closed kinds S →
    (∀ v ∈ args, v.Inside kinds S) → h.KeepsExcept S (c.construct args h).2
  tracks : ∀ {R : Pairing} {h k : Heap} {args args' : List Value}, h.Corresponds kinds R k →
    List.Forall₂ (Value.Alike kinds R) args args' →
      Tracks kinds R (Value.Alike kinds) h k (c.construct args h) (c.construct args' k)

/-- All constructors of a unit have a property. -/
def CodeUnit.Constructs (P : Constructor → Prop) (u : CodeUnit) : Prop :=
  ∀ d ∈ u.definitions, ∀ c ∈ d.constructors, P c

/-- All constructors of the loaded units have a property. -/
def Library.Constructs (P : Constructor → Prop) (l : Library) : Prop :=
  ∀ u ∈ l.units, u.Constructs P

/-- All constructors of the units that a loader finds have a property. -/
def Loader.Constructs (P : Constructor → Prop) (loader : Loader) : Prop :=
  ∀ path u, loader path = .ok u → u.Constructs P

variable {kinds : TypeName → Prop} {P : Constructor → Prop}

private theorem Constructor.Contained.toLocal {c : Constructor} (hc : c.Contained kinds) :
    c.Local kinds where
  keeps _ _ := (hc.keeps _ _).mono fun _ _ ↦ False.elim
  tracks := hc.tracks

/-- The constructors of a contained unit are local. -/
theorem CodeUnit.Contained.constructs {u : CodeUnit} (hu : u.Contained kinds) :
    u.Constructs (Constructor.Local kinds) :=
  fun d hd c hc ↦ ((hu d hd).constructors c hc).toLocal

namespace Library.Constructs

variable {l l' : Library}

/-- What holds of all constructors holds of one that is found. -/
theorem constructor? (hl : l.Constructs P) {type : TypeName} {signature : List TypeName}
    {c : Constructor} (hc : l.constructor? type signature = some c) : P c := by
  obtain ⟨u, hu, d, hd, hmem, -⟩ := exists_of_constructor? hc
  exact hl u hu d hd c hmem

/-- Loading keeps a property of all constructors, if the loader gives units that have it. -/
theorem load (hl : l.Constructs P) {loader : Loader} (hloader : loader.Constructs P)
    {path : String} {u : CodeUnit} (h : l.load loader path = .ok (u, l')) : l'.Constructs P :=
  (loads_of_load h).forall_units hl hloader

end Library.Constructs

end TestDeclaration

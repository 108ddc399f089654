import TestDeclaration.Proofs.Library.Growth
import TestDeclaration.Proofs.Value.Correspondence

/-!
# Contained native code

Native code is contained if it changes no object that it did not get as its instance or make
itself, and if all it sees is its instance, its arguments and the objects inside them: called in
corresponding heaps on values that are the same up to paired objects, it ends the same up to
paired objects. A constructor of this kind makes nothing but new objects or values without
identity.

`kinds` are the types that objects have. They can be all types. Code that takes values of some type
to be no objects is contained only as long as that type is none of the kinds.
-/

namespace TestDeclaration

variable (kinds : TypeName → Prop) (R : Pairing)

/-- Two calls end with the same result, or with the same fault. -/
inductive EndsAlike {α : Type} (same : α → α → Prop) : Except Fault α → Except Fault α → Prop where
  | ok {a b : α} : same a b → EndsAlike same (.ok a) (.ok b)
  | error {f g : Fault} : f.Alike kinds R g → EndsAlike same (.error f) (.error g)

/-- Two calls that start in corresponding heaps end the same, in heaps that correspond along some
more pairs of new objects. -/
def Tracks {α : Type} (same : Pairing → α → α → Prop) (h k : Heap)
    (p q : Except Fault α × Heap) : Prop :=
  ∃ R' : Pairing, R.Extends h k R' p.2 q.2 ∧ p.2.Corresponds kinds R' q.2 ∧
    EndsAlike kinds R' (same R') p.1 q.1

/-- Calls of a constructor change no object, make only new objects, and depend on nothing but
the arguments and the objects inside them. -/
structure Constructor.Contained (c : Constructor) : Prop where
  keeps : ∀ (args : List Value) (h : Heap), h.Keeps (c.construct args h).2
  fresh : ∀ (args : List Value) (h : Heap) (r : Ref),
    (c.construct args h).1 = .ok (.object r) → h.objects.size ≤ r.address
  tracks : ∀ {R : Pairing} {h k : Heap} {args args' : List Value}, h.Corresponds kinds R k →
    List.Forall₂ (Value.Alike kinds R) args args' →
      Tracks kinds R (Value.Alike kinds) h k (c.construct args h) (c.construct args' k)

/-- A value is the object at an address. -/
def Value.IsAt (target? : Option Value) (address : Nat) : Prop :=
  ∃ r, target? = some (.object r) ∧ r.address = address

/-- Calls of a method change no object but the instance, and depend on nothing but the instance,
the arguments and the objects inside them. -/
structure Callable.Contained (c : Callable) : Prop where
  keeps : ∀ (target? : Option Value) (args : List Value) (h : Heap),
    h.KeepsExcept (Value.IsAt target?) (c.invoke target? args h).2
  tracks : ∀ {R : Pairing} {h k : Heap} {target? target'? : Option Value} {args args' : List Value},
    h.Corresponds kinds R k → Option.Rel (Value.Alike kinds R) target? target'? →
      List.Forall₂ (Value.Alike kinds R) args args' →
        Tracks kinds R (fun R ↦ Option.Rel (Value.Alike kinds R)) h k
          (c.invoke target? args h) (c.invoke target'? args' k)

/-- All constructors and methods of a type are contained. -/
structure TypeDefinition.Contained (d : TypeDefinition) : Prop where
  constructors : ∀ c ∈ d.constructors, c.Contained kinds
  methods : ∀ m ∈ d.methods, Callable.Contained kinds ⟨d.type, m⟩

/-- All types of a unit are contained. -/
def CodeUnit.Contained (u : CodeUnit) : Prop := ∀ d ∈ u.definitions, d.Contained kinds

/-- All loaded units are contained. -/
def Library.Contained (l : Library) : Prop := ∀ u ∈ l.units, u.Contained kinds

variable {kinds R}

/-! ### Building definitions -/

namespace TypeDefinition

/-- A type without constructors and methods is contained. -/
theorem contained_new (type : TypeName) : (new type).Contained kinds :=
  ⟨fun _ hc ↦ absurd hc List.not_mem_nil, fun _ hm ↦ absurd hm List.not_mem_nil⟩

variable {d : TypeDefinition}

/-- A contained constructor can be added to a contained type. -/
theorem Contained.withConstructor (hd : d.Contained kinds) {parameters : List TypeName}
    {body : TypeName → List Value → Native Value}
    (hb : Constructor.Contained kinds ⟨d.type, parameters, body⟩) :
    (d.withConstructor parameters body).Contained kinds where
  constructors c hc := by
    rcases List.mem_append.mp hc with hc | hc
    · exact hd.constructors c hc
    · rw [List.mem_singleton.mp hc]
      exact hb
  methods := hd.methods

/-- A contained method can be added to a contained type. -/
theorem Contained.withMethod (hd : d.Contained kinds) {receiver : Receiver} {name : String}
    {parameters : List TypeName} {body : Option Value → List Value → Native (Option Value)}
    (hb : Callable.Contained kinds ⟨d.type, ⟨name, parameters, receiver, body⟩⟩) :
    (d.withMethod receiver name parameters body).Contained kinds where
  constructors := hd.constructors
  methods m hm := by
    rcases List.mem_append.mp hm with hm | hm
    · exact hd.methods m hm
    · rw [List.mem_singleton.mp hm]
      exact hb

end TypeDefinition

/-! ### Looking up in libraries -/

namespace Library.Contained

variable {l : Library} {type : TypeName} {signature : List TypeName}

/-- The constructors of contained units are contained. -/
theorem constructor? (hl : l.Contained kinds) {c : Constructor}
    (hc : l.constructor? type signature = some c) : c.Contained kinds := by
  obtain ⟨u, hu, d, hd, hmem, -⟩ := exists_of_constructor? hc
  exact (hl u hu d hd).constructors c hmem

/-- The methods of contained units are contained. -/
theorem callable? (hl : l.Contained kinds) {name : String} {c : Callable}
    (hc : l.callable? type name signature = some c) : c.Contained kinds := by
  obtain ⟨u, hu, d, hd, m, hm, rfl⟩ := exists_of_callable? hc
  exact (hl u hu d hd).methods m hm

/-- Loading a contained unit keeps a library contained. -/
theorem load (hl : l.Contained kinds) {loader : Loader}
    (hloader : ∀ path u, loader path = .ok u → u.Contained kinds) {path : String} {u : CodeUnit}
    {l' : Library} (h : l.load loader path = .ok (u, l')) : l'.Contained kinds :=
  (loads_of_load h).forall_units hl hloader

end Library.Contained

end TestDeclaration

import Mathlib.Data.Prod.Lex
import Mathlib.Order.Bounds.Basic
import TestDeclaration.Library
import TestDeclaration.Proofs.Search

/-!
# Looking up is searching

A unit is given types one after the other, and of two definitions of a type it keeps the later one.
A library looks through its units from the first to the last, so there the earlier one counts. A
name is looked up in each unit under each namespace, and the type that it means is then looked up
again, in each unit. Both searches end in the same unit.
-/

namespace TestDeclaration

/-! ### Units and libraries from what they are given -/

/-- A unit that was given some types, one after the other. -/
def CodeUnit.given (name : String) (ds : List TypeDefinition) : CodeUnit :=
  ds.foldl withType (new name)

/-- A unit keeps all it was given, the latest in front. -/
theorem CodeUnit.definitions_given (name : String) (ds : List TypeDefinition) :
    (given name ds).definitions = ds.reverse := by
  have hfold : ∀ u : CodeUnit, (ds.foldl withType u).definitions = ds.reverse ++ u.definitions := by
    induction ds with
    | nil => exact fun u ↦ rfl
    | cons d ds ih =>
      intro u
      rw [List.foldl_cons, ih, List.reverse_cons, List.append_assoc]
      rfl
  rw [given, hfold, new, List.append_nil]

/-- A unit has the last definition of a type that it was given. -/
theorem CodeUnit.definition?_given {name : String} {ds : List TypeDefinition} {type : TypeName}
    {d : TypeDefinition} :
    (given name ds).definition? type = some d ↔ ∃ k, LastAt ds (·.type = type) k d := by
  rw [definition?, definitions_given, ← exists_firstAt_reverse]
  exact find?_eq_some_iff_firstAt fun _ ↦ beq_iff_eq

/-- Whether a unit was given a definition of some type. -/
def Supplies (type : TypeName) (source : String × List TypeDefinition) : Prop :=
  ∃ d ∈ source.2, d.type = type

/-- A unit has a definition of each type that it was given one of. -/
theorem CodeUnit.isSome_definition?_given (type : TypeName)
    (source : String × List TypeDefinition) :
    ((given source.1 source.2).definition? type).isSome ↔ Supplies type source := by
  rw [definition?, List.find?_isSome, definitions_given]
  simp only [List.mem_reverse, beq_iff_eq]
  exact Iff.rfl

namespace Library

/-- A library whose units were given some types. -/
def given (sources : List (String × List TypeDefinition)) : Library :=
  ⟨sources.map fun source ↦ CodeUnit.given source.1 source.2⟩

/-- The pairs of a unit and a namespace such that the unit was given the type that a name means
under the namespace, in the order of the units, and then of the namespaces. -/
def hits (sources : List (String × List TypeDefinition)) (namespaces : List String)
    (name : String) : Set (ℕ ×ₗ ℕ) :=
  {p | ∃ source ∈ sources[(ofLex p).1]?, ∃ space ∈ namespaces[(ofLex p).2]?,
    Supplies (.declared (qualify space name)) source}

/-- What a name means. Names of primitives come first, and of all pairs of a unit and a namespace
the first one counts. -/
inductive Means (sources : List (String × List TypeDefinition)) (namespaces : List String)
    (name : String) : Option TypeName → Prop where
  | primitive {p : Primitive} : p ≠ .type → p.name = name →
      Means sources namespaces name (some (.primitive p))
  | declared {i j : ℕ} {space : String} : (∀ p : Primitive, p ≠ .type → p.name ≠ name) →
      IsLeast (hits sources namespaces name) (toLex (i, j)) → namespaces[j]? = some space →
      Means sources namespaces name (some (.declared (qualify space name)))
  | nothing : (∀ p : Primitive, p ≠ .type → p.name ≠ name) → hits sources namespaces name = ∅ →
      Means sources namespaces name none

variable {sources : List (String × List TypeDefinition)} {namespaces : List String}
  {name : String} {type : TypeName} {d : TypeDefinition} {i j : ℕ}

/-! ### Names -/

/-- A name means one type at most. -/
theorem Means.unique {result result' : Option TypeName} (h : Means sources namespaces name result)
    (h' : Means sources namespaces name result') : result = result' := by
  cases h with
  | @primitive p hp hname =>
    cases h' with
    | @primitive p' hp' hname' =>
      have hof := Primitive.ofName?_name hp
      rw [hname, ← hname', Primitive.ofName?_name hp'] at hof
      rw [Option.some.inj hof]
    | declared hno | nothing hno => exact absurd hname (hno p hp)
  | @declared i j space hno hleast hspace =>
    cases h' with
    | primitive hp hname => exact absurd hname (hno _ hp)
    | declared _ hleast' hspace' =>
      cases hleast.unique hleast'
      cases hspace.symm.trans hspace'
      rfl
    | nothing _ hempty => exact absurd hleast.1 (hempty ▸ Set.notMem_empty _)
  | nothing hno hempty =>
    cases h' with
    | primitive hp hname => exact absurd hname (hno _ hp)
    | declared _ hleast => exact absurd hleast.1 (hempty ▸ Set.notMem_empty _)
    | nothing => rfl

/-- The first pair is the first unit that knows the name under some namespace, and the first such
namespace in it. -/
theorem isLeast_hits_iff : IsLeast (hits sources namespaces name) (toLex (i, j)) ↔
    ∃ source space,
      FirstAt sources
        (fun source ↦ ∃ space ∈ namespaces, Supplies (.declared (qualify space name)) source) i
        source ∧
      FirstAt namespaces (fun space ↦ Supplies (.declared (qualify space name)) source) j
        space := by
  constructor
  · rintro ⟨⟨source, hsource, space, hspace, hsupplies⟩, hleast⟩
    refine ⟨source, space, ⟨hsource, ⟨space, List.mem_of_getElem? hspace, hsupplies⟩, ?_⟩,
      hspace, hsupplies, ?_⟩
    · rintro i' hi source' hsource' ⟨space', hspace', hsupplies'⟩
      obtain ⟨j', hj⟩ := List.mem_iff_getElem?.mp hspace'
      have hle := hleast (a := toLex (i', j')) ⟨source', hsource', space', hj, hsupplies'⟩
      have hor := Prod.Lex.toLex_le_toLex.mp hle
      simp only at hor
      omega
    · intro j' hj space' hspace' hsupplies'
      have hle := hleast (a := toLex (i, j')) ⟨source, hsource, space', hspace', hsupplies'⟩
      have hor := Prod.Lex.toLex_le_toLex.mp hle
      simp only at hor
      omega
  · rintro ⟨source, space, ⟨hsource, -, hfirst⟩, hspace, hsupplies, hfirst'⟩
    refine ⟨⟨source, hsource, space, hspace, hsupplies⟩, ?_⟩
    rintro p ⟨source', hsource', space', hspace', hsupplies'⟩
    rw [Prod.Lex.le_iff]
    have hi : ¬ (ofLex p).1 < i := fun hlt ↦
      hfirst _ hlt source' hsource' ⟨space', List.mem_of_getElem? hspace', hsupplies'⟩
    by_cases heq : i = (ofLex p).1
    · subst heq
      cases hsource.symm.trans hsource'
      have hj : ¬ (ofLex p).2 < j := fun hlt ↦ hfirst' _ hlt space' hspace' hsupplies'
      exact .inr ⟨rfl, Nat.le_of_not_lt hj⟩
    · refine .inl ?_
      show i < (ofLex p).1
      omega

/-- A unit knows a name under a namespace, if it was given the type that this means. -/
theorem declares_given (source : String × List TypeDefinition) (space : String) :
    (CodeUnit.given source.1 source.2).declares (qualify space name) ↔
      Supplies (.declared (qualify space name)) source :=
  CodeUnit.isSome_definition?_given _ source

/-- What is no primitive is looked up in the units. -/
theorem type?_given (hno : Primitive.ofName? name = none) : (given sources).type? namespaces name =
    sources.findSome? fun source ↦ (namespaces.find? fun space ↦
      (CodeUnit.given source.1 source.2).declares (qualify space name)).map
        fun space ↦ .declared (qualify space name) := by
  simp only [type?, hno, given, List.findSome?_map, List.find?_map, Option.map_map]
  rfl

private theorem ofName?_eq_none_iff :
    Primitive.ofName? name = none ↔ ∀ p : Primitive, p ≠ .type → p.name ≠ name := by
  constructor
  · rintro hnone p hp rfl
    rw [Primitive.ofName?_name hp] at hnone
    cases hnone
  · intro hno
    rw [Option.eq_none_iff_forall_ne_some]
    intro p hp
    refine hno p ?_ (Primitive.name_of_ofName? hp)
    rintro rfl
    exact absurd (List.mem_of_find?_eq_some hp) (by decide)

/-- A name means what the rules say. -/
theorem means_type? (sources : List (String × List TypeDefinition)) (namespaces : List String)
    (name : String) : Means sources namespaces name ((given sources).type? namespaces name) := by
  cases halias : Primitive.ofName? name with
  | some p =>
    have hp : p ≠ .type := by
      rintro rfl
      exact absurd (List.mem_of_find?_eq_some halias) (by decide)
    rw [type?, halias]
    exact .primitive hp (Primitive.name_of_ofName? halias)
  | none =>
    have hno := ofName?_eq_none_iff.mp halias
    have hknown : ∀ source : String × List TypeDefinition,
        ((namespaces.find? fun space ↦
          (CodeUnit.given source.1 source.2).declares (qualify space name)).map
            fun space ↦ TypeName.declared (qualify space name)).isSome ↔
          ∃ space ∈ namespaces, Supplies (.declared (qualify space name)) source := by
      intro source
      rw [Option.isSome_map, List.find?_isSome]
      exact exists_congr fun space ↦ and_congr_right fun _ ↦ declares_given source space
    cases htype : (given sources).type? namespaces name with
    | some type =>
      rw [type?_given halias, findSome?_eq_some_iff_firstAt hknown] at htype
      obtain ⟨i, source, hsource, hfound⟩ := htype
      obtain ⟨space, hfind, rfl⟩ := Option.map_eq_some_iff.mp hfound
      obtain ⟨j, hspace⟩ := (find?_eq_some_iff_firstAt (declares_given source)).mp hfind
      exact .declared hno (isLeast_hits_iff.mpr ⟨source, space, hsource, hspace⟩) hspace.1
    | none =>
      rw [type?_given halias, List.findSome?_eq_none_iff] at htype
      refine .nothing hno (Set.eq_empty_iff_forall_notMem.mpr ?_)
      rintro p ⟨source, hsource, space, hspace, hsupplies⟩
      have hsome := (hknown source).mpr ⟨space, List.mem_of_getElem? hspace, hsupplies⟩
      rw [htype source (List.mem_of_getElem? hsource)] at hsome
      cases hsome

/-! ### Types -/

/-- The definition of a type is the last one that the first unit with any was given. -/
theorem definition?_given : (given sources).definition? type = some d ↔
    ∃ i source k,
      FirstAt sources (Supplies type) i source ∧ LastAt source.2 (·.type = type) k d := by
  rw [definition?, given, List.findSome?_map, Function.comp_def,
    findSome?_eq_some_iff_firstAt (CodeUnit.isSome_definition?_given type)]
  simp only [CodeUnit.definition?_given, exists_and_left]

/-- A type of which some unit was given a definition is defined. -/
theorem exists_definition?_given {source : String × List TypeDefinition}
    (h : FirstAt sources (Supplies type) i source) :
    ∃ k d, LastAt source.2 (·.type = type) k d ∧ (given sources).definition? type = some d := by
  obtain ⟨d, hd⟩ := Option.isSome_iff_exists.mp
    ((CodeUnit.isSome_definition?_given type source).mpr h.2.1)
  obtain ⟨k, hlast⟩ := CodeUnit.definition?_given.mp hd
  exact ⟨k, d, hlast, definition?_given.mpr ⟨i, source, k, h, hlast⟩⟩

/-- Units behind the first one that was given a type do not change its definition. -/
theorem definition?_take {source : String × List TypeDefinition}
    (h : FirstAt sources (Supplies type) i source) (later : List (String × List TypeDefinition)) :
    (given (sources.take (i + 1) ++ later)).definition? type =
      (given sources).definition? type := by
  obtain ⟨k, d, hlast, hd⟩ := exists_definition?_given h
  rw [hd, definition?_given]
  exact ⟨i, source, k, h.take_append later, hlast⟩

/-- The first unit that knows a name is the first one that was given the type that the name
means. -/
theorem exists_of_isLeast_hits {space : String}
    (h : IsLeast (hits sources namespaces name) (toLex (i, j)))
    (hspace : namespaces[j]? = some space) :
    ∃ source, FirstAt sources (Supplies (.declared (qualify space name))) i source := by
  obtain ⟨source, space', ⟨hsource, -, hfirst⟩, hspace', hsupplies, -⟩ := isLeast_hits_iff.mp h
  cases hspace.symm.trans hspace'
  refine ⟨source, hsource, hsupplies, fun i' hi source' hsource' hsupplies' ↦ ?_⟩
  exact hfirst i' hi source' hsource' ⟨space, List.mem_of_getElem? hspace, hsupplies'⟩

/-! ### Methods and constructors -/

/-- A method is the first one of the definition that has the name and the parameters. -/
theorem callable?_eq_some_iff {l : Library} {signature : List TypeName} {c : Callable} :
    l.callable? type name signature = some c ↔ ∃ d, l.definition? type = some d ∧
      ∃ k m, FirstAt d.methods (fun m ↦ m.name = name ∧ m.parameters = signature) k m ∧
        c = ⟨type, m⟩ := by
  have hmethod : ∀ (d : TypeDefinition) m, d.method? name signature = some m ↔
      ∃ k, FirstAt d.methods (fun m ↦ m.name = name ∧ m.parameters = signature) k m :=
    fun d m ↦ find?_eq_some_iff_firstAt fun m ↦ by
      rw [Bool.and_eq_true, beq_iff_eq, beq_iff_eq]
  rw [callable?, Option.map_eq_some_iff]
  constructor
  · rintro ⟨m, hm, rfl⟩
    obtain ⟨d, hd, hm⟩ := Option.bind_eq_some_iff.mp hm
    obtain ⟨k, hk⟩ := (hmethod d m).mp hm
    exact ⟨d, hd, k, m, hk, rfl⟩
  · rintro ⟨d, hd, k, m, hk, rfl⟩
    exact ⟨m, Option.bind_eq_some_iff.mpr ⟨d, hd, (hmethod d m).mpr ⟨k, hk⟩⟩, rfl⟩

/-- A constructor is the first one of the definition that has the parameters. -/
theorem constructor?_eq_some_iff {l : Library} {signature : List TypeName} {c : Constructor} :
    l.constructor? type signature = some c ↔ ∃ d, l.definition? type = some d ∧
      ∃ k, FirstAt d.constructors (fun c ↦ c.parameters = signature) k c := by
  rw [constructor?, Option.bind_eq_some_iff]
  exact exists_congr fun d ↦ and_congr_right fun _ ↦
    find?_eq_some_iff_firstAt fun c ↦ beq_iff_eq

/-- Looking up a name, a type, a method or a constructor is a search for the first that fits. -/
theorem lookup_is_search (sources : List (String × List TypeDefinition)) :
    let l := given sources
    (∀ namespaces name result,
      l.type? namespaces name = result ↔ Means sources namespaces name result) ∧
    (∀ type d, l.definition? type = some d ↔ ∃ i source k,
      FirstAt sources (Supplies type) i source ∧ LastAt source.2 (·.type = type) k d) ∧
    (∀ type name signature c, l.callable? type name signature = some c ↔
      ∃ d, l.definition? type = some d ∧ ∃ k m,
        FirstAt d.methods (fun m ↦ m.name = name ∧ m.parameters = signature) k m ∧
          c = ⟨type, m⟩) ∧
    (∀ type signature c, l.constructor? type signature = some c ↔
      ∃ d, l.definition? type = some d ∧ ∃ k,
        FirstAt d.constructors (fun c ↦ c.parameters = signature) k c) ∧
    (∀ type i source, FirstAt sources (Supplies type) i source → ∀ later,
      let l' := given (sources.take (i + 1) ++ later)
      l'.definition? type = l.definition? type ∧
      (∀ name signature, l'.callable? type name signature = l.callable? type name signature) ∧
      ∀ signature, l'.constructor? type signature = l.constructor? type signature) ∧
    ∀ namespaces name full, l.type? namespaces name = some (.declared full) →
      ∃ i j space, IsLeast (hits sources namespaces name) (toLex (i, j)) ∧
        namespaces[j]? = some space ∧ full = qualify space name ∧
        ∃ source k d, FirstAt sources (Supplies (.declared full)) i source ∧
          LastAt source.2 (·.type = .declared full) k d ∧
          l.definition? (.declared full) = some d := by
  intro l
  refine ⟨fun namespaces name result ↦ ?_, fun type d ↦ definition?_given,
    fun type name signature c ↦ callable?_eq_some_iff,
    fun type signature c ↦ constructor?_eq_some_iff, fun type i source h later ↦ ?_,
    fun namespaces name full htype ↦ ?_⟩
  · have hmeans := means_type? sources namespaces name
    constructor
    · rintro rfl
      exact hmeans
    · exact hmeans.unique
  · have hdefinition := definition?_take h later
    refine ⟨hdefinition, fun name signature ↦ ?_, fun signature ↦ ?_⟩
    · rw [callable?, callable?, hdefinition]
    · rw [constructor?, constructor?, hdefinition]
  · have hmeans := means_type? sources namespaces name
    rw [show (given sources).type? namespaces name = some (.declared full) from htype] at hmeans
    cases hmeans with
    | @declared i j space _ hleast hspace =>
      obtain ⟨source, hsource⟩ := exists_of_isLeast_hits hleast hspace
      obtain ⟨k, d, hlast, hd⟩ := exists_definition?_given hsource
      exact ⟨i, j, space, hleast, hspace, rfl, source, k, d, hsource, hlast, hd⟩

/-- The first unit knows the name under the second namespace, and that comes before the second unit
and the first namespace. -/
example : (given [("one", [.new (.declared "B.T")]), ("two", [.new (.declared "A.T")])]).type?
    ["A", "B"] "T" = some (.declared "B.T") := by decide

end Library

end TestDeclaration

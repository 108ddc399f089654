import Mathlib.Data.List.Nodup
import TestDeclaration.Library

/-!
# Libraries only grow

A call to load a unit leaves the loaded units as they are, or puts one unit of a new name behind
them. So the core unit stays the first and no two units have one name. Since names are looked up in
load order, what a library has found it finds in every later library too.
-/

namespace TestDeclaration.Library

variable {l l' l'' : Library} {loader : Loader} {path : String}

/-- The library after a call to load a unit. A call that is refused leaves it as it was. -/
def afterLoad (l : Library) (loader : Loader) (path : String) : Library :=
  match l.load loader path with
  | .ok (_, l') => l'
  | .error _ => l

/-- The library after some calls to load units, one after the other. Each call has a loader of its
own, so the answer for a path can change from call to call. -/
def afterLoads (l : Library) (calls : List (Loader × String)) : Library :=
  calls.foldl (fun l call ↦ l.afterLoad call.1 call.2) l

/-! ### One call -/

/-- A path that a unit can have. -/
def IsPath (path : String) : Prop := path ≠ "" ∧ path.length ≤ maxPathLength

/-- What a call to load a unit answers, and the library that it leaves. The loader is asked for
paths only, and a unit is added only if no unit has its name. -/
inductive Loads (l : Library) (loader : Loader) (path : String) :
    Except LoadError CodeUnit → Library → Prop where
  | emptyPath : path = "" → Loads l loader path (.error .emptyPath) l
  | pathTooLong : maxPathLength < path.length →
      Loads l loader path (.error (.pathTooLong path.length)) l
  | refused {e : LoadError} : IsPath path → loader path = .error e →
      Loads l loader path (.error e) l
  | known {u loaded : CodeUnit} : IsPath path → loader path = .ok u → loaded ∈ l.units →
      loaded.name = u.name → Loads l loader path (.ok loaded) l
  | added {u : CodeUnit} : IsPath path → loader path = .ok u →
      u.name ∉ l.units.map CodeUnit.name → Loads l loader path (.ok u) ⟨l.units ++ [u]⟩

/-- The rules describe `Library.load`. -/
theorem loads_load (l : Library) (loader : Loader) (path : String) :
    l.Loads loader path ((l.load loader path).map Prod.fst) (l.afterLoad loader path) := by
  unfold afterLoad load
  split
  · next hempty => exact .emptyPath (String.isEmpty_iff.mp hempty)
  split
  · next hlong => exact .pathTooLong hlong
  next hempty hlong =>
  have hpath : IsPath path := ⟨fun h ↦ hempty (String.isEmpty_iff.mpr h), Nat.le_of_not_lt hlong⟩
  split
  · next he => exact .refused hpath he
  next u hu =>
  split
  · next loaded hfind =>
    have hname := List.find?_some hfind
    exact .known hpath hu (List.mem_of_find?_eq_some hfind) (eq_of_beq hname)
  · next hfind =>
    refine .added hpath hu fun hmem ↦ ?_
    obtain ⟨loaded, hloaded, hname⟩ := List.mem_map.mp hmem
    exact List.find?_eq_none.mp hfind loaded hloaded (beq_iff_eq.mpr hname)

/-- A load that succeeds goes by the rules. -/
theorem loads_of_load {u : CodeUnit} (h : l.load loader path = .ok (u, l')) :
    l.Loads loader path (.ok u) l' := by
  have hloads := l.loads_load loader path
  rw [afterLoad, h] at hloads
  exact hloads

/-- What is no path is refused, whatever the loader would answer. -/
theorem load_of_not_isPath (l : Library) (loader : Loader) (h : ¬ IsPath path) :
    ∃ e, l.load loader path = .error e := by
  have hloads := l.loads_load loader path
  cases hload : l.load loader path with
  | error e => exact ⟨e, rfl⟩
  | ok loaded =>
    rw [hload] at hloads
    generalize l.afterLoad loader path = l' at hloads
    cases hloads with
    | known hpath | added hpath => exact absurd hpath h

/-! ### Growing -/

/-- A later library has the units of an earlier one, in the same order, and perhaps more behind
them. -/
def Grows (l l' : Library) : Prop := l.units <+: l'.units

/-- A library has grown out of itself. -/
theorem Grows.refl (l : Library) : l.Grows l := List.prefix_refl _

/-- Growth after growth is growth. -/
theorem Grows.trans (h : l.Grows l') (h' : l'.Grows l'') : l.Grows l'' := List.IsPrefix.trans h h'

/-- Whatever its answer is, a load can only let the library grow. -/
theorem Loads.grows {answer : Except LoadError CodeUnit} (h : l.Loads loader path answer l') :
    l.Grows l' := by
  cases h with
  | emptyPath | pathTooLong | refused | known => exact .refl l
  | added => exact List.prefix_append _ _

/-- What has been loaded is loaded again without a change, also into a later library. -/
theorem load_again {u : CodeUnit} (h : l.load loader path = .ok (u, l')) (hl : l'.Grows l'') :
    l''.load loader path = .ok (u, l'') := by
  unfold load at h ⊢
  split at h
  · cases h
  next hempty =>
  split at h
  · cases h
  next hlong =>
  rw [if_neg hempty, if_neg hlong]
  split at h
  · cases h
  next unit _ =>
  -- Known or added, the unit is what is found by its name from then on.
  have hfind : l'.units.find? (fun loaded ↦ loaded.name == unit.name) = some u := by
    split at h
    · next hfind =>
      cases h
      exact hfind
    · next hfind =>
      cases h
      rw [List.find?_append, hfind, Option.none_or, List.find?_singleton, beq_self_eq_true]
      rfl
  rw [List.IsPrefix.find?_eq_some hl hfind]

private theorem Loads.nodup {answer : Except LoadError CodeUnit} (h : l.Loads loader path answer l')
    (hl : (l.units.map CodeUnit.name).Nodup) : (l'.units.map CodeUnit.name).Nodup := by
  cases h with
  | emptyPath | pathTooLong | refused | known => exact hl
  | added _ _ hname =>
    rw [List.map_append, List.map_singleton, ← List.concat_eq_append]
    exact List.Nodup.concat hname hl

/-- What holds of all loaded units and of all that the loader finds still holds after a call. -/
theorem Loads.forall_units {answer : Except LoadError CodeUnit} {P : CodeUnit → Prop}
    (h : l.Loads loader path answer l') (hl : ∀ u ∈ l.units, P u)
    (hloader : ∀ path u, loader path = .ok u → P u) : ∀ u ∈ l'.units, P u := by
  cases h with
  | emptyPath | pathTooLong | refused | known => exact hl
  | added _ hu =>
    intro v hv
    rcases List.mem_append.mp hv with hv | hv
    · exact hl v hv
    · rw [List.mem_singleton.mp hv]
      exact hloader path _ hu

private theorem grows_afterLoads (l : Library) (calls : List (Loader × String)) :
    l.Grows (l.afterLoads calls) := by
  induction calls generalizing l with
  | nil => exact .refl l
  | cons call rest ih => exact (l.loads_load call.1 call.2).grows.trans (ih _)

private theorem nodup_afterLoads (calls : List (Loader × String))
    (hl : (l.units.map CodeUnit.name).Nodup) :
    ((l.afterLoads calls).units.map CodeUnit.name).Nodup := by
  induction calls generalizing l with
  | nil => exact hl
  | cons call rest ih => exact ih ((l.loads_load call.1 call.2).nodup hl)

/-! ### Looking up -/

section Found

variable {type : TypeName} {signature : List TypeName}

/-- A definition that is found is one of a loaded unit. -/
theorem exists_of_definition? {d : TypeDefinition} (hd : l.definition? type = some d) :
    (∃ u ∈ l.units, d ∈ u.definitions) ∧ d.type = type := by
  obtain ⟨u, hu, hd⟩ := List.exists_of_findSome?_eq_some hd
  have htype := List.find?_some hd
  exact ⟨⟨u, hu, List.mem_of_find?_eq_some hd⟩, eq_of_beq htype⟩

/-- A constructor that is found is one of a loaded unit. -/
theorem exists_of_constructor? {c : Constructor} (hc : l.constructor? type signature = some c) :
    ∃ u ∈ l.units, ∃ d ∈ u.definitions, c ∈ d.constructors ∧ d.type = type ∧
      c.parameters = signature := by
  obtain ⟨d, hd, hc⟩ := Option.bind_eq_some_iff.mp hc
  obtain ⟨⟨u, hu, hmem⟩, htype⟩ := exists_of_definition? hd
  have hparameters := List.find?_some hc
  exact ⟨u, hu, d, hmem, List.mem_of_find?_eq_some hc, htype, eq_of_beq hparameters⟩

/-- A method that is found is one of a loaded unit. -/
theorem exists_of_callable? {name : String} {c : Callable}
    (hc : l.callable? type name signature = some c) :
    ∃ u ∈ l.units, ∃ d ∈ u.definitions, ∃ m ∈ d.methods, c = ⟨d.type, m⟩ := by
  obtain ⟨m, hbind, rfl⟩ := Option.map_eq_some_iff.mp hc
  obtain ⟨d, hd, hm⟩ := Option.bind_eq_some_iff.mp hbind
  obtain ⟨⟨u, hu, hmem⟩, rfl⟩ := exists_of_definition? hd
  exact ⟨u, hu, d, hmem, m, List.mem_of_find?_eq_some hm, rfl⟩

end Found

/-! ### Looking up in a library that has grown -/

namespace Grows

variable {type : TypeName}

/-- A name keeps its meaning when a library grows. -/
theorem type? (h : l.Grows l') {namespaces : List String} {name : String}
    (ht : l.type? namespaces name = some type) : l'.type? namespaces name = some type := by
  unfold Library.type? at ht ⊢
  split
  · next p hp => rwa [hp] at ht
  · next hp =>
    rw [hp] at ht
    exact List.IsPrefix.findSome?_eq_some h ht

private theorem definition? (h : l.Grows l') {d : TypeDefinition}
    (hd : l.definition? type = some d) :
    l'.definition? type = some d :=
  List.IsPrefix.findSome?_eq_some h hd

/-- A type that is defined keeps its methods: neither are there others, nor more. -/
theorem callable?_eq (h : l.Grows l') {d : TypeDefinition} (hd : l.definition? type = some d)
    (name : String) (signature : List TypeName) :
    l'.callable? type name signature = l.callable? type name signature := by
  rw [callable?, callable?, hd, h.definition? hd]

/-- A type that is defined keeps its constructors. -/
theorem constructor?_eq (h : l.Grows l') {d : TypeDefinition} (hd : l.definition? type = some d)
    (signature : List TypeName) :
    l'.constructor? type signature = l.constructor? type signature := by
  rw [constructor?, constructor?, hd, h.definition? hd]

end Grows

/-- After any calls to load units, names are distinct, and what has been resolved stays resolved. -/
theorem stable_afterLoads (calls : List (Loader × String)) :
    let l := initial.afterLoads calls
    l.units.head? = some Core.unit ∧
    (l.units.map CodeUnit.name).Nodup ∧
    (∀ loader path,
      l.Loads loader path ((l.load loader path).map Prod.fst) (l.afterLoad loader path) ∧
      (path = "" ∨ 260 < path.length → ∃ e, l.load loader path = .error e)) ∧
    ∀ later, let l' := l.afterLoads later
      (∀ namespaces name type, l.type? namespaces name = some type →
        l'.type? namespaces name = some type) ∧
      ∀ type d, l.definition? type = some d → l'.definition? type = some d ∧
        (∀ name signature,
          l'.callable? type name signature = l.callable? type name signature) ∧
        ∀ signature, l'.constructor? type signature = l.constructor? type signature := by
  intro l
  have hinitial : initial.Grows l := grows_afterLoads initial calls
  refine ⟨?_, ?_, fun loader path ↦ ⟨l.loads_load loader path, fun hpath ↦ ?_⟩, fun later ↦ ?_⟩
  · obtain ⟨rest, hrest⟩ := hinitial
    rw [← hrest]
    rfl
  · exact nodup_afterLoads calls (List.nodup_singleton _)
  · refine l.load_of_not_isPath loader fun ⟨hne, hle⟩ ↦ ?_
    exact hpath.elim hne (Nat.not_lt.mpr hle)
  · have hgrows : l.Grows (l.afterLoads later) := grows_afterLoads l later
    refine ⟨fun namespaces name type ↦ hgrows.type?, fun type d hd ↦ ?_⟩
    exact ⟨hgrows.definition? hd, hgrows.callable?_eq hd, hgrows.constructor?_eq hd⟩

/-- The counter of the samples stays what it is when another unit defines a counter without
methods later. -/
theorem counter_stays :
    let l := initial.afterLoads [(Loader.standard, "samples")]
    let other := (CodeUnit.new "other").withType (.new (.declared "Samples.Counter"))
    let l' := l.afterLoads [(fun _ ↦ .ok other, "samples")]
    l'.units.map CodeUnit.name = ["core", "samples", "other"] ∧
    l'.type? ["", "Samples"] "Counter" = some (.declared "Samples.Counter") ∧
    (l'.callable? (.declared "Samples.Counter") "Increment" []).isSome := by
  intro l other l'
  obtain ⟨-, -, -, hlater⟩ := stable_afterLoads [(Loader.standard, "samples")]
  obtain ⟨htype, hdefinition⟩ := hlater [(fun _ ↦ .ok other, "samples")]
  have hcounter : l.definition? (.declared "Samples.Counter") = some Samples.counterType := rfl
  refine ⟨by decide, htype _ _ _ rfl, ?_⟩
  rw [(hdefinition _ _ hcounter).2.1]
  rfl

end TestDeclaration.Library

import Mathlib.Data.Fintype.Card
import Mathlib.Data.Finite.Prod
import Mathlib.Data.Set.Finite.List
import Mathlib.Logic.Relation
import TestDeclaration.Value

/-!
# Objects inside objects

The fields of an object hold values, which can be objects again. Sharing is free, and so are
cycles; a value is acyclic if no object inside it is inside itself. Below an acyclic value every
descent through fields ends, because a heap holds only finitely many values.
-/

namespace TestDeclaration.Heap

variable (h : Heap)

/-- A field of an object holds a value. -/
inductive Holds : Value → Value → Prop where
  | intro {r : Ref} {name : String} {v : Value} : (name, v) ∈ h.fields r → Holds (.object r) v

/-- A value is another one or lies inside it. -/
def Reaches : Value → Value → Prop := Relation.ReflTransGen h.Holds

/-- Nothing inside a value lies inside itself. -/
def Acyclic (v : Value) : Prop := ∀ w, h.Reaches v w → ¬ Relation.TransGen h.Holds w w

/-- From a value one can take some steps through fields. -/
inductive HasChain : Nat → Value → Prop where
  | here {v : Value} : HasChain 0 v
  | field {n : Nat} {v w : Value} : h.Holds v w → HasChain n w → HasChain (n + 1) v

variable {h} {v w : Value}

/-- What an object holds can be reached from it. -/
theorem Holds.reaches (hvw : h.Holds v w) : h.Reaches v w := .single hvw

/-- What lies inside an acyclic value is acyclic. -/
theorem Acyclic.of_holds (hv : h.Acyclic v) (hvw : h.Holds v w) : h.Acyclic w :=
  fun _ hw ↦ hv _ (hvw.reaches.trans hw)

/-- The values in the fields of all objects. -/
def contents (h : Heap) : List Value := h.objects.toList.flatMap fun fields ↦ fields.map Prod.snd

private theorem Holds.mem_contents (hvw : h.Holds v w) : w ∈ h.contents := by
  rcases hvw with @⟨r, name, _, hw⟩
  unfold fields at hw
  cases hr : h.objects[r.address]? with
  | none =>
    rw [hr] at hw
    cases hw
  | some fields =>
    rw [hr, Option.getD_some] at hw
    refine List.mem_flatMap.mpr ⟨fields, ?_, List.mem_map_of_mem hw⟩
    rw [Array.mem_toList_iff]
    exact Array.mem_of_getElem? hr

/-- Only finitely many values lie inside a value. -/
theorem finite_reaches (h : Heap) (v : Value) : {w | h.Reaches v w}.Finite := by
  refine (List.finite_toSet (v :: h.contents)).subset ?_
  intro w hw
  rcases Relation.ReflTransGen.cases_tail hw with rfl | ⟨_, _, hw⟩
  · exact List.mem_cons_self
  · exact List.mem_cons_of_mem _ hw.mem_contents

/-- Descending from an acyclic value ends. -/
theorem Acyclic.acc (hv : h.Acyclic v) : Acc (fun w v ↦ h.Holds v w) v := by
  -- Inside `v`, lying inside one another is a strict order on a finite set.
  have : Finite {w // h.Reaches v w} := h.finite_reaches v
  let below (a b : {w // h.Reaches v w}) : Prop := Relation.TransGen h.Holds b.1 a.1
  have : IsTrans _ below := ⟨fun _ _ _ hab hbc ↦ hbc.trans hab⟩
  have : Std.Irrefl below := ⟨fun a ha ↦ hv a.1 a.2 ha⟩
  have hwf : WellFounded below := Finite.wellFounded_of_trans_of_irrefl below
  have hall : ∀ a : {w // h.Reaches v w}, Acc (fun w v ↦ h.Holds v w) a.1 := by
    intro a
    induction a using hwf.induction with
    | _ a ih =>
      refine Acc.intro _ fun w hw ↦ ?_
      exact ih ⟨w, Relation.ReflTransGen.tail a.2 hw⟩ (.single hw)
  exact hall ⟨v, .refl⟩

/-- A fact holds of an acyclic value if it holds of each value inside whenever it holds of all that
this one holds. -/
theorem Acyclic.induction {motive : Value → Prop}
    (step : ∀ v, (∀ w, h.Holds v w → motive w) → motive v) (hv : h.Acyclic v) : motive v := by
  induction hv.acc with
  | intro v _ ih => exact step v fun w hw ↦ ih w hw (hv.of_holds hw)

/-- If objects hold only objects that are older, all values are acyclic. -/
theorem acyclic_of_older
    (hold : ∀ r name s, (name, .object s) ∈ h.fields r → s.address < r.address) : h.Acyclic v := by
  have hdescent : ∀ {v w : Value}, Relation.TransGen h.Holds v w → ∀ s, w = .object s →
      ∃ r, v = .object r ∧ s.address < r.address := by
    intro v w hvw
    induction hvw with
    | single hvw =>
      rintro s rfl
      obtain ⟨hs⟩ := hvw
      exact ⟨_, rfl, hold _ _ _ hs⟩
    | tail _ hw ih =>
      rintro s rfl
      obtain ⟨hs⟩ := hw
      obtain ⟨r, rfl, hr⟩ := ih _ rfl
      exact ⟨r, rfl, (hold _ _ _ hs).trans hr⟩
  intro w _ hw
  obtain ⟨_, ⟨hs⟩, _⟩ := Relation.TransGen.head'_iff.mp hw
  obtain ⟨r, heq, hlt⟩ := hdescent hw _ rfl
  cases heq
  exact Nat.lt_irrefl _ hlt

end TestDeclaration.Heap

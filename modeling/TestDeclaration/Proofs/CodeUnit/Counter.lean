import TestDeclaration.Proofs.CodeUnit.WholeNumbers

/-!
# Counters

A counter is an object with one field, an int. Whoever refers to it can call it, and all that the
calls do is told by the count: each answer and the next count follow from the count before. Between
the calls other objects may be made and changed in any way. A history records the calls and their
answers, and by induction on it the counter is always an object with the count that the answers
tell.
-/

namespace TestDeclaration.Samples

open Native Number

/-! ### Answers -/

/-- The methods of a counter. -/
inductive CounterCall where
  | increment
  | get
  | reset
  deriving DecidableEq, Repr

namespace CounterCall

/-- The name of a method. -/
def name : CounterCall → String
  | .increment => "Increment"
  | .get => "Get"
  | .reset => "Reset"

/-- What a counter with some count answers, and the count that it has then. An increment of the
greatest int overflows and leaves the count as it is. -/
inductive Answers (n : Int32) : CounterCall → Except Fault (Option Value) → Int32 → Prop where
  | increment {m : Int32} : m.toInt = n.toInt + 1 →
      Answers n .increment (.ok (some (.int m))) m
  | overflow : n.toInt = Range.int.greatest → Answers n .increment (.error .overflow) n
  | get : Answers n .get (.ok (some (.int n))) n
  | reset : Answers n .reset (.ok none) 0

end CounterCall

/-- A call of a counter with the answer to it. -/
abbrev CounterEvent := CounterCall × Except Fault (Option Value)

/-- A counter that starts with a count gives the answers of some events and has another count
then. -/
inductive Counts (first : Int32) : List CounterEvent → Int32 → Prop where
  | start : Counts first [] first
  | answer {events : List CounterEvent} {call : CounterCall}
      {result : Except Fault (Option Value)} {n m : Int32} : Counts first events n →
      call.Answers n result m → Counts first (events ++ [(call, result)]) m

/-! ### Histories -/

/-- A heap is reached from another by calls of an object, through any value that refers to it, and
by changes to the other objects. The calls are recorded with their answers. -/
inductive History (l : Library) (r : Ref) (h : Heap) : List CounterEvent → Heap → Prop where
  | start : History l r h [] h
  | call {events : List CounterEvent} {k m : Heap} {call : CounterCall} {v : Value}
      {result : Except Fault (Option Value)} : History l r h events k →
      Value.IsAt (some v) r.address → v.typeName = r.type →
      l.call? counter call.name (some v) [] k = some (result, m) →
      History l r h (events ++ [(call, result)]) m
  | other {events : List CounterEvent} {k m : Heap} : History l r h events k →
      k.KeepsExcept (· ≠ r.address) m → History l r h events m

/-- An object is a counter with some count and nothing else. -/
structure CounterAt (h : Heap) (r : Ref) (n : Int32) : Prop where
  type : r.type = counter
  fields : h.fields r = [("count", .int n)]

variable {l : Library} {h k : Heap} {r : Ref} {n : Int32}

/-- A value of the type of an object that refers to its address is the object. -/
theorem eq_of_isAt {v : Value} (hv : Value.IsAt (some v) r.address) (ht : v.typeName = r.type) :
    v = .object r := by
  obtain ⟨s, hs, ha⟩ := hv
  cases hs
  cases s
  cases r
  simp_all [Value.typeName]

namespace CounterAt

private theorem lt_size (hr : CounterAt h r n) : r.address < h.objects.size :=
  Heap.lt_size_of_fields_ne_nil (by simp [hr.fields])

private theorem count (hr : CounterAt h r n) : h.get? r "count" = some (.int n) := by
  rw [Heap.get?, hr.fields]
  rfl

/-- Changes to other objects leave a counter alone. -/
theorem of_keepsExcept (hr : CounterAt h r n) (hk : h.KeepsExcept (· ≠ r.address) k) :
    CounterAt k r n where
  type := hr.type
  fields := by rw [hk.fields_eq hr.lt_size (not_not.mpr rfl), hr.fields]

/-- Writing the count leaves one field with the new count. -/
theorem set (hr : CounterAt h r n) (m : Int32) : CounterAt (h.set r "count" (.int m)) r m where
  type := hr.type
  fields := by
    rw [Heap.fields_set_self h "count" _ hr.lt_size rfl, hr.fields]
    rfl

end CounterAt

/-! ### One call -/

/-- The code of a method. -/
def CounterCall.body : CounterCall → Option Value → List Value → Native (Option Value)
  | .increment => Samples.increment
  | .get => getCount
  | .reset => Samples.reset

/-- The method that a library resolves runs its code on the counter. -/
theorem call?_counter (hcounter : l.definition? counter = some counterType) (ht : r.type = counter)
    (call : CounterCall) (h : Heap) : l.call? counter call.name (some (.object r)) [] h =
      some ((call.body (some (.object r)) []).perform h) := by
  have hm : counterType.method? call.name (([] : List Value).map Value.typeName) =
      some ⟨call.name, [], .target, call.body⟩ := by
    cases call <;> rfl
  have hobject : (Value.object r).typeName = counter := ht
  exact Library.call?_target hcounter hm rfl rfl hobject h

/-- A call of a counter answers by the count, leaves a counter with the next count, and changes no
other object. -/
theorem CounterAt.step (hr : CounterAt h r n) (call : CounterCall) : ∃ result k m,
    (call.body (some (.object r)) []).perform h = (result, k) ∧ call.Answers n result m ∧
      CounterAt k r m ∧ h.KeepsExcept (· = r.address) k := by
  have hset : ∀ m, h.KeepsExcept (· = r.address) (h.set r "count" (.int m)) :=
    fun m ↦ Heap.keepsExcept_set h "count" (.int m) rfl
  cases call with
  | increment =>
    simp only [CounterCall.body, Samples.increment, perform_bind, perform_count hr.count,
      perform_orRaise]
    cases hm : int? (n.toInt + 1) with
    | none =>
      have hgreatest : n.toInt = Range.int.greatest := by
        have hout := Range.word?_eq_none_iff.mp hm
        have hin := Range.words_int.contains_toInt n
        simp only [Range.Contains, Range.int] at hout hin ⊢
        omega
      exact ⟨_, _, n, rfl, .overflow hgreatest, hr, .refl _ h⟩
    | some m =>
      have hnext : m.toInt = n.toInt + 1 := Range.words_int.word?_eq_some_iff.mp hm
      exact ⟨_, _, m, rfl, .increment hnext, hr.set m, hset m⟩
  | get =>
    simp only [CounterCall.body, getCount, perform_bind, perform_count hr.count]
    exact ⟨_, _, n, rfl, .get, hr, .refl _ h⟩
  | reset => exact ⟨_, _, 0, rfl, .reset, hr.set 0, hset 0⟩

private theorem exists_call?_counter (hcounter : l.definition? counter = some counterType)
    (hr : CounterAt h r n) (call : CounterCall) {v : Value} (hv : Value.IsAt (some v) r.address)
    (ht : v.typeName = r.type) : ∃ result k m,
    l.call? counter call.name (some v) [] h = some (result, k) ∧ call.Answers n result m ∧
      CounterAt k r m ∧ h.KeepsExcept (· = r.address) k := by
  obtain ⟨result, k, m, hresult, hstep⟩ := hr.step call
  refine ⟨result, k, m, ?_, hstep⟩
  rw [eq_of_isAt hv ht, call?_counter hcounter hr.type, hresult]

/-! ### All calls -/

/-- At every moment of a history a counter has the count that the answers so far tell. -/
theorem History.exists_counts (hcounter : l.definition? counter = some counterType)
    (hr : CounterAt h r n) {events : List CounterEvent} (hk : History l r h events k) :
    ∃ m, Counts n events m ∧ CounterAt k r m := by
  induction hk with
  | start => exact ⟨n, .start, hr⟩
  | call _ hv ht hcall ih =>
    obtain ⟨m, hm, hrm⟩ := ih
    obtain ⟨result, k, m', hresult, hanswers, hrk, -⟩ := exists_call?_counter hcounter hrm _ hv ht
    obtain ⟨rfl, rfl⟩ := Prod.mk.inj (Option.some.inj (hresult.symm.trans hcall))
    exact ⟨m', .answer hm hanswers, hrk⟩
  | other _ hkeeps ih =>
    obtain ⟨m, hm, hrm⟩ := ih
    exact ⟨m, hm, hrm.of_keepsExcept hkeeps⟩

/-- Calls of contained methods on other instances are changes to other objects. -/
theorem History.other_invoke {kinds : TypeName → Prop} {c : Callable} (hc : c.Contained kinds)
    {events : List CounterEvent} (hk : History l r h events k) {target? : Option Value}
    (ht : ¬ Value.IsAt target? r.address) (args : List Value) :
    History l r h events (c.invoke target? args k).2 :=
  .other hk ((hc.keeps target? args k).mono fun _ _ ha heq ↦ ht (heq ▸ ha))

/-- The constructors of the counter, resolved by a library, make a new counter. -/
theorem exists_construct_counter (hcounter : l.definition? counter = some counterType)
    {args : List Value} {first : Int32} (hargs : args = [] ∧ first = 0 ∨ args = [.int first])
    (h : Heap) : ∃ c r k, l.constructor? counter (args.map Value.typeName) = some c ∧
      c.construct args h = (.ok (.object r), k) ∧ h.objects.size ≤ r.address ∧ h.Keeps k ∧
      CounterAt k r first := by
  have hnew : CounterAt (h.alloc counter [("count", .int first)]).2
      (h.alloc counter [("count", .int first)]).1 first := ⟨rfl, Heap.fields_alloc h counter _⟩
  rw [Library.constructor?, hcounter]
  rcases hargs with ⟨rfl, rfl⟩ | rfl
  · exact ⟨_, _, _, rfl, rfl, Nat.le_refl _, Heap.keepsExcept_alloc _ h counter _, hnew⟩
  · exact ⟨_, _, _, rfl, rfl, Nat.le_refl _, Heap.keepsExcept_alloc _ h counter _, hnew⟩

/-- A counter answers every history of calls as a count does, whatever happens to other objects. -/
theorem counter_counts (hcounter : l.definition? counter = some counterType)
    {args : List Value} {first : Int32} (hargs : args = [] ∧ first = 0 ∨ args = [.int first])
    (h : Heap) : ∃ c r k, l.constructor? counter (args.map Value.typeName) = some c ∧
      c.construct args h = (.ok (.object r), k) ∧ h.objects.size ≤ r.address ∧ h.Keeps k ∧
      ∀ events m, History l r k events m → ∃ n, Counts first events n ∧ CounterAt m r n ∧
        ∀ (call : CounterCall) v, Value.IsAt (some v) r.address → v.typeName = counter →
          ∃ result m' n', l.call? counter call.name (some v) [] m = some (result, m') ∧
            call.Answers n result n' ∧ CounterAt m' r n' ∧ m.KeepsExcept (· = r.address) m' := by
  obtain ⟨c, r, k, hc, hconstruct, hfresh, hkeeps, hr⟩ :=
    exists_construct_counter hcounter hargs h
  refine ⟨c, r, k, hc, hconstruct, hfresh, hkeeps, fun events m hm ↦ ?_⟩
  obtain ⟨n, hn, hrn⟩ := hm.exists_counts hcounter hr
  refine ⟨n, hn, hrn, fun call v hv ht ↦ ?_⟩
  obtain ⟨result, m', n', hstep⟩ :=
    exists_call?_counter hcounter hrn call hv (ht.trans hr.type.symm)
  exact ⟨result, m', n', hstep⟩

/-- A counter of the standard units is counted to the end of the range and beyond, while another
counter is made and counted as well. -/
theorem counter_counts_to_the_end :
    let l : Library := ⟨[Core.unit, unit]⟩
    let r : Ref := ⟨counter, 0⟩
    let start : Heap := ⟨#[[("count", .int 2147483646)]]⟩
    let events : List CounterEvent := [(.increment, .ok (some (.int 2147483647))),
      (.increment, .error .overflow), (.get, .ok (some (.int 2147483647)))]
    ∃ m, History l r start events m ∧ Counts 2147483646 events 2147483647 ∧
      CounterAt m r 2147483647 := by
  intro l r start events
  have hcounter : l.definition? counter = some counterType := rfl
  have hargs : [Value.int 2147483646] = [] ∧ (2147483646 : Int32) = 0 ∨
      [Value.int 2147483646] = [.int 2147483646] := .inr rfl
  obtain ⟨c, s, k, hc, hconstruct, -, -, hhistory⟩ := counter_counts hcounter hargs .empty
  obtain rfl : (⟨counter, [Core.int], newCounter⟩ : Constructor) = c := Option.some.inj hc
  obtain ⟨hs, rfl⟩ := Prod.mk.inj hconstruct
  obtain rfl : r = s := Value.object.inj (Except.ok.inj hs)
  have hself : Value.IsAt (some (.object r)) r.address := ⟨r, rfl, rfl⟩
  have hother : ¬ Value.IsAt (some (.object ⟨counter, 1⟩)) r.address := by
    rintro ⟨_, ⟨⟩, ha⟩
    exact absurd ha (by decide)
  have hfirst : History l r start [(.increment, .ok (some (.int 2147483647)))] _ :=
    .call .start hself rfl rfl
  have hmade := hfirst.other (Heap.keepsExcept_alloc (· ≠ r.address) _ counter
    [("count", .int 5)])
  have hcounted := hmade.other_invoke contained_increment hother []
  have hall : History l r start events _ :=
    .call (.call hcounted hself rfl rfl) hself rfl rfl
  obtain ⟨n, hn, hr, -⟩ := hhistory events _ hall
  obtain rfl : n = 2147483647 := by
    have hfields : [("count", Value.int n)] = [("count", .int 2147483647)] := hr.fields.symm
    simpa [Value.int] using hfields
  exact ⟨_, hall, hn, hr⟩

end TestDeclaration.Samples

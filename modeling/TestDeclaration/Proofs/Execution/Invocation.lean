import TestDeclaration.Proofs.Execution.Verdict
import TestDeclaration.Proofs.Search

/-!
# What a call comes to

A case is called in steps, and each can settle the outcome: the instance is made, then it is
checked, then the arguments are, and only if all of them fit the native body is run. A call that is
refused leaves the heap as the making of the instance left it. A static method never sees the
instance that was made for it, so which one it was makes no difference.
-/

namespace TestDeclaration

/-! ### Checks -/

/-- Whether a parameter takes a value: `object` takes all, and any other type its own values. -/
def Takes (parameter : TypeName) (v : Value) : Prop :=
  parameter = .primitive .object ∨ v.typeName = parameter

/-- What the check of arguments finds. Their number comes first, and of several arguments that do
not fit the first one counts. -/
inductive ChecksArguments (parameters : List TypeName) (args : List Value) :
    Option Fault → Prop where
  | count : parameters.length ≠ args.length → ChecksArguments parameters args
      (some (.argument ("Parameter count mismatch, expected " ++ toString parameters.length ++
        " but got " ++ toString args.length)))
  | type {i : Nat} {p : TypeName} {v : Value} : parameters.length = args.length →
      FirstAt (parameters.zip args) (fun pair ↦ ¬ Takes pair.1 pair.2) i (p, v) →
      ChecksArguments parameters args
        (some (.argument ("Object of type " ++ v.typeName.name ++ " cannot be converted to type " ++
          p.name)))
  | fit : List.Forall₂ Takes parameters args → ChecksArguments parameters args none

/-- What the check of an instance finds: a fault, or the instance that the body of the method
sees. -/
inductive Callable.ChecksInstance (target : Callable) (instance? : Option Value) :
    Except Fault (Option Value) → Prop where
  | static : target.method.receiver = .static → ChecksInstance target instance? (.ok none)
  | absent : target.method.receiver = .target → instance? = none →
      ChecksInstance target instance? (.error (.target "Non-static method requires a target"))
  | other {v : Value} : target.method.receiver = .target → instance? = some v →
      v.typeName ≠ target.owner → ChecksInstance target instance?
        (.error (.target ("Object of type " ++ v.typeName.name ++ " does not match target type " ++
          target.owner.name)))
  | own {v : Value} : target.method.receiver = .target → instance? = some v →
      v.typeName = target.owner → ChecksInstance target instance? (.ok (some v))

/-- How native code ends for its caller. -/
inductive EndsNative {α : Type} : Except Abort α → Except Fault α → Prop where
  | result (a : α) : EndsNative (.ok a) (.ok a)
  | fault (f : Fault) : EndsNative (.error (.fault f)) (.error f)
  | panic (message? : Option String) :
      EndsNative (.error (.panic message?)) (.error (.panic message?))

/-! ### Calls -/

/-- What an expression comes to, and the heap that it leaves. -/
inductive Expression.Evaluates : Expression → Heap → Except Fault Value → Heap → Prop where
  | value (v : Value) (h : Heap) : Evaluates (.value v) h (.ok v) h
  | refused {c : Constructor} {args : List Value} {f : Fault} (h : Heap) :
      ChecksArguments c.parameters args (some f) → Evaluates (.construct c args) h (.error f) h
  | body {c : Constructor} {args : List Value} {h h' : Heap} {ended : Except Abort Value}
      {result : Except Fault Value} : ChecksArguments c.parameters args none →
      (c.body c.owner args).run h = (ended, h') → EndsNative ended result →
      Evaluates (.construct c args) h result h'

namespace Case

/-- The instance that is made for a case, if it has an activator, and the heap that this leaves. -/
inductive Prepares (c : Case) (h : Heap) : Option Value → Heap → Prop where
  | absent : c.activator? = none → Prepares c h none h
  | made {e : Expression} {v : Value} {h₁ : Heap} : c.activator? = some e →
      e.Evaluates h (.ok v) h₁ → Prepares c h (some v) h₁

/-- A call is refused with a fault, in the heap that the making of the instance left. -/
inductive Refused (c : Case) (target : Callable) (h : Heap) : Fault → Heap → Prop where
  | target {instance? : Option Value} {f : Fault} {h₁ : Heap} : c.Prepares h instance? h₁ →
      target.ChecksInstance instance? (.error f) → Refused c target h f h₁
  | arguments {instance? seen? : Option Value} {f : Fault} {h₁ : Heap} :
      c.Prepares h instance? h₁ → target.ChecksInstance instance? (.ok seen?) →
      ChecksArguments target.method.parameters c.arguments (some f) → Refused c target h f h₁

/-- A call reaches the native body, with the instance that this sees and the heap that it finds. -/
inductive Reaches (c : Case) (target : Callable) (h : Heap) : Option Value → Heap → Prop where
  | intro {instance? seen? : Option Value} {h₁ : Heap} :
      c.Prepares h instance? h₁ → target.ChecksInstance instance? (.ok seen?) →
      ChecksArguments target.method.parameters c.arguments none → Reaches c target h seen? h₁

/-- The outcome of a case, and the heap that its call leaves. -/
inductive Ends (c : Case) (target : Callable) (h : Heap) : Outcome → Heap → Prop where
  | activator {e : Expression} {f : Fault} {h₁ : Heap} : c.activator? = some e →
      e.Evaluates h (.error f) h₁ → Ends c target h (.thrown f) h₁
  | refused {f : Fault} {h₁ : Heap} : c.Refused target h f h₁ → Ends c target h (.thrown f) h₁
  | returned {seen? : Option Value} {v : Value} {h₁ h' : Heap} : c.Reaches target h seen? h₁ →
      (target.method.body seen? c.arguments).run h₁ = (.ok (some v), h') →
      Ends c target h (.returned v) h'
  | nothing {seen? : Option Value} {h₁ h' : Heap} : c.Reaches target h seen? h₁ →
      (target.method.body seen? c.arguments).run h₁ = (.ok none, h') →
      Ends c target h (.thrown .nullReturn) h'
  | fault {seen? : Option Value} {f : Fault} {h₁ h' : Heap} : c.Reaches target h seen? h₁ →
      (target.method.body seen? c.arguments).run h₁ = (.error (.fault f), h') →
      Ends c target h (.thrown f) h'
  | panic {seen? : Option Value} {message? : Option String} {h₁ h' : Heap} :
      c.Reaches target h seen? h₁ →
      (target.method.body seen? c.arguments).run h₁ = (.error (.panic message?), h') →
      Ends c target h (.thrown (.panic message?)) h'

end Case

/-! ### The rules are met -/

private theorem accepts_iff_takes {p : TypeName} {v : Value} : accepts p v ↔ Takes p v := by
  rw [accepts, Bool.or_eq_true, beq_iff_eq, beq_iff_eq, Takes]

/-- A value that a parameter does not take is not accepted. -/
theorem not_accepts_iff {pair : TypeName × Value} :
    (!accepts pair.1 pair.2) = true ↔ ¬ Takes pair.1 pair.2 := by
  rw [Bool.not_eq_true', Bool.eq_false_iff, Ne, accepts_iff_takes]

/-- Arguments are refused as the rules say. -/
theorem argumentRefusal?_iff {parameters : List TypeName} {args : List Value} {f? : Option Fault} :
    (argumentRefusal? parameters args).map Refusal.fault = f? ↔
      ChecksArguments parameters args f? := by
  unfold argumentRefusal?
  constructor
  · rintro rfl
    split
    · next hcount => exact .count hcount
    · next hcount =>
      have hlength : parameters.length = args.length := not_not.mp hcount
      cases hfind : (parameters.zip args).find? fun pair ↦ !accepts pair.1 pair.2 with
      | some pair =>
        obtain ⟨i, hi⟩ := (find?_eq_some_iff_firstAt fun _ ↦ not_accepts_iff).mp hfind
        exact .type hlength hi
      | none =>
        refine .fit (List.forall₂_iff_zip.mpr ⟨hlength, fun {p v} hmem ↦ ?_⟩)
        have hall := List.find?_eq_none.mp hfind (p, v) hmem
        rwa [not_accepts_iff, not_not] at hall
  · intro hchecks
    cases hchecks with
    | count hcount =>
      rw [if_pos hcount]
      rfl
    | type hlength hfirst =>
      have hfind := (find?_eq_some_iff_firstAt fun _ ↦ not_accepts_iff).mpr ⟨_, hfirst⟩
      rw [if_neg (not_not_intro hlength), hfind]
      rfl
    | fit hfit =>
      have hfind : (parameters.zip args).find? (fun pair ↦ !accepts pair.1 pair.2) = none := by
        rw [List.find?_eq_none]
        intro pair hmem
        rw [not_accepts_iff, not_not]
        exact (List.forall₂_iff_zip.mp hfit).2 hmem
      rw [if_neg (not_not_intro hfit.length_eq), hfind]
      rfl

namespace Callable

variable {target : Callable} {instance? seen? : Option Value} {args : List Value} {f : Fault}
  {h h' : Heap}

/-- An instance is refused as the rules say. -/
theorem targetRefusal?_iff : (target.targetRefusal? instance?).map Refusal.fault = some f ↔
    target.ChecksInstance instance? (.error f) := by
  unfold targetRefusal?
  constructor
  · intro hf
    split at hf
    · cases hf
    · next hreceiver =>
      cases hf
      exact .absent hreceiver rfl
    · next v hreceiver =>
      split at hf
      · cases hf
      · next hne =>
        cases hf
        exact .other hreceiver rfl hne
  · intro hchecks
    cases hchecks with
    | absent hreceiver hnone =>
      rw [hreceiver, hnone]
      rfl
    | other hreceiver hsome hne =>
      rw [hreceiver, hsome]
      simp only [if_neg hne]
      rfl

/-- The body sees the instance that the rules say. -/
theorem targetRefusal?_eq_none_iff :
    target.targetRefusal? instance? = none ∧ target.visibleTarget instance? = seen? ↔
      target.ChecksInstance instance? (.ok seen?) := by
  unfold targetRefusal? visibleTarget
  constructor
  · rintro ⟨hnone, rfl⟩
    split at hnone
    · next hreceiver =>
      rw [hreceiver]
      exact .static hreceiver
    · cases hnone
    · next v hreceiver =>
      split at hnone
      · next heq =>
        rw [hreceiver]
        exact .own hreceiver rfl heq
      · cases hnone
  · intro hchecks
    cases hchecks with
    | static hreceiver =>
      rw [hreceiver]
      exact ⟨rfl, rfl⟩
    | own hreceiver hsome heq =>
      rw [hreceiver, hsome]
      exact ⟨if_pos heq, rfl⟩

/-- A call whose instance does not fit changes nothing. -/
theorem invoke_of_instance (hi : target.ChecksInstance instance? (.error f)) :
    target.invoke instance? args h = (.error f, h) := by
  obtain ⟨refusal, hrefusal, rfl⟩ := Option.map_eq_some_iff.mp (targetRefusal?_iff.mpr hi)
  rw [invoke, refusal?, hrefusal]
  rfl

/-- A call whose arguments do not fit changes nothing. -/
theorem invoke_of_arguments (hi : target.ChecksInstance instance? (.ok seen?))
    (ha : ChecksArguments target.method.parameters args (some f)) :
    target.invoke instance? args h = (.error f, h) := by
  obtain ⟨hnone, -⟩ := targetRefusal?_eq_none_iff.mpr hi
  obtain ⟨refusal, hrefusal, rfl⟩ := Option.map_eq_some_iff.mp (argumentRefusal?_iff.mpr ha)
  rw [invoke, refusal?, hnone, hrefusal]
  rfl

/-- A call that fits runs the native body. -/
theorem invoke_of_fit (hi : target.ChecksInstance instance? (.ok seen?))
    (ha : ChecksArguments target.method.parameters args none) :
    target.invoke instance? args h = (target.method.body seen? args).perform h := by
  obtain ⟨hnone, rfl⟩ := targetRefusal?_eq_none_iff.mpr hi
  have hfit := Option.map_eq_none_iff.mp (argumentRefusal?_iff.mpr ha)
  rw [invoke, refusal?, hnone, hfit]
  rfl

/-- The check of an instance always finds something. -/
theorem exists_checksInstance (target : Callable) (instance? : Option Value) :
    ∃ found, target.ChecksInstance instance? found := by
  cases hrefusal : target.targetRefusal? instance? with
  | some refusal =>
    refine ⟨.error refusal.fault, targetRefusal?_iff.mp ?_⟩
    rw [hrefusal]
    rfl
  | none => exact ⟨_, targetRefusal?_eq_none_iff.mp ⟨hrefusal, rfl⟩⟩

/-- A static method is called the same on every instance. -/
theorem invoke_static (hs : target.method.receiver = .static) (instance? : Option Value) :
    target.invoke instance? args h = target.invoke none args h := by
  simp only [invoke, refusal?, targetRefusal?, visibleTarget, hs]

end Callable

/-- Native code ends as the rules say. -/
theorem Native.perform_iff {α : Type} {code : Native α} {h h' : Heap} {result : Except Fault α} :
    code.perform h = (result, h') ↔
      ∃ ended, code.run h = (ended, h') ∧ EndsNative ended result := by
  unfold perform
  constructor
  · intro hperform
    split at hperform
    · next a k hrun =>
      cases hperform
      exact ⟨_, hrun, .result a⟩
    · next abort k hrun =>
      cases hperform
      refine ⟨_, hrun, ?_⟩
      cases abort with
      | fault f => exact .fault f
      | panic message? => exact .panic message?
  · rintro ⟨_, hrun, hends⟩
    cases hends with
    | result => rw [hrun]
    | fault | panic =>
      rw [hrun]
      rfl

/-- Expressions are evaluated as the rules say. -/
theorem Expression.evaluate_iff {e : Expression} {h h' : Heap} {result : Except Fault Value} :
    e.evaluate h = (result, h') ↔ e.Evaluates h result h' := by
  cases e with
  | value v =>
    constructor
    · rintro ⟨⟩
      exact .value v h
    · rintro ⟨⟩
      rfl
  | construct c args =>
    rw [evaluate, Constructor.construct]
    constructor
    · intro hevaluate
      split at hevaluate
      · next refusal hrefusal =>
        cases hevaluate
        refine .refused h (argumentRefusal?_iff.mp ?_)
        rw [hrefusal]
        rfl
      · next hrefusal =>
        obtain ⟨ended, hrun, hends⟩ := Native.perform_iff.mp hevaluate
        refine .body (argumentRefusal?_iff.mp ?_) hrun hends
        rw [hrefusal]
        rfl
    · intro hevaluates
      cases hevaluates with
      | refused _ hrefused =>
        obtain ⟨refusal, hrefusal, rfl⟩ :=
          Option.map_eq_some_iff.mp (argumentRefusal?_iff.mpr hrefused)
        rw [hrefusal]
      | body hfit hrun hends =>
        rw [Option.map_eq_none_iff.mp (argumentRefusal?_iff.mpr hfit)]
        exact Native.perform_iff.mpr ⟨_, hrun, hends⟩

namespace Case

variable {c : Case} {target : Callable} {h h' h₁ : Heap} {instance? : Option Value} {o : Outcome}

/-- When the instance has been made, the method is called on it. -/
theorem call_of_prepares (hc : c.Prepares h instance? h₁) : c.call target h =
    (.ofResult (target.invoke instance? c.arguments h₁).1,
      (target.invoke instance? c.arguments h₁).2) := by
  unfold call
  cases hc with
  | absent hnone => rw [hnone]
  | made hsome hmade =>
    rw [hsome]
    simp only [Expression.evaluate_iff.mpr hmade]

/-- A case has an instance, or its activator ends with a fault, which is the outcome. -/
theorem prepares_or_fault (c : Case) (h : Heap) : (∃ instance? h₁, c.Prepares h instance? h₁) ∨
    ∃ e f h₁, c.activator? = some e ∧ e.Evaluates h (.error f) h₁ := by
  cases hactivator : c.activator? with
  | none => exact .inl ⟨none, h, .absent hactivator⟩
  | some e =>
    rcases hevaluate : e.evaluate h with ⟨f | v, h₁⟩
    · exact .inr ⟨e, f, h₁, rfl, Expression.evaluate_iff.mp hevaluate⟩
    · exact .inl ⟨some v, h₁, .made hactivator (Expression.evaluate_iff.mp hevaluate)⟩

/-- A call that is refused has the fault as its outcome, and leaves the heap that it found. -/
theorem Refused.call_eq {f : Fault} (hr : c.Refused target h f h₁) :
    c.call target h = (.thrown f, h₁) := by
  cases hr with
  | target hc hi =>
    rw [call_of_prepares hc, Callable.invoke_of_instance hi]
    rfl
  | arguments hc hi ha =>
    rw [call_of_prepares hc, Callable.invoke_of_arguments hi ha]
    rfl

/-- A call that fits ends as the native body does. -/
theorem Reaches.call_eq {seen? : Option Value} (hr : c.Reaches target h seen? h₁)
    {ended : Except Abort (Option Value)} {result : Except Fault (Option Value)}
    (hrun : (target.method.body seen? c.arguments).run h₁ = (ended, h'))
    (hends : EndsNative ended result) : c.call target h = (.ofResult result, h') := by
  obtain ⟨hc, hi, ha⟩ := hr
  have hperform := Native.perform_iff.mpr ⟨ended, hrun, hends⟩
  rw [call_of_prepares hc, Callable.invoke_of_fit hi ha, hperform]

/-- A call is refused, or it reaches the native body, once its instance has been made. -/
theorem refused_or_reaches (hc : c.Prepares h instance? h₁) (target : Callable) :
    (∃ f, c.Refused target h f h₁) ∨ ∃ seen?, c.Reaches target h seen? h₁ := by
  obtain ⟨f | seen?, hi⟩ := target.exists_checksInstance instance?
  · exact .inl ⟨f, .target hc hi⟩
  · have ha : ChecksArguments target.method.parameters c.arguments _ := argumentRefusal?_iff.mp rfl
    generalize (argumentRefusal? target.method.parameters c.arguments).map Refusal.fault = f? at ha
    cases f? with
    | some f => exact .inl ⟨f, .arguments hc hi ha⟩
    | none => exact .inr ⟨seen?, .intro hc hi ha⟩

/-- A call that reaches the native body ends as the rules say. -/
theorem Reaches.ends {seen? : Option Value} (hr : c.Reaches target h seen? h₁) :
    c.Ends target h (c.call target h).1 (c.call target h).2 := by
  rcases hrun : (target.method.body seen? c.arguments).run h₁ with ⟨ended, h'⟩
  rcases ended with (f | message?) | (_ | v)
  · rw [hr.call_eq hrun (.fault f)]
    exact .fault hr hrun
  · rw [hr.call_eq hrun (.panic message?)]
    exact .panic hr hrun
  · rw [hr.call_eq hrun (.result none)]
    exact .nothing hr hrun
  · rw [hr.call_eq hrun (.result (some v))]
    exact .returned hr hrun

/-- Every call ends as the rules say. -/
theorem ends_call (c : Case) (target : Callable) (h : Heap) :
    c.Ends target h (c.call target h).1 (c.call target h).2 := by
  rcases prepares_or_fault c h with ⟨instance?, h₁, hc⟩ | ⟨e, f, h₁, he, hevaluates⟩
  · rcases refused_or_reaches hc target with ⟨f, hr⟩ | ⟨seen?, hr⟩
    · rw [hr.call_eq]
      exact .refused hr
    · exact hr.ends
  · have hcall : c.call target h = (.thrown f, h₁) := by
      rw [call, he]
      simp only [Expression.evaluate_iff.mpr hevaluates]
    rw [hcall]
    exact .activator he hevaluates

/-- The rules allow one outcome only, that of the call. -/
theorem Ends.call_eq (hends : c.Ends target h o h') : c.call target h = (o, h') := by
  cases hends with
  | activator he hevaluates =>
    rw [call, he]
    simp only [Expression.evaluate_iff.mpr hevaluates]
  | refused hr => exact hr.call_eq
  | returned hr hrun => exact hr.call_eq hrun (.result _)
  | nothing hr hrun => exact hr.call_eq hrun (.result _)
  | fault hr hrun => exact hr.call_eq hrun (.fault _)
  | panic hr hrun => exact hr.call_eq hrun (.panic _)

/-! ### Static methods -/

variable {kinds : TypeName → Prop} {S : Nat → Prop}

/-- Making an instance changes no object, over contained constructors. -/
theorem Prepares.keeps (hc : c.Prepares h instance? h₁)
    (hinside : ∀ e ∈ c.activator?, e.Inside kinds S) : h.Keeps h₁ := by
  cases hc with
  | absent => exact .refl _ _
  | @made e _ _ hsome hmade =>
    have hkeeps := (hinside e hsome).keeps h
    rwa [Expression.evaluate_iff.mpr hmade] at hkeeps

/-- A static method is called as it would be without an instance, in the heap that the making of the
instance left. -/
theorem call_static (hs : target.method.receiver = .static) (hc : c.Prepares h instance? h₁) :
    c.call target h = call ⟨none, c.arguments, c.expectation⟩ target h₁ := by
  have hbare : Prepares ⟨none, c.arguments, c.expectation⟩ h₁ none h₁ := .absent rfl
  rw [call_of_prepares hc, call_of_prepares hbare, Callable.invoke_static hs]

/-- Two outcomes of calls that start in one heap are the same, except for the identity of the objects
that the calls make. Objects of a set stand for themselves. -/
def SameFrom (kinds : TypeName → Prop) (S : Nat → Prop) (h : Heap) (p q : Outcome × Heap) : Prop :=
  ∃ R : Pairing, (∀ a, S a → R a a) ∧
    (∀ a b, R a b → a < h.objects.size ∨ b < h.objects.size → a = b) ∧
    p.2.Corresponds kinds R q.2 ∧ p.1.Alike kinds R q.1

/-- A static method has the same outcome on all instances. -/
theorem static_sameFrom {c' : Case} {instance'? : Option Value} {h₁' : Heap}
    (hs : target.method.receiver = .static) (ht : target.Contained kinds)
    (hh : h.Closed kinds S) (hargs : c'.arguments = c.arguments)
    (hin : ∀ v ∈ c.arguments, v.Inside kinds S)
    (hactivator : ∀ e, e ∈ c.activator? ∨ e ∈ c'.activator? → e.Inside kinds S)
    (hc : c.Prepares h instance? h₁) (hc' : c'.Prepares h instance'? h₁') :
    SameFrom kinds S h (c.call target h) (c'.call target h) := by
  have hkeeps := hc.keeps fun e he ↦ hactivator e (.inl he)
  have hkeeps' := hc'.keeps fun e he ↦ hactivator e (.inr he)
  have hmade : h₁.Corresponds kinds (.diagonal S) h₁' :=
    Heap.Corresponds.keeps_left (Heap.Corresponds.keeps_right hh hkeeps') hkeeps
  obtain ⟨R, hR, hcorresponds, hends⟩ := ht.tracks hmade .none
    (forall₂_alike_of_inside hin fun a ha ↦ ⟨rfl, ha⟩)
  rw [call_of_prepares hc, call_of_prepares hc', Callable.invoke_static hs instance?,
    Callable.invoke_static hs instance'?, hargs]
  refine ⟨R, fun a ha ↦ hR.keeps ⟨rfl, ha⟩, fun a b hab hlt ↦ ?_, hcorresponds, hends.outcome⟩
  rcases hR.fresh hab with hab | ⟨ha, hb⟩
  · exact hab.1
  · have := hkeeps.grows
    have := hkeeps'.grows
    omega

/-- A call comes to the first check that fails, or else to what the native body ends with; the
instance of a static method counts for nothing. -/
theorem call_comes_to_its_end (c : Case) (target : Callable) (h : Heap) :
    (∀ o h', c.call target h = (o, h') ↔ c.Ends target h o h') ∧
    (∀ f h₁, c.Refused target h f h₁ → (c.call target h).2 = h₁ ∧
      ((∀ constructor args, c.activator? ≠ some (.construct constructor args)) → h₁ = h)) ∧
    (target.method.receiver = .static →
      (∀ instance? h₁, c.Prepares h instance? h₁ →
        c.call target h = call ⟨none, c.arguments, c.expectation⟩ target h₁) ∧
      ∀ kinds S, target.Contained kinds → h.Closed kinds S → ∀ c' : Case,
        c'.arguments = c.arguments → (∀ v ∈ c.arguments, v.Inside kinds S) →
        (∀ e, e ∈ c.activator? ∨ e ∈ c'.activator? → e.Inside kinds S) →
        (∃ instance? h₁, c.Prepares h instance? h₁) →
        (∃ instance? h₁, c'.Prepares h instance? h₁) →
        SameFrom kinds S h (c.call target h) (c'.call target h)) := by
  refine ⟨fun o h' ↦ ⟨fun hcall ↦ ?_, Ends.call_eq⟩, fun f h₁ hr ↦ ⟨?_, fun hnew ↦ ?_⟩,
    fun hs ↦ ⟨fun instance? h₁ ↦ call_static hs, ?_⟩⟩
  · have hends := ends_call c target h
    rwa [hcall] at hends
  · rw [hr.call_eq]
  · have hsame : ∀ {instance? : Option Value}, c.Prepares h instance? h₁ → h₁ = h := by
      intro instance? hc
      cases hc with
      | absent => rfl
      | @made e v _ hsome hmade =>
        cases hmade with
        | value => rfl
        | body => exact absurd hsome (hnew _ _)
    cases hr with
    | target hc | arguments hc => exact hsame hc
  · rintro kinds S ht hh c' hargs hin hactivator ⟨_, _, hc⟩ ⟨_, _, hc'⟩
    exact static_sameFrom hs ht hh hargs hin hactivator hc hc'

end Case

end TestDeclaration

import TestDeclaration.Proofs.Execution.Diagnostics
import TestDeclaration.Proofs.Execution.Independence
import TestDeclaration.Proofs.Plan.Construction

/-!
# What faults of a run come from

Over the standard units, the instance of a case can always be made, afresh and with all fields of
its type. So a fault of a run is one that its method raises on that instance and the arguments of
the case: what went wrong is told by its type, and it is never a check of native code.
-/

namespace TestDeclaration

variable {h h' : Heap} {S : Nat → Prop} {l : Library}

/-! ### Cases -/

/-- An instance of a case: what its activator makes in some heap, or none without an activator. -/
inductive Case.Makes (c : Case) : Option Value → Prop where
  | none : c.activator? = none → Makes c none
  | some {e : Expression} {v : Value} {h k : Heap} : c.activator? = some e →
      e.evaluate h = (.ok v, k) → Makes c (some v)

/-- An expression makes a sound value in every heap. -/
def Expression.Reliable (e : Expression) : Prop :=
  ∀ h, ∃ v k, e.evaluate h = (.ok v, k) ∧ v.Sound k

/-- The instance of a case can always be made, and its arguments are proper. -/
structure Case.Reliable (c : Case) : Prop where
  activator : ∀ e ∈ c.activator?, e.Reliable
  arguments : ∀ v ∈ c.arguments, v.Proper

/-- A constructor call that is found in a safe library is reliable. -/
theorem Expression.Resolved.reliable {e : Expression} {tested : TypeName}
    (he : e.Resolved l tested) (hl : l.Safe) (hin : e.Inside TypeName.IsDeclared S) :
    e.Reliable := by
  intro h
  cases hin with
  | @value v hv => exact ⟨v, h, rfl, Value.sound_of_asObject? hv⟩
  | construct _ hargs =>
    obtain ⟨type, -, hc⟩ := he
    have hfits := Library.fits_of_constructor? hc fun v hv ↦ (hargs v hv).proper
    obtain ⟨v, k, hv, hsound, -⟩ := Constructor.Safe.construct (hl.constructor? hc) hfits h
    exact ⟨v, k, hv, hsound⟩

/-- A call that raises does so on an instance of the case. -/
theorem Case.Reliable.raises_of_call {c : Case} (hc : c.Reliable) {target : Callable}
    (ht : target.Safe) {f : Fault} (hf : (c.call target h).1 = .thrown f) :
    ∃ target?, c.Makes target? ∧ target.Raises target? c.arguments f := by
  unfold Case.call at hf
  cases hactivator : c.activator? with
  | none =>
    rw [hactivator] at hf
    refine ⟨none, .none hactivator, Callable.Safe.invoke ht hc.arguments ?_ hf⟩
    rintro _ ⟨⟩
  | some e =>
    obtain ⟨v, k, hv, hsound⟩ := hc.activator e hactivator h
    rw [hactivator] at hf
    simp only [hv] at hf
    refine ⟨some v, .some hactivator hv, Callable.Safe.invoke ht hc.arguments ?_ hf⟩
    rintro _ ⟨⟩
    exact hsound

/-! ### Plans -/

/-- What holds of each call wherever it is made holds of a run. -/
theorem Ran.forall₂ {P : Callable × Case → CaseResult → Prop}
    {calls : List (Callable × Case)} {results : List CaseResult} (hran : Ran h calls results h')
    (hP : ∀ call ∈ calls, ∀ h, P call ((call.2.run call.1).run h).1) :
    List.Forall₂ P calls results := by
  induction hran with
  | nil => exact .nil
  | @cons call _ _ h _ _ ih =>
    exact .cons (hP call List.mem_cons_self h) (ih fun c hc ↦ hP c (.tail _ hc))

/-- The calls of a plan that was read over safe units are safe and reliable. -/
theorem Plan.reliable_of_read {heap : Heap} {tokens : List Token} {plan : Plan} {d : Draft}
    (hread : Plan.read .standard tokens (.start .initial heap) = (.ok plan, d)) :
    ∀ call ∈ plan.calls, call.1.Safe ∧ call.2.Reliable := by
  obtain ⟨S, -, hinside⟩ :=
    inside_of_read Library.contained_initial (fun _ _ ↦ Loader.contained_standard) hread
  obtain ⟨hresolved, rfl⟩ := resolved_draft_of_read hread
  have hl : d.library.Safe := safe_of_read Library.safe_initial hread
  intro call hcall
  obtain ⟨g, hg, hcall⟩ := List.mem_flatMap.mp hcall
  obtain ⟨t, ht, hcall⟩ := List.mem_flatMap.mp hcall
  obtain ⟨c, hc, rfl⟩ := List.mem_map.mp hcall
  have hin := (hinside g hg t ht).cases c hc
  have htest := hresolved.tests t (List.mem_flatMap.mpr ⟨g, hg, ht⟩)
  refine ⟨hl.callable? htest.target, ?_, fun v hv ↦ (hin.arguments v hv).proper⟩
  intro e he
  exact (htest.cases c hc e he).reliable hl (hin.activator e he)

namespace Run

/-- Over the standard units no constructor fails while a source is read, and the type of a fault
tells its cause. -/
theorem causes_of_results (source : String) :
    (∀ e, results .standard .initial source = .error (.plan e) →
      ∀ f, e.problem ≠ .constructorFault f) ∧
    ∀ r, results .standard .initial source = .ok r →
      ∃ tokens plan d, Token.lex source = .ok tokens ∧
        Plan.read .standard tokens (.start .initial .empty) = (.ok plan, d) ∧
        (r.groups, r.heap) = plan.run d.heap ∧
        List.Forall₂ (fun call result ↦ ∀ f, result.outcome = .thrown f →
            (∃ target?, call.2.Makes target? ∧ call.1.Tells target? call.2.arguments f) ∧
            ¬ f.OfCheck)
          plan.calls (caseResults r.groups) := by
  constructor
  · intro e h
    obtain ⟨_, h, -⟩ | ⟨tokens, _, d, ⟨⟩, -, hread⟩ := error_of_results h
    · cases h
    · exact Plan.ne_constructorFault_of_read Library.safe_initial hread
  · intro r h
    obtain ⟨tokens, plan, d, hlex, hread, hrun⟩ := ok_of_results h
    have hcalls := Plan.reliable_of_read hread
    refine ⟨tokens, plan, d, hlex, hread, hrun, ?_⟩
    rw [show r.groups = (plan.run d.heap).1 from congrArg Prod.fst hrun]
    refine (plan.ran d.heap).forall₂ fun call hcall h f hf ↦ ?_
    obtain ⟨hsafe, hreliable⟩ := hcalls call hcall
    obtain ⟨target?, hmakes, hraises⟩ := hreliable.raises_of_call hsafe hf
    exact ⟨⟨target?, hmakes, hraises.tells⟩, hraises.not_ofCheck⟩

/-- A declaration that asks for two characters behind the first of two. -/
def beyondTheEnd : String :=
  "do string -> Substring: on \"ab\": case(1, 2) throws ArgumentFault;"

/-- A `do` alone is not read, for a reason of its own. Characters beyond the end of a string are an
argument fault, and it is the method that finds it. -/
theorem causes_of_beyondTheEnd :
    (∃ e, results .standard .initial "do" = .error (.plan e) ∧
      ∀ f, e.problem ≠ .constructorFault f) ∧
    ∃ (r : Results) (f : Fault) (target : Callable) (c : Case) (target? : Option Value),
      results .standard .initial beyondTheEnd = .ok r ∧
      (caseResults r.groups).map CaseResult.outcome = [.thrown f] ∧
      c.Makes target? ∧ target.ArgumentFault target? c.arguments f ∧ ¬ f.OfCheck := by
  constructor
  · have hlex : Token.lex "do" = .ok [⟨.keyword .perform, ⟨⟨0, 1, 1⟩, 2⟩⟩] := by decide +kernel
    have herror : results .standard .initial "do" =
        .error (.plan ⟨.grammar .typeName, ⟨⟨2, 1, 3⟩, 0⟩⟩) := by
      rw [results, hlex]
      rfl
    exact ⟨_, herror, (causes_of_results "do").1 _ herror⟩
  · have hlex : Token.lex beyondTheEnd =
        .ok [⟨.keyword .perform, ⟨⟨0, 1, 1⟩, 2⟩⟩, ⟨.identifier "string", ⟨⟨3, 1, 4⟩, 6⟩⟩,
          ⟨.symbol .arrow, ⟨⟨10, 1, 11⟩, 2⟩⟩, ⟨.identifier "Substring", ⟨⟨13, 1, 14⟩, 9⟩⟩,
          ⟨.symbol .colon, ⟨⟨22, 1, 23⟩, 1⟩⟩, ⟨.keyword .onTarget, ⟨⟨24, 1, 25⟩, 2⟩⟩,
          ⟨.literal (.string "ab"), ⟨⟨27, 1, 28⟩, 4⟩⟩, ⟨.symbol .colon, ⟨⟨31, 1, 32⟩, 1⟩⟩,
          ⟨.keyword .testCase, ⟨⟨33, 1, 34⟩, 4⟩⟩, ⟨.symbol .leftParen, ⟨⟨37, 1, 38⟩, 1⟩⟩,
          ⟨.literal (.int 1), ⟨⟨38, 1, 39⟩, 1⟩⟩, ⟨.symbol .comma, ⟨⟨39, 1, 40⟩, 1⟩⟩,
          ⟨.literal (.int 2), ⟨⟨41, 1, 42⟩, 1⟩⟩, ⟨.symbol .rightParen, ⟨⟨42, 1, 43⟩, 1⟩⟩,
          ⟨.keyword .throws, ⟨⟨44, 1, 45⟩, 6⟩⟩, ⟨.identifier "ArgumentFault", ⟨⟨51, 1, 52⟩, 13⟩⟩,
          ⟨.symbol .semicolon, ⟨⟨64, 1, 65⟩, 1⟩⟩] := by
      decide +kernel
    have hresults : ∃ r, results .standard .initial beyondTheEnd = .ok r ∧
        (caseResults r.groups).map CaseResult.outcome =
          [.thrown (.argument "Index and length must refer to a location within the string")] := by
      rw [results, hlex]
      exact ⟨_, rfl, rfl⟩
    obtain ⟨r, hr, houtcome⟩ := hresults
    obtain ⟨_, plan, d, -, -, -, hcalls⟩ := (causes_of_results beyondTheEnd).2 r hr
    obtain ⟨result, hresult, hthrown⟩ := List.map_eq_singleton_iff.mp houtcome
    rw [hresult] at hcalls
    obtain ⟨call, _, hcall, -⟩ := List.forall₂_cons_right_iff.mp hcalls
    obtain ⟨⟨target?, hmakes, htells⟩, hcheck⟩ := hcall _ hthrown
    exact ⟨r, _, call.1, call.2, target?, hr, houtcome, hmakes, htells.argument rfl, hcheck⟩

end Run

end TestDeclaration

import TestDeclaration.Proofs.CodeUnit.Containment

/-!
# Native code that only looks

Most native code looks at its arguments and ends with a scalar or a fault. Such code is quiet: it
leaves the heap alone, and without objects among the arguments it ends the same in every heap.
Quiet code is closed under sequencing. Code that makes an object at its end, after a quiet part,
makes the same object everywhere.
-/

namespace TestDeclaration

/-- A type that is no primitive. -/
def TypeName.IsDeclared : TypeName → Prop
  | .declared _ => True
  | .primitive _ => False

namespace Native

variable {α β : Type} {kinds : TypeName → Prop} {R : Pairing} {h k : Heap} {args : List Value}

/-- How a sequence is performed: a fault of its first part ends it. -/
theorem perform_bind (x : Native α) (f : α → Native β) (h : Heap) :
    (x >>= f).perform h = match x.perform h with
      | (.ok a, k) => (f a).perform k
      | (.error e, k) => (.error e, k) := by
  have hrun : (x >>= f).run h = (ExceptT.bindCont f (x.run h).1).run (x.run h).2 := rfl
  unfold perform
  rw [hrun]
  obtain ⟨_ | a, k⟩ := x.run h <;> rfl

/-- What may be missing is returned or raised, and the heap stays. -/
theorem perform_orRaise (a? : Option α) (f : Fault) (h : Heap) :
    (orRaise a? f).perform h = (a?.elim (.error f) .ok, h) := by
  cases a? <;> rfl

/-- Code that reads the heap goes on with the heap it is performed in. -/
theorem perform_get_bind (f : Heap → Native α) (h : Heap) :
    (get >>= f : Native α).perform h = (f h).perform h := rfl

/-! ### Ends without objects -/

/-- A result of some kind, or a fault without further fields. -/
inductive Plain (post : α → Prop) : Except Fault α → Prop where
  | ok {a : α} : post a → Plain post (.ok a)
  | error {f : Fault} : f.extra = [] → Plain post (.error f)

/-- Two pieces of code, performed in two heaps, leave them alone and end the same, without objects
in their faults. -/
def Agree (post : α → Prop) (h k : Heap) (x y : Native α) : Prop :=
  ∃ o, Plain post o ∧ x.perform h = (o, h) ∧ y.perform k = (o, k)

/-- Faults without further fields are the same as themselves. -/
theorem alike_of_extra_eq_nil {f : Fault} (hf : f.extra = []) : f.Alike kinds R f := by
  refine ⟨rfl, rfl, ?_⟩
  rw [hf]
  exact .nil

namespace Agree

variable {post : α → Prop} {post' : β → Prop} {x y : Native α}

/-- Code agrees if its first part does and the rest does for each result. -/
theorem bind (hx : Agree post h k x y) {f g : α → Native β}
    (hf : ∀ a, post a → Agree post' h k (f a) (g a)) : Agree post' h k (x >>= f) (y >>= g) := by
  obtain ⟨o, ho, hx, hy⟩ := hx
  cases ho with
  | @ok a ha =>
    obtain ⟨o', ho', hf, hg⟩ := hf a ha
    refine ⟨o', ho', ?_, ?_⟩
    · rw [perform_bind, hx]
      exact hf
    · rw [perform_bind, hy]
      exact hg
  | @error e he =>
    refine ⟨.error e, .error he, ?_, ?_⟩
    · rw [perform_bind, hx]
    · rw [perform_bind, hy]

/-- Code that agrees tracks, if its results are the same as themselves. -/
theorem tracks (hx : Agree post h k x y) (hc : h.Corresponds kinds R k)
    {same : Pairing → α → α → Prop} (hpost : ∀ a, post a → same R a a) :
    Tracks kinds R same h k (x.perform h) (y.perform k) := by
  obtain ⟨o, ho, hx, hy⟩ := hx
  rw [hx, hy]
  refine ⟨R, .refl R h k, hc, ?_⟩
  cases ho with
  | ok ha => exact .ok (hpost _ ha)
  | error he => exact .error (alike_of_extra_eq_nil he)

/-- Code that agrees at first tracks if it does from there on. -/
theorem bind_tracks (hx : Agree post h k x y) (hc : h.Corresponds kinds R k)
    {same : Pairing → β → β → Prop} {f g : α → Native β}
    (hf : ∀ a, post a → Tracks kinds R same h k ((f a).perform h) ((g a).perform k)) :
    Tracks kinds R same h k ((x >>= f).perform h) ((y >>= g).perform k) := by
  obtain ⟨o, ho, hx, hy⟩ := hx
  rw [perform_bind, perform_bind, hx, hy]
  cases ho with
  | ok ha => exact hf _ ha
  | error he => exact ⟨R, .refl R h k, hc, .error (alike_of_extra_eq_nil he)⟩

end Agree

/-! ### Quiet code -/

/-- Code leaves the heap alone. If there are no objects among some values, it ends the same in
every heap. -/
structure Quiet (args : List Value) (post : α → Prop) (x : Native α) : Prop where
  keeps : ∀ h, (x.perform h).2 = h
  agrees : (∀ v ∈ args, v.asObject? = none) → ∀ h k, Agree post h k x x

namespace Quiet

variable {post : α → Prop} {post' : β → Prop} {x : Native α}

/-- Returning is quiet. -/
theorem pure {a : α} (ha : post a) : Quiet args post (Pure.pure a) :=
  ⟨fun _ ↦ rfl, fun _ _ _ ↦ ⟨.ok a, .ok ha, rfl, rfl⟩⟩

private theorem raise {f : Fault} (hf : f.extra = []) : Quiet args post (Native.raise f) :=
  ⟨fun _ ↦ rfl, fun _ _ _ ↦ ⟨.error f, .error hf, rfl, rfl⟩⟩

/-- Something that may be missing is quiet, if the fault has no fields of its own. -/
theorem orRaise {a? : Option α} {f : Fault} (hf : f.extra = []) :
    Quiet args (fun _ ↦ True) (Native.orRaise a? f) := by
  cases a? with
  | none => exact raise hf
  | some a => exact pure trivial

/-- Quiet code that goes on quietly is quiet. -/
theorem bind (hx : Quiet args (fun _ ↦ True) x) {f : α → Native β}
    (hf : ∀ a, Quiet args post' (f a)) : Quiet args post' (x >>= f) where
  keeps h := by
    rw [perform_bind]
    have hk := hx.keeps h
    generalize x.perform h = p at hk ⊢
    obtain ⟨_ | a, k⟩ := p
    · exact hk
    · exact ((hf a).keeps k).trans hk
  agrees hargs h k := (hx.agrees hargs h k).bind fun a _ ↦ (hf a).agrees hargs h k

/-- Nothing follows a fault. -/
theorem raise_bind {f : Fault} (hf : f.extra = []) {g : α → Native β} :
    Quiet args post' (Native.raise f >>= g) :=
  ⟨fun _ ↦ rfl, fun _ _ _ ↦ ⟨.error f, .error hf, rfl, rfl⟩⟩

/-- A choice between quiet codes is quiet. -/
theorem ite {c : Prop} [Decidable c] {x y : Native α} (hx : Quiet args post x)
    (hy : Quiet args post y) : Quiet args post (if c then x else y) := by
  split
  · exact hx
  · exact hy

/-- The text of a value that is no object is the same in every heap. -/
theorem typedText_eq {v : Value} (hv : v.asObject? = none) (h k : Heap) :
    v.typedText h = v.typedText k := by
  cases v with
  | scalar s => simp only [Value.typedText, Value.text, Value.textTo]
  | type t => simp only [Value.typedText, Value.text, Value.textTo]
  | object r => cases hv

/-- Faulting with a text that is the same in every heap is quiet. -/
theorem faultIn {a? : Option α} {f : Heap → Fault} (hf : ∀ h, (f h).extra = [])
    (hsame : (∀ v ∈ args, v.asObject? = none) → ∀ h k, f h = f k) :
    Quiet args (fun _ ↦ True) (do let h ← get; Native.orRaise a? (f h)) where
  keeps h := by rw [perform_get_bind, perform_orRaise]
  agrees hargs h k := by
    unfold Agree
    rw [perform_get_bind, perform_get_bind, perform_orRaise, perform_orRaise, hsame hargs h k]
    refine ⟨_, ?_, rfl, rfl⟩
    cases a? with
    | none => exact .error (hf k)
    | some a => exact .ok trivial

/-- Looking at an argument is quiet. Only an object would be written out in a fault. -/
theorem argumentAs {kind : Primitive} {view? : Value → Option α} {index : Nat} :
    Quiet args (fun _ ↦ True) (Native.argumentAs kind view? args index) := by
  have hextra : ∀ message, (Fault.argument message).extra = [] := fun _ ↦ rfl
  unfold Native.argumentAs argument
  cases hv : args[index]? with
  | none => exact raise_bind (hextra _)
  | some v =>
    have hpure : ∀ f, (Native.orRaise (some v) f : Native Value) = Pure.pure v := fun _ ↦ rfl
    rw [hpure, pure_bind]
    apply faultIn (fun _ ↦ hextra _)
    intro hargs h k
    rw [typedText_eq (hargs v (List.mem_of_getElem? hv)) h k]

end Quiet

/-! ### Code that writes -/

/-- Code changes no objects but those at some addresses. -/
def Spares (own : Nat → Prop) (x : Native α) : Prop :=
  ∀ h : Heap, h.KeepsExcept own (x.perform h).2

namespace Spares

variable {own : Nat → Prop} {x : Native α}

/-- Code that leaves the heap as it is changes no objects. -/
theorem of_keeps (hx : ∀ h, (x.perform h).2 = h) : Spares own x := by
  intro h
  rw [hx]
  exact .refl own h

/-- Returning changes no objects. -/
theorem pure (a : α) : Spares own (Pure.pure a) := of_keeps fun _ ↦ rfl

/-- Raising or returning changes no objects. -/
theorem orRaise (a? : Option α) (f : Fault) : Spares own (Native.orRaise a? f) := by
  apply of_keeps
  intro h
  cases a? <;> rfl

/-- Code that changes only some objects, followed by such code, changes only these. -/
theorem bind (hx : Spares own x) {f : α → Native β} (hf : ∀ a, Spares own (f a)) :
    Spares own (x >>= f) := by
  intro h
  rw [perform_bind]
  have hk := hx h
  generalize x.perform h = p at hk ⊢
  obtain ⟨_ | a, k⟩ := p
  · exact hk
  · exact hk.trans (hf a k)

end Spares

/-! ### Code that reads -/

/-- Reading the heap leaves it alone. -/
theorem perform_read (view : Heap → Option α) (f : Fault) (h : Heap) :
    (do let h ← get; Native.orRaise (view h) f : Native α).perform h =
      ((view h).elim (.error f) .ok, h) := by
  rw [perform_get_bind, perform_orRaise]

/-- Reading the same in two heaps ends the same. -/
theorem agree_read {view view' : Heap → Option α} {f : Fault} (hf : f.extra = [])
    (hview : view h = view' k) :
    Agree (fun _ ↦ True) h k (do let h ← get; Native.orRaise (view h) f)
      (do let k ← get; Native.orRaise (view' k) f) := by
  refine ⟨_, ?_, perform_read view f h, hview ▸ perform_read view' f k⟩
  cases view h with
  | none => exact .error hf
  | some a => exact .ok trivial

/-! ### Code that makes an object -/

/-- Code makes one new object at its end, of scalars only. If there are no objects among some
values, it makes the same object in every heap. -/
structure Makes (args : List Value) (x : Native Value) : Prop where
  keeps : ∀ h : Heap, h.Keeps (x.perform h).2
  fresh : ∀ (h : Heap) (r : Ref), (x.perform h).1 = .ok (.object r) → h.objects.size ≤ r.address
  tracks : (∀ v ∈ args, v.asObject? = none) → ∀ {R : Pairing} {h k : Heap},
    h.Corresponds TypeName.IsDeclared R k → Tracks TypeName.IsDeclared R
      (Value.Alike TypeName.IsDeclared) h k (x.perform h) (x.perform k)

namespace Makes

/-- Fields without objects are the same as themselves. -/
theorem alike_of_scalars {fields : Fields} (hf : ∀ f ∈ fields, ∃ s, f.2 = .scalar s) :
    Fields.Alike kinds R fields fields := by
  apply List.forall₂_same.mpr
  intro f hmem
  obtain ⟨s, hs⟩ := hf f hmem
  rw [hs]
  exact ⟨rfl, .scalar s⟩

/-- One object of scalars is made. -/
theorem create {type : TypeName} (ht : type.IsDeclared) {fields : Fields}
    (hf : ∀ f ∈ fields, ∃ s, f.2 = .scalar s) : Makes args (Native.create type fields) where
  keeps h := Heap.keepsExcept_alloc _ h type fields
  fresh h r hr := by
    injection hr with hobject
    injection hobject with hobject
    exact Nat.le_of_eq (congrArg Ref.address hobject)
  tracks _ {R h k} hc := by
    obtain ⟨hR, hc'⟩ := hc.alloc (alike_of_scalars hf) type
    exact ⟨_, hR, hc', .ok (.object ht rfl (.inr ⟨rfl, rfl⟩))⟩

/-- Quiet code can stand in front of code that makes an object. -/
theorem bind {x : Native α} (hx : Quiet args (fun _ ↦ True) x) {f : α → Native Value}
    (hf : ∀ a, Makes args (f a)) : Makes args (x >>= f) where
  keeps h := by
    rw [perform_bind]
    have hk := hx.keeps h
    generalize x.perform h = p at hk ⊢
    obtain ⟨_ | a, k⟩ := p
    · rw [hk]
      exact .refl _ h
    · rw [show k = h from hk]
      exact (hf a).keeps h
  fresh h r := by
    rw [perform_bind]
    have hk := hx.keeps h
    generalize x.perform h = p at hk ⊢
    obtain ⟨_ | a, k⟩ := p
    · intro hr
      cases hr
    · rw [show k = h from hk]
      exact (hf a).fresh h r
  tracks hargs {R h k} hc :=
    (hx.agrees hargs h k).bind_tracks hc fun a _ ↦ (hf a).tracks hargs hc

/-- A choice between codes that make an object makes one. -/
theorem ite {c : Prop} [Decidable c] {x y : Native Value} (hx : Makes args x) (hy : Makes args y) :
    Makes args (if c then x else y) := by
  split
  · exact hx
  · exact hy

/-- Returning a new object from a method. -/
theorem tracks_some {x : Native Value} (hx : Makes args x) (hargs : ∀ v ∈ args, v.asObject? = none)
    (hc : h.Corresponds TypeName.IsDeclared R k) :
    Tracks TypeName.IsDeclared R (fun R ↦ Option.Rel (Value.Alike TypeName.IsDeclared R)) h k
      ((x >>= fun v ↦ Pure.pure (some v)).perform h)
      ((x >>= fun v ↦ Pure.pure (some v)).perform k) := by
  obtain ⟨R', hR, hc', hends⟩ := hx.tracks hargs hc
  rw [perform_bind, perform_bind]
  generalize x.perform h = p at hR hc' hends ⊢
  generalize x.perform k = q at hR hc' hends ⊢
  obtain ⟨_, h'⟩ := p
  obtain ⟨_, k'⟩ := q
  cases hends with
  | ok hv => exact ⟨R', hR, hc', .ok (.some hv)⟩
  | error hf => exact ⟨R', hR, hc', .error hf⟩

end Makes

end Native

/-! ### Calls -/

/-- Whether a parameter takes objects, if these have declared types. -/
def TypeName.takesObjects : TypeName → Bool
  | .declared _ => true
  | .primitive p => p == .object

section Arguments

variable {kinds : TypeName → Prop} {R : Pairing} {h k : Heap} {args args' : List Value}
  {parameters : List TypeName}

/-- A list of arguments is refused for their types, not for their identities. -/
theorem argumentRefusal?_eq (hargs : List.Forall₂ (Value.Alike kinds R) args args') :
    argumentRefusal? parameters args = argumentRefusal? parameters args' := by
  unfold argumentRefusal?
  rw [hargs.length_eq]
  congr 1
  induction hargs generalizing parameters with
  | nil => rfl
  | @cons v v' _ _ hv _ ih =>
    cases parameters with
    | nil => rfl
    | cons p rest =>
      simp only [List.zip_cons_cons, List.find?_cons, accepts, hv.typeName_eq]
      split
      · simp only [Option.map_some, hv.typeName_eq]
      · exact ih

/-- Arguments that are not refused fit their parameters. -/
theorem accepts_of_argumentRefusal? (hr : argumentRefusal? parameters args = none) :
    List.Forall₂ (fun p v ↦ accepts p v) parameters args := by
  unfold argumentRefusal? at hr
  split at hr
  · cases hr
  · next hlength =>
    rw [Option.map_eq_none_iff, List.find?_eq_none] at hr
    refine List.forall₂_iff_zip.mpr ⟨not_not.mp hlength, ?_⟩
    intro p v hmem
    simpa using hr (p, v) hmem

/-- A value that fits a parameter that takes no objects is the same only as itself. -/
theorem eq_of_accepts {p : TypeName} {v v' : Value} (hp : p.takesObjects = false)
    (ha : accepts p v) (hv : v.Alike TypeName.IsDeclared R v') : v = v' ∧ v.asObject? = none := by
  cases hv with
  | scalar | type => exact ⟨rfl, rfl⟩
  | @object r s ht _ _ =>
    unfold accepts at ha
    cases p with
    | declared => cases hp
    | primitive p =>
      have hne : ¬ r.type = .primitive p := by
        intro heq
        rw [heq] at ht
        exact ht
      simp [TypeName.takesObjects] at hp
      simp [hp, Value.typeName, hne] at ha

/-- Arguments that fit parameters that take no objects are the same only as themselves. -/
theorem arguments_eq (hp : ∀ p ∈ parameters, p.takesObjects = false)
    (hr : argumentRefusal? parameters args = none)
    (hargs : List.Forall₂ (Value.Alike TypeName.IsDeclared R) args args') :
    args = args' ∧ ∀ v ∈ args, v.asObject? = none := by
  have ha := accepts_of_argumentRefusal? hr
  clear hr
  induction hargs generalizing parameters with
  | nil => exact ⟨rfl, fun v hv ↦ absurd hv List.not_mem_nil⟩
  | @cons v v' _ _ hv _ ih =>
    cases ha with
    | @cons p _ rest _ ha hrest =>
      obtain ⟨rfl, hscalar⟩ := eq_of_accepts (hp p List.mem_cons_self) ha hv
      obtain ⟨rfl, hscalars⟩ := ih (fun p hmem ↦ hp p (.tail _ hmem)) hrest
      refine ⟨rfl, ?_⟩
      intro w hw
      rcases List.mem_cons.mp hw with rfl | hw
      · exact hscalar
      · exact hscalars w hw

end Arguments

/-- Refused calls track. -/
theorem tracks_refusal {kinds : TypeName → Prop} {R : Pairing} {h k : Heap} {α : Type}
    {same : Pairing → α → α → Prop} (hc : h.Corresponds kinds R k) (refusal : Refusal) :
    Tracks kinds R same h k (.error refusal.fault, h) (.error refusal.fault, k) := by
  refine ⟨R, .refl R h k, hc, .error (Native.alike_of_extra_eq_nil ?_)⟩
  cases refusal <;> rfl

/-- A constructor without object parameters that makes an object is contained. -/
theorem Constructor.contained_of_makes {c : Constructor}
    (hp : ∀ p ∈ c.parameters, p.takesObjects = false)
    (hm : ∀ args, Native.Makes args (c.body c.owner args)) :
    c.Contained TypeName.IsDeclared where
  keeps args h := by
    unfold construct
    split
    · exact .refl _ h
    · exact (hm args).keeps h
  fresh args h r := by
    unfold construct
    split
    · intro hr
      cases hr
    · exact (hm args).fresh h r
  tracks {R h k args args'} hc hargs := by
    unfold construct
    rw [← argumentRefusal?_eq hargs]
    cases hr : argumentRefusal? c.parameters args with
    | some refusal => exact tracks_refusal hc refusal
    | none =>
      obtain ⟨rfl, hscalars⟩ := arguments_eq hp hr hargs
      exact (hm args).tracks hscalars hc

namespace Callable

variable {kinds : TypeName → Prop} {R : Pairing} {h k : Heap} {c : Callable}
  {target? target'? : Option Value} {args args' : List Value}

/-- A call is refused for the types of its instance and arguments, not for their identities. -/
theorem refusal?_eq (ht : Option.Rel (Value.Alike kinds R) target? target'?)
    (hargs : List.Forall₂ (Value.Alike kinds R) args args') :
    c.refusal? target? args = c.refusal? target'? args' := by
  have htarget : c.targetRefusal? target? = c.targetRefusal? target'? := by
    unfold targetRefusal?
    cases c.method.receiver with
    | static => rfl
    | target =>
      cases ht with
      | none => rfl
      | some hv => simp only [hv.typeName_eq]
  unfold refusal?
  rw [htarget, argumentRefusal?_eq hargs]

/-- What the body of a method sees as its instance: nothing, or a value of the owner's type. -/
inductive Sees (c : Callable) : Option Value → Prop where
  | static : c.method.receiver = .static → Sees c none
  | target {v : Value} : c.method.receiver = .target → v.typeName = c.owner → Sees c (some v)

/-- A call that is not refused has fitting arguments, and an instance if it needs one. -/
theorem sees_of_refusal? (hr : c.refusal? target? args = none) :
    argumentRefusal? c.method.parameters args = none ∧ c.Sees (c.visibleTarget target?) := by
  unfold refusal? at hr
  simp only [Option.orElse_eq_orElse, Option.orElse_eq_or, Option.or_eq_none_iff] at hr
  refine ⟨hr.2, ?_⟩
  have ht := hr.1
  unfold targetRefusal? at ht
  unfold visibleTarget
  cases hreceiver : c.method.receiver with
  | static => exact .static hreceiver
  | target =>
    rw [hreceiver] at ht
    cases target? with
    | none => cases ht
    | some v =>
      simp only [ite_eq_left_iff, reduceCtorEq, imp_false, not_not] at ht
      exact .target hreceiver ht

private theorem alike_visibleTarget (ht : Option.Rel (Value.Alike kinds R) target? target'?) :
    Option.Rel (Value.Alike kinds R) (c.visibleTarget target?) (c.visibleTarget target'?) := by
  unfold visibleTarget
  split
  · exact .none
  · exact ht

/-- A method without object parameters is contained if its body is, on what it sees as its
instance and on scalars. -/
theorem contained_of_body (hp : ∀ p ∈ c.method.parameters, p.takesObjects = false)
    (hspares : ∀ target? args, Native.Spares (Value.IsAt target?) (c.method.body target? args))
    (htracks : ∀ {R : Pairing} {h k : Heap} {target? target'? : Option Value} {args : List Value},
      h.Corresponds TypeName.IsDeclared R k → c.Sees target? →
      Option.Rel (Value.Alike TypeName.IsDeclared R) target? target'? →
      (∀ v ∈ args, v.asObject? = none) →
      Tracks TypeName.IsDeclared R (fun R ↦ Option.Rel (Value.Alike TypeName.IsDeclared R)) h k
        ((c.method.body target? args).perform h) ((c.method.body target'? args).perform k)) :
    c.Contained TypeName.IsDeclared where
  keeps target? args h := by
    unfold invoke
    split
    · exact .refl _ h
    · apply (hspares (c.visibleTarget target?) args h).mono
      rintro a - ⟨r, hr, ha⟩
      unfold visibleTarget at hr
      split at hr
      · cases hr
      · exact ⟨r, hr, ha⟩
  tracks {R h k target? target'? args args'} hc ht hargs := by
    unfold invoke
    rw [← refusal?_eq ht hargs]
    cases hr : c.refusal? target? args with
    | some refusal => exact tracks_refusal hc refusal
    | none =>
      obtain ⟨hfit, hsees⟩ := sees_of_refusal? hr
      obtain ⟨rfl, hscalars⟩ := arguments_eq hp hfit hargs
      exact htracks hc hsees (alike_visibleTarget ht) hscalars

/-- A result without an object. -/
def Bare (result? : Option Value) : Prop := ∀ v ∈ result?, v.asObject? = none

/-- A bare result is like itself in every pairing. -/
theorem alike_of_bare {result? : Option Value} (hr : Bare result?) :
    Option.Rel (Value.Alike kinds R) result? result? := by
  cases result? with
  | none => exact .none
  | some v =>
    have hv := hr v rfl
    cases v with
    | scalar s => exact .some (.scalar s)
    | type t => exact .some (.type t)
    | object r => cases hv

/-- A quiet method is contained if it is called on no object. -/
theorem contained_of_quiet (hp : ∀ p ∈ c.method.parameters, p.takesObjects = false)
    (ho : c.method.receiver = .static ∨ ¬ c.owner.IsDeclared)
    (hq : ∀ target? args, Native.Quiet args Bare (c.method.body target? args)) :
    c.Contained TypeName.IsDeclared := by
  apply contained_of_body hp
  · intro target? args
    exact .of_keeps (hq target? args).keeps
  · intro R h k target? target'? args hc hsees ht hargs
    have heq : target? = target'? := by
      cases ht with
      | none => rfl
      | some hv =>
        cases hsees with
        | target hreceiver howner =>
          rcases ho with ho | ho
          · rw [hreceiver] at ho
            cases ho
          · rw [hv.eq_of_not_kinds (howner ▸ ho)]
    rw [heq]
    exact ((hq target'? args).agrees hargs h k).tracks hc fun r? hr ↦ alike_of_bare hr

/-- A method that is called on objects of a declared type is contained if its body is, on paired
objects and on scalars. -/
theorem contained_of_instance (hp : ∀ p ∈ c.method.parameters, p.takesObjects = false)
    (hreceiver : c.method.receiver = .target) (ho : c.owner.IsDeclared)
    (hspares : ∀ target? args, Native.Spares (Value.IsAt target?) (c.method.body target? args))
    (htracks : ∀ {R : Pairing} {h k : Heap} {r s : Ref} {args : List Value},
      h.Corresponds TypeName.IsDeclared R k → R r.address s.address →
      (∀ v ∈ args, v.asObject? = none) →
      Tracks TypeName.IsDeclared R (fun R ↦ Option.Rel (Value.Alike TypeName.IsDeclared R)) h k
        ((c.method.body (some (.object r)) args).perform h)
        ((c.method.body (some (.object s)) args).perform k)) :
    c.Contained TypeName.IsDeclared := by
  apply contained_of_body hp hspares
  intro R h k target? target'? args hc hsees ht hargs
  cases hsees with
  | static hstatic =>
    rw [hreceiver] at hstatic
    cases hstatic
  | target _ howner =>
    obtain ⟨hv⟩ := ht
    rw [← howner] at ho
    cases hv with
    | scalar | type => exact ho.elim
    | object _ _ ha => exact htracks hc ha hargs

end Callable

end TestDeclaration

import NetZer.Lib.Rust

/-! # Evaluation with a trace

A function that prints, writes and calls out as it goes: its evaluation is
the list of these events, in order, and how it ended. The events before a
panic have happened, so the trace survives it.
-/

namespace Rust

/-- The events of an evaluation and its end. -/
structure Traced (ε φ α : Type) where
  trace : List ε
  result : Eval φ α

namespace Traced

variable {ε φ α β γ : Type}

@[ext] theorem ext {x y : Traced ε φ α} (ht : x.trace = y.trace) (hr : x.result = y.result) :
    x = y := by
  cases x
  cases y
  cases ht
  cases hr
  rfl

/-- A panic ends the evaluation; the events so far stay. -/
instance : Monad (Traced ε φ) where
  pure a := ⟨[], .ok a⟩
  bind x f :=
    match x.result with
    | .ok a => ⟨x.trace ++ (f a).trace, (f a).result⟩
    | .error p => ⟨x.trace, .error p⟩

/-- An evaluation without events. -/
instance : MonadLift (Eval φ) (Traced ε φ) where
  monadLift x := ⟨[], x⟩

/-- One event. -/
def emit (e : ε) : Traced ε φ Unit := ⟨[e], .ok ()⟩

/-- One event, if a flag is set. -/
def emitIf (b : Bool) (e : ε) : Traced ε φ Unit :=
  if b then emit e else pure ()

/-! ## Running -/

@[simp] theorem trace_pure (a : α) : (pure a : Traced ε φ α).trace = [] := rfl

@[simp] theorem result_pure (a : α) : (pure a : Traced ε φ α).result = .ok a := rfl

@[simp] theorem trace_lift (x : Eval φ α) :
    (liftM x : Traced ε φ α).trace = [] := rfl

@[simp] theorem result_lift (x : Eval φ α) :
    (liftM x : Traced ε φ α).result = x := rfl

@[simp] theorem trace_emit (e : ε) : (emit e : Traced ε φ Unit).trace = [e] := rfl

@[simp] theorem result_emit (e : ε) : (emit e : Traced ε φ Unit).result = .ok () := rfl

@[simp] theorem trace_emitIf (b : Bool) (e : ε) :
    (emitIf b e : Traced ε φ Unit).trace = if b then [e] else [] := by
  cases b <;> rfl

@[simp] theorem result_emitIf (b : Bool) (e : ε) :
    (emitIf b e : Traced ε φ Unit).result = .ok () := by
  cases b <;> rfl

/-- After a part that returns, the rest runs on its value. -/
theorem bind_of_ok {x : Traced ε φ α} {a : α} (h : x.result = .ok a) (f : α → Traced ε φ β) :
    x >>= f = ⟨x.trace ++ (f a).trace, (f a).result⟩ := by
  simp only [bind, h]

/-- After a part that panics, nothing runs. -/
theorem bind_of_error {x : Traced ε φ α} {p : Panic φ} (h : x.result = .error p)
    (f : α → Traced ε φ β) : x >>= f = ⟨x.trace, .error p⟩ := by
  simp only [bind, h]

instance : LawfulMonad (Traced ε φ) := LawfulMonad.mk' _
  (by
    intro α x
    cases hx : x.result with
    | ok a => exact Traced.ext (by simp [Functor.map, hx]) (by simp [Functor.map, hx])
    | error p => exact Traced.ext (by simp [Functor.map, hx]) (by simp [Functor.map, hx]))
  (by
    intro α β a f
    rw [bind_of_ok rfl]
    exact Traced.ext rfl rfl)
  (by
    intro α β γ x f g
    cases hx : x.result with
    | error p =>
        -- nothing runs after the first part, on either side
        rw [bind_of_error hx, bind_of_error rfl, bind_of_error hx]
    | ok a =>
        rw [bind_of_ok hx, bind_of_ok hx]
        cases hf : (f a).result with
        | error p => rw [bind_of_error rfl, bind_of_error hf]
        | ok b =>
            rw [bind_of_ok rfl, bind_of_ok hf]
            simp)

@[simp] theorem trace_seq (x : Traced ε φ Unit) (a : α) :
    (do x; return a : Traced ε φ α).trace = x.trace := by
  cases hx : x.result with
  | error p => rw [bind_of_error hx]
  | ok u => rw [bind_of_ok hx, trace_pure, List.append_nil]

/-- A value returned behind a procedure is the value of the whole. -/
theorem returned_of_seq {x : Traced ε φ Unit} {a b : α}
    (h : (do x; return a : Traced ε φ α).result = .ok b) : b = a := by
  cases hx : x.result with
  | error p =>
      rw [bind_of_error hx] at h
      cases h
  | ok u =>
      rw [bind_of_ok hx] at h
      exact (Except.ok.inj h).symm

/-- A part that returns without events is its value. -/
@[simp] theorem lift_ok (a : α) :
    (liftM (.ok a : Eval φ α) : Traced ε φ α) = pure a := rfl

@[simp] theorem trace_emit_bind (e : ε) (f : Unit → Traced ε φ β) :
    (emit e >>= f).trace = e :: (f ()).trace := rfl

@[simp] theorem result_emit_bind (e : ε) (f : Unit → Traced ε φ β) :
    (emit e >>= f).result = (f ()).result := rfl

/-- Only the rest of a part without events leaves a trace, if it is reached. -/
theorem trace_lift_bind (x : Eval φ α) (f : α → Traced ε φ β) :
    ((liftM x : Traced ε φ α) >>= f).trace =
      match x with
      | .ok a => (f a).trace
      | .error _ => [] := by
  cases x <;> rfl

/-! ## What is emitted -/

/-- Every event of the evaluation satisfies `Q`. -/
def EmitsOnly (Q : ε → Prop) (x : Traced ε φ α) : Prop :=
  ∀ e ∈ x.trace, Q e

section

variable {Q : ε → Prop}

theorem EmitsOnly.pure (a : α) : EmitsOnly Q (Pure.pure a : Traced ε φ α) := by
  intro e he
  cases he

theorem EmitsOnly.lift (x : Eval φ α) : EmitsOnly Q (liftM x : Traced ε φ α) := by
  intro e he
  cases he

theorem EmitsOnly.emit {e : ε} (h : Q e) : EmitsOnly Q (Traced.emit e : Traced ε φ Unit) := by
  intro e' he'
  rw [trace_emit, List.mem_singleton] at he'
  exact he' ▸ h

theorem EmitsOnly.emitIf {e : ε} (b : Bool) (h : Q e) :
    EmitsOnly Q (Traced.emitIf b e : Traced ε φ Unit) := by
  cases b with
  | true => exact .emit h
  | false => exact .pure ()

theorem EmitsOnly.bind {x : Traced ε φ α} {f : α → Traced ε φ β} (hx : EmitsOnly Q x)
    (hf : ∀ a, EmitsOnly Q (f a)) : EmitsOnly Q (x >>= f) := by
  cases h : x.result with
  | error p =>
      rw [bind_of_error h]
      exact hx
  | ok a =>
      rw [bind_of_ok h]
      intro e he
      rcases List.mem_append.mp he with he | he
      · exact hx e he
      · exact hf a e he

theorem EmitsOnly.ite {c : Prop} [Decidable c] {x y : Traced ε φ α} (hx : EmitsOnly Q x)
    (hy : EmitsOnly Q y) : EmitsOnly Q (if c then x else y) := by
  split
  · exact hx
  · exact hy

/-- A view that shows none of the events shows nothing. -/
theorem EmitsOnly.filterMap_eq_nil {δ : Type} (view : ε → Option δ) {x : Traced ε φ α}
    (h : EmitsOnly Q x) (hview : ∀ e, Q e → view e = none) : x.trace.filterMap view = [] :=
  List.filterMap_eq_nil_iff.mpr fun e he => hview e (h e he)

end

/-! ## Two evaluations -/

/-- The evaluations look alike to an observer who sees a part of each event,
or nothing of it, and how they end. -/
structure AgreeOn {δ : Type} (view : ε → Option δ) (x y : Traced ε φ α) : Prop where
  trace : x.trace.filterMap view = y.trace.filterMap view
  result : x.result = y.result

section

variable {δ : Type} {view : ε → Option δ} {x y z : Traced ε φ α}

theorem AgreeOn.refl (x : Traced ε φ α) : AgreeOn view x x := ⟨rfl, rfl⟩

theorem AgreeOn.symm (h : AgreeOn view x y) : AgreeOn view y x :=
  ⟨h.trace.symm, h.result.symm⟩

theorem AgreeOn.trans (hxy : AgreeOn view x y) (hyz : AgreeOn view y z) : AgreeOn view x z :=
  ⟨hxy.trace.trans hyz.trace, hxy.result.trans hyz.result⟩

/-- Agreement is a matter of the two views only. -/
theorem AgreeOn.congr {x' y' : Traced ε φ α} (hx : AgreeOn view x x') (hy : AgreeOn view y y') :
    AgreeOn view x y ↔ AgreeOn view x' y' :=
  ⟨fun h => hx.symm.trans (h.trans hy), fun h => hx.trans (h.trans hy.symm)⟩

theorem AgreeOn.emit {e e' : ε} (h : view e = view e') :
    AgreeOn view (Traced.emit e : Traced ε φ Unit) (Traced.emit e') :=
  ⟨by simp [List.filterMap_cons, h], rfl⟩

theorem AgreeOn.emitIf {b : Bool} {e e' : ε} (h : view e = view e') :
    AgreeOn view (Traced.emitIf b e : Traced ε φ Unit) (Traced.emitIf b e') := by
  cases b with
  | true => exact .emit h
  | false => exact .refl _

theorem AgreeOn.bind {f g : α → Traced ε φ β} (h : AgreeOn view x y)
    (hfg : ∀ a, AgreeOn view (f a) (g a)) : AgreeOn view (x >>= f) (y >>= g) := by
  cases hx : x.result with
  | error p =>
      -- both end here, with the same panic
      rw [bind_of_error hx, bind_of_error (h.result ▸ hx)]
      exact ⟨h.trace, rfl⟩
  | ok a =>
      rw [bind_of_ok hx, bind_of_ok (h.result ▸ hx)]
      exact ⟨by simp only [List.filterMap_append, h.trace, (hfg a).trace], (hfg a).result⟩

/-- A part that returns and shows nothing can be left out. -/
theorem AgreeOn.skip {a : α} {f : α → Traced ε φ β} (hx : x.result = .ok a)
    (hview : ∀ e ∈ x.trace, view e = none) : AgreeOn view (x >>= f) (f a) := by
  rw [bind_of_ok hx]
  exact ⟨by simp [List.filterMap_eq_nil_iff.mpr hview], rfl⟩

/-- A coarser view agrees as well. -/
theorem AgreeOn.coarsen {γ : Type} (coarse : ε → Option γ) (g : δ → Option γ)
    (hg : ∀ e, (view e).bind g = coarse e) (h : AgreeOn view x y) : AgreeOn coarse x y := by
  have hmap : ∀ l : List ε, l.filterMap coarse = (l.filterMap view).filterMap g := by
    intro l
    rw [List.filterMap_filterMap]
    exact List.filterMap_congr fun e _ => (hg e).symm
  exact ⟨by rw [hmap, hmap, h.trace], h.result⟩

/-- What comes first of what is seen is the same. -/
theorem AgreeOn.head (h : AgreeOn view x y) :
    (x.trace.filterMap view).head? = (y.trace.filterMap view).head? := by
  rw [h.trace]

/-- Whether two procedures agree does not depend on a value returned behind
both. -/
theorem AgreeOn.return_iff {x y : Traced ε φ Unit} {a : α} :
    AgreeOn view (do x; return a) (do y; return a) ↔ AgreeOn view x y := by
  constructor
  · intro h
    cases hx : x.result with
    | error p =>
        rw [bind_of_error hx] at h
        cases hy : y.result with
        | error q =>
            rw [bind_of_error hy] at h
            have hpq : p = q := Except.error.inj h.result
            exact ⟨h.trace, by rw [hx, hy, hpq]⟩
        | ok u =>
            rw [bind_of_ok hy] at h
            cases h.result
    | ok u =>
        rw [bind_of_ok hx] at h
        cases hy : y.result with
        | error q =>
            rw [bind_of_error hy] at h
            cases h.result
        | ok v =>
            rw [bind_of_ok hy] at h
            exact ⟨by simpa using h.trace, by rw [hx, hy]⟩
  · intro h
    exact h.bind fun _ => .refl _

end

/-! ## Two evaluations with different values -/

/-- The evaluations look alike to an observer, and end with related values or
with the same panic. -/
structure Related {δ : Type} (view : ε → Option δ) (R : α → β → Prop) (x : Traced ε φ α)
    (y : Traced ε φ β) : Prop where
  trace : x.trace.filterMap view = y.trace.filterMap view
  result : (∃ a b, x.result = .ok a ∧ y.result = .ok b ∧ R a b) ∨
    ∃ p, x.result = .error p ∧ y.result = .error p

section

variable {δ α' β' : Type} {view : ε → Option δ} {R : α → β → Prop}

theorem Related.pure {a : α} {b : β} (h : R a b) :
    Related view R (Pure.pure a : Traced ε φ α) (Pure.pure b) :=
  ⟨rfl, Or.inl ⟨a, b, rfl, rfl, h⟩⟩

/-- An evaluation beside itself. -/
theorem Related.refl {R : α → α → Prop} (hR : ∀ a, R a a) (x : Traced ε φ α) :
    Related view R x x := by
  refine ⟨rfl, ?_⟩
  cases hx : x.result with
  | ok a => exact Or.inl ⟨a, a, rfl, rfl, hR a⟩
  | error p => exact Or.inr ⟨p, rfl, rfl⟩

/-- A part without events that both evaluate. -/
theorem Related.lift (x : Eval φ α) :
    Related view (· = ·) (liftM x : Traced ε φ α) (liftM x) :=
  .refl (fun _ => rfl) _

/-- Events that look alike. -/
theorem Related.emit {e e' : ε} (h : view e = view e') :
    Related view (· = ·) (Traced.emit e : Traced ε φ Unit) (Traced.emit e') := by
  refine ⟨?_, Or.inl ⟨(), (), rfl, rfl, rfl⟩⟩
  simp only [trace_emit, List.filterMap_cons, h]

/-- A flag that differs switches events that are not seen. -/
theorem Related.emitIf {b b' : Bool} {e e' : ε}
    (h : b = b' ∧ view e = view e' ∨ view e = none ∧ view e' = none) :
    Related view (· = ·) (Traced.emitIf b e : Traced ε φ Unit) (Traced.emitIf b' e') := by
  refine ⟨?_, Or.inl ⟨(), (), result_emitIf b e, result_emitIf b' e', rfl⟩⟩
  rw [trace_emitIf, trace_emitIf]
  rcases h with ⟨rfl, hseen⟩ | ⟨hunseen, hunseen'⟩
  · cases b with
    | true => simp only [if_true, List.filterMap_cons, hseen]
    | false => rfl
  · cases b <;> cases b' <;> simp [hunseen, hunseen']

theorem Related.bind {Q : α' → β' → Prop} {x : Traced ε φ α} {y : Traced ε φ β}
    {f : α → Traced ε φ α'} {g : β → Traced ε φ β'} (h : Related view R x y)
    (hfg : ∀ a b, R a b → Related view Q (f a) (g b)) :
    Related view Q (x >>= f) (y >>= g) := by
  rcases h with ⟨htrace, ⟨a, b, hx, hy, hab⟩ | ⟨p, hx, hy⟩⟩
  · rw [bind_of_ok hx, bind_of_ok hy]
    refine ⟨?_, (hfg a b hab).result⟩
    simp only [List.filterMap_append, htrace, (hfg a b hab).trace]
  · -- both end here, with the same panic
    rw [bind_of_error hx, bind_of_error hy]
    exact ⟨htrace, Or.inr ⟨p, rfl, rfl⟩⟩

/-- The same part first, and then what depends on its value. -/
theorem Related.bindEq {Q : α' → β' → Prop} {x y : Traced ε φ α} {f : α → Traced ε φ α'}
    {g : α → Traced ε φ β'} (h : Related view (· = ·) x y)
    (hfg : ∀ a, Related view Q (f a) (g a)) : Related view Q (x >>= f) (y >>= g) := by
  refine h.bind ?_
  rintro a b rfl
  exact hfg a

/-- A part that returns and shows nothing can be there or not. -/
theorem Related.of_silent {x : Traced ε φ α} {y : Traced ε φ β} {a : α} {b : β}
    (hx : x.result = .ok a) (hy : y.result = .ok b) (hxs : x.trace.filterMap view = [])
    (hys : y.trace.filterMap view = []) (h : R a b) : Related view R x y :=
  ⟨hxs.trans hys.symm, Or.inl ⟨a, b, hx, hy, h⟩⟩

end

/-! ## Where panics can come from -/

/-- Every panic of the evaluation satisfies `P`. -/
def PanicsOnly (P : Panic φ → Prop) (x : Traced ε φ α) : Prop :=
  Rust.PanicsOnly P x.result

section

variable {P : Panic φ → Prop}

theorem PanicsOnly.pure (a : α) : PanicsOnly P (Pure.pure a : Traced ε φ α) :=
  Rust.PanicsOnly.pure a

theorem PanicsOnly.emit (e : ε) : PanicsOnly P (Traced.emit e : Traced ε φ Unit) :=
  .of_eq_ok rfl

theorem PanicsOnly.emitIf (b : Bool) (e : ε) :
    PanicsOnly P (Traced.emitIf b e : Traced ε φ Unit) :=
  .of_eq_ok (result_emitIf b e)

theorem PanicsOnly.lift {x : Eval φ α} (h : Rust.PanicsOnly P x) :
    PanicsOnly P (liftM x : Traced ε φ α) := h

/-- A part without events that returns. -/
theorem PanicsOnly.lift_ok {x : Eval φ α} (h : ∃ a, x = .ok a) :
    PanicsOnly P (liftM x : Traced ε φ α) :=
  .lift (.of_returns h)

theorem PanicsOnly.bind {x : Traced ε φ α} {f : α → Traced ε φ β} (hx : PanicsOnly P x)
    (hf : ∀ a, x.result = .ok a → PanicsOnly P (f a)) : PanicsOnly P (x >>= f) := by
  cases h : x.result with
  | error p =>
      rw [bind_of_error h]
      intro q hq
      have hpq : p = q := Except.error.inj hq
      exact hx q (hpq ▸ h)
  | ok a =>
      rw [bind_of_ok h]
      exact hf a h

theorem PanicsOnly.ite {c : Prop} [Decidable c] {x y : Traced ε φ α} (hx : PanicsOnly P x)
    (hy : PanicsOnly P y) : PanicsOnly P (if c then x else y) := by
  split
  · exact hx
  · exact hy

end

end Traced

end Rust

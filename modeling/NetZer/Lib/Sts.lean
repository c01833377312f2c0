import Mathlib.Data.List.Basic

/-! # Transition systems

Safety reasoning over runs: a system is an initial predicate and a next-state
relation, and a property is proved of every reachable state by an inductive
invariant. A refinement maps every reachable state of a concrete system to a
reachable state of an abstract one, so an invariant proved above is one below.
`Ledger` is the run law of a component that takes items in, keeps some and
hands the rest out; inputs that do not concern each other are answered as if
the others were not there.
-/

/-- A transition system: initial states and steps. -/
structure Sts (σ : Type*) where
  init : σ → Prop
  next : σ → σ → Prop

namespace Sts

variable {σ τ : Type*}

/-- The states reached by finitely many steps from an initial one. -/
inductive Reachable (S : Sts σ) : σ → Prop where
  | init {s : σ} : S.init s → Reachable S s
  | step {s t : σ} : Reachable S s → S.next s t → Reachable S t

/-- Invariant induction: what holds initially and survives every step holds
of every reachable state. -/
theorem Reachable.invariant {S : Sts σ} (inv : σ → Prop)
    (hinit : ∀ s, S.init s → inv s)
    (hstep : ∀ s t, inv s → S.next s t → inv t) :
    ∀ {s}, S.Reachable s → inv s := by
  intro s hs
  induction hs with
  | init h => exact hinit _ h
  | step _ hn ih => exact hstep _ _ ih hn

/-! ## Systems with events -/

/-- The system whose steps take an event each, out of those allowed in the
state; an event that is not enabled there has no step. -/
def ofEvents {ε : Type*} (start : σ) (step : σ → ε → Option σ) (allowed : σ → ε → Prop) :
    Sts σ where
  init s := s = start
  next s t := ∃ e, allowed s e ∧ step s e = some t

/-- A list of events, one after the other. -/
theorem Reachable.events {ε : Type*} {start : σ} {step : σ → ε → Option σ}
    {allowed : σ → ε → Prop} {es : List ε} (hall : ∀ e ∈ es, ∀ s, allowed s e) :
    ∀ {s t : σ}, (ofEvents start step allowed).Reachable s → es.foldlM step s = some t →
      (ofEvents start step allowed).Reachable t := by
  induction es with
  | nil =>
      intro s t hs hrun
      cases hrun
      exact hs
  | cons e es ih =>
      intro s t hs hrun
      rw [List.foldlM_cons] at hrun
      rcases Option.bind_eq_some_iff.mp hrun with ⟨u, hu, hrest⟩
      have hstep : (ofEvents start step allowed).Reachable u :=
        .step hs ⟨e, hall e (by simp) s, hu⟩
      exact ih (fun d hd => hall d (by simp [hd])) hstep hrest

/-! ## Refinement -/

/-- A refinement mapping: under the concrete invariant, every concrete step is
an abstract step or leaves the abstract state unchanged. -/
structure Refinement (C : Sts σ) (A : Sts τ) (inv : σ → Prop) (f : σ → τ) : Prop where
  init : ∀ s, C.init s → A.init (f s)
  step : ∀ s t, inv s → C.next s t → A.next (f s) (f t) ∨ f t = f s

/-- The image of a reachable concrete state is reachable. -/
theorem Refinement.reachable {C : Sts σ} {A : Sts τ} {inv : σ → Prop} {f : σ → τ}
    (hr : Refinement C A inv f) (hinv : ∀ {s}, C.Reachable s → inv s) :
    ∀ {s}, C.Reachable s → A.Reachable (f s) := by
  intro s hs
  induction hs with
  | init h => exact .init (hr.init _ h)
  | @step s t hs hn ih =>
    rcases hr.step s t (hinv hs) hn with h | h
    · exact .step ih h
    · rw [h]
      exact ih

end Sts

/-- A component that consumes inputs and produces outputs, seen through the
items each of them carries. -/
structure Ledger (σ ι ο β : Type*) where
  step : σ → ι → σ × ο
  held : σ → List β
  taken : ι → List β
  given : ο → List β

namespace Ledger

variable {σ ι ο β : Type*}

/-- Run the component over a list of inputs, collecting its outputs in order. -/
def run (L : Ledger σ ι ο β) (s : σ) : List ι → σ × List ο
  | [] => (s, [])
  | i :: is =>
      let (s', o) := L.step s i
      let (s'', os) := L.run s' is
      (s'', o :: os)

/-- One step conserves its items: what was held and came in is what went out
and is still held, in that order. -/
def Conserves (L : Ledger σ ι ο β) : Prop :=
  ∀ s i, L.given (L.step s i).2 ++ L.held (L.step s i).1 = L.held s ++ L.taken i

/-- A conserving step conserves over whole runs. -/
theorem Conserves.run {L : Ledger σ ι ο β} (h : L.Conserves) (s : σ) (is : List ι) :
    (L.run s is).2.flatMap L.given ++ L.held (L.run s is).1 =
      L.held s ++ is.flatMap L.taken := by
  induction is generalizing s with
  | nil => simp [Ledger.run]
  | cons i is ih =>
      have hrest := ih (L.step s i).1
      have hstep := h s i
      simp only [Ledger.run, List.flatMap_cons]
      rw [List.append_assoc, hrest, ← List.append_assoc, hstep, List.append_assoc]

/-! ## Inputs that do not concern each other -/

/-- Unwinding: a relation between a run over all inputs and a run over some of
them. The inputs left out do not disturb it, and on the others related states
answer alike and stay related. Then these inputs get the answers they would
get alone. -/
theorem run_filter (L : Ledger σ ι ο β) (p : ι → Bool) (R : σ → σ → Prop)
    (hother : ∀ s t i, R s t → p i = false → R (L.step s i).1 t)
    (hown : ∀ s t i, R s t → p i = true →
      (L.step s i).2 = (L.step t i).2 ∧ R (L.step s i).1 (L.step t i).1)
    (is : List ι) :
    ∀ s t, R s t →
      ((is.zip (L.run s is).2).filter fun e => p e.1).map Prod.snd = (L.run t (is.filter p)).2 := by
  induction is with
  | nil =>
      intro s t _
      rfl
  | cons i is ih =>
      intro s t hst
      cases hp : p i with
      | false =>
          -- only the full run takes a step
          have hrest := ih _ _ (hother s t i hst hp)
          simpa [run, hp] using hrest
      | true =>
          rcases hown s t i hst hp with ⟨hanswer, hst'⟩
          have hrest := ih _ _ hst'
          simpa [run, hp, hanswer] using hrest

end Ledger

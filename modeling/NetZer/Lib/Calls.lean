import Mathlib.Logic.Basic

/-! # Programs that make calls

A program as the tree of its calls: it has returned, or it makes a call and
goes on as the answer says. With a table of answers and the effect of a call
on a state, it can be run to its end, or one call at a time, so that other
things may happen to the state in between.

`Through` is the program logic: an assertion about every state on the way, and
one about the end.
-/

/-- A program with calls in `κ`, answers in `ρ` and results in `α`. -/
inductive Calls (κ ρ α : Type) where
  | ret (a : α)
  | call (c : κ) (rest : ρ → Calls κ ρ α)

namespace Calls

variable {κ ρ α β σ : Type}

/-- Run a program, and go on with its result. -/
def bind : Calls κ ρ α → (α → Calls κ ρ β) → Calls κ ρ β
  | ret a, f => f a
  | call c rest, f => call c fun r => (rest r).bind f

/-- The calls with their answers, and the result. -/
def run (answer : κ → ρ) : Calls κ ρ α → List (κ × ρ) × α
  | ret a => ([], a)
  | call c rest =>
      let (calls, a) := (rest (answer c)).run answer
      ((c, answer c) :: calls, a)

@[simp] theorem run_ret (answer : κ → ρ) (a : α) :
    (ret a : Calls κ ρ α).run answer = ([], a) := rfl

@[simp] theorem run_call (answer : κ → ρ) (c : κ) (rest : ρ → Calls κ ρ α) :
    (call c rest).run answer =
      ((c, answer c) :: ((rest (answer c)).run answer).1, ((rest (answer c)).run answer).2) := rfl

/-! ## Assertions -/

/-- From this state on, every state on the way satisfies `P`, and the last one
together with the result satisfies `Q`. -/
def Through (answer : κ → ρ) (effect : σ → κ → ρ → σ) (P : σ → Prop) (Q : σ → α → Prop) (s : σ) :
    Calls κ ρ α → Prop
  | ret a => P s ∧ Q s a
  | call c rest =>
      P s ∧ (rest (answer c)).Through answer effect P Q (effect s c (answer c))

section

variable {answer : κ → ρ} {effect : σ → κ → ρ → σ} {P : σ → Prop}

theorem Through.now {Q : σ → α → Prop} {s : σ} {p : Calls κ ρ α}
    (h : p.Through answer effect P Q s) : P s := by
  cases p with
  | ret a => exact h.1
  | call c rest => exact h.1

/-- What is left after a call. -/
theorem Through.step {Q : σ → α → Prop} {s : σ} {c : κ} {rest : ρ → Calls κ ρ α}
    (h : (call c rest).Through answer effect P Q s) :
    (rest (answer c)).Through answer effect P Q (effect s c (answer c)) :=
  h.2

/-- Sequencing: the second part starts where the first one ends. -/
theorem Through.bind {Q : σ → α → Prop} {R : σ → β → Prop} {f : α → Calls κ ρ β}
    {p : Calls κ ρ α} (hrest : ∀ s a, P s → Q s a → (f a).Through answer effect P R s) :
    ∀ {s : σ}, p.Through answer effect P Q s → (p.bind f).Through answer effect P R s := by
  induction p with
  | ret a =>
      intro s h
      exact hrest s a h.1 h.2
  | call c rest ih =>
      intro s h
      exact ⟨h.1, ih (answer c) h.2⟩

end

end Calls

import Mathlib.Order.WellFounded
import NetZer.Lib.Sts

/-! # Behaviors under fairness

Liveness: what a system does sooner or later. A behavior goes on for ever, and
each of its steps is one of the system or leaves the state as it is. Weak
fairness of an action says that it is not put off for ever while it could be
taken; it is always a premise and never part of a system. Progress is measured
by a rank in a well-founded order, and the induction on the rank is made once,
here.
-/

namespace Sts

variable {σ : Type*} {S : Sts σ}

/-- A run that goes on for ever, and may rest at any time. -/
structure Behavior (S : Sts σ) where
  state : Nat → σ
  init : S.init (state 0)
  step : ∀ n, S.next (state n) (state (n + 1)) ∨ state (n + 1) = state n

/-- The action has a step from the state. -/
def Enabled (action : σ → σ → Prop) (s : σ) : Prop :=
  ∃ t, action s t

namespace Behavior

variable (b : S.Behavior)

/-- Weak fairness: an action that is enabled from some time on is taken later. -/
def Fair (action : σ → σ → Prop) : Prop :=
  ∀ n, (∀ m, n ≤ m → Enabled action (b.state m)) →
    ∃ m, n ≤ m ∧ action (b.state m) (b.state (m + 1))

/-- Whenever `P` holds, `Q` holds then or later. -/
def LeadsTo (P Q : σ → Prop) : Prop :=
  ∀ n, P (b.state n) → ∃ m, n ≤ m ∧ Q (b.state m)

theorem reachable (n : Nat) : S.Reachable (b.state n) := by
  induction n with
  | zero => exact .init b.init
  | succ n ih =>
      rcases b.step n with hstep | hsame
      · exact ih.step hstep
      · rw [hsame]
        exact ih

/-- A run that has come to a state can go on from it in any way the steps allow. -/
theorem exists_through {s : σ} (hs : S.Reachable s) :
    ∀ later : Nat → σ, later 0 = s →
      (∀ n, S.next (later n) (later (n + 1)) ∨ later (n + 1) = later n) →
      ∃ (b : S.Behavior) (k : Nat), ∀ n, b.state (k + n) = later n := by
  induction hs with
  | init hinit =>
      intro later hfirst hlater
      exact ⟨⟨later, hfirst ▸ hinit, hlater⟩, 0, fun n => by rw [Nat.zero_add]⟩
  | @step s t _ hnext ih =>
      intro later hfirst hlater
      let earlier : Nat → σ := fun
        | 0 => s
        | n + 1 => later n
      have hearlier : ∀ n, S.next (earlier n) (earlier (n + 1)) ∨ earlier (n + 1) = earlier n := by
        intro n
        cases n with
        | zero =>
            left
            show S.next s (later 0)
            rw [hfirst]
            exact hnext
        | succ n => exact hlater n
      rcases ih earlier rfl hearlier with ⟨b, k, hb⟩
      refine ⟨b, k + 1, fun n => ?_⟩
      rw [Nat.add_assoc, Nat.add_comm 1 n]
      exact hb (n + 1)

/-- A run whose steps are chosen turn by turn. -/
def scheduled {ι : Type*} (turn : Nat → ι) (f : ι → σ → σ) (s : σ) : Nat → σ
  | 0 => s
  | n + 1 => f (turn n) (scheduled turn f s n)

/-- A scheduler that gives every action its turn again and again, and takes it
there if it can: fairness asks for nothing that a run could not do from where
it is. -/
theorem exists_fair_through {ι : Type*} {s : σ} (hs : S.Reachable s) (turn : Nat → ι)
    (hturn : ∀ i n, ∃ m, n ≤ m ∧ turn m = i) (action : ι → σ → σ → Prop) (f : ι → σ → σ)
    (hnext : ∀ i s, S.next s (f i s) ∨ f i s = s)
    (htakes : ∀ i s, Enabled (action i) s → action i s (f i s)) :
    ∃ (b : S.Behavior) (k : Nat), (∀ i, b.Fair (action i)) ∧
      ∀ n, b.state (k + n) = scheduled turn f s n := by
  rcases exists_through hs (scheduled turn f s) rfl (fun n => hnext _ _) with ⟨b, k, hb⟩
  refine ⟨b, k, ?_, hb⟩
  intro i n henabled
  rcases hturn i n with ⟨m, hnm, hi⟩
  have hm : n ≤ k + m := Nat.le_add_left_of_le hnm
  refine ⟨k + m, hm, ?_⟩
  have htaken := htakes i _ (henabled (k + m) hm)
  have hafter : b.state (k + m + 1) = f i (b.state (k + m)) := by
    rw [Nat.add_assoc, hb (m + 1), hb m, scheduled, hi]
  rw [hafter]
  exact htaken

/-- Events one after the other, and then nothing more. -/
theorem exists_of_events {ε : Type*} {start : σ} {step : σ → ε → Option σ}
    {allowed : σ → ε → Prop} {es : List ε} {t : σ} (hall : ∀ e ∈ es, ∀ s, allowed s e)
    (hrun : es.foldlM step start = some t) :
    ∃ b : (ofEvents start step allowed).Behavior,
      ∀ n, (es.take n).foldlM step start = some (b.state n) := by
  have hsome : ∀ n, ∃ s, (es.take n).foldlM step start = some s := by
    intro n
    rw [← List.take_append_drop n es, List.foldlM_append] at hrun
    rcases Option.bind_eq_some_iff.mp hrun with ⟨s, hs, _⟩
    exact ⟨s, hs⟩
  choose state hstate using hsome
  refine ⟨⟨state, ?_, ?_⟩, hstate⟩
  · exact (Option.some.inj (hstate 0)).symm
  · intro n
    have hafter := hstate (n + 1)
    by_cases hn : n < es.length
    · rw [List.take_add_one, List.getElem?_eq_getElem hn, List.foldlM_append, hstate n] at hafter
      left
      refine ⟨es[n], hall _ (List.getElem_mem hn) _, ?_⟩
      simpa using hafter
    · rw [List.take_of_length_le (by omega), ← List.take_of_length_le (Nat.le_of_not_lt hn),
        hstate n] at hafter
      exact Or.inr (Option.some.inj hafter).symm

/-- What every step keeps or extends is kept or extended over any time. -/
theorem extends_of_step {r : σ → σ → Prop} (hrefl : ∀ s, r s s)
    (htrans : ∀ s t u, r s t → r t u → r s u)
    (hstep : ∀ s t, S.Reachable s → S.next s t → r s t) {n m : Nat} (h : n ≤ m) :
    r (b.state n) (b.state m) := by
  induction h with
  | refl => exact hrefl _
  | @step m _ ih =>
      rcases b.step m with hnext | hsame
      · exact htrans _ _ _ ih (hstep _ _ (b.reachable m) hnext)
      · rw [hsame]
        exact ih

section

variable {b} {P Q : σ → Prop}

/-- What is enabled until it is taken is taken. -/
theorem Fair.taken {action : σ → σ → Prop} (hfair : b.Fair action)
    (henabled : ∀ s, S.Reachable s → P s → Enabled action s)
    (hkeep : ∀ s t, S.Reachable s → P s → S.next s t → P t ∨ action s t) {n : Nat}
    (hp : P (b.state n)) :
    ∃ m, n ≤ m ∧ P (b.state m) ∧ action (b.state m) (b.state (m + 1)) := by
  by_contra hnever
  have hstays : ∀ m, n ≤ m → P (b.state m) := by
    intro m hm
    induction hm with
    | refl => exact hp
    | @step m hm ih =>
        rcases b.step m with hnext | hsame
        · rcases hkeep _ _ (b.reachable m) ih hnext with hp' | htaken
          · exact hp'
          · exact absurd ⟨m, hm, ih, htaken⟩ hnever
        · rw [hsame]
          exact ih
  rcases hfair n (fun m hm => henabled _ (b.reachable m) (hstays m hm)) with ⟨m, hm, htaken⟩
  exact hnever ⟨m, hm, hstays m hm, htaken⟩

/-- Progress by a rank: as long as `Q` has not come, `P` stays, the fair action
is enabled and lowers the rank, and no other step raises it. -/
theorem leadsTo_of_rank {α : Type*} [Preorder α] [WellFoundedLT α] {action : σ → σ → Prop}
    (rank : σ → α) (hfair : b.Fair action)
    (henabled : ∀ s, S.Reachable s → P s → Enabled action s)
    (hstep : ∀ s t, S.Reachable s → P s → S.next s t → Q t ∨ P t ∧ rank t ≤ rank s)
    (hprogress : ∀ s t, S.Reachable s → P s → action s t → Q t ∨ rank t < rank s) :
    b.LeadsTo P Q := by
  have hmain : ∀ a : α, ∀ n, rank (b.state n) = a → P (b.state n) →
      ∃ m, n ≤ m ∧ Q (b.state m) := by
    intro a
    induction a using WellFoundedLT.induction with
    | ind a ih =>
      intro n hrank hp
      by_contra hnever
      have hno : ∀ m, n ≤ m → ¬ Q (b.state m) := by
        intro m hm hq
        exact hnever ⟨m, hm, hq⟩
      -- until the action is taken
      have hwait : ∀ m, n ≤ m → P (b.state m) ∧ rank (b.state m) ≤ a := by
        intro m hm
        induction hm with
        | refl => exact ⟨hp, le_of_eq hrank⟩
        | @step m hm ihm =>
            rcases b.step m with hnext | hsame
            · rcases hstep _ _ (b.reachable m) ihm.1 hnext with hq | ⟨hp', hle⟩
              · exact absurd hq (hno _ (Nat.le_succ_of_le hm))
              · exact ⟨hp', hle.trans ihm.2⟩
            · rw [hsame]
              exact ihm
      rcases hfair n (fun m hm => henabled _ (b.reachable m) (hwait m hm).1) with ⟨m, hm, htaken⟩
      have hm' : n ≤ m + 1 := Nat.le_succ_of_le hm
      rcases hprogress _ _ (b.reachable m) (hwait m hm).1 htaken with hq | hlt
      · exact hno _ hm' hq
      · rcases ih _ (hlt.trans_le (hwait m hm).2) (m + 1) rfl (hwait _ hm').1 with ⟨k, hk, hq⟩
        exact hno k (Nat.le_trans hm' hk) hq
  intro n hp
  exact hmain _ n rfl hp

end

/-! ## Components -/

/-- What a refinement shows of a behavior is a behavior. -/
def map {τ : Type*} {A : Sts τ} {inv : σ → Prop} {f : σ → τ} (hr : Refinement S A inv f)
    (hinv : ∀ {s}, S.Reachable s → inv s) (b : S.Behavior) : A.Behavior where
  state n := f (b.state n)
  init := hr.init _ b.init
  step := by
    intro n
    rcases b.step n with hnext | hsame
    · exact hr.step _ _ (hinv (b.reachable n)) hnext
    · exact Or.inr (congrArg f hsame)

end Behavior

end Sts

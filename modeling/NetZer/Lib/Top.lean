import Mathlib.Data.List.Basic

/-! # The first of the greatest

A pass over a list that keeps the item with the greatest score, and replaces it
only by one with a greater score. It starts with no item, which a score of zero
does not replace.
-/

namespace Top

variable {α : Type*} (score : α → Nat)

def scoreOf (top : Option α) : Nat :=
  top.elim 0 score

/-- One item of the pass. -/
def keep (top : Option α) (a : α) : Option α :=
  if scoreOf score top < score a then some a else top

def best (l : List α) : Option α :=
  l.foldl (keep score) none

/-- The item is the first of the greatest of the list. -/
def FirstMax (l : List α) (a : α) : Prop :=
  ∃ before after, l = before ++ a :: after ∧ (∀ b ∈ before, score b < score a) ∧
    ∀ b ∈ after, score b ≤ score a

variable {score}

theorem FirstMax.le {l : List α} {a b : α} (h : FirstMax score l a) (hb : b ∈ l) :
    score b ≤ score a := by
  rcases h with ⟨before, after, rfl, hbefore, hafter⟩
  rcases List.mem_append.mp hb with hb | hb
  · exact Nat.le_of_lt (hbefore b hb)
  · rcases List.mem_cons.mp hb with rfl | hb
    · exact Nat.le_refl _
    · exact hafter b hb

theorem FirstMax.mem {l : List α} {a : α} (h : FirstMax score l a) : a ∈ l := by
  rcases h with ⟨before, after, rfl, -, -⟩
  exact List.mem_append_right _ List.mem_cons_self

theorem FirstMax.concat_le {l : List α} {a b : α} (h : FirstMax score l a)
    (hb : score b ≤ score a) : FirstMax score (l ++ [b]) a := by
  rcases h with ⟨before, after, rfl, hbefore, hafter⟩
  refine ⟨before, after ++ [b], by simp, hbefore, ?_⟩
  intro c hc
  rcases List.mem_append.mp hc with hc | hc
  · exact hafter c hc
  · rw [List.mem_singleton.mp hc]
    exact hb

/-- What the pass knows of the list it has seen. -/
def Seen (score : α → Nat) (l : List α) : Option α → Prop
  | none => ∀ b ∈ l, score b = 0
  | some a => 0 < score a ∧ FirstMax score l a

theorem Seen.keep {l : List α} {top : Option α} (h : Seen score l top) (a : α) :
    Seen score (l ++ [a]) (keep score top a) := by
  unfold Top.keep
  split_ifs with hlt
  · -- a greater one: all that were seen are smaller
    refine ⟨Nat.zero_lt_of_lt hlt, l, [], rfl, ?_, by simp⟩
    intro b hb
    cases top with
    | none =>
        rw [h b hb]
        exact hlt
    | some t => exact Nat.lt_of_le_of_lt (h.2.le hb) hlt
  · have hle := Nat.le_of_not_lt hlt
    cases top with
    | none =>
        intro b hb
        rcases List.mem_append.mp hb with hb | hb
        · exact h b hb
        · rw [List.mem_singleton.mp hb]
          exact Nat.eq_zero_of_le_zero hle
    | some t => exact ⟨h.1, h.2.concat_le hle⟩

/-- The pass keeps the first of the greatest, if there is one above zero. -/
theorem seen_best (l : List α) : Seen score l (best score l) := by
  have hpass : ∀ (rest seen : List α) (top : Option α), Seen score seen top →
      Seen score (seen ++ rest) (rest.foldl (keep score) top) := by
    intro rest
    induction rest with
    | nil =>
        intro seen top h
        rw [List.append_nil]
        exact h
    | cons a rest ih =>
        intro seen top h
        rw [List.append_cons]
        exact ih _ _ (h.keep a)
  exact hpass l [] none (by intro b hb; cases hb)

end Top

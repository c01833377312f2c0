import Mathlib.Data.List.Induction
import Mathlib.Data.List.TakeDrop

/-! # Pages and windows

A list shown in pages of `n` items, the last of them perhaps shorter, which are
numbered from 1; and a list of the last `n` items of a sequence, which an item
enters at one end while one leaves it at the other.
-/

namespace Pages

variable {α : Type*} {n k : Nat} {l : List α}

/-- How many pages there are. -/
def count (n : Nat) (l : List α) : Nat :=
  (l.length + n - 1) / n

def page (n : Nat) (l : List α) (k : Nat) : List α :=
  (l.drop ((k - 1) * n)).take n

/-- A page begins inside the list. -/
theorem lt_count_iff (hn : 0 < n) : k < count n l ↔ k * n < l.length := by
  rw [count, Nat.lt_div_iff_mul_lt hn]
  omega

theorem count_pos_iff (hn : 0 < n) : 0 < count n l ↔ l ≠ [] := by
  rw [lt_count_iff hn, Nat.zero_mul, List.length_pos_iff]

/-- The pages there are are those with something on them. -/
theorem page_ne_nil_iff (hn : 0 < n) (hk : 1 ≤ k) : page n l k ≠ [] ↔ k ≤ count n l := by
  have hlt : k ≤ count n l ↔ k - 1 < count n l := by omega
  rw [hlt, lt_count_iff hn, page, Ne, List.take_eq_nil_iff, List.drop_eq_nil_iff]
  omega

@[simp] theorem page_nil (n k : Nat) : page n ([] : List α) k = [] := by
  simp [page]

/-- The first pages, one after the other, are the beginning of the list. -/
theorem flatMap_page_take (n : Nat) (l : List α) (m : Nat) :
    ((List.range m).flatMap fun k => page n l (k + 1)) = l.take (m * n) := by
  induction m with
  | zero => simp
  | succ m ih =>
      rw [List.range_succ, List.flatMap_append, ih, List.flatMap_singleton, Nat.succ_mul,
        List.take_add]
      rfl

/-- All of the pages are the list: each item is on one page, in order. -/
theorem flatMap_page (hn : 0 < n) (l : List α) :
    ((List.range (count n l)).flatMap fun k => page n l (k + 1)) = l := by
  rw [flatMap_page_take]
  apply List.take_of_length_le
  have hlast : ¬ count n l * n < l.length := fun h => absurd ((lt_count_iff hn).mpr h) (by omega)
  omega

/-! ## Turning pages -/

/-- A page forward or back, if there is one. -/
inductive Turn where
  | next
  | prev
deriving DecidableEq, Repr

def turn (count k : Nat) : Turn → Nat
  | .next => if k < count then k + 1 else k
  | .prev => if 1 < k then k - 1 else k

/-- From any page back to the first. -/
theorem foldl_prev {c k : Nat} (hk : 1 ≤ k) :
    (List.replicate (k - 1) Turn.prev).foldl (turn c) k = 1 := by
  obtain ⟨m, rfl⟩ : ∃ m, k = m + 1 := ⟨k - 1, by omega⟩
  rw [Nat.add_sub_cancel]
  clear hk
  induction m with
  | zero => rfl
  | succ m ih =>
      have hback : turn c (m + 1 + 1) .prev = m + 1 := by
        rw [turn, if_pos (by omega), Nat.add_sub_cancel]
      rw [List.replicate_succ, List.foldl_cons, hback]
      exact ih

/-- From the first page forward to any. -/
theorem foldl_next {c m : Nat} (hm : m < c) :
    (List.replicate m Turn.next).foldl (turn c) 1 = m + 1 := by
  induction m with
  | zero => rfl
  | succ m ih =>
      rw [List.replicate_succ', List.foldl_append, ih (by omega)]
      exact if_pos hm

end Pages

/-! ## The last items -/

namespace Slide

variable {α : Type*}

/-- `push` at one end, `shift` at the other. -/
def slide (window : List α) (a : α) : List α :=
  window.drop 1 ++ [a]

/-- The last `n` items. -/
def last (n : Nat) (l : List α) : List α :=
  l.drop (l.length - n)

theorem length_last (n : Nat) (l : List α) : (last n l).length = min n l.length := by
  rw [last, List.length_drop]
  omega

/-- One item more. -/
theorem slide_last {n : Nat} {l : List α} (hn : 0 < n) (hlen : n ≤ l.length) (a : α) :
    slide (last n l) a = last n (l ++ [a]) := by
  have hstart : (l ++ [a]).length - n = l.length - n + 1 := by
    rw [List.length_append, List.length_singleton]
    omega
  rw [slide, last, last, List.drop_drop, hstart, List.drop_append_of_le_length (by omega)]

/-- What is in front of enough items is not among the last. -/
theorem last_append {n : Nat} (front : List α) {l : List α} (h : n ≤ l.length) :
    last n (front ++ l) = last n l := by
  rw [last, last, List.length_append, Nat.add_sub_assoc h, List.drop_append]
  simp

/-- A shorter window shows the end of a longer one. -/
theorem last_last {m n : Nat} (h : m ≤ n) (l : List α) : last m (last n l) = last m l := by
  rw [last, length_last, last, last, List.drop_drop]
  congr 1
  omega

end Slide

import Mathlib.Data.List.Infix
import Mathlib.Data.Nat.ModEq
import NetZer.Lib.Sts

/-! # Rings of slots

A ring of `n` slots between a producer and a consumer: the producer fills the
slots in turn, the consumer empties them in turn, and each sees the state of
one slot only. The items handed over count from 0; item `i` goes through slot
`i % n`. `Window` says that the full slots are those of the items between the
two counts, so what either side sees of its slot tells it how the counts stand.

`Channel` is what such a ring is for: what comes out is what went in, in order.
-/

/-- The slots of the items from `tail` up to `head` are full, and no others. -/
structure Window (n : Nat) (full : Nat → Prop) (tail head : Nat) : Prop where
  le : tail ≤ head
  fits : head ≤ tail + n
  full_iff : ∀ b, b < n → (full b ↔ ∃ i, tail ≤ i ∧ i < head ∧ i % n = b)

namespace Window

variable {n tail head : Nat} {full full' : Nat → Prop}

/-- Two items less than a round apart have different slots. -/
theorem slot_inj {i j : Nat} (hij : i ≤ j) (hj : j < i + n) (h : i % n = j % n) : i = j := by
  have hdvd : n ∣ j - i := (Nat.modEq_iff_dvd' hij).mp h
  have hzero : j - i = 0 := Nat.eq_zero_of_dvd_of_lt hdvd (by omega)
  omega

theorem slot_inj_of_mem (h : Window n full tail head) {i j : Nat} (hi : tail ≤ i ∧ i < head)
    (hj : tail ≤ j ∧ j < head) (hij : i % n = j % n) : i = j := by
  have hfits := h.fits
  rcases Nat.le_total i j with hle | hle
  · exact slot_inj hle (by omega) hij
  · exact (slot_inj hle (by omega) hij.symm).symm

/-- Initially all slots are empty. -/
theorem empty (h : ∀ b, b < n → ¬ full b) : Window n full 0 0 := by
  refine ⟨Nat.le_refl _, Nat.zero_le _, fun b hb => iff_of_false (h b hb) ?_⟩
  rintro ⟨i, _, hi, _⟩
  omega

/-- The consumer finds its slot full only if there is an item for it. -/
theorem lt_of_full (h : Window n full tail head) (hn : 0 < n) (hfull : full (tail % n)) :
    tail < head := by
  rcases (h.full_iff _ (Nat.mod_lt _ hn)).mp hfull with ⟨i, hi, hlt, _⟩
  omega

/-- The producer finds its slot empty only if there is room. -/
theorem room (h : Window n full tail head) (hn : 0 < n) (hfree : ¬ full (head % n)) :
    head < tail + n := by
  -- a full round is out, so the producer's slot is the consumer's, which is full
  by_contra hge
  have hle := h.le
  have hfits := h.fits
  have hhead : head = tail + n := by omega
  refine hfree ((h.full_iff _ (Nat.mod_lt _ hn)).mpr ⟨tail, Nat.le_refl _, by omega, ?_⟩)
  rw [hhead, Nat.add_mod_right]

/-- The slot of an item in the window is not the producer's, if that is empty. -/
theorem slot_ne_head (h : Window n full tail head) (hn : 0 < n) (hfree : ¬ full (head % n))
    {i : Nat} (hi : tail ≤ i) (hlt : i < head) : i % n ≠ head % n := by
  intro heq
  exact hfree ((h.full_iff _ (Nat.mod_lt _ hn)).mpr ⟨i, hi, hlt, heq⟩)

/-- The slot of a later item is not the consumer's. -/
theorem slot_ne_tail (h : Window n full tail head) {i : Nat} (hi : tail < i) (hlt : i < head) :
    i % n ≠ tail % n := by
  intro heq
  have := h.slot_inj_of_mem ⟨Nat.le_of_lt hi, hlt⟩ ⟨Nat.le_refl tail, by omega⟩ heq
  omega

/-- The slots are read as before. -/
theorem congr (h : Window n full tail head) (hfull : ∀ b, b < n → (full' b ↔ full b)) :
    Window n full' tail head :=
  ⟨h.le, h.fits, fun b hb => (hfull b hb).trans (h.full_iff b hb)⟩

/-- The producer fills its slot. -/
theorem put (h : Window n full tail head) (hn : 0 < n) (hfree : ¬ full (head % n))
    (hfull : ∀ b, b < n → (full' b ↔ b = head % n ∨ full b)) :
    Window n full' tail (head + 1) := by
  have hroom := h.room hn hfree
  have hle := h.le
  refine ⟨by omega, by omega, fun b hb => ?_⟩
  rw [hfull b hb, h.full_iff b hb]
  constructor
  · rintro (rfl | ⟨i, hi, hlt, rfl⟩)
    · exact ⟨head, hle, by omega, rfl⟩
    · exact ⟨i, hi, by omega, rfl⟩
  · rintro ⟨i, hi, hlt, rfl⟩
    by_cases heq : i = head
    · exact Or.inl (by rw [heq])
    · exact Or.inr ⟨i, hi, by omega, rfl⟩

/-- The consumer empties its slot. -/
theorem take (h : Window n full tail head) (hlt : tail < head)
    (hfull : ∀ b, b < n → (full' b ↔ full b ∧ b ≠ tail % n)) :
    Window n full' (tail + 1) head := by
  have hfits := h.fits
  refine ⟨by omega, by omega, fun b hb => ?_⟩
  rw [hfull b hb, h.full_iff b hb]
  constructor
  · rintro ⟨⟨i, hi, hilt, rfl⟩, hne⟩
    have hitail : i ≠ tail := by
      intro heq
      exact hne (by rw [heq])
    exact ⟨i, by omega, hilt, rfl⟩
  · rintro ⟨i, hi, hilt, rfl⟩
    exact ⟨⟨i, by omega, hilt, rfl⟩, h.slot_ne_tail (by omega) hilt⟩

end Window

/-! ## Channels -/

/-- What went into a channel and what has come out of it. -/
structure Channel (β : Type*) where
  sent : List β
  received : List β

namespace Channel

variable {β : Type*}

/-- Items go in at the end, any number at a time. -/
inductive Step : Channel β → Channel β → Prop where
  | send (c : Channel β) (items : List β) : Step c { c with sent := c.sent ++ items }
  | receive (c : Channel β) (item : β) : c.sent[c.received.length]? = some item →
      Step c { c with received := c.received ++ [item] }

/-- A reliable first-in first-out channel, empty at first. -/
def fifo : Sts (Channel β) where
  init c := c.sent = [] ∧ c.received = []
  next := Step

/-- What has come out is a prefix of what went in. -/
theorem received_prefix {c : Channel β} (h : fifo.Reachable c) : c.received <+: c.sent := by
  refine h.invariant (fun c => c.received <+: c.sent) ?_ ?_
  · rintro c ⟨hsent, hreceived⟩
    rw [hsent, hreceived]
  · rintro c c' ⟨rest, hrest⟩ hstep
    cases hstep with
    | send items => exact ⟨rest ++ items, by simp [← hrest]⟩
    | receive item hitem =>
        -- the item is the first of those that are still in the channel
        rw [← hrest, List.getElem?_append_right (Nat.le_refl _), Nat.sub_self] at hitem
        cases rest with
        | nil => simp at hitem
        | cons item' rest =>
            simp only [List.getElem?_cons_zero, Option.some.injEq] at hitem
            exact ⟨rest, by simp [← hrest, hitem]⟩

end Channel

import Mathlib.Algebra.GroupWithZero.Nat
import Mathlib.Data.List.Basic
import NetZer.Lib.Bytes
import NetZer.Lib.Rust

/-! # Codecs

A codec writes values as bytes and reads a value off the front of a byte list.
Reading is exact: it succeeds on the lists that begin with a written value, and
on no others. So what is read is determined by the list, and a list falls apart
into values and a rest that begins with none in one way only.

Byte strings that are preceded by their length have a codec, and so have pairs
of what has one. A loop that moves over a buffer value by value is a walk along
the values read off it.
-/

namespace Bytes

structure Codec (α : Type) where
  write : α → List UInt8
  read : List UInt8 → Option (α × List UInt8)
  read_eq_some_iff : ∀ {l a rest}, read l = some (a, rest) ↔ l = write a ++ rest
  write_ne_nil : ∀ a, write a ≠ []

namespace Codec

variable {α β : Type} (C : Codec α)

theorem read_append (a : α) (rest : List UInt8) : C.read (C.write a ++ rest) = some (a, rest) :=
  C.read_eq_some_iff.mpr rfl

variable {C}

/-- What stands in front of a list is determined by the list. -/
theorem append_inj {a a' : α} {rest rest' : List UInt8}
    (h : C.write a ++ rest = C.write a' ++ rest') : a = a' ∧ rest = rest' := by
  have hread := C.read_append a rest
  rw [h, C.read_append, Option.some.injEq, Prod.mk.injEq] at hread
  exact ⟨hread.1.symm, hread.2.symm⟩

theorem length_lt_of_read {l rest : List UInt8} {a : α} (h : C.read l = some (a, rest)) :
    rest.length < l.length := by
  have hpos : 0 < (C.write a).length := List.length_pos_of_ne_nil (C.write_ne_nil a)
  rw [C.read_eq_some_iff.mp h, List.length_append]
  omega

/-! ## Reading as many values as there are -/

variable (C)

/-- The values in front of a list, and what follows the last of them. -/
def readAll (l : List UInt8) : List α × List UInt8 :=
  match _h : C.read l with
  | none => ([], l)
  | some (a, rest) => (a :: (readAll rest).1, (readAll rest).2)
termination_by l.length
decreasing_by all_goals exact length_lt_of_read _h

theorem readAll_of_none {l : List UInt8} (h : C.read l = none) : C.readAll l = ([], l) := by
  rw [readAll]
  split
  · rfl
  · next h' =>
      rw [h] at h'
      cases h'

theorem readAll_of_some {l rest : List UInt8} {a : α} (h : C.read l = some (a, rest)) :
    C.readAll l = (a :: (C.readAll rest).1, (C.readAll rest).2) := by
  rw [readAll]
  split
  · next h' =>
      rw [h] at h'
      cases h'
  · next a' rest' h' =>
      rw [h, Option.some.injEq, Prod.mk.injEq] at h'
      rw [h'.1, h'.2]

theorem readAll_append (a : α) (rest : List UInt8) :
    C.readAll (C.write a ++ rest) = (a :: (C.readAll rest).1, (C.readAll rest).2) :=
  C.readAll_of_some (C.read_append a rest)

/-- The values in front of a list followed by others. -/
theorem readAll_flatMap_append (as : List α) (rest : List UInt8) :
    C.readAll (as.flatMap C.write ++ rest) = (as ++ (C.readAll rest).1, (C.readAll rest).2) := by
  induction as with
  | nil => rfl
  | cons a as ih =>
      rw [List.flatMap_cons, List.append_assoc, readAll_append, ih]
      rfl

/-- A list is the values read off it, and a rest that begins with none. -/
theorem readAll_spec (l : List UInt8) :
    l = (C.readAll l).1.flatMap C.write ++ (C.readAll l).2 ∧ C.read (C.readAll l).2 = none := by
  induction l using readAll.induct C with
  | case1 l h =>
      rw [C.readAll_of_none h]
      exact ⟨rfl, h⟩
  | case2 l a rest h ih =>
      rw [C.readAll_of_some h]
      refine ⟨?_, ih.2⟩
      calc l = C.write a ++ rest := C.read_eq_some_iff.mp h
        _ = _ := by rw [List.flatMap_cons, List.append_assoc, ← ih.1]

theorem drop_readAll (l : List UInt8) :
    l.drop ((C.readAll l).1.flatMap C.write).length = (C.readAll l).2 := by
  have hspec := (C.readAll_spec l).1
  generalize C.readAll l = p at hspec ⊢
  rw [hspec]
  exact List.drop_left

/-- It falls apart in this way only. -/
theorem readAll_eq_iff {l rest : List UInt8} {as : List α} :
    C.readAll l = (as, rest) ↔ l = as.flatMap C.write ++ rest ∧ C.read rest = none := by
  constructor
  · intro h
    have hspec := C.readAll_spec l
    rwa [h] at hspec
  · rintro ⟨rfl, h⟩
    rw [readAll_flatMap_append, readAll_of_none C h, List.append_nil]

/-- The first value that decides, and the values it stands behind. -/
theorem findSome?_readAll_eq_some_iff {γ : Type} {f : α → Option γ} {l : List UInt8} {c : γ} :
    (C.readAll l).1.findSome? f = some c ↔
      ∃ (before : List α) (a : α) (rest : List UInt8),
        l = before.flatMap C.write ++ (C.write a ++ rest) ∧
          (∀ b ∈ before, f b = none) ∧ f a = some c := by
  rw [List.findSome?_eq_some_iff]
  constructor
  · rintro ⟨before, a, after, hall, ha, hbefore⟩
    have hl := (C.readAll_spec l).1
    rw [hall, List.flatMap_append, List.flatMap_cons, List.append_assoc, List.append_assoc] at hl
    exact ⟨before, a, _, hl, hbefore, ha⟩
  · rintro ⟨before, a, rest, rfl, hbefore, ha⟩
    refine ⟨before, a, (C.readAll rest).1, ?_, ha, hbefore⟩
    rw [readAll_flatMap_append, readAll_append]

theorem findSome?_readAll_eq_none_iff {γ : Type} {f : α → Option γ} {l rest : List UInt8} :
    (C.readAll l).1.findSome? f = none ∧ (C.readAll l).2 = rest ↔
      ∃ as : List α, l = as.flatMap C.write ++ rest ∧ C.read rest = none ∧
        ∀ a ∈ as, f a = none := by
  rw [List.findSome?_eq_none_iff]
  constructor
  · rintro ⟨hnone, rfl⟩
    exact ⟨_, (C.readAll_spec l).1, (C.readAll_spec l).2, hnone⟩
  · rintro ⟨as, hl, hrest, hnone⟩
    rw [C.readAll_eq_iff.mpr ⟨hl, hrest⟩]
    exact ⟨hnone, rfl⟩

end Codec

/-! ## Fixed and length-prefixed byte strings -/

/-- A byte string whose length can be written into `n` bytes. -/
structure Prefixed (n : Nat) where
  data : List UInt8
  length_lt : data.length < 256 ^ n
deriving DecidableEq

/-- The length, then the bytes. -/
def Prefixed.bytes {n : Nat} (v : Prefixed n) : List UInt8 :=
  Order.big.bytes n v.data.length ++ v.data

/-- The number that `n` bytes of a buffer make, the most significant first. -/
def numberAt (n : Nat) (buf : List UInt8) (i : Nat) : Nat :=
  Order.big.value ((buf.drop i).take n)

theorem length_take_numberAt {n : Nat} {l : List UInt8} (h : n + numberAt n l 0 ≤ l.length) :
    ((l.drop n).take (numberAt n l 0)).length = numberAt n l 0 := by
  have hdrop : numberAt n l 0 ≤ (l.drop n).length := by
    rw [List.length_drop]
    omega
  exact List.length_take_of_le hdrop

theorem length_take_numberAt_lt {n : Nat} {l : List UInt8} (h : n + numberAt n l 0 ≤ l.length) :
    ((l.drop n).take (numberAt n l 0)).length < 256 ^ n := by
  have hlt := Order.big_value_lt (l.take n)
  rw [List.length_take_of_le (by omega)] at hlt
  rw [length_take_numberAt h]
  exact hlt

/-- Cut a byte string off behind its length. -/
def cutPrefixed (n : Nat) (l : List UInt8) : Option (Prefixed n × List UInt8) :=
  if h : n + numberAt n l 0 ≤ l.length then
    some (⟨(l.drop n).take (numberAt n l 0), length_take_numberAt_lt h⟩,
      l.drop (n + numberAt n l 0))
  else none

section

variable {n : Nat} {buf l rest : List UInt8} {i : Nat}

@[simp] theorem Prefixed.length_bytes (v : Prefixed n) : v.bytes.length = n + v.data.length := by
  rw [bytes, List.length_append, Order.big.length_bytes]

/-- A number does not change with what is far enough behind it. -/
theorem numberAt_take {k : Nat} (h : i + n ≤ k) : numberAt n (buf.take k) i = numberAt n buf i := by
  have hmin : min n (k - i) = n := by omega
  rw [numberAt, numberAt, List.drop_take, List.take_take, hmin]

theorem numberAt_drop (k : Nat) : numberAt n (buf.drop k) i = numberAt n buf (k + i) := by
  rw [numberAt, numberAt, List.drop_drop]

/-- A number inside a window is the one in the buffer. -/
theorem numberAt_window {stop k : Nat} (h : k + i + n ≤ stop) :
    numberAt n ((buf.take stop).drop k) i = numberAt n buf (k + i) := by
  rw [numberAt_drop, numberAt_take h]

theorem numberAt_of_append {pre bs : List UInt8} (h : pre.length = i) (hbs : bs.length = n) :
    numberAt n (pre ++ (bs ++ rest)) i = Order.big.value bs := by
  rw [numberAt, List.drop_left' h, List.take_left' hbs]

theorem numberAt_append {pre : List UInt8} (h : pre.length = i) (v : Prefixed n) :
    numberAt n (pre ++ (v.bytes ++ rest)) i = v.data.length := by
  have hlen : (Order.big.bytes n v.data.length).length = n := Order.big.length_bytes _ _
  rw [Prefixed.bytes, List.append_assoc, numberAt_of_append h hlen,
    Order.big.value_bytes n _ v.length_lt]

theorem numberAt_front (v : Prefixed n) : numberAt n (v.bytes ++ rest) 0 = v.data.length := by
  have h : numberAt n ([] ++ (v.bytes ++ rest)) 0 = v.data.length := numberAt_append rfl v
  rwa [List.nil_append] at h

theorem cutPrefixed_eq_some_iff {v : Prefixed n} :
    cutPrefixed n l = some (v, rest) ↔ l = v.bytes ++ rest := by
  constructor
  · intro h
    unfold cutPrefixed at h
    split at h
    · next hle =>
        rw [Option.some.injEq, Prod.mk.injEq] at h
        obtain ⟨rfl, rfl⟩ := h
        have hnum : Order.big.bytes n (numberAt n l 0) = l.take n := by
          have h := Order.big_bytes_value (l.take n)
          rwa [List.length_take_of_le (by omega)] at h
        rw [Prefixed.bytes, length_take_numberAt hle, hnum, List.append_assoc, ← List.drop_drop,
          List.take_append_drop, List.take_append_drop]
    · cases h
  · rintro rfl
    have hnum : numberAt n (v.bytes ++ rest) 0 = v.data.length := numberAt_front v
    have hle : n + numberAt n (v.bytes ++ rest) 0 ≤ (v.bytes ++ rest).length := by
      rw [hnum, List.length_append, v.length_bytes]
      omega
    have hbytes : (v.bytes ++ rest).drop n = v.data ++ rest := by
      rw [Prefixed.bytes, List.append_assoc]
      exact List.drop_left' (Order.big.length_bytes _ _)
    rw [cutPrefixed, dif_pos hle]
    simp only [hbytes, hnum, List.take_left, ← List.drop_drop, List.drop_left]

/-- There is a byte string in front exactly if there is as much as its length
says. -/
theorem cutPrefixed_eq_none_iff : cutPrefixed n l = none ↔ l.length < n + numberAt n l 0 := by
  simp [cutPrefixed]

/-- What a byte string in a buffer says about the bytes it stands in. -/
theorem numberAt_of_drop {v : Prefixed n} (h : buf.drop i = v.bytes ++ rest) :
    numberAt n buf i = v.data.length := by
  rw [← Nat.add_zero i, ← numberAt_drop, h]
  exact numberAt_front v

theorem drop_behind {v : Prefixed n} (h : buf.drop i = v.bytes ++ rest) :
    buf.drop (i + n + numberAt n buf i) = rest := by
  rw [numberAt_of_drop h, Nat.add_assoc, ← v.length_bytes, ← List.drop_drop, h, List.drop_left]

theorem drop_data {v : Prefixed n} (h : buf.drop i = v.bytes ++ rest) :
    buf.drop (i + n) = v.data ++ rest := by
  rw [← List.drop_drop, h, Prefixed.bytes, List.append_assoc]
  exact List.drop_left' (Order.big.length_bytes _ _)

/-- Where a buffer is long enough it goes on with some bytes. -/
theorem exists_drop_eq_append (h : i + n ≤ buf.length) :
    ∃ v : Vector UInt8 n, buf.drop i = v.toList ++ buf.drop (i + n) := by
  have hsize : ((buf.drop i).take n).toArray.size = n := by
    rw [List.size_toArray, List.length_take_of_le (by rw [List.length_drop]; omega)]
  refine ⟨⟨((buf.drop i).take n).toArray, hsize⟩, ?_⟩
  rw [← List.drop_drop]
  exact (List.take_append_drop n (buf.drop i)).symm

/-- The number they make says which. -/
theorem drop_eq_number (h : i + n ≤ buf.length) :
    buf.drop i = Order.big.bytes n (numberAt n buf i) ++ buf.drop (i + n) := by
  have hbytes := Order.big_bytes_value ((buf.drop i).take n)
  rw [List.length_take_of_le (by rw [List.length_drop]; omega)] at hbytes
  rw [numberAt, hbytes, ← List.drop_drop, List.take_append_drop]

theorem numberAt_lt (h : i + n ≤ buf.length) : numberAt n buf i < 256 ^ n := by
  have hlt := Order.big_value_lt ((buf.drop i).take n)
  rwa [List.length_take_of_le (by rw [List.length_drop]; omega)] at hlt

/-- Where a buffer is long enough it goes on with a byte string behind its
length. -/
theorem drop_eq_prefixed (h : i + n + numberAt n buf i ≤ buf.length) :
    ∃ v : Prefixed n, v.data.length = numberAt n buf i ∧
      buf.drop i = v.bytes ++ buf.drop (i + n + numberAt n buf i) := by
  have hcut : cutPrefixed n (buf.drop i) ≠ none := by
    rw [ne_eq, cutPrefixed_eq_none_iff, numberAt_drop, Nat.add_zero, List.length_drop]
    omega
  obtain ⟨⟨v, rest⟩, hv⟩ := Option.ne_none_iff_exists'.mp hcut
  have hbytes : buf.drop i = v.bytes ++ rest := cutPrefixed_eq_some_iff.mp hv
  exact ⟨v, (numberAt_of_drop hbytes).symm, by rw [drop_behind hbytes]; exact hbytes⟩

end

namespace Codec

variable {α β : Type}

/-- `n` bytes as they are. -/
def fixed (n : Nat) (hn : 0 < n) : Codec (Vector UInt8 n) where
  write := Vector.toList
  read l :=
    if h : n ≤ l.length then
      some (⟨(l.take n).toArray, by rw [List.size_toArray, List.length_take_of_le h]⟩, l.drop n)
    else none
  read_eq_some_iff := by
    intro l a rest
    constructor
    · intro h
      split at h
      · rw [Option.some.injEq, Prod.mk.injEq] at h
        obtain ⟨rfl, rfl⟩ := h
        simp
      · cases h
    · rintro rfl
      have hle : n ≤ (a.toList ++ rest).length := by simp
      have htake : (a.toList ++ rest).take n = a.toList := List.take_left' a.length_toList
      have hdrop : (a.toList ++ rest).drop n = rest := List.drop_left' a.length_toList
      rw [dif_pos hle, hdrop]
      simp only [htake, Option.some.injEq, Prod.mk.injEq, and_true]
      exact Vector.toList_inj.mp (List.toList_toArray)
  write_ne_nil := by
    intro a h
    have hlen := congrArg List.length h
    rw [Vector.length_toList] at hlen
    exact Nat.ne_of_gt hn hlen

/-- A byte string behind its length. -/
def lengthPrefixed (n : Nat) (hn : 0 < n) : Codec (Prefixed n) where
  write := Prefixed.bytes
  read := cutPrefixed n
  read_eq_some_iff := cutPrefixed_eq_some_iff
  write_ne_nil := by
    intro v h
    have hlen := congrArg List.length h
    rw [v.length_bytes, List.length_nil] at hlen
    omega

/-- One value after the other. -/
def pair (C : Codec α) (D : Codec β) : Codec (α × β) where
  write p := C.write p.1 ++ D.write p.2
  read l := (C.read l).bind fun p => (D.read p.2).map fun q => ((p.1, q.1), q.2)
  read_eq_some_iff := by
    intro l p rest
    simp only [Option.bind_eq_some_iff, Option.map_eq_some_iff]
    constructor
    · rintro ⟨⟨a, mid⟩, ha, ⟨b, rest'⟩, hb, heq⟩
      cases heq
      have hmid : mid = D.write b ++ rest' := D.read_eq_some_iff.mp hb
      rw [C.read_eq_some_iff.mp ha, hmid, List.append_assoc]
    · rintro rfl
      refine ⟨(p.1, D.write p.2 ++ rest), ?_, (p.2, rest), D.read_append _ _, rfl⟩
      rw [List.append_assoc, C.read_append]
  write_ne_nil := by
    intro p h
    exact C.write_ne_nil p.1 (List.append_eq_nil_iff.mp h).1

/-- A tag of `k` bytes, then a byte string behind its length. -/
def entry (k n : Nat) (hk : 0 < k) (hn : 0 < n) : Codec (Vector UInt8 k × Prefixed n) :=
  (fixed k hk).pair (lengthPrefixed n hn)

section

variable {k n : Nat} {hk : 0 < k} {hn : 0 < n} {l rest : List UInt8}

theorem write_entry (e : Vector UInt8 k × Prefixed n) :
    (entry k n hk hn).write e = e.1.toList ++ e.2.bytes := rfl

@[simp] theorem length_write_entry (e : Vector UInt8 k × Prefixed n) :
    ((entry k n hk hn).write e).length = k + n + e.2.data.length := by
  rw [write_entry, List.length_append, Vector.length_toList, Prefixed.length_bytes, Nat.add_assoc]

/-- What an entry in front of a list says about the list. -/
theorem entry_of_read {e : Vector UInt8 k × Prefixed n}
    (h : (entry k n hk hn).read l = some (e, rest)) :
    e.1.toList = l.take k ∧ e.2.data.length = numberAt n l k ∧
      e.2.data = (l.drop (k + n)).take (numberAt n l k) ∧ k + n + numberAt n l k ≤ l.length := by
  have hl : l = e.1.toList ++ (e.2.bytes ++ rest) := by
    rw [(entry k n hk hn).read_eq_some_iff.mp h, write_entry, List.append_assoc]
  have htag : e.1.toList.length = k := e.1.length_toList
  have hnum : numberAt n l k = e.2.data.length := by
    rw [hl]
    exact numberAt_append htag e.2
  have hdata : l.drop (k + n) = e.2.data ++ rest := by
    have hlen : (Order.big.bytes n e.2.data.length).length = n := Order.big.length_bytes _ _
    rw [hl, ← List.drop_drop, List.drop_left' htag, Prefixed.bytes, List.append_assoc,
      List.drop_left' hlen]
  have hlen := congrArg List.length hl
  rw [List.length_append, List.length_append, e.2.length_bytes, htag] at hlen
  refine ⟨?_, hnum.symm, ?_, ?_⟩
  · rw [hl, List.take_left' htag]
  · rw [hdata, hnum, List.take_left]
  · omega

/-- No entry stands in front of a list that is shorter than one would say. -/
theorem entry_read_eq_none_iff :
    (entry k n hk hn).read l = none ↔ l.length < k + n + numberAt n l k := by
  constructor
  · intro h
    by_contra hle
    -- an entry that fits can be cut off
    have hcut : cutPrefixed n (l.drop k) ≠ none := by
      rw [ne_eq, cutPrefixed_eq_none_iff, numberAt_drop, Nat.add_zero, List.length_drop]
      omega
    obtain ⟨⟨v, rest⟩, hv⟩ := Option.ne_none_iff_exists'.mp hcut
    have htag : (l.take k).toArray.size = k := by
      rw [List.size_toArray, List.length_take_of_le (by omega)]
    have hwhole : l = (entry k n hk hn).write (⟨(l.take k).toArray, htag⟩, v) ++ rest := by
      rw [write_entry, List.append_assoc, ← cutPrefixed_eq_some_iff.mp hv]
      exact (List.take_append_drop k l).symm
    rw [(entry k n hk hn).read_eq_some_iff.mpr hwhole] at h
    cases h
  · intro h
    cases hread : (entry k n hk hn).read l with
    | none => rfl
    | some p =>
        have hle := (entry_of_read hread).2.2.2
        omega

end

/-! ## Loops over a buffer -/

variable {σ φ : Type}

/-- Go from value to value until one of them, or the end, decides. -/
def walk (step : σ → α → Rust.Flow σ β) (stop : σ → β) : σ → List α → β
  | s, [] => stop s
  | s, a :: as =>
      match step s a with
      | .done b => b
      | .next s' => walk step stop s' as

/-- A loop whose passes read a value each and step over it walks along the
values in the buffer. -/
theorem loop_eq_walk (C : Codec α) (pos : σ → Nat) {window : List UInt8}
    {body : σ → Rust.Eval φ (Rust.Flow σ β)} {step : σ → α → Rust.Flow σ β} {stop : σ → β}
    (hnone : ∀ s, pos s ≤ window.length → C.read (window.drop (pos s)) = none →
      body s = .ok (.done (stop s)))
    (hsome : ∀ s a rest, pos s ≤ window.length →
      C.read (window.drop (pos s)) = some (a, rest) → body s = .ok (step s a))
    (hpos : ∀ s a s', step s a = .next s' → pos s' = pos s + (C.write a).length) :
    ∀ fuel s, pos s ≤ window.length → window.length - pos s < fuel →
      Rust.loop body fuel s = .ok (walk step stop s (C.readAll (window.drop (pos s))).1) := by
  -- every pass that goes on has moved past the bytes of a value
  intro fuel
  induction fuel with
  | zero =>
      intro s _ hfuel
      cases hfuel
  | succ fuel ih =>
      intro s hs hfuel
      cases hread : C.read (window.drop (pos s)) with
      | none => rw [Rust.loop, hnone s hs hread, C.readAll_of_none hread, walk]
      | some p =>
          obtain ⟨a, rest⟩ := p
          rw [Rust.loop, hsome s a rest hs hread, C.readAll_of_some hread, walk]
          cases hstep : step s a with
          | done b => rfl
          | next s' =>
              have hlist := C.read_eq_some_iff.mp hread
              have hlen := congrArg List.length hlist
              have hpos' := hpos s a s' hstep
              rw [List.length_drop, List.length_append] at hlen
              have hwrite := List.length_pos_of_ne_nil (C.write_ne_nil a)
              have hrest : rest = window.drop (pos s') := by
                rw [hpos', ← List.drop_drop, hlist, List.drop_left]
              rw [hrest]
              exact ih s' (by omega) (by omega)

theorem walk_of_verdict {verdict : α → Option β} {size : α → Nat} {stop : Nat → β} (o : Nat)
    (as : List α) :
    walk (fun o a => (verdict a).elim (.next (o + size a)) .done) stop o as =
      (as.findSome? verdict).getD (stop (o + (as.map size).sum)) := by
  induction as generalizing o with
  | nil => rfl
  | cons a as ih =>
      rw [walk, List.findSome?_cons]
      cases verdict a with
      | some b => rfl
      | none =>
          rw [List.map_cons, List.sum_cons, ← Nat.add_assoc]
          exact ih (o + size a)

/-- Where the values alone decide, the first that does gives the result, and
what follows the last of them if none does. -/
theorem loop_of_verdict (C : Codec α) {window : List UInt8}
    {body : Nat → Rust.Eval φ (Rust.Flow Nat β)} {verdict : α → Option β} {atEnd : List UInt8 → β}
    (hnone : ∀ o, o ≤ window.length → C.read (window.drop o) = none →
      body o = .ok (.done (atEnd (window.drop o))))
    (hsome : ∀ o a rest, o ≤ window.length → C.read (window.drop o) = some (a, rest) →
      body o = .ok ((verdict a).elim (.next (o + (C.write a).length)) .done))
    {fuel o : Nat} (ho : o ≤ window.length) (hfuel : window.length - o < fuel) :
    Rust.loop body fuel o =
      .ok (((C.readAll (window.drop o)).1.findSome? verdict).getD
        (atEnd (C.readAll (window.drop o)).2)) := by
  have hpos : ∀ (o : Nat) (a : α) (o' : Nat),
      (verdict a).elim (Rust.Flow.next (o + (C.write a).length)) Rust.Flow.done = .next o' →
      o' = o + (C.write a).length := by
    intro o a o' h
    cases hv : verdict a with
    | some b =>
        rw [hv] at h
        cases h
    | none =>
        rw [hv] at h
        cases h
        rfl
  -- the offset at the end is that of what is left
  have hrest : window.drop (o + ((C.readAll (window.drop o)).1.map fun a =>
      (C.write a).length).sum) = (C.readAll (window.drop o)).2 := by
    rw [← List.drop_drop, ← List.length_flatMap]
    exact C.drop_readAll (window.drop o)
  rw [loop_eq_walk C id hnone hsome hpos fuel o ho hfuel, walk_of_verdict, id, hrest]

end Codec

end Bytes

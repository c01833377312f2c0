import Mathlib.Data.List.Basic
import Mathlib.Data.List.Induction

/-! # Rust evaluation: panics, slices and loops

Safe Rust stops with a panic where an index or a slice leaves its buffer, an
unsigned subtraction goes below zero, a `copy_from_slice` meets two lengths,
or an `unwrap` meets a failure. Each of these is an explicit outcome here, so
that "never panics" is a statement about a value. A `usize` is a `Nat`: the
programs this is meant for never reach `2 ^ 64`.
-/

namespace Rust

/-- What went wrong at a panic. -/
inductive Fault where
  | index
  | slice
  | subtract
  | copyLength
  | charBoundary
  | unwrap
  /-- Not a Rust panic: the bound on a modelled loop was reached. -/
  | unfinished
deriving DecidableEq, Repr

/-- A panic, with the recorded calls that were open when it was raised,
outermost first. -/
structure Panic (φ : Type) where
  fault : Fault
  within : List φ
deriving DecidableEq, Repr

/-- Evaluation that may panic; `φ` names the functions whose calls are
recorded. -/
abbrev Eval (φ : Type) (α : Type) := Except (Panic φ) α

variable {φ α β σ : Type}

/-- Evaluate the body of a recorded function: a panic in it says so. -/
def calling (f : φ) (x : Eval φ α) : Eval φ α :=
  match x with
  | .ok a => .ok a
  | .error p => .error { p with within := f :: p.within }

@[simp] theorem calling_ok (f : φ) (a : α) : calling f (.ok a) = .ok a := rfl

theorem calling_eq_ok {f : φ} {x : Eval φ α} {a : α} : calling f x = .ok a ↔ x = .ok a := by
  cases x with
  | ok b => exact Iff.rfl
  | error p =>
      constructor
      · intro h
        cases h
      · intro h
        cases h

/-- A panic that leaves a recorded call names it. -/
theorem mem_within_of_calling {f : φ} {x : Eval φ α} {p : Panic φ}
    (h : calling f x = .error p) : f ∈ p.within := by
  cases x with
  | ok a => simp [calling] at h
  | error q =>
      simp only [calling, Except.error.injEq] at h
      simp [← h]

/-- What an evaluation in two parts that returns went through. -/
theorem bind_eq_ok {ε : Type} {x : Except ε α} {f : α → Except ε β} {b : β} :
    x >>= f = .ok b ↔ ∃ a, x = .ok a ∧ f a = .ok b := by
  cases x with
  | error e =>
      constructor
      · intro h
        cases h
      · rintro ⟨a, ha, _⟩
        cases ha
  | ok a =>
      constructor
      · intro h
        exact ⟨a, rfl, h⟩
      · rintro ⟨a', ha, h⟩
        cases ha
        exact h

/-- After a part that returns, the rest runs on its value. -/
theorem ok_bind {ε : Type} (a : α) (f : α → Except ε β) :
    ((.ok a : Except ε α) >>= f) = f a := rfl

/-- A result computed from that of an evaluation that returns. -/
theorem returns_map {x : Eval φ α} (h : ∃ a, x = .ok a) (f : α → β) :
    ∃ b, (do return f (← x)) = (.ok b : Eval φ β) := by
  rcases h with ⟨a, rfl⟩
  exact ⟨f a, rfl⟩

/-! ## Where panics can come from -/

/-- Every panic of the evaluation satisfies `P`. -/
def PanicsOnly (P : Panic φ → Prop) (x : Eval φ α) : Prop :=
  ∀ p, x = .error p → P p

section

variable {P : Panic φ → Prop}

theorem PanicsOnly.of_eq_ok {x : Eval φ α} {a : α} (h : x = .ok a) : PanicsOnly P x := by
  intro p hp
  rw [h] at hp
  cases hp

theorem PanicsOnly.of_returns {x : Eval φ α} (h : ∃ a, x = .ok a) : PanicsOnly P x := by
  rcases h with ⟨a, ha⟩
  exact .of_eq_ok ha

theorem PanicsOnly.pure (a : α) : PanicsOnly P (Pure.pure a : Eval φ α) :=
  .of_eq_ok rfl

/-- Sequencing: the second part only has to be safe on values the first part
can produce. -/
theorem PanicsOnly.bind {x : Eval φ α} {f : α → Eval φ β} (hx : PanicsOnly P x)
    (hf : ∀ a, x = .ok a → PanicsOnly P (f a)) : PanicsOnly P (x >>= f) := by
  cases x with
  | error p =>
      intro q hq
      have hpq : p = q := Except.error.inj hq
      exact hpq ▸ hx p rfl
  | ok a => exact hf a rfl

/-- The body of a recorded call may panic where such panics are allowed. -/
theorem PanicsOnly.calling {f : φ} {x : Eval φ α} (hf : ∀ p : Panic φ, f ∈ p.within → P p) :
    PanicsOnly P (Rust.calling f x) := by
  intro p hp
  exact hf p (mem_within_of_calling hp)

end

/-! ## Indexing and slicing -/

/-- `xs[i] = x`. -/
def store (xs : List α) (i : Nat) (x : α) : Eval φ (List α) :=
  if i < xs.length then .ok (xs.set i x) else .error ⟨.index, []⟩

/-- `xs[i]`. -/
def index (xs : List α) (i : Nat) : Eval φ α :=
  match xs[i]? with
  | some x => .ok x
  | none => .error ⟨.index, []⟩

theorem slice_length (xs : List α) {a b : Nat} (hb : b ≤ xs.length) :
    ((xs.drop a).take (b - a)).length = b - a := by
  simp only [List.length_take, List.length_drop]
  omega

/-- `&xs[a..b]`; the result carries its length. -/
def slice (xs : List α) (a b : Nat) : Eval φ { ys : List α // ys.length = b - a } :=
  if h : a ≤ b ∧ b ≤ xs.length then
    .ok ⟨(xs.drop a).take (b - a), slice_length xs h.2⟩
  else .error ⟨.slice, []⟩

/-- `&xs[a..]`. -/
def sliceFrom (xs : List α) (a : Nat) : Eval φ (List α) :=
  if a ≤ xs.length then .ok (xs.drop a) else .error ⟨.slice, []⟩

/-- `a - b` on an unsigned integer. -/
def sub (a b : Nat) : Eval φ Nat :=
  if b ≤ a then .ok (a - b) else .error ⟨.subtract, []⟩

/-- `let mut bytes = [0; n]; bytes.copy_from_slice(xs)`. -/
def copyFromSlice (n : Nat) (xs : List α) : Eval φ (Vector α n) :=
  if h : xs.length = n then .ok ⟨xs.toArray, by simpa using h⟩
  else .error ⟨.copyLength, []⟩

theorem index_ok {xs : List α} {i : Nat} {x : α} (h : xs[i]? = some x) :
    (index xs i : Eval φ α) = .ok x := by
  simp [index, h]

theorem index_lt {xs : List α} {i : Nat} (h : i < xs.length) :
    (index xs i : Eval φ α) = .ok xs[i] :=
  index_ok (List.getElem?_eq_getElem h)

theorem index_returns {xs : List α} {i : Nat} (h : i < xs.length) :
    ∃ x, (index xs i : Eval φ α) = .ok x :=
  ⟨_, index_lt h⟩

theorem slice_ok (xs : List α) {a b : Nat} (hab : a ≤ b) (hb : b ≤ xs.length) :
    (slice xs a b : Eval φ _) = .ok ⟨(xs.drop a).take (b - a), slice_length xs hb⟩ := by
  simp [slice, hab, hb]

theorem sliceFrom_ok {xs : List α} {a : Nat} (h : a ≤ xs.length) :
    (sliceFrom xs a : Eval φ _) = .ok (xs.drop a) := by
  simp [sliceFrom, h]

theorem sliceFrom_returns {xs : List α} {a : Nat} (h : a ≤ xs.length) :
    ∃ ys, (sliceFrom xs a : Eval φ _) = .ok ys :=
  ⟨_, sliceFrom_ok h⟩

theorem sub_ok {a b : Nat} (h : b ≤ a) : (sub a b : Eval φ _) = .ok (a - b) := by
  simp [sub, h]

theorem copyFromSlice_ok {n : Nat} {xs : List α} (h : xs.length = n) :
    (copyFromSlice n xs : Eval φ _) = .ok ⟨xs.toArray, by simpa using h⟩ := by
  simp [copyFromSlice, h]

theorem store_ok {xs : List α} {i : Nat} (h : i < xs.length) (x : α) :
    (store xs i x : Eval φ _) = .ok (xs.set i x) := by
  simp [store, h]

/-! ## Removing elements -/

/-- `xs.remove(i)`. -/
def remove (xs : List α) (i : Nat) : Eval φ (List α) :=
  if i < xs.length then .ok (xs.eraseIdx i) else .error ⟨.index, []⟩

/-- The elements whose positions are not listed, in order. -/
def without (xs : List α) (idxs : List Nat) : List α :=
  (xs.zipIdx.filter fun e => e.2 ∉ idxs).map Prod.fst

theorem exists_of_mem_without {xs : List α} {idxs : List Nat} {x : α} (h : x ∈ without xs idxs) :
    ∃ i, xs[i]? = some x ∧ i ∉ idxs := by
  rcases List.mem_map.mp h with ⟨⟨y, i⟩, he, rfl⟩
  rcases List.mem_filter.mp he with ⟨hmem, hnot⟩
  exact ⟨i, List.mem_zipIdx_iff_getElem?.mp hmem, by simpa using hnot⟩

/-- Positions behind all listed ones stay. -/
theorem filter_zipIdx_of_lt {xs : List α} {idxs : List Nat} {n : Nat} (h : ∀ i ∈ idxs, i < n) :
    (xs.zipIdx n).filter (fun e => e.2 ∉ idxs) = xs.zipIdx n := by
  apply List.filter_eq_self.mpr
  rintro ⟨x, i⟩ he
  have hle := List.le_snd_of_mem_zipIdx he
  have hnot : i ∉ idxs := fun hi => Nat.lt_irrefl _ (Nat.lt_of_lt_of_le (h i hi) hle)
  simpa using hnot

@[simp] theorem without_nil (xs : List α) : without xs [] = xs := by
  have hnone : ∀ i ∈ ([] : List Nat), i < 0 := by simp
  rw [without, filter_zipIdx_of_lt hnone, List.zipIdx_map_fst]

/-- Removing a position behind the others, and then those. -/
theorem without_eraseIdx {xs : List α} {idxs : List Nat} {n : Nat} (hn : n < xs.length)
    (h : ∀ i ∈ idxs, i < n) : without (xs.eraseIdx n) idxs = without xs (idxs ++ [n]) := by
  have hlen : (xs.take n).length = n := List.length_take_of_le (by omega)
  -- in front of the position both keep the same
  have hfront : ((xs.take n).zipIdx.filter fun e => e.2 ∉ idxs) =
      (xs.take n).zipIdx.filter fun e => e.2 ∉ idxs ++ [n] := by
    apply List.filter_congr
    rintro ⟨x, i⟩ he
    have hlt := List.snd_lt_of_mem_zipIdx he
    have hne : i ≠ n := by omega
    simp [hne]
  have hback : ((xs.drop (n + 1)).zipIdx (n + 1)).filter (fun e => e.2 ∉ idxs ++ [n]) =
      (xs.drop (n + 1)).zipIdx (n + 1) := by
    apply filter_zipIdx_of_lt
    intro i hi
    rcases List.mem_append.mp hi with hi | hi
    · exact Nat.lt_succ_of_lt (h i hi)
    · rw [List.mem_singleton.mp hi]
      exact Nat.lt_succ_self n
  have hsplit : xs = xs.take n ++ xs[n] :: xs.drop (n + 1) := by
    rw [← List.drop_eq_getElem_cons hn, List.take_append_drop]
  have herased : without (xs.eraseIdx n) idxs =
      ((xs.take n).zipIdx.filter fun e => e.2 ∉ idxs).map Prod.fst ++ xs.drop (n + 1) := by
    rw [without, List.eraseIdx_eq_take_drop_succ, List.zipIdx_append, List.filter_append, hlen,
      Nat.zero_add, filter_zipIdx_of_lt h, List.map_append, List.zipIdx_map_fst]
  have hwhole : without xs (idxs ++ [n]) =
      ((xs.take n).zipIdx.filter fun e => e.2 ∉ idxs ++ [n]).map Prod.fst ++ xs.drop (n + 1) := by
    conv_lhs => rw [hsplit]
    rw [without, List.zipIdx_append, hlen, Nat.zero_add, List.zipIdx_cons, List.filter_append,
      List.filter_cons_of_neg (by simp), hback, List.map_append, List.zipIdx_map_fst]
  rw [herased, hwhole, hfront]

/-- Removing at ascending positions, the last one first: none is out of range,
and the elements at all others stay. -/
theorem foldlM_remove {idxs : List Nat} (hsorted : idxs.Pairwise (· < ·)) :
    ∀ {xs : List α}, (∀ i ∈ idxs, i < xs.length) →
      (idxs.reverse.foldlM remove xs : Eval φ (List α)) = .ok (without xs idxs) := by
  -- the last position goes first, so the others still name the same elements
  induction idxs using List.reverseRecOn with
  | nil =>
      intro xs _
      rw [without_nil]
      rfl
  | append_singleton idxs n ih =>
      intro xs hlt
      rcases List.pairwise_append.mp hsorted with ⟨hidxs, _, hbefore⟩
      have hn : n < xs.length := hlt n (by simp)
      have hfront : ∀ i ∈ idxs, i < n := fun i hi => hbefore i hi n (by simp)
      have hrest : ∀ i ∈ idxs, i < (xs.eraseIdx n).length := by
        intro i hi
        have := hfront i hi
        rw [List.length_eraseIdx_of_lt hn]
        omega
      have hone : (remove xs n : Eval φ (List α)) = .ok (xs.eraseIdx n) := if_pos hn
      rw [List.reverse_append, List.reverse_singleton, List.singleton_append, List.foldlM_cons,
        hone, ok_bind, ih hidxs hrest, without_eraseIdx hn hfront]

theorem without_map (f : α → β) (xs : List α) (idxs : List Nat) :
    without (xs.map f) idxs = (without xs idxs).map f := by
  rw [without, without, List.zipIdx_map, List.filter_map, List.map_map, List.map_map]
  rfl

/-- Without the elements that a predicate holds of. -/
theorem without_findIdxs (p : α → Bool) (xs : List α) :
    without xs (xs.findIdxs p) = xs.filter fun x => !p x := by
  have hkept : (xs.zipIdx.filter fun e => e.2 ∉ xs.findIdxs p) =
      xs.zipIdx.filter fun e => !p e.1 := by
    apply List.filter_congr
    rintro ⟨x, i⟩ he
    have hx : xs[i]? = some x := List.mem_zipIdx_iff_getElem?.mp he
    obtain ⟨hi, rfl⟩ := List.getElem?_eq_some_iff.mp hx
    simp only [List.mem_findIdxs_iff_pos_getElem hi, decide_not, Bool.decide_eq_true]
  calc without xs (xs.findIdxs p)
      = (xs.zipIdx.filter fun e => !p e.1).map Prod.fst := by rw [without, hkept]
    _ = (xs.zipIdx.map Prod.fst).filter fun x => !p x := by
        rw [List.filter_map]
        rfl
    _ = xs.filter fun x => !p x := by rw [List.zipIdx_map_fst]

/-- What is removed behind a position does not move the element there. -/
theorem getElem?_of_foldlM_remove {i : Nat} {idxs : List Nat} (h : ∀ j ∈ idxs, i < j) :
    ∀ {xs ys : List α}, (idxs.foldlM remove xs : Eval φ (List α)) = .ok ys → ys[i]? = xs[i]? := by
  induction idxs with
  | nil =>
      intro xs ys hremove
      cases hremove
      rfl
  | cons j idxs ih =>
      intro xs ys hremove
      rw [List.forall_mem_cons] at h
      rw [List.foldlM_cons, bind_eq_ok] at hremove
      obtain ⟨zs, hone, hrest⟩ := hremove
      have hzs : xs.eraseIdx j = zs := by
        unfold remove at hone
        split at hone
        · exact Except.ok.inj hone
        · cases hone
      rw [ih h.2 hrest, ← hzs, List.getElem?_eraseIdx_of_lt h.1]

/-! ## Chunks -/

/-- Cut off `n` elements at a time, for at most `fuel` chunks. -/
def chunksUpTo (n : Nat) : Nat → List α → List (List α)
  | 0, _ => []
  | _, [] => []
  | fuel + 1, x :: xs => (x :: xs).take n :: chunksUpTo n fuel ((x :: xs).drop n)

/-- `xs.chunks(n)`, for positive `n`: all chunks have `n` elements but the
last, which may be shorter. -/
def chunks (n : Nat) (xs : List α) : List (List α) :=
  chunksUpTo n xs.length xs

theorem length_le_of_mem_chunksUpTo {n : Nat} {c : List α} :
    ∀ {fuel : Nat} {xs : List α}, c ∈ chunksUpTo n fuel xs → c.length ≤ n := by
  intro fuel
  induction fuel with
  | zero =>
      intro xs h
      simp [chunksUpTo] at h
  | succ fuel ih =>
      intro xs h
      cases xs with
      | nil => simp [chunksUpTo] at h
      | cons x xs =>
          simp only [chunksUpTo, List.mem_cons] at h
          rcases h with rfl | h
          · simp only [List.length_take]
            omega
          · exact ih h

/-- No chunk is longer than asked for. -/
theorem length_le_of_mem_chunks {n : Nat} {c xs : List α} (h : c ∈ chunks n xs) :
    c.length ≤ n :=
  length_le_of_mem_chunksUpTo h

theorem flatten_chunksUpTo {n : Nat} (hn : 0 < n) :
    ∀ {fuel : Nat} {xs : List α}, xs.length ≤ fuel → (chunksUpTo n fuel xs).flatten = xs := by
  intro fuel
  induction fuel with
  | zero =>
      intro xs h
      rw [List.eq_nil_of_length_eq_zero (Nat.le_zero.mp h)]
      rfl
  | succ fuel ih =>
      intro xs h
      cases xs with
      | nil => rfl
      | cons x xs =>
          have hrest : ((x :: xs).drop n).length ≤ fuel := by
            rw [List.length_drop]
            omega
          rw [chunksUpTo, List.flatten_cons, ih hrest, List.take_append_drop]

/-- The chunks are the list, cut up. -/
theorem flatten_chunks {n : Nat} (hn : 0 < n) (xs : List α) : (chunks n xs).flatten = xs :=
  flatten_chunksUpTo hn (Nat.le_refl _)

/-- More fuel than there are elements makes no difference. -/
theorem chunksUpTo_eq {n : Nat} (hn : 0 < n) :
    ∀ {fuel fuel' : Nat} {xs : List α}, xs.length ≤ fuel → xs.length ≤ fuel' →
      chunksUpTo n fuel xs = chunksUpTo n fuel' xs := by
  intro fuel
  induction fuel with
  | zero =>
      intro fuel' xs h _
      rw [List.eq_nil_of_length_eq_zero (Nat.le_zero.mp h)]
      cases fuel' <;> rfl
  | succ fuel ih =>
      intro fuel' xs h h'
      cases xs with
      | nil => cases fuel' <;> rfl
      | cons x xs =>
          cases fuel' with
          | zero => simp at h'
          | succ fuel' =>
              have hlen : ((x :: xs).drop n).length < (x :: xs).length := by
                rw [List.length_drop, List.length_cons]
                omega
              have hfuel : ((x :: xs).drop n).length ≤ fuel := by omega
              have hfuel' : ((x :: xs).drop n).length ≤ fuel' := by omega
              rw [chunksUpTo, chunksUpTo, ih hfuel hfuel']

@[simp] theorem chunks_nil (n : Nat) : chunks n ([] : List α) = [] := rfl

/-- The first chunk and the others. -/
theorem chunks_eq_cons {n : Nat} (hn : 0 < n) {xs : List α} (hne : xs ≠ []) :
    chunks n xs = xs.take n :: chunks n (xs.drop n) := by
  cases xs with
  | nil => exact absurd rfl hne
  | cons x xs =>
      have hlen : ((x :: xs).drop n).length ≤ xs.length := by
        rw [List.length_drop, List.length_cons]
        omega
      rw [chunks, List.length_cons, chunksUpTo, chunksUpTo_eq hn hlen (Nat.le_refl _)]
      rfl

/-- A whole chunk in front. -/
theorem chunks_append {n : Nat} (hn : 0 < n) {xs : List α} (hlen : xs.length = n)
    (ys : List α) : chunks n (xs ++ ys) = xs :: chunks n ys := by
  have hne : xs ++ ys ≠ [] := by
    rintro h
    rw [(List.append_eq_nil_iff.mp h).1, List.length_nil] at hlen
    omega
  rw [chunks_eq_cons hn hne, List.take_left' hlen, List.drop_left' hlen]

/-- What is no longer than a chunk is one. -/
theorem chunks_of_length_le {n : Nat} (hn : 0 < n) {xs : List α} (hne : xs ≠ [])
    (hlen : xs.length ≤ n) : chunks n xs = [xs] := by
  rw [chunks_eq_cons hn hne, List.take_of_length_le hlen, List.drop_of_length_le hlen, chunks_nil]

/-- Induction on the chunks of a list. -/
theorem chunks_induction {n : Nat} (hn : 0 < n) {motive : List α → Prop} (nil : motive [])
    (short : ∀ xs : List α, xs ≠ [] → xs.length < n → motive xs)
    (append : ∀ xs ys : List α, xs.length = n → motive ys → motive (xs ++ ys)) :
    ∀ xs : List α, motive xs := by
  intro xs
  induction hlen : xs.length using Nat.strongRecOn generalizing xs with
  | ind m ih =>
      subst hlen
      by_cases hshort : xs.length < n
      · by_cases hne : xs = []
        · exact hne ▸ nil
        · exact short xs hne hshort
      · have hdrop : (xs.drop n).length < xs.length := by
          rw [List.length_drop]
          omega
        rw [← List.take_append_drop n xs]
        exact append _ _ (List.length_take_of_le (Nat.le_of_not_lt hshort))
          (ih _ hdrop _ rfl)

/-- How many chunks there are. -/
theorem length_chunks {n : Nat} (hn : 0 < n) (xs : List α) :
    (chunks n xs).length = (xs.length + n - 1) / n := by
  induction xs using chunks_induction hn with
  | nil => simp [Nat.div_eq_of_lt (Nat.sub_lt hn Nat.one_pos)]
  | short xs hne hshort =>
      have hpos := List.length_pos_of_ne_nil hne
      have hone : xs.length + n - 1 = n + (xs.length - 1) := by omega
      rw [chunks_of_length_le hn hne (Nat.le_of_lt hshort), hone, Nat.add_div_left _ hn,
        Nat.div_eq_of_lt (by omega)]
      rfl
  | append xs ys hxs ih =>
      have hmore : (xs ++ ys).length + n - 1 = n + (ys.length + n - 1) := by
        rw [List.length_append]
        omega
      rw [chunks_append hn hxs, List.length_cons, ih, hmore, Nat.add_div_left _ hn]

/-- Behind whole chunks the chunks of the rest follow. -/
theorem chunks_append_of_dvd {n : Nat} (hn : 0 < n) {xs : List α} (hdvd : n ∣ xs.length)
    (ys : List α) : chunks n (xs ++ ys) = chunks n xs ++ chunks n ys := by
  induction xs using chunks_induction hn with
  | nil => rfl
  | short xs hne hshort =>
      have hpos := List.length_pos_of_ne_nil hne
      exact absurd (Nat.le_of_dvd hpos hdvd) (by omega)
  | append xs zs hxs ih =>
      have hrest : n ∣ zs.length := by
        rw [List.length_append, hxs] at hdvd
        exact (Nat.dvd_add_right (Nat.dvd_refl n)).mp hdvd
      rw [List.append_assoc, chunks_append hn hxs, ih hrest, chunks_append hn hxs,
        List.cons_append]

/-- Elements that stand for `k` others each: chunks of them stand for chunks. -/
theorem chunks_flatMap {n k : Nat} (hn : 0 < n) (hk : 0 < k) {f : α → List β}
    (hf : ∀ x, (f x).length = k) (xs : List α) :
    chunks (n * k) (xs.flatMap f) = (chunks n xs).map fun c => c.flatMap f := by
  have hlen : ∀ xs : List α, (xs.flatMap f).length = xs.length * k := by
    intro xs
    induction xs with
    | nil => simp
    | cons x xs ih => rw [List.flatMap_cons, List.length_append, hf, ih, List.length_cons,
        Nat.succ_mul, Nat.add_comm]
  have hnk : 0 < n * k := Nat.mul_pos hn hk
  induction xs using chunks_induction hn with
  | nil => rfl
  | short xs hne hshort =>
      have hmul : xs.length * k ≤ n * k := Nat.mul_le_mul_right k (Nat.le_of_lt hshort)
      have hne' : xs.flatMap f ≠ [] := by
        intro h
        have hzero := hlen xs
        rw [h, List.length_nil, eq_comm, Nat.mul_eq_zero] at hzero
        have hpos := List.length_pos_of_ne_nil hne
        omega
      rw [chunks_of_length_le hnk hne' (hlen xs ▸ hmul),
        chunks_of_length_le hn hne (Nat.le_of_lt hshort)]
      rfl
  | append xs ys hxs ih =>
      rw [List.flatMap_append, chunks_append hnk (by rw [hlen, hxs]), ih, chunks_append hn hxs,
        List.map_cons]

theorem chunks_map {n : Nat} (hn : 0 < n) (f : α → β) (xs : List α) :
    chunks n (xs.map f) = (chunks n xs).map (List.map f) := by
  have hchunks := chunks_flatMap (k := 1) hn (by decide) (f := fun x => [f x]) (fun _ => rfl) xs
  simp only [Nat.mul_one, ← List.map_eq_flatMap] at hchunks
  exact hchunks

/-- The chunk at a position. -/
theorem getElem?_chunks {n : Nat} (hn : 0 < n) {i : Nat} {xs : List α} (h : n * i < xs.length) :
    (chunks n xs)[i]? = some ((xs.drop (n * i)).take n) := by
  induction i generalizing xs with
  | zero =>
      have hne : xs ≠ [] := List.ne_nil_of_length_pos (Nat.lt_of_le_of_lt (Nat.zero_le _) h)
      rw [chunks_eq_cons hn hne, Nat.mul_zero, List.drop_zero]
      rfl
  | succ i ih =>
      have hne : xs ≠ [] := List.ne_nil_of_length_pos (Nat.lt_of_le_of_lt (Nat.zero_le _) h)
      rw [Nat.mul_succ] at h
      have hrest : n * i < (xs.drop n).length := by
        rw [List.length_drop]
        omega
      rw [chunks_eq_cons hn hne, List.getElem?_cons_succ, ih hrest, List.drop_drop, Nat.mul_succ,
        Nat.add_comm]

/-- `xs.chunks_exact(n)`: a shorter chunk at the end is left out. -/
def chunksExact (n : Nat) (xs : List α) : List (List α) :=
  (chunks n xs).filter fun c => c.length = n

/-- Where the chunks come out even, none is left out. -/
theorem chunksExact_of_dvd {n : Nat} (hn : 0 < n) {xs : List α} (hdvd : n ∣ xs.length) :
    chunksExact n xs = chunks n xs ∧ ∀ c ∈ chunks n xs, c.length = n := by
  have hall : ∀ c ∈ chunks n xs, c.length = n := by
    induction xs using chunks_induction hn with
    | nil => simp
    | short xs hne hshort =>
        have hpos := List.length_pos_of_ne_nil hne
        exact absurd (Nat.le_of_dvd hpos hdvd) (by omega)
    | append xs ys hxs ih =>
        have hrest : n ∣ ys.length := by
          rw [List.length_append, hxs] at hdvd
          exact (Nat.dvd_add_right (Nat.dvd_refl n)).mp hdvd
        rw [chunks_append hn hxs, List.forall_mem_cons]
        exact ⟨hxs, ih hrest⟩
  refine ⟨?_, hall⟩
  rw [chunksExact, List.filter_eq_self]
  intro c hc
  exact decide_eq_true (hall c hc)

/-! ## Loops -/

/-- A `for` loop over a range of numbers: an invariant that each pass carries to
the next number holds at the end. -/
theorem foldlM_range' {f : σ → Nat → Eval φ σ} (inv : Nat → σ → Prop) {a n : Nat}
    (hstep : ∀ i, a ≤ i → i < a + n → ∀ s, inv i s → ∃ s', f s i = .ok s' ∧ inv (i + 1) s')
    {s : σ} (h : inv a s) : ∃ s', (List.range' a n).foldlM f s = .ok s' ∧ inv (a + n) s' := by
  induction n generalizing a s with
  | zero => exact ⟨s, rfl, h⟩
  | succ n ih =>
      obtain ⟨t, ht, hinv⟩ := hstep a (Nat.le_refl a) (by omega) s h
      obtain ⟨s', hs', hend⟩ := ih (a := a + 1)
        (fun i hi hlt => hstep i (by omega) (by omega)) hinv
      refine ⟨s', ?_, ?_⟩
      · rw [List.range'_succ, List.foldlM_cons, ht, ok_bind, hs']
      · rwa [Nat.add_assoc, Nat.add_comm 1] at hend

/-- What one pass through a loop body does: go round again with a new state,
or leave the loop (or the function) with a result. -/
inductive Flow (σ β : Type) where
  | next (s : σ)
  | done (b : β)

/-- A `while` loop run for at most `fuel` passes. -/
def loop (body : σ → Eval φ (Flow σ β)) : Nat → σ → Eval φ β
  | 0, _ => .error ⟨.unfinished, []⟩
  | fuel + 1, s =>
      match body s with
      | .error p => .error p
      | .ok (.done b) => .ok b
      | .ok (.next s') => loop body fuel s'

/-- The total-correctness rule: under an invariant the body never panics, a
pass that goes round again keeps the invariant and decreases the measure, and
a pass that leaves establishes the postcondition. Then a loop with more fuel
than the measure returns, and its result satisfies the postcondition. -/
theorem loop_total (body : σ → Eval φ (Flow σ β)) (inv : σ → Prop) (measure : σ → Nat)
    (post : β → Prop)
    (hbody : ∀ s, inv s → (∃ b, body s = .ok (.done b) ∧ post b) ∨
      ∃ s', body s = .ok (.next s') ∧ inv s' ∧ measure s' < measure s) :
    ∀ fuel s, inv s → measure s < fuel → ∃ b, loop body fuel s = .ok b ∧ post b := by
  -- the measure bounds the passes that are left, so the fuel outlasts them
  intro fuel
  induction fuel with
  | zero =>
      intro s _ hfuel
      omega
  | succ fuel ih =>
      intro s hinv hfuel
      rcases hbody s hinv with ⟨b, hb, hpost⟩ | ⟨s', hs', hinv', hlt⟩
      · exact ⟨b, by simp [loop, hb], hpost⟩
      · rcases ih s' hinv' (by omega) with ⟨b, hb, hpost⟩
        exact ⟨b, by simp [loop, hs', hb], hpost⟩

end Rust

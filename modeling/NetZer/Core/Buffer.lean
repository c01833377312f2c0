import NetZer.Lib.Bytes
import NetZer.Lib.Rust

/-! # Header buffers

The parsers of `netzer-core` cut a header off the front of a buffer and hand
on the rest, and the accessors read fixed offsets of the header slice. A `Buf`
carries the length its parser checked, so no accessor of an existing header
can leave its slice.

The parsers come in two shapes, a fixed length and a length read from the
header in units of four bytes. Each shape is stated once, with one theorem
that gives its result: neither can panic, and both are `cut` behind a length
check.
-/

namespace NetZer

open Rust Bytes

/-- The functions whose calls a panic records. -/
inductive Fn where
  | tlsClientHelloParse
  | truncate
deriving DecidableEq, Repr

/-- Evaluation of NetZer code: a value or a panic. -/
abbrev Run := Rust.Eval Fn

/-- `netzer_core::error::ParseError`. -/
inductive ParseError where
  | bufferTooShort
  | invalidFormat
deriving DecidableEq, Repr

/-- `Result<_, ParseError>`. -/
abbrev Result (α : Type) := Except ParseError α

/-! ## Buffers of a known least length -/

/-- A slice of at least `n` bytes. -/
structure Buf (n : Nat) where
  bytes : List UInt8
  le_length : n ≤ bytes.length

namespace Buf

variable {n : Nat} (b : Buf n)

/-- `self.buffer[i]`. -/
def u8 (i : Nat) : Run UInt8 :=
  index b.bytes i

/-- `let mut a = [0u8; k]; a.copy_from_slice(&self.buffer[i..j])`. -/
def array (k i j : Nat) : Run (Vector UInt8 k) := do
  let s ← slice b.bytes i j
  copyFromSlice k s.1

/-- `u16::from_be_bytes` of `self.buffer[i..j]`. -/
def u16 (i j : Nat) : Run UInt16 := do
  let bytes ← b.array 2 i j
  return be16 bytes[0] bytes[1]

variable {b}

theorem u8_ok {i : Nat} (h : i < n) : ∃ v, b.bytes[i]? = some v ∧ b.u8 i = .ok v := by
  have hlt : i < b.bytes.length := Nat.lt_of_lt_of_le h b.le_length
  exact ⟨b.bytes[i], List.getElem?_eq_getElem hlt, index_lt hlt⟩

theorem array_ok {k i : Nat} (h : i + k ≤ n) :
    ∃ v : Vector UInt8 k, v.toList = (b.bytes.drop i).take k ∧ b.array k i (i + k) = .ok v := by
  have hb : i + k ≤ b.bytes.length := Nat.le_trans h b.le_length
  have hlen : ((b.bytes.drop i).take (i + k - i)).length = k := by
    rw [slice_length _ hb]
    omega
  refine ⟨⟨((b.bytes.drop i).take (i + k - i)).toArray, by simpa using hlen⟩, by simp, ?_⟩
  simp only [array, bind, Except.bind, slice_ok _ (Nat.le_add_right i k) hb, copyFromSlice_ok hlen]

theorem u16_ok {i : Nat} (h : i + 2 ≤ n) :
    ∃ w, half b.bytes i = some w ∧ b.u16 i (i + 2) = .ok w := by
  have hb : i + 2 ≤ b.bytes.length := Nat.le_trans h b.le_length
  rcases array_ok (b := b) (k := 2) h with ⟨v, hv, hrun⟩
  -- the array holds the two bytes of the slice
  have h0 : v[0] = b.bytes[i] := by
    have : v.toList[0]? = some b.bytes[i] := by
      rw [hv]
      simp [show i < b.bytes.length by omega]
    simpa using this
  have h1 : v[1] = b.bytes[i + 1] := by
    have : v.toList[1]? = some b.bytes[i + 1] := by
      rw [hv]
      simp [show i + 1 < b.bytes.length by omega]
    simpa using this
  refine ⟨be16 b.bytes[i] b.bytes[i + 1], half_lt (by omega), ?_⟩
  simp [u16, hrun, bind, Except.bind, pure, Except.pure, h0, h1]

/-- A read inside the length gives what stands there. -/
theorem u8_eq {i : Nat} {v : UInt8} (h : b.bytes[i]? = some v) : b.u8 i = .ok v :=
  index_ok h

theorem array_eq {k i j : Nat} {v : Vector UInt8 k} (hij : j = i + k) (hj : j ≤ n)
    (h : (b.bytes.drop i).take k = v.toList) : b.array k i j = .ok v := by
  subst hij
  rcases array_ok (b := b) hj with ⟨v', hv', hrun⟩
  have hv : v' = v := Vector.toList_inj.mp (hv'.trans h)
  rw [hrun, hv]

theorem u16_eq {i j : Nat} {w : UInt16} (hij : j = i + 2) (hj : j ≤ n)
    (h : half b.bytes i = some w) : b.u16 i j = .ok w := by
  subst hij
  rcases u16_ok (b := b) hj with ⟨w', hw', hrun⟩
  have hw : w' = w := Option.some.inj (hw'.symm.trans h)
  rw [hrun, hw]

/-- No read inside the length a buffer carries panics. -/
theorem u8_returns {i : Nat} (h : i < n) : ∃ v, b.u8 i = .ok v := by
  rcases u8_ok (b := b) h with ⟨v, -, hv⟩
  exact ⟨v, hv⟩

theorem array_returns {k i j : Nat} (hij : j = i + k) (h : j ≤ n) :
    ∃ v, b.array k i j = .ok v := by
  subst hij
  rcases array_ok (b := b) h with ⟨v, -, hv⟩
  exact ⟨v, hv⟩

theorem u16_returns {i j : Nat} (hij : j = i + 2) (h : j ≤ n) : ∃ w, b.u16 i j = .ok w := by
  subst hij
  rcases u16_ok (b := b) h with ⟨w, -, hw⟩
  exact ⟨w, hw⟩

end Buf

/-! ## The two shapes of header parser -/

/-- A header of fixed length `n`, and the rest of the buffer. -/
def parseFixed {H : Type} (n : Nat) (mk : Buf n → H) (buffer : List UInt8) :
    Run (Result (H × List UInt8)) := do
  if buffer.length < n then
    return .error .bufferTooShort
  let header ← slice buffer 0 n
  let payload ← sliceFrom buffer n
  return .ok (mk ⟨header.1, by simp [header.2]⟩, payload)

/-- A header of at least `n` bytes whose length, in units of four bytes, is
read from the byte at offset `i`, and the rest of the buffer. -/
def parseScaled {H : Type} (n i : Nat) (units : UInt8 → UInt8) (mk : Buf n → H)
    (buffer : List UInt8) : Run (Result (H × List UInt8)) := do
  if buffer.length < n then
    return .error .bufferTooShort
  let b ← index buffer i
  let headerLen := (units b).toNat * 4
  -- a header that claims more than there is, or less than its fixed part
  if h : buffer.length < headerLen ∨ headerLen < n then
    return .error .invalidFormat
  else
    let header ← slice buffer 0 headerLen
    let payload ← sliceFrom buffer headerLen
    return .ok (mk ⟨header.1, by have := header.2; omega⟩, payload)

/-- The first `len` bytes as a header of at least `n`, and the rest. -/
def cut {H : Type} (n : Nat) (mk : Buf n → H) (buffer : List UInt8) (len : Nat) :
    Result (H × List UInt8) :=
  if h : n ≤ len ∧ len ≤ buffer.length then
    .ok (mk ⟨buffer.take len, by simp; omega⟩, buffer.drop len)
  else .error .invalidFormat

section

variable {H : Type} {n i len : Nat} {units : UInt8 → UInt8} {mk : Buf n → H}
variable {buffer rest : List UInt8} {hd : H}

theorem cut_ok_iff :
    cut n mk buffer len = .ok (hd, rest) ↔
      len ≤ buffer.length ∧ rest = buffer.drop len ∧
        ∃ h : n ≤ (buffer.take len).length, hd = mk ⟨buffer.take len, h⟩ := by
  unfold cut
  constructor
  · intro h
    split at h
    · next hlen =>
        simp only [Except.ok.injEq, Prod.mk.injEq] at h
        exact ⟨hlen.2, h.2.symm, by simp; omega, h.1.symm⟩
    · cases h
  · rintro ⟨hlen, rfl, hn, rfl⟩
    have hn' : n ≤ len := by simp at hn; omega
    rw [dif_pos ⟨hn', hlen⟩]

/-- What follows the header passes through to the rest. -/
theorem cut_append (pad : List UInt8) (h : cut n mk buffer len = .ok (hd, rest)) :
    cut n mk (buffer ++ pad) len = .ok (hd, rest ++ pad) := by
  rcases cut_ok_iff.mp h with ⟨hlen, rfl, hn, rfl⟩
  have htake : (buffer ++ pad).take len = buffer.take len := List.take_append_of_le_length hlen
  rw [cut_ok_iff]
  refine ⟨by simp; omega, (List.drop_append_of_le_length hlen).symm, ?_⟩
  simp only [htake, and_true, exists_prop]
  exact hn

theorem parseFixed_eq :
    parseFixed n mk buffer = .ok (if n ≤ buffer.length then cut n mk buffer n
      else .error .bufferTooShort) := by
  unfold parseFixed
  by_cases h : n ≤ buffer.length
  · have hlt : ¬ buffer.length < n := by omega
    simp [cut, h, hlt, slice_ok _ (Nat.zero_le n) h, sliceFrom_ok h, bind, Except.bind, pure,
      Except.pure]
  · have hlt : buffer.length < n := by omega
    simp [h, hlt, pure, Except.pure]

theorem parseScaled_eq (hi : i < n) :
    parseScaled n i units mk buffer = .ok (if n ≤ buffer.length then
      cut n mk buffer ((units (buffer.getD i 0)).toNat * 4) else .error .bufferTooShort) := by
  unfold parseScaled
  by_cases hn : n ≤ buffer.length
  · have hlt : ¬ buffer.length < n := by omega
    have hidx : i < buffer.length := by omega
    have hget : buffer.getD i 0 = buffer[i] := by simp [hidx]
    simp only [hlt, if_false, hn, if_true, index_lt hidx, bind, Except.bind, hget]
    by_cases h : n ≤ (units buffer[i]).toNat * 4 ∧ (units buffer[i]).toNat * 4 ≤ buffer.length
    · have hno : ¬ (buffer.length < (units buffer[i]).toNat * 4 ∨
          (units buffer[i]).toNat * 4 < n) := by omega
      simp [cut, h, hno, slice_ok _ (Nat.zero_le _) h.2, sliceFrom_ok h.2, pure, Except.pure]
    · have hyes : buffer.length < (units buffer[i]).toNat * 4 ∨
          (units buffer[i]).toNat * 4 < n := by omega
      simp [cut, h, hyes, pure, Except.pure]
  · have hlt : buffer.length < n := by omega
    simp [hn, hlt, pure, Except.pure]

/-- What a successful fixed-length parser returned. -/
theorem parseFixed_inv (h : parseFixed n mk buffer = .ok (.ok (hd, rest))) :
    n ≤ buffer.length ∧ rest = buffer.drop n ∧
      ∃ hn : n ≤ (buffer.take n).length, hd = mk ⟨buffer.take n, hn⟩ := by
  rw [parseFixed_eq] at h
  by_cases hlen : n ≤ buffer.length
  · simp only [hlen, if_true, Except.ok.injEq] at h
    rcases cut_ok_iff.mp h with ⟨-, hrest, hhd⟩
    exact ⟨hlen, hrest, hhd⟩
  · simp [hlen] at h

/-- What a successful parser of a length-scaled header returned. -/
theorem parseScaled_inv (hi : i < n)
    (h : parseScaled n i units mk buffer = .ok (.ok (hd, rest))) :
    ∃ b, buffer[i]? = some b ∧ n ≤ buffer.length ∧ n ≤ (units b).toNat * 4 ∧
      (units b).toNat * 4 ≤ buffer.length ∧ rest = buffer.drop ((units b).toNat * 4) ∧
      ∃ hn : n ≤ (buffer.take ((units b).toNat * 4)).length,
        hd = mk ⟨buffer.take ((units b).toNat * 4), hn⟩ := by
  rw [parseScaled_eq hi] at h
  by_cases hlen : n ≤ buffer.length
  · have hidx : i < buffer.length := by omega
    have hget : buffer.getD i 0 = buffer[i] := by simp [hidx]
    simp only [hlen, if_true, Except.ok.injEq, hget] at h
    rcases cut_ok_iff.mp h with ⟨hle, hrest, hn, hhd⟩
    refine ⟨buffer[i], List.getElem?_eq_getElem hidx, hlen, ?_, hle, hrest, hn, hhd⟩
    simp at hn
    omega
  · simp [hlen] at h

/-- A header of the right length in front of a rest is cut off it. -/
theorem parseFixed_header {header : List UInt8} (hlen : header.length = n)
    (hn : n ≤ header.length) (rest : List UInt8) :
    parseFixed n mk (header ++ rest) = .ok (.ok (mk ⟨header, hn⟩, rest)) := by
  have hle : n ≤ (header ++ rest).length := by
    rw [List.length_append]
    omega
  have htake : (header ++ rest).take n = header := List.take_left' hlen
  rw [parseFixed_eq, if_pos hle, Except.ok.injEq, cut_ok_iff]
  refine ⟨hle, (List.drop_left' hlen).symm, ?_⟩
  simp only [htake]
  exact ⟨hn, trivial⟩

/-- So is one whose length is the one it states. -/
theorem parseScaled_header (hi : i < n) {header : List UInt8} {b : UInt8}
    (hb : header[i]? = some b) (hlen : (units b).toNat * 4 = header.length)
    (hn : n ≤ header.length) (rest : List UInt8) :
    parseScaled n i units mk (header ++ rest) = .ok (.ok (mk ⟨header, hn⟩, rest)) := by
  have hle : header.length ≤ (header ++ rest).length := by simp
  have hget : (header ++ rest).getD i 0 = b := by
    rw [List.getD_eq_getElem?_getD, List.getElem?_append_left (by omega), hb, Option.getD_some]
  rw [parseScaled_eq hi, if_pos (Nat.le_trans hn hle), hget, hlen, Except.ok.injEq, cut_ok_iff]
  refine ⟨hle, List.drop_left.symm, ?_⟩
  simp only [List.take_left]
  exact ⟨hn, trivial⟩

/-- Bytes after the buffer end up after the payload. -/
theorem parseFixed_append (pad : List UInt8)
    (h : parseFixed n mk buffer = .ok (.ok (hd, rest))) :
    parseFixed n mk (buffer ++ pad) = .ok (.ok (hd, rest ++ pad)) := by
  have hlen := (parseFixed_inv h).1
  rw [parseFixed_eq] at h ⊢
  have hlen' : n ≤ (buffer ++ pad).length := by
    rw [List.length_append]
    omega
  simp only [hlen, if_true, Except.ok.injEq] at h
  simp only [hlen', if_true, cut_append pad h]

theorem parseScaled_append (hi : i < n) (pad : List UInt8)
    (h : parseScaled n i units mk buffer = .ok (.ok (hd, rest))) :
    parseScaled n i units mk (buffer ++ pad) = .ok (.ok (hd, rest ++ pad)) := by
  rcases parseScaled_inv hi h with ⟨b, hb, hlen, -⟩
  rw [parseScaled_eq hi] at h ⊢
  have hlen' : n ≤ (buffer ++ pad).length := by
    rw [List.length_append]
    omega
  have hget : (buffer ++ pad).getD i 0 = buffer.getD i 0 := by
    simp [List.getElem?_append_left (show i < buffer.length by omega)]
  simp only [hlen, if_true, Except.ok.injEq] at h
  simp only [hlen', if_true, hget, cut_append pad h]

/-- A fixed-length parser fails on short buffers only. -/
theorem parseFixed_error {e : ParseError} (h : parseFixed n mk buffer = .ok (.error e)) :
    buffer.length < n := by
  rw [parseFixed_eq] at h
  by_cases hlen : n ≤ buffer.length
  · simp [hlen, cut] at h
  · omega

/-- Neither shape of parser panics. -/
theorem parseFixed_returns (n : Nat) (mk : Buf n → H) (buffer : List UInt8) :
    ∃ r, parseFixed n mk buffer = .ok r :=
  ⟨_, parseFixed_eq⟩

theorem parseScaled_returns (hi : i < n) (units : UInt8 → UInt8) (mk : Buf n → H)
    (buffer : List UInt8) : ∃ r, parseScaled n i units mk buffer = .ok r :=
  ⟨_, parseScaled_eq hi⟩

/-- What padding does to a parser that returns and hands on the rest: it leaves
a failure, lets the parser succeed, or ends up behind the payload. -/
theorem parse_append_cases {parse : List UInt8 → Run (Result (H × List UInt8))}
    (hreturns : ∀ b, ∃ r, parse b = .ok r)
    (happend : ∀ {b hd rest}, parse b = .ok (.ok (hd, rest)) → ∀ pad,
      parse (b ++ pad) = .ok (.ok (hd, rest ++ pad))) (b pad : List UInt8) :
    (∃ e e', parse b = .ok (.error e) ∧ parse (b ++ pad) = .ok (.error e')) ∨
    (∃ e hd rest, parse b = .ok (.error e) ∧ parse (b ++ pad) = .ok (.ok (hd, rest))) ∨
    (∃ hd rest, parse b = .ok (.ok (hd, rest)) ∧
      parse (b ++ pad) = .ok (.ok (hd, rest ++ pad))) := by
  rcases hreturns b with ⟨res, hres⟩
  rcases hreturns (b ++ pad) with ⟨res', hres'⟩
  rcases res with e | ⟨hd, rest⟩
  -- a parser that fails may find a header once there is padding
  · rcases res' with e' | ⟨hd', rest'⟩
    · exact Or.inl ⟨e, e', hres, hres'⟩
    · exact Or.inr (Or.inl ⟨e, hd', rest', hres, hres'⟩)
  · exact Or.inr (Or.inr ⟨hd, rest, hres, happend hres pad⟩)

end

end NetZer

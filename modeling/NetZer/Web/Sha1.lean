import NetZer.Core.Buffer
import NetZer.Lib.Sha1

/-! # The SHA-1 of the handshake

`sha1` of `web/mod.rs`: the message is padded in a loop that pushes zeros, and
its chunks of 64 bytes are worked through with a schedule of 80 words and the
functions of the rounds written with disjunctions. It returns the standard's
digest.
-/

namespace NetZer

open Rust Bytes

/-- `h0` to `h4`, or `a` to `e`. -/
structure Sha1Vars where
  a : UInt32
  b : UInt32
  c : UInt32
  d : UInt32
  e : UInt32
deriving DecidableEq, Repr

/-- `h0` to `h4` at the beginning. -/
def sha1Initial : Sha1Vars :=
  { a := 0x67452301
    b := 0xEFCDAB89
    c := 0x98BADCFE
    d := 0x10325476
    e := 0xC3D2E1F0 }

/-- A pass of the loop that pads. The number of bits is a `usize` and wraps, as
it does in a release build. -/
def sha1PadStep (bytes : List UInt8) : Run (Flow (List UInt8) (List UInt8)) :=
  if bytes.length * 8 % 2 ^ 64 % 512 ≠ 448 then .ok (.next (bytes ++ [0x00])) else .ok (.done bytes)

/-- The padded message: at most 63 bytes are pushed by the loop. -/
def sha1Pad (data : List UInt8) : Run (List UInt8) := do
  let originalLenBits : UInt64 := UInt64.ofNat data.length * 8
  let bytes ← loop sha1PadStep 64 (data ++ [0x80])
  return bytes ++ Order.big.bytes 8 originalLenBits.toNat

/-- `w[i]` for the words of the chunk. -/
def sha1Load (chunk : List UInt8) (w : List UInt32) (i : Nat) : Run (List UInt32) := do
  let word := be32 (← index chunk (i * 4)) (← index chunk (i * 4 + 1))
    (← index chunk (i * 4 + 2)) (← index chunk (i * 4 + 3))
  store w i word

/-- `x.rotate_left(n)`. -/
def rotateLeft (x : UInt32) (n : Nat) : UInt32 :=
  ⟨x.toBitVec.rotateLeft n⟩

/-- `w[i]` for the other words. -/
def sha1Extend (w : List UInt32) (i : Nat) : Run (List UInt32) := do
  let w3 ← index w (← sub i 3)
  let w8 ← index w (← sub i 8)
  let w14 ← index w (← sub i 14)
  let w16 ← index w (← sub i 16)
  store w i (rotateLeft (w3 ^^^ w8 ^^^ w14 ^^^ w16) 1)

/-- The function and the constant of round `i`. -/
def sha1Function (i : Nat) (b c d : UInt32) : UInt32 × UInt32 :=
  if i ≤ 19 then ((b &&& c) ||| (~~~b &&& d), 0x5A827999)
  else if i ≤ 39 then (b ^^^ c ^^^ d, 0x6ED9EBA1)
  else if i ≤ 59 then ((b &&& c) ||| (b &&& d) ||| (c &&& d), 0x8F1BBCDC)
  else (b ^^^ c ^^^ d, 0xCA62C1D6)

/-- Round `i`. -/
def sha1Round (w : List UInt32) (v : Sha1Vars) (i : Nat) : Run Sha1Vars := do
  let (f, k) := sha1Function i v.b v.c v.d
  let temp := rotateLeft v.a 5 + f + v.e + k + (← index w i)
  return { a := temp, b := v.a, c := rotateLeft v.b 30, d := v.c, e := v.d }

/-- The schedule of a chunk. -/
def sha1Schedule (chunk : List UInt8) : Run (List UInt32) := do
  let w ← (List.range' 0 16).foldlM (sha1Load chunk) (List.replicate 80 0)
  (List.range' 16 64).foldlM sha1Extend w

/-- A chunk is worked into `h0` to `h4`. -/
def sha1Chunk (h : Sha1Vars) (chunk : List UInt8) : Run Sha1Vars := do
  let w ← sha1Schedule chunk
  let v ← (List.range' 0 80).foldlM (sha1Round w) h
  return { a := h.a + v.a, b := h.b + v.b, c := h.c + v.c, d := h.d + v.d, e := h.e + v.e }

def sha1 (data : List UInt8) : Run (List UInt8) := do
  let bytes ← sha1Pad data
  let h ← (chunksExact 64 bytes).foldlM sha1Chunk sha1Initial
  return be32Bytes h.a ++ be32Bytes h.b ++ be32Bytes h.c ++ be32Bytes h.d ++ be32Bytes h.e

/-! ## Padding -/

/-- The loop pushes as many zeros as are missing. -/
theorem loop_sha1Pad {bytes : List UInt8} {missing fuel : Nat} (hfuel : missing < fuel)
    (hmissing : missing < 64) (h : (bytes.length + missing) % 64 = 56) :
    loop sha1PadStep fuel bytes = .ok (bytes ++ List.replicate missing 0x00) := by
  -- a pass pushes one of the missing zeros
  induction missing generalizing bytes fuel with
  | zero =>
      cases fuel with
      | zero => omega
      | succ fuel =>
          have hend : ¬ bytes.length * 8 % 2 ^ 64 % 512 ≠ 448 := by omega
          rw [loop, sha1PadStep, if_neg hend, List.replicate_zero, List.append_nil]
  | succ missing ih =>
      cases fuel with
      | zero => omega
      | succ fuel =>
          have hmore : bytes.length * 8 % 2 ^ 64 % 512 ≠ 448 := by omega
          have hlen : ((bytes ++ [0x00]).length + missing) % 64 = 56 := by
            rw [List.length_append, List.length_singleton, Nat.add_assoc, Nat.add_comm 1]
            exact h
          rw [loop, sha1PadStep, if_pos hmore]
          dsimp only
          rw [ih (by omega) (by omega) hlen, List.append_assoc, List.replicate_succ]
          rfl

/-- The zeros the loop pushes behind a message of `n` bytes. -/
def sha1Zeros (n : Nat) : Nat :=
  (119 - n % 64) % 64

/-- Padding ends, with whole chunks. -/
theorem sha1Pad_ok (data : List UInt8) :
    ∃ bytes, sha1Pad data = .ok bytes ∧ 64 ∣ bytes.length ∧
      bytes = data ++ [0x80] ++ List.replicate (sha1Zeros data.length) 0x00 ++
        Order.big.bytes 8 (UInt64.ofNat data.length * 8).toNat := by
  have hzeros : ((data ++ [0x80]).length + sha1Zeros data.length) % 64 = 56 := by
    rw [List.length_append, List.length_singleton, sha1Zeros]
    omega
  have hlt : sha1Zeros data.length < 64 := Nat.mod_lt _ (by decide)
  refine ⟨_, ?_, ?_, rfl⟩
  · rw [sha1Pad, loop_sha1Pad hlt hlt hzeros]
    rfl
  · simp only [List.length_append, List.length_singleton, List.length_replicate,
      Order.big.length_bytes] at hzeros ⊢
    omega

theorem ofBytes_zeros (n : Nat) :
    Bits.ofBytes (List.replicate n 0x00) = List.replicate (8 * n) false := by
  induction n with
  | zero => rfl
  | succ n ih =>
      have hzero : Bits.ofNat 8 (0x00 : UInt8).toNat = List.replicate 8 false := rfl
      rw [List.replicate_succ, Bits.ofBytes_cons, ih, hzero, List.replicate_append_replicate,
        Nat.mul_succ, Nat.add_comm]

/-- The buffer after padding is the padded message of the standard. -/
theorem sha1Pad_eq {data : List UInt8} (h : data.length < 2 ^ 61) :
    ∃ bytes, sha1Pad data = .ok bytes ∧ 64 ∣ bytes.length ∧
      Bits.ofBytes bytes = Sha1.padded (Bits.ofBytes data) := by
  obtain ⟨bytes, hpad, hdvd, heq⟩ := sha1Pad_ok data
  refine ⟨bytes, hpad, hdvd, ?_⟩
  have hbits : (UInt64.ofNat data.length * 8).toNat = 8 * data.length := by
    rw [UInt64.toNat_mul, UInt64.toNat_ofNat']
    show data.length % 2 ^ 64 * 8 % 2 ^ 64 = 8 * data.length
    omega
  -- seven zeros go with the one, and no smaller number of bytes behind them will do
  have hleast : IsLeast {k | (8 * data.length + 1 + k) % 512 = 448}
      (7 + 8 * sha1Zeros data.length) := by
    constructor
    · show (8 * data.length + 1 + (7 + 8 * sha1Zeros data.length)) % 512 = 448
      unfold sha1Zeros
      omega
    · intro k hk
      have hroom : (8 * data.length + 1 + k) % 512 = 448 := hk
      unfold sha1Zeros
      omega
  have hzeros : Sha1.zeros (8 * data.length) = 7 + 8 * sha1Zeros data.length :=
    (Sha1.zeros_isLeast _).unique hleast
  have hone : Bits.ofBytes [0x80] = true :: List.replicate 7 false := rfl
  simp only [heq, hbits, Bits.ofBytes_append, hone, ofBytes_zeros, Bits.ofBytes_big, Sha1.padded,
    Bits.length_ofBytes, hzeros]
  rw [← List.replicate_append_replicate]
  simp only [List.append_assoc, List.cons_append]

/-! ## The schedule -/

/-- The words of a chunk, as the standard numbers them. -/
def blockOf (chunk : List UInt8) : List Sha1.Word :=
  Sha1.words (Bits.ofBytes chunk)

/-- The first words of the schedule are in their places. -/
structure Scheduled (chunk : List UInt8) (n : Nat) (w : List UInt32) : Prop where
  length_eq : w.length = 80
  words : ∀ t < n, ∃ x, w[t]? = some x ∧ x.toBitVec = Sha1.schedule (blockOf chunk) t

section

variable {chunk : List UInt8} {w : List UInt32} {i : Nat}

/-- One word more. -/
theorem Scheduled.store (h : Scheduled chunk i w) (hi : i < 80) {x : UInt32}
    (hx : x.toBitVec = Sha1.schedule (blockOf chunk) i) :
    ∃ w', (Rust.store w i x : Run _) = .ok w' ∧ Scheduled chunk (i + 1) w' := by
  have hlt : i < w.length := h.length_eq ▸ hi
  refine ⟨w.set i x, store_ok hlt x, ?_, ?_⟩
  · rw [List.length_set]
    exact h.length_eq
  · intro t ht
    by_cases heq : t = i
    · subst heq
      exact ⟨x, List.getElem?_set_self hlt, hx⟩
    · obtain ⟨y, hy, hword⟩ := h.words t (by omega)
      exact ⟨y, (List.getElem?_set_ne (Ne.symm heq)).trans hy, hword⟩

theorem take_four {bytes : List UInt8} {n : Nat} (h : n + 3 < bytes.length) :
    (bytes.drop n).take 4 = [bytes[n], bytes[n + 1], bytes[n + 2], bytes[n + 3]] := by
  rw [List.drop_eq_getElem_cons (by omega), List.drop_eq_getElem_cons (by omega : n + 1 < _),
    List.drop_eq_getElem_cons (by omega : n + 1 + 1 < _),
    List.drop_eq_getElem_cons (by omega : n + 1 + 1 + 1 < _)]
  rfl

/-- A word of the chunk is read from its four bytes. -/
theorem getElem?_blockOf (hlen : chunk.length = 64) (hi : i < 16) :
    (blockOf chunk)[i]? = some (Sha1.word (Bits.ofBytes ((chunk.drop (4 * i)).take 4))) := by
  have hchunks : Rust.chunks 32 (Bits.ofBytes chunk) = (Rust.chunks 4 chunk).map Bits.ofBytes :=
    Bits.chunks_mul_eight (n := 4) (by decide) chunk
  rw [blockOf, Sha1.words, hchunks, List.getElem?_map, List.getElem?_map,
    getElem?_chunks (n := 4) (by decide) (by omega), Option.map_some, Option.map_some]

theorem toBitVec_be32 (a b c d : UInt8) :
    (be32 a b c d).toBitVec = Sha1.word (Bits.ofBytes [a, b, c, d]) := by
  apply BitVec.eq_of_toNat_eq
  have hlt := (be32 a b c d).toNat_lt
  rw [UInt32.toNat_toBitVec, Sha1.word, BitVec.toNat_ofNat, ← Bits.toNat_be32,
    Nat.mod_eq_of_lt hlt]

theorem sha1Load_ok (hlen : chunk.length = 64) (hi : i < 16) (h : Scheduled chunk i w) :
    ∃ w', sha1Load chunk w i = .ok w' ∧ Scheduled chunk (i + 1) w' := by
  have hword : Sha1.schedule (blockOf chunk) i =
      Sha1.word (Bits.ofBytes ((chunk.drop (i * 4)).take 4)) := by
    rw [Sha1.schedule, if_pos hi, List.getD_eq_getElem?_getD, getElem?_blockOf hlen hi,
      Option.getD_some, Nat.mul_comm]
  rw [take_four (by omega), ← toBitVec_be32] at hword
  obtain ⟨w', hw', hnext⟩ := h.store (by omega) hword.symm
  refine ⟨w', ?_, hnext⟩
  rw [sha1Load, index_lt (by omega), ok_bind, index_lt (by omega), ok_bind, index_lt (by omega),
    ok_bind, index_lt (by omega), ok_bind, hw']

theorem toBitVec_rotateLeft (x : UInt32) {n : Nat} (hn : n < 32) :
    (rotateLeft x n).toBitVec = Sha1.rotl n x.toBitVec :=
  (Sha1.rotl_eq_rotateLeft hn x.toBitVec).symm

theorem sha1Extend_ok (hi : 16 ≤ i) (hlt : i < 80) (h : Scheduled chunk i w) :
    ∃ w', sha1Extend w i = .ok w' ∧ Scheduled chunk (i + 1) w' := by
  obtain ⟨w3, hw3, hword3⟩ := h.words (i - 3) (by omega)
  obtain ⟨w8, hw8, hword8⟩ := h.words (i - 8) (by omega)
  obtain ⟨w14, hw14, hword14⟩ := h.words (i - 14) (by omega)
  obtain ⟨w16, hw16, hword16⟩ := h.words (i - 16) (by omega)
  have hword : (rotateLeft (w3 ^^^ w8 ^^^ w14 ^^^ w16) 1).toBitVec =
      Sha1.schedule (blockOf chunk) i := by
    rw [Sha1.schedule, if_neg (by omega), toBitVec_rotateLeft _ (by decide), UInt32.toBitVec_xor,
      UInt32.toBitVec_xor, UInt32.toBitVec_xor, hword3, hword8, hword14, hword16]
  obtain ⟨w', hw', hnext⟩ := h.store hlt hword
  refine ⟨w', ?_, hnext⟩
  rw [sha1Extend, sub_ok (by omega), ok_bind, index_ok hw3, ok_bind, sub_ok (by omega), ok_bind,
    index_ok hw8, ok_bind, sub_ok (by omega), ok_bind, index_ok hw14, ok_bind, sub_ok (by omega),
    ok_bind, index_ok hw16, ok_bind, hw']

theorem sha1Schedule_ok (hlen : chunk.length = 64) :
    ∃ w, sha1Schedule chunk = .ok w ∧ Scheduled chunk 80 w := by
  have hstart : Scheduled chunk 0 (List.replicate 80 0) := ⟨List.length_replicate, by simp⟩
  obtain ⟨w, hw, hloaded⟩ := foldlM_range' (f := sha1Load chunk) (a := 0) (n := 16)
    (Scheduled chunk)
    (fun i _ hi w h => sha1Load_ok hlen (by omega) h) hstart
  obtain ⟨w', hw', hextended⟩ := foldlM_range' (f := sha1Extend) (a := 16) (n := 64)
    (Scheduled chunk) (fun i hi hlt w h => sha1Extend_ok hi hlt h) hloaded
  refine ⟨w', ?_, hextended⟩
  rw [sha1Schedule, hw, ok_bind, hw']

/-! ## The rounds -/

/-- The variables as the standard's. -/
def Sha1Vars.state (v : Sha1Vars) : Sha1.State :=
  ⟨v.a.toBitVec, v.b.toBitVec, v.c.toBitVec, v.d.toBitVec, v.e.toBitVec⟩

theorem sha1Function_eq (i : Nat) (b c d : UInt32) :
    (sha1Function i b c d).1.toBitVec = Sha1.f i b.toBitVec c.toBitVec d.toBitVec ∧
      (sha1Function i b c d).2.toBitVec = Sha1.k i := by
  unfold sha1Function Sha1.f Sha1.k
  by_cases h19 : i ≤ 19
  · rw [if_pos h19, if_pos (by omega), if_pos (by omega), Sha1.ch_eq_or]
    exact ⟨rfl, rfl⟩
  by_cases h39 : i ≤ 39
  · rw [if_neg h19, if_pos h39, if_neg (by omega), if_pos (by omega), if_neg (by omega),
      if_pos (by omega)]
    exact ⟨rfl, rfl⟩
  by_cases h59 : i ≤ 59
  · rw [if_neg h19, if_neg h39, if_pos h59, if_neg (by omega), if_neg (by omega),
      if_pos (by omega), if_neg (by omega), if_neg (by omega), if_pos (by omega), Sha1.maj_eq_or]
    exact ⟨rfl, rfl⟩
  · rw [if_neg h19, if_neg h39, if_neg h59, if_neg (by omega), if_neg (by omega),
      if_neg (by omega), if_neg (by omega), if_neg (by omega), if_neg (by omega)]
    exact ⟨rfl, rfl⟩

theorem sha1Round_ok (hi : i < 80) (h : Scheduled chunk 80 w) (v : Sha1Vars) :
    ∃ v', sha1Round w v i = .ok v' ∧ v'.state = Sha1.round (blockOf chunk) v.state i := by
  obtain ⟨x, hx, hword⟩ := h.words i hi
  obtain ⟨hf, hk⟩ := sha1Function_eq i v.b v.c v.d
  refine ⟨{
    a := rotateLeft v.a 5 + (sha1Function i v.b v.c v.d).1 + v.e +
      (sha1Function i v.b v.c v.d).2 + x
    b := v.a
    c := rotateLeft v.b 30
    d := v.c
    e := v.d }, ?_, ?_⟩
  · rw [sha1Round, index_ok hx]
    rfl
  · simp only [Sha1Vars.state, Sha1.round, UInt32.toBitVec_add,
      toBitVec_rotateLeft _ (by decide : 5 < 32), toBitVec_rotateLeft _ (by decide : 30 < 32), hf,
      hk, hword]

/-- A chunk is worked in by the standard's compression. -/
theorem sha1Chunk_ok (hlen : chunk.length = 64) (h : Sha1Vars) :
    ∃ h', sha1Chunk h chunk = .ok h' ∧ h'.state = Sha1.compress h.state (blockOf chunk) := by
  obtain ⟨w, hw, hscheduled⟩ := sha1Schedule_ok hlen
  -- the invariant of the loop: after `i` rounds the variables are those of the standard
  obtain ⟨v, hv, hrounds⟩ := foldlM_range' (f := sha1Round w) (a := 0) (n := 80)
    (fun i v => v.state = (List.range i).foldl (Sha1.round (blockOf chunk)) h.state)
    (fun i _ hi v hinv => by
      obtain ⟨v', hv', hround⟩ := sha1Round_ok (by omega) hscheduled v
      refine ⟨v', hv', ?_⟩
      rw [List.range_succ, List.foldl_append, hround, hinv]
      rfl) (s := h) rfl
  refine ⟨{
    a := h.a + v.a
    b := h.b + v.b
    c := h.c + v.c
    d := h.d + v.d
    e := h.e + v.e }, ?_, ?_⟩
  · rw [sha1Chunk, hw, ok_bind, hv]
    rfl
  · rw [Sha1.compress, ← hrounds]
    rfl

/-- Chunk after chunk. -/
theorem foldlM_sha1Chunk {chunks : List (List UInt8)} (hlen : ∀ c ∈ chunks, c.length = 64)
    (h : Sha1Vars) :
    ∃ h', chunks.foldlM sha1Chunk h = .ok h' ∧
      h'.state = (chunks.map blockOf).foldl Sha1.compress h.state := by
  induction chunks generalizing h with
  | nil => exact ⟨h, rfl, rfl⟩
  | cons chunk chunks ih =>
      rw [List.forall_mem_cons] at hlen
      obtain ⟨h1, hchunk, hcompress⟩ := sha1Chunk_ok hlen.1 h
      obtain ⟨h2, hrest, hend⟩ := ih hlen.2 h1
      refine ⟨h2, ?_, ?_⟩
      · rw [List.foldlM_cons, hchunk, ok_bind, hrest]
      · rw [hend, hcompress, List.map_cons, List.foldl_cons]

end

/-! ## The digest -/

/-- The chunks of the buffer are whole ones. -/
theorem foldlM_chunksExact {bytes : List UInt8} (hdvd : 64 ∣ bytes.length) (n : Nat) :
    ∃ h, ((chunksExact 64 bytes).take n).foldlM sha1Chunk sha1Initial = .ok h ∧
      h.state = (((chunksExact 64 bytes).take n).map blockOf).foldl Sha1.compress Sha1.initial := by
  obtain ⟨heq, hlen⟩ := chunksExact_of_dvd (by decide : 0 < 64) hdvd
  refine foldlM_sha1Chunk (fun c hc => hlen c ?_) sha1Initial
  exact heq ▸ List.mem_of_mem_take hc

theorem ofBytes_out (h : Sha1Vars) :
    Bits.ofBytes (be32Bytes h.a ++ be32Bytes h.b ++ be32Bytes h.c ++ be32Bytes h.d ++
      be32Bytes h.e) = h.state.bits := by
  simp only [Bits.ofBytes_append, Bits.ofBytes_be32Bytes]
  simp [Sha1Vars.state, Sha1.State.bits]

/-- What `sha1` returns is the hash value after the last block. -/
theorem sha1_of_pad {data bytes : List UInt8} (hpad : sha1Pad data = .ok bytes)
    (hdvd : 64 ∣ bytes.length) :
    ∃ out, sha1 data = .ok out ∧ out.length = 20 ∧
      Bits.ofBytes out =
        (((chunksExact 64 bytes).map blockOf).foldl Sha1.compress Sha1.initial).bits := by
  obtain ⟨h, hfold, hstate⟩ := foldlM_chunksExact hdvd (chunksExact 64 bytes).length
  rw [List.take_length] at hfold hstate
  refine ⟨be32Bytes h.a ++ be32Bytes h.b ++ be32Bytes h.c ++ be32Bytes h.d ++ be32Bytes h.e,
    ?_, rfl, ?_⟩
  · rw [sha1, hpad, ok_bind, hfold]
    rfl
  · rw [ofBytes_out, hstate]

/-- The chunks of the padded message are its blocks. -/
theorem map_blockOf {data bytes : List UInt8} (hdvd : 64 ∣ bytes.length)
    (hpadded : Bits.ofBytes bytes = Sha1.padded (Bits.ofBytes data)) :
    (chunksExact 64 bytes).map blockOf = Sha1.blocks (Bits.ofBytes data) := by
  rw [(chunksExact_of_dvd (by decide) hdvd).1, Sha1.blocks, ← hpadded,
    Bits.chunks_mul_eight (n := 64) (by decide), List.map_map]
  rfl

/-- `sha1` returns, also for a message whose number of bits wraps. -/
theorem sha1_ok (data : List UInt8) : ∃ out, sha1 data = .ok out := by
  obtain ⟨bytes, hpad, hdvd, _⟩ := sha1Pad_ok data
  obtain ⟨out, hout, _⟩ := sha1_of_pad hpad hdvd
  exact ⟨out, hout⟩

theorem sha1_digest {data out : List UInt8} (h : data.length < 2 ^ 61)
    (hout : sha1 data = .ok out) : Bits.ofBytes out = Sha1.digest (Bits.ofBytes data) := by
  obtain ⟨bytes, hpad, hdvd, hpadded⟩ := sha1Pad_eq h
  obtain ⟨out', hout', _, hbits⟩ := sha1_of_pad hpad hdvd
  rw [map_blockOf hdvd hpadded, ← Except.ok.inj (hout.symm.trans hout')] at hbits
  exact hbits

/-- Below `2 ^ 61` bytes the buffer is the standard's padded message, the hash
value is the standard's after each of the blocks, and what is returned is the
digest. -/
theorem sha1_standard (data : List UInt8) (h : data.length < 2 ^ 61) :
    ∃ bytes out, sha1Pad data = .ok bytes ∧ 64 ∣ bytes.length ∧
      Bits.ofBytes bytes = Sha1.padded (Bits.ofBytes data) ∧
      (chunksExact 64 bytes).length = (Sha1.blocks (Bits.ofBytes data)).length ∧
      (∀ n, ∃ v, ((chunksExact 64 bytes).take n).foldlM sha1Chunk sha1Initial = .ok v ∧
        v.state = ((Sha1.blocks (Bits.ofBytes data)).take n).foldl Sha1.compress Sha1.initial) ∧
      sha1 data = .ok out ∧ out.length = 20 ∧
        Bits.ofBytes out = Sha1.digest (Bits.ofBytes data) := by
  obtain ⟨bytes, hpad, hdvd, hpadded⟩ := sha1Pad_eq h
  have hblocks := map_blockOf hdvd hpadded
  obtain ⟨out, hout, hlen, _⟩ := sha1_of_pad hpad hdvd
  refine ⟨bytes, out, hpad, hdvd, hpadded, ?_, ?_, hout, hlen, sha1_digest h hout⟩
  · rw [← hblocks, List.length_map]
  · intro n
    rw [← hblocks, ← List.map_take]
    exact foldlM_chunksExact hdvd n

/-- The three bytes `abc`. -/
theorem sha1_standard_abc :
    ∃ bytes out, sha1Pad [0x61, 0x62, 0x63] = .ok bytes ∧ 64 ∣ bytes.length ∧
      Bits.ofBytes bytes = Sha1.padded (Bits.ofBytes [0x61, 0x62, 0x63]) ∧
      (chunksExact 64 bytes).length = (Sha1.blocks (Bits.ofBytes [0x61, 0x62, 0x63])).length ∧
      (∀ n, ∃ v, ((chunksExact 64 bytes).take n).foldlM sha1Chunk sha1Initial = .ok v ∧
        v.state = ((Sha1.blocks (Bits.ofBytes [0x61, 0x62, 0x63])).take n).foldl Sha1.compress
          Sha1.initial) ∧
      sha1 [0x61, 0x62, 0x63] = .ok out ∧ out.length = 20 ∧
      Bits.ofBytes out = Sha1.digest (Bits.ofBytes [0x61, 0x62, 0x63]) :=
  sha1_standard [0x61, 0x62, 0x63] (by decide)

example :
    sha1 [0x61, 0x62, 0x63] = .ok
      [0xa9, 0x99, 0x3e, 0x36, 0x47, 0x06, 0x81, 0x6a, 0xba, 0x3e,
        0x25, 0x71, 0x78, 0x50, 0xc2, 0x6c, 0x9c, 0xd0, 0xd8, 0x9d] := by
  decide +kernel

end NetZer

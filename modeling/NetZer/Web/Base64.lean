import NetZer.Core.Buffer
import NetZer.Lib.Base64

/-! # The Base64 of the handshake

`base64_encode` of `web/mod.rs` goes through the bytes in steps of three, with
shifts of their own for a last chunk of two bytes and of one. What it writes is
the standard encoding.
-/

namespace NetZer

open Rust

/-- `ALPHABET`, as characters. -/
def base64Alphabet : List Char :=
  "ABCDEFGHIJKLMNOPQRSTUVWXYZabcdefghijklmnopqrstuvwxyz0123456789+/".toList

/-- `ALPHABET[((b >> shift) & 0x3f) as usize] as char`. -/
def base64Letter (b shift : UInt32) : Run Char :=
  index base64Alphabet ((b >>> shift) &&& 0x3f).toNat

/-- What is pushed for a chunk. -/
def base64Chunk (chunk : List UInt8) : Run (List Char) := do
  let b : UInt32 := chunk.foldl (fun b val => (b <<< 8) ||| val.toUInt32) 0
  if chunk.length = 3 then
    return [← base64Letter b 18, ← base64Letter b 12, ← base64Letter b 6, ← base64Letter b 0]
  else if chunk.length = 2 then
    let b := b <<< 2
    return [← base64Letter b 12, ← base64Letter b 6, ← base64Letter b 0, '=']
  else if chunk.length = 1 then
    let b := b <<< 4
    return [← base64Letter b 6, ← base64Letter b 0, '=', '=']
  else
    return []

/-- A pass of the loop, at a position and with what has been written. -/
def base64Step (data : List UInt8) : Nat × String → Run (Flow (Nat × String) String)
  | (i, result) => do
      if i < data.length then
        let chunk ← slice data i (min (i + 3) data.length)
        return .next (i + 3, result ++ String.ofList (← base64Chunk chunk.1))
      else
        return .done result

/-- `base64_encode`: each pass takes at least a byte. -/
def base64Encode (data : List UInt8) : Run String :=
  loop (base64Step data) (data.length + 1) (0, "")

example : base64Encode [0x4d, 0x61, 0x6e, 0x4d] = .ok "TWFuTQ==" := by decide

/-! ## A chunk -/

theorem base64Alphabet_getElem : ∀ v < 64, base64Alphabet[v]? = some (Base64.letter v) := by
  decide

theorem base64Letter_eq (b : UInt32) {shift : UInt32} (h : shift.toNat < 32) :
    base64Letter b shift = .ok (Base64.letter (b.toNat / 2 ^ shift.toNat % 64)) := by
  have hvalue : ((b >>> shift) &&& 0x3f).toNat = b.toNat / 2 ^ shift.toNat % 64 := by
    rw [UInt32.toNat_and, UInt32.toNat_shiftRight, Nat.mod_eq_of_lt h,
      Nat.shiftRight_eq_div_pow]
    exact Nat.and_two_pow_sub_one_eq_mod _ 6
  rw [base64Letter, hvalue]
  exact index_ok (base64Alphabet_getElem _ (Nat.mod_lt _ (by decide)))

/-- One byte more. -/
theorem toNat_shiftLeft_or {b : UInt32} (h : b.toNat < 2 ^ 24) (val : UInt8) :
    ((b <<< 8) ||| val.toUInt32).toNat = b.toNat * 256 + val.toNat := by
  have hshift : (b <<< 8).toNat = b.toNat <<< 8 := by
    rw [UInt32.toNat_shiftLeft]
    apply Nat.mod_eq_of_lt
    show b.toNat <<< 8 < 2 ^ 32
    rw [Nat.shiftLeft_eq]
    omega
  rw [UInt32.toNat_or, hshift, UInt8.toNat_toUInt32,
    ← Nat.shiftLeft_add_eq_or_of_lt val.toNat_lt, Nat.shiftLeft_eq]

theorem toNat_shiftLeft_of_lt {b k : UInt32} {m : Nat} (hk : k.toNat < 32)
    (h : b.toNat < 2 ^ m) (hm : m + k.toNat ≤ 32) :
    (b <<< k).toNat = b.toNat * 2 ^ k.toNat := by
  rw [UInt32.toNat_shiftLeft, Nat.mod_eq_of_lt hk, Nat.shiftLeft_eq]
  apply Nat.mod_eq_of_lt
  calc b.toNat * 2 ^ k.toNat < 2 ^ m * 2 ^ k.toNat :=
        Nat.mul_lt_mul_of_pos_right h (Nat.two_pow_pos _)
    _ = 2 ^ (m + k.toNat) := (Nat.pow_add 2 m k.toNat).symm
    _ ≤ 2 ^ 32 := Nat.pow_le_pow_right (by decide) hm

/-- The number the bytes of a chunk are shifted together to has their bits. -/
theorem chunk_bits {chunk : List UInt8} (hlen : chunk.length ≤ 4) :
    let b : UInt32 := chunk.foldl (fun b val => (b <<< 8) ||| val.toUInt32) 0
    b.toNat < 2 ^ (8 * chunk.length) ∧
      Bits.ofBytes chunk = Bits.ofNat (8 * chunk.length) b.toNat := by
  induction chunk using List.reverseRecOn with
  | nil => exact ⟨by decide, rfl⟩
  | append_singleton chunk val ih =>
      rw [List.length_append, List.length_singleton] at hlen
      obtain ⟨hlt, hbits⟩ := ih (by omega)
      have hval := val.toNat_lt
      have hthree : 2 ^ (8 * chunk.length) ≤ 2 ^ 24 := Nat.pow_le_pow_right (by decide) (by omega)
      have hmore : 2 ^ (8 * (chunk.length + 1)) = 2 ^ (8 * chunk.length) * 256 := by
        rw [Nat.mul_succ, Nat.pow_add]
      simp only [List.foldl_append, List.foldl_cons, List.foldl_nil, List.length_append,
        List.length_singleton]
      rw [toNat_shiftLeft_or (Nat.lt_of_lt_of_le hlt hthree), Bits.ofBytes_append, hbits]
      refine ⟨?_, Bits.ofNat_append _ _ hval⟩
      rw [hmore]
      omega

/-- A chunk is written as the standard has it, whichever its length. -/
theorem base64Chunk_eq {chunk : List UInt8} (hpos : 0 < chunk.length) (hlen : chunk.length ≤ 3) :
    base64Chunk chunk = .ok (Base64.encode chunk).toList := by
  obtain ⟨hlt, hbits⟩ := chunk_bits (Nat.le_succ_of_le hlen)
  rw [Base64.toList_encode]
  unfold base64Chunk
  generalize chunk.foldl (fun (b : UInt32) val => (b <<< 8) ||| val.toUInt32) 0 = b at hlt hbits
  -- as many letters as the chunk has groups of six bits, begun or whole
  have hcases : chunk.length = 3 ∨ chunk.length = 2 ∨ chunk.length = 1 := by omega
  rcases hcases with h | h | h
  · have hgroups : Bits.ofBytes chunk =
        [b.toNat / 2 ^ 18, b.toNat / 2 ^ 12, b.toNat / 2 ^ 6].flatMap (Bits.ofNat 6) ++
          Bits.ofNat 6 b.toNat := by
      rw [hbits, h, Bits.ofNat_add 6 18, Bits.ofNat_add 6 12, Bits.ofNat_add 6 6]
      simp
    rw [Base64.letters_of_groups (Nat.le_refl 6) (by decide) hgroups]
    simp [base64Letter_eq, ok_bind, h]
  · -- two bits are missing in the last group
    have hgroups : Bits.ofBytes chunk =
        [b.toNat / 2 ^ 10, b.toNat / 2 ^ 4].flatMap (Bits.ofNat 6) ++ Bits.ofNat 4 b.toNat := by
      rw [hbits, h, Bits.ofNat_add 6 10, Bits.ofNat_add 6 4]
      simp
    rw [h] at hlt
    have hshift := toNat_shiftLeft_of_lt (k := 2) (by decide) hlt (by decide)
    rw [Base64.letters_of_groups (by decide) (by decide) hgroups]
    have hfirst : b.toNat * 4 / 4096 % 64 = b.toNat / 1024 % 64 := by omega
    have hsecond : b.toNat * 4 / 64 % 64 = b.toNat / 16 % 64 := by omega
    simp [base64Letter_eq, ok_bind, h, hshift, hfirst, hsecond]
  · -- four bits are missing
    have hgroups : Bits.ofBytes chunk =
        [b.toNat / 2 ^ 2].flatMap (Bits.ofNat 6) ++ Bits.ofNat 2 b.toNat := by
      rw [hbits, h, Bits.ofNat_add 6 2]
      simp
    rw [h] at hlt
    have hshift := toNat_shiftLeft_of_lt (k := 4) (by decide) hlt (by decide)
    rw [Base64.letters_of_groups (by decide) (by decide) hgroups]
    have hfirst : b.toNat * 16 / 64 % 64 = b.toNat / 4 % 64 := by omega
    simp [base64Letter_eq, ok_bind, h, hshift, hfirst]

/-! ## The loop -/

/-- From a position on, the encoding of the rest is added. -/
theorem loop_base64 (data : List UInt8) {i fuel : Nat} (hfuel : data.length - i < fuel)
    (result : String) :
    loop (base64Step data) fuel (i, result) =
      .ok (result ++ Base64.encode (data.drop i)) := by
  induction fuel generalizing i result with
  | zero => omega
  | succ fuel ih =>
      rw [loop]
      by_cases hi : i < data.length
      · have hslice := slice_ok (φ := Fn) data (Nat.le_min.mpr ⟨Nat.le_add_right i 3,
          Nat.le_of_lt hi⟩) (Nat.min_le_right (i + 3) data.length)
        have htake : (data.drop i).take (min (i + 3) data.length - i) = (data.drop i).take 3 := by
          rw [List.take_eq_take_iff, List.length_drop]
          omega
        have hlen : ((data.drop i).take 3).length = min 3 (data.length - i) := by
          rw [List.length_take, List.length_drop]
        have hpos : 0 < ((data.drop i).take 3).length := by omega
        have hchunk := base64Chunk_eq hpos (List.length_take_le 3 (data.drop i))
        -- a chunk of three is followed by more, or by nothing; a shorter one by nothing
        have hrest : Base64.encode (data.drop i) =
            Base64.encode ((data.drop i).take 3) ++ Base64.encode (data.drop (i + 3)) := by
          by_cases hthree : i + 3 ≤ data.length
          · rw [← Base64.encode_append (by omega), ← List.drop_drop, List.take_append_drop]
          · rw [List.take_of_length_le (by rw [List.length_drop]; omega),
              List.drop_of_length_le (by omega : data.length ≤ i + 3), Base64.encode_nil,
              String.append_empty]
        have hstep : base64Step data (i, result) = .ok (.next (i + 3,
            result ++ Base64.encode ((data.drop i).take 3))) := by
          simp only [base64Step, if_pos hi, hslice, ok_bind, htake, hchunk, String.ofList_toList]
          rfl
        rw [hstep]
        dsimp only
        rw [ih (by omega), hrest, String.append_assoc]
      · have hstep : base64Step data (i, result) = .ok (.done result) := by
          simp only [base64Step, if_neg hi]
          rfl
        rw [hstep, List.drop_of_length_le (Nat.le_of_not_lt hi), Base64.encode_nil,
          String.append_empty]

theorem base64Encode_eq (data : List UInt8) : base64Encode data = .ok (Base64.encode data) := by
  rw [base64Encode, loop_base64 data (by omega), List.drop_zero, String.empty_append]

/-- `base64_encode` returns the standard encoding: in length, in its padding and
in the bits that belong to no byte; a strict decoder gets the bytes back, so no
other bytes are encoded alike. -/
theorem base64Encode_standard (data : List UInt8) :
    ∃ s, base64Encode data = .ok s ∧ s = Base64.encode data ∧
      s.length = 4 * ((data.length + 2) / 3) ∧
      (∃ letters, s.toList = letters ++ List.replicate ((3 - data.length % 3) % 3) '=' ∧
        (∀ c ∈ letters, c ≠ '=') ∧
        Base64.bitsOf letters = some (Bits.ofBytes data ++
          List.replicate (2 * ((3 - data.length % 3) % 3)) false)) ∧
      Base64.decode s = some data ∧
      ∀ data', base64Encode data' = .ok s → data' = data := by
  refine ⟨_, base64Encode_eq data, rfl, Base64.length_encode data, ?_,
    Base64.decode_encode data, ?_⟩
  · refine ⟨Base64.letters data, Base64.toList_encode data, ?_, Base64.bitsOf_letters data⟩
    intro c hc
    simpa using Base64.letters_ne_padding data c hc
  · intro data' h
    rw [base64Encode_eq, Except.ok.injEq] at h
    exact Base64.encode_injective h

end NetZer

import NetZer.Lib.Bits
import NetZer.Lib.Text

/-! # Base64

The standard encoding of RFC 4648: the bits of the bytes in groups of six, the
last of them filled up with zeros, a letter for each, and padding up to a
multiple of four. The decoder is strict: it takes nothing but what the encoder
can have written.
-/

namespace Base64

open Rust (chunks)

/-- The alphabet. -/
def letter (v : Nat) : Char :=
  if v < 26 then Char.ofNat ('A'.toNat + v)
  else if v < 52 then Char.ofNat ('a'.toNat + (v - 26))
  else if v < 62 then Char.ofNat ('0'.toNat + (v - 52))
  else if v = 62 then '+' else '/'

def value (c : Char) : Option Nat :=
  if 'A' ≤ c ∧ c ≤ 'Z' then some (c.toNat - 'A'.toNat)
  else if 'a' ≤ c ∧ c ≤ 'z' then some (c.toNat - 'a'.toNat + 26)
  else if '0' ≤ c ∧ c ≤ '9' then some (c.toNat - '0'.toNat + 52)
  else if c = '+' then some 62
  else if c = '/' then some 63
  else none

/-- A group of bits, filled up. -/
def fill (bs : List Bool) : List Bool :=
  bs ++ List.replicate (6 - bs.length) false

/-- The letters in front of the padding. -/
def letters (bytes : List UInt8) : List Char :=
  (chunks 6 (Bits.ofBytes bytes)).map fun group => letter (Bits.toNat (fill group))

def encode (bytes : List UInt8) : String :=
  String.ofList (letters bytes ++ List.replicate ((4 - (letters bytes).length % 4) % 4) '=')

/-- The letters of a text, up to its padding. -/
def lettersOf (s : String) : List Char :=
  s.toList.takeWhile (· != '=')

/-- The bits of letters. -/
def bitsOf (cs : List Char) : Option (List Bool) :=
  (cs.mapM value).map fun values => values.flatMap (Bits.ofNat 6)

/-- Letters in fours, the last of them perhaps padded; nothing else anywhere, and
no bit that is set but belongs to no byte. -/
def decode (s : String) : Option (List UInt8) :=
  let padding := s.toList.drop (lettersOf s).length
  if s.length % 4 ≠ 0 ∨ 2 < padding.length ∨ padding.any (· != '=') then none
  else
    match bitsOf (lettersOf s) with
    | none => none
    | some bits =>
        let whole := bits.length / 8 * 8
        if (bits.drop whole).any id then none
        else some ((chunks 8 (bits.take whole)).map fun bs => UInt8.ofNat (Bits.toNat bs))

example : decode "aGk=" = some [0x68, 0x69] ∧ decode "aGl=" = none ∧ decode "aGk" = none ∧
    decode "aG=k" = none ∧ decode "a===" = none := by decide

/-! ## Letters and bits -/

theorem value_letter : ∀ v < 64, value (letter v) = some v := by
  decide

theorem letter_ne_padding : ∀ v < 64, (letter v != '=') = true := by
  decide

theorem length_fill {bs : List Bool} (h : bs.length ≤ 6) : (fill bs).length = 6 := by
  rw [fill, List.length_append, List.length_replicate]
  omega

theorem toNat_fill_lt {bs : List Bool} (h : bs.length ≤ 6) : Bits.toNat (fill bs) < 64 := by
  have hlt := Bits.toNat_lt (fill bs)
  rwa [length_fill h] at hlt

theorem mapM_value {vs : List Nat} (h : ∀ v ∈ vs, v < 64) :
    (vs.map letter).mapM value = some vs := by
  induction vs with
  | nil => rfl
  | cons v vs ih =>
      rw [List.forall_mem_cons] at h
      rw [List.map_cons, List.mapM_cons, value_letter v h.1, ih h.2]
      rfl

/-- The groups together are the bits, filled up. -/
theorem flatMap_fill (bs : List Bool) :
    (chunks 6 bs).flatMap fill = bs ++ List.replicate ((6 - bs.length % 6) % 6) false := by
  induction bs using Rust.chunks_induction (Nat.succ_pos 5) with
  | nil => rfl
  | short bs hne hshort =>
      have hpos := List.length_pos_of_ne_nil hne
      have hcount : (6 - bs.length % 6) % 6 = 6 - bs.length := by omega
      rw [Rust.chunks_of_length_le (by decide) hne (Nat.le_of_lt hshort), hcount]
      simp [fill]
  | append bs cs hbs ih =>
      have hcount : (6 - (bs ++ cs).length % 6) % 6 = (6 - cs.length % 6) % 6 := by
        rw [List.length_append]
        omega
      have hfull : fill bs = bs := by
        rw [fill, hbs, Nat.sub_self, List.replicate_zero, List.append_nil]
      rw [Rust.chunks_append (by decide) hbs, List.flatMap_cons, ih, hfull, hcount,
        List.append_assoc]

section

variable (bytes : List UInt8)

theorem length_letters : (letters bytes).length = (8 * bytes.length + 5) / 6 := by
  rw [letters, List.length_map, Rust.length_chunks (by decide), Bits.length_ofBytes]
  rfl

/-- No letter is padding. -/
theorem letters_ne_padding : ∀ c ∈ letters bytes, (c != '=') = true := by
  intro c hc
  obtain ⟨group, hgroup, rfl⟩ := List.mem_map.mp hc
  exact letter_ne_padding _ (toNat_fill_lt (Rust.length_le_of_mem_chunks hgroup))

theorem mem_encode {c : Char} (hc : c ∈ (encode bytes).toList) :
    (∃ v < 64, c = letter v) ∨ c = '=' := by
  rw [encode, String.toList_ofList, List.mem_append] at hc
  rcases hc with hletter | hpadding
  · left
    rcases List.mem_map.mp hletter with ⟨group, hgroup, rfl⟩
    exact ⟨_, toNat_fill_lt (Rust.length_le_of_mem_chunks hgroup), rfl⟩
  · right
    exact List.eq_of_mem_replicate hpadding

/-- The letters are padded as the number of bytes requires. -/
theorem toList_encode :
    (encode bytes).toList =
      letters bytes ++ List.replicate ((3 - bytes.length % 3) % 3) '=' := by
  have hcount : (4 - (letters bytes).length % 4) % 4 = (3 - bytes.length % 3) % 3 := by
    have hcases : bytes.length % 3 = 0 ∨ bytes.length % 3 = 1 ∨ bytes.length % 3 = 2 := by omega
    rw [length_letters]
    rcases hcases with h | h | h <;> rw [h] <;> omega
  rw [encode, String.toList_ofList, hcount]

theorem length_encode : (encode bytes).length = 4 * ((bytes.length + 2) / 3) := by
  rw [← String.length_toList, toList_encode, List.length_append, List.length_replicate,
    length_letters]
  omega

theorem lettersOf_encode : lettersOf (encode bytes) = letters bytes := by
  rw [lettersOf, toList_encode, List.takeWhile_append_of_pos (letters_ne_padding bytes),
    List.takeWhile_replicate]
  simp

/-- The letters are the bits of the bytes and zeros. -/
theorem bitsOf_letters :
    bitsOf (letters bytes) = some
      (Bits.ofBytes bytes ++ List.replicate (2 * ((3 - bytes.length % 3) % 3)) false) := by
  have hgroups : ∀ group ∈ chunks 6 (Bits.ofBytes bytes), group.length ≤ 6 := fun group h =>
    Rust.length_le_of_mem_chunks h
  have hvalues : (letters bytes).mapM value =
      some ((chunks 6 (Bits.ofBytes bytes)).map fun group => Bits.toNat (fill group)) := by
    have hlt : ∀ v ∈ (chunks 6 (Bits.ofBytes bytes)).map fun group => Bits.toNat (fill group),
        v < 64 := by
      rw [List.forall_mem_map]
      exact fun group hgroup => toNat_fill_lt (hgroups group hgroup)
    rw [← mapM_value hlt, List.map_map]
    rfl
  have hfilled : ((chunks 6 (Bits.ofBytes bytes)).map fun group =>
      Bits.toNat (fill group)).flatMap (Bits.ofNat 6) =
        (chunks 6 (Bits.ofBytes bytes)).flatMap fill := by
    rw [List.flatMap_map]
    apply List.flatMap_congr
    intro group hgroup
    rw [← length_fill (hgroups group hgroup), Bits.ofNat_toNat]
  -- zeros up to a whole group of six
  have hcount : (6 - (Bits.ofBytes bytes).length % 6) % 6 = 2 * ((3 - bytes.length % 3) % 3) := by
    rw [Bits.length_ofBytes]
    omega
  rw [bitsOf, hvalues, Option.map_some, hfilled, flatMap_fill, hcount]

/-- What is encoded is decoded again, strict as the decoder is. -/
theorem decode_encode : decode (encode bytes) = some bytes := by
  have hpadding : (encode bytes).toList.drop (letters bytes).length =
      List.replicate ((3 - bytes.length % 3) % 3) '=' := by
    rw [toList_encode, List.drop_left]
  -- whole quartets, and nothing but padding behind the letters
  have hform : ¬ ((encode bytes).length % 4 ≠ 0 ∨
      2 < (List.replicate ((3 - bytes.length % 3) % 3) '=').length ∨
      (List.replicate ((3 - bytes.length % 3) % 3) '=').any (· != '=') = true) := by
    rw [length_encode, List.length_replicate, List.any_replicate]
    simp
    omega
  have hwhole : (8 * bytes.length + 2 * ((3 - bytes.length % 3) % 3)) / 8 * 8 =
      (Bits.ofBytes bytes).length := by
    rw [Bits.length_ofBytes]
    omega
  have hlen : (Bits.ofBytes bytes ++
      List.replicate (2 * ((3 - bytes.length % 3) % 3)) false).length / 8 * 8 =
        (Bits.ofBytes bytes).length := by
    rw [List.length_append, Bits.length_ofBytes, List.length_replicate, hwhole,
      Bits.length_ofBytes]
  unfold decode
  rw [lettersOf_encode, hpadding]
  dsimp only
  rw [if_neg hform, bitsOf_letters]
  dsimp only
  rw [hlen, List.drop_left, List.take_left, Bits.chunks_ofBytes, List.any_replicate]
  simp

/-! ## Group by group -/

/-- Behind whole groups of three bytes the encoding of the rest follows. -/
theorem encode_append {bytes : List UInt8} (h : bytes.length % 3 = 0) (rest : List UInt8) :
    encode (bytes ++ rest) = encode bytes ++ encode rest := by
  have hdvd : 6 ∣ (Bits.ofBytes bytes).length := by
    rw [Bits.length_ofBytes]
    omega
  have hletters : letters (bytes ++ rest) = letters bytes ++ letters rest := by
    rw [letters, Bits.ofBytes_append, Rust.chunks_append_of_dvd (by decide) hdvd, List.map_append,
      letters, letters]
  have hpadding : (bytes ++ rest).length % 3 = rest.length % 3 := by
    rw [List.length_append]
    omega
  rw [← String.toList_inj, String.toList_append, toList_encode, toList_encode, toList_encode,
    hletters, hpadding, h]
  simp

theorem encode_nil : encode [] = "" := by
  decide

/-- A group of the lowest bits of a number, filled up. -/
theorem toNat_fill_ofNat {n : Nat} (h : n ≤ 6) (v : Nat) :
    Bits.toNat (fill (Bits.ofNat n v)) = v * 2 ^ (6 - n) % 64 := by
  have hsix : n + (6 - n) = 6 := by omega
  rw [fill, Bits.length_ofNat, ← Bits.ofNat_zero, Bits.ofNat_append _ _ (Nat.two_pow_pos _), hsix,
    Nat.add_zero, Bits.toNat_ofNat]
  rfl

/-- The letters of bits that come in groups of six but for the last one. -/
theorem letters_of_groups {bytes : List UInt8} {vs : List Nat} {n v : Nat} (hn : n ≤ 6)
    (hpos : 0 < n) (h : Bits.ofBytes bytes = vs.flatMap (Bits.ofNat 6) ++ Bits.ofNat n v) :
    letters bytes = (vs.map fun w => letter (w % 64)) ++ [letter (v * 2 ^ (6 - n) % 64)] := by
  have hlast : Bits.ofNat n v ≠ [] := by
    intro hnil
    have hlen := Bits.length_ofNat n v
    rw [hnil, List.length_nil] at hlen
    omega
  have hchunks : chunks 6 (Bits.ofBytes bytes) = vs.map (Bits.ofNat 6) ++ [Bits.ofNat n v] := by
    rw [h]
    clear h
    induction vs with
    | nil => exact Rust.chunks_of_length_le (by decide) hlast (by simpa using hn)
    | cons w vs ih =>
        rw [List.flatMap_cons, List.append_assoc, Rust.chunks_append (by decide)
          (Bits.length_ofNat 6 w), ih, List.map_cons, List.cons_append]
  have hfull : ∀ w, Bits.toNat (fill (Bits.ofNat 6 w)) = w % 64 := fun w => by
    rw [toNat_fill_ofNat (Nat.le_refl 6), Nat.sub_self, Nat.pow_zero, Nat.mul_one]
  rw [letters, hchunks, List.map_append, List.map_map, List.map_singleton, toNat_fill_ofNat hn]
  simp only [Function.comp_def, hfull]

theorem encode_injective : Function.Injective encode := by
  intro bytes bytes' h
  have hdecoded := decode_encode bytes
  rw [h, decode_encode] at hdecoded
  exact (Option.some.inj hdecoded).symm

end

end Base64

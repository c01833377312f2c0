import Mathlib.Algebra.GroupWithZero.Nat
import Mathlib.Data.Nat.Bitwise
import NetZer.Lib.Bytes
import NetZer.Lib.Rust

/-! # Strings of bits

Numbers as strings of bits, the highest bit first, and bytes as the bits they
are made of. Formats that cut bytes up into groups of another width are stated
on the bits.
-/

namespace Bits

open Rust (chunks)

/-- The lowest `n` bits of a number, the highest of them first. -/
def ofNat : Nat → Nat → List Bool
  | 0, _ => []
  | n + 1, v => v.testBit n :: ofNat n v

/-- The number that bits make, the highest of them first. -/
def toNat (bs : List Bool) : Nat :=
  bs.foldl (fun v b => 2 * v + b.toNat) 0

/-- The bits of bytes. -/
def ofBytes (bytes : List UInt8) : List Bool :=
  bytes.flatMap fun b => ofNat 8 b.toNat

@[simp] theorem length_ofNat (n v : Nat) : (ofNat n v).length = n := by
  induction n with
  | zero => rfl
  | succ n ih => rw [ofNat, List.length_cons, ih]

@[simp] theorem ofBytes_nil : ofBytes [] = [] := rfl

@[simp] theorem ofBytes_cons (b : UInt8) (bytes : List UInt8) :
    ofBytes (b :: bytes) = ofNat 8 b.toNat ++ ofBytes bytes := rfl

@[simp] theorem ofBytes_append (bytes bytes' : List UInt8) :
    ofBytes (bytes ++ bytes') = ofBytes bytes ++ ofBytes bytes' :=
  List.flatMap_append

@[simp] theorem length_ofBytes (bytes : List UInt8) :
    (ofBytes bytes).length = 8 * bytes.length := by
  induction bytes with
  | nil => rfl
  | cons b bytes ih =>
      rw [ofBytes_cons, List.length_append, length_ofNat, ih, List.length_cons, Nat.mul_succ,
        Nat.add_comm]

/-- The low bits are not concerned by what comes before them. -/
theorem ofNat_mod {n m : Nat} (h : n ≤ m) (v : Nat) : ofNat n (v % 2 ^ m) = ofNat n v := by
  induction n with
  | zero => rfl
  | succ n ih =>
      rw [ofNat, ofNat, ih (Nat.le_of_succ_le h), Nat.testBit_mod_two_pow,
        decide_eq_true (Nat.lt_of_succ_le h), Bool.true_and]

/-- Bits in front of bits. -/
theorem ofNat_add (n m v : Nat) : ofNat (n + m) v = ofNat n (v / 2 ^ m) ++ ofNat m v := by
  induction n with
  | zero => rw [Nat.zero_add, ofNat, List.nil_append]
  | succ n ih => rw [Nat.succ_add, ofNat, ofNat, ih, Nat.testBit_div_two_pow, List.cons_append]

/-- Two numbers, one behind the other. -/
theorem ofNat_append (n : Nat) {m w : Nat} (v : Nat) (hw : w < 2 ^ m) :
    ofNat n v ++ ofNat m w = ofNat (n + m) (v * 2 ^ m + w) := by
  have hlow : (v * 2 ^ m + w) % 2 ^ m = w := by
    rw [Nat.mul_add_mod_self_right, Nat.mod_eq_of_lt hw]
  have hhigh : (v * 2 ^ m + w) / 2 ^ m = v := by
    rw [Nat.mul_comm, Nat.mul_add_div (Nat.two_pow_pos m), Nat.div_eq_of_lt hw, Nat.add_zero]
  have hback : ofNat m (v * 2 ^ m + w) = ofNat m w := by
    rw [← ofNat_mod (Nat.le_refl m), hlow]
  rw [ofNat_add, hhigh, hback]

theorem ofNat_zero (n : Nat) : ofNat n 0 = List.replicate n false := by
  induction n with
  | zero => rfl
  | succ n ih => rw [ofNat, ih, Nat.zero_testBit, List.replicate_succ]

theorem toNat_append (bs cs : List Bool) :
    toNat (bs ++ cs) = toNat bs * 2 ^ cs.length + toNat cs := by
  induction cs using List.reverseRecOn with
  | nil => simp [toNat]
  | append_singleton cs c ih =>
      have hlast : ∀ ds : List Bool, toNat (ds ++ [c]) = 2 * toNat ds + c.toNat := by
        intro ds
        rw [toNat, List.foldl_append]
        rfl
      rw [← List.append_assoc, hlast, hlast, ih, List.length_append, List.length_singleton,
        Nat.pow_succ, Nat.mul_add, Nat.mul_left_comm, Nat.mul_comm 2 (2 ^ cs.length), Nat.add_assoc]

/-- The bits of a number give it back, as far as they go. -/
theorem toNat_ofNat (n v : Nat) : toNat (ofNat n v) = v % 2 ^ n := by
  induction n with
  | zero => rw [ofNat, Nat.pow_zero, Nat.mod_one]; rfl
  | succ n ih =>
      have hone : toNat [v.testBit n] = v / 2 ^ n % 2 := by
        rw [← Nat.toNat_testBit, toNat]
        simp
      rw [ofNat, ← List.singleton_append, toNat_append, length_ofNat, ih, hone, Nat.pow_succ,
        Nat.mod_mul, Nat.mul_comm]
      omega

theorem toNat_ofNat_of_lt {n v : Nat} (h : v < 2 ^ n) : toNat (ofNat n v) = v := by
  rw [toNat_ofNat, Nat.mod_eq_of_lt h]

theorem toNat_lt (bs : List Bool) : toNat bs < 2 ^ bs.length := by
  induction bs with
  | nil => exact Nat.one_pos
  | cons b bs ih =>
      have hb : toNat [b] ≤ 1 := by cases b <;> decide
      have hmul : toNat [b] * 2 ^ bs.length ≤ 1 * 2 ^ bs.length := Nat.mul_le_mul_right _ hb
      rw [← List.singleton_append, toNat_append, List.length_append, List.length_singleton,
        Nat.add_comm 1, Nat.pow_succ]
      omega

/-- Bits are those of the number they make. -/
theorem ofNat_toNat (bs : List Bool) : ofNat bs.length (toNat bs) = bs := by
  induction bs using List.reverseRecOn with
  | nil => rfl
  | append_singleton bs b ih =>
      have hb : toNat [b] < 2 ^ 1 := toNat_lt [b]
      have hone : ofNat 1 (toNat [b]) = [b] := by cases b <;> rfl
      rw [toNat_append, List.length_append, List.length_singleton, ← ofNat_append _ _ hb, ih, hone]

/-- Bytes are the bits of theirs, eight by eight. -/
theorem chunks_ofBytes (bytes : List UInt8) :
    (chunks 8 (ofBytes bytes)).map (fun bs => UInt8.ofNat (toNat bs)) = bytes := by
  induction bytes with
  | nil => rfl
  | cons b bytes ih =>
      have hb : UInt8.ofNat (toNat (ofNat 8 b.toNat)) = b := by
        rw [toNat_ofNat_of_lt b.toNat_lt, UInt8.ofNat_toNat]
      rw [ofBytes_cons, Rust.chunks_append (by decide) (length_ofNat 8 _), List.map_cons, ih, hb]

/-- A number in bytes, the most significant first, has its bits. -/
theorem ofBytes_big (n v : Nat) : ofBytes (Bytes.Order.big.bytes n v) = ofNat (8 * n) v := by
  induction n generalizing v with
  | zero => rfl
  | succ n ih =>
      have hlast : Bytes.Order.big.bytes (n + 1) v =
          Bytes.Order.big.bytes n (v / 256) ++ [UInt8.ofNat v] := by
        show (Bytes.leBytes (n + 1) v).reverse = _
        rw [Bytes.leBytes, List.reverse_cons]
        rfl
      have hlow : ofNat 8 (UInt8.ofNat v).toNat = ofNat 8 v := by
        rw [UInt8.toNat_ofNat']
        exact ofNat_mod (Nat.le_refl 8) v
      rw [hlast, ofBytes_append, ih, ofBytes_cons, ofBytes_nil, List.append_nil, hlow, Nat.mul_succ]
      exact (ofNat_add (8 * n) 8 v).symm

theorem toNat_toUInt32_shiftLeft (b : UInt8) {k : UInt32} (hk : k.toNat ≤ 24) :
    (b.toUInt32 <<< k).toNat = 2 ^ k.toNat * b.toNat := by
  have hpow : 2 ^ k.toNat * b.toNat < 2 ^ 32 := by
    calc 2 ^ k.toNat * b.toNat < 2 ^ k.toNat * 2 ^ 8 :=
          Nat.mul_lt_mul_of_pos_left b.toNat_lt (Nat.two_pow_pos _)
      _ = 2 ^ (k.toNat + 8) := (Nat.pow_add 2 _ 8).symm
      _ ≤ 2 ^ 32 := Nat.pow_le_pow_right (by decide) (by omega)
  rw [UInt32.toNat_shiftLeft, UInt8.toNat_toUInt32, Nat.mod_eq_of_lt (by omega : k.toNat < 32),
    Nat.shiftLeft_eq, Nat.mul_comm, Nat.mod_eq_of_lt hpow]

/-- Four bytes that are put together to a word. -/
theorem toNat_be32 (a b c d : UInt8) :
    (Bytes.be32 a b c d).toNat = toNat (ofBytes [a, b, c, d]) := by
  have ha := a.toNat_lt
  have hb := b.toNat_lt
  have hc := c.toNat_lt
  have hd := d.toNat_lt
  -- the shifted bytes do not overlap, so that or is a sum
  have htwo : 2 ^ 24 * a.toNat ||| 2 ^ 16 * b.toNat = 2 ^ 16 * (a.toNat * 256 + b.toNat) := by
    rw [← Nat.two_pow_add_eq_or_of_lt (by omega)]
    omega
  have hthree : 2 ^ 16 * (a.toNat * 256 + b.toNat) ||| 2 ^ 8 * c.toNat =
      2 ^ 8 * ((a.toNat * 256 + b.toNat) * 256 + c.toNat) := by
    rw [← Nat.two_pow_add_eq_or_of_lt (by omega)]
    omega
  have hword : (Bytes.be32 a b c d).toNat =
      2 ^ 8 * ((a.toNat * 256 + b.toNat) * 256 + c.toNat) + d.toNat := by
    have hshift24 := toNat_toUInt32_shiftLeft a (k := 24) (by decide)
    have hshift16 := toNat_toUInt32_shiftLeft b (k := 16) (by decide)
    have hshift8 := toNat_toUInt32_shiftLeft c (k := 8) (by decide)
    rw [Bytes.be32, UInt32.toNat_or, UInt32.toNat_or, UInt32.toNat_or, hshift24, hshift16, hshift8,
      UInt8.toNat_toUInt32]
    show 2 ^ 24 * a.toNat ||| 2 ^ 16 * b.toNat ||| 2 ^ 8 * c.toNat ||| d.toNat = _
    rw [htwo, hthree, ← Nat.two_pow_add_eq_or_of_lt hd]
  have hbits : toNat (ofBytes [a, b, c, d]) =
      ((a.toNat * 2 ^ 8 + b.toNat) * 2 ^ 8 + c.toNat) * 2 ^ 8 + d.toNat := by
    simp only [ofBytes_cons, ofBytes_nil, List.append_nil, ← List.append_assoc]
    simp only [toNat_append, length_ofNat, toNat_ofNat_of_lt ha, toNat_ofNat_of_lt hb,
      toNat_ofNat_of_lt hc, toNat_ofNat_of_lt hd]
  rw [hword, hbits]
  omega

/-- A word in four bytes has its bits. -/
theorem ofBytes_be32Bytes (w : UInt32) : ofBytes (Bytes.be32Bytes w) = ofNat 32 w.toNat := by
  have hbyte : ∀ {k : UInt32}, k.toNat < 32 →
      ofNat 8 ((w >>> k).toUInt8).toNat = ofNat 8 (w.toNat / 2 ^ k.toNat) := by
    intro k hk
    rw [UInt32.toNat_toUInt8, UInt32.toNat_shiftRight, Nat.mod_eq_of_lt hk,
      Nat.shiftRight_eq_div_pow]
    exact ofNat_mod (Nat.le_refl 8) _
  have hlast : ofNat 8 w.toUInt8.toNat = ofNat 8 w.toNat := by
    rw [UInt32.toNat_toUInt8]
    exact ofNat_mod (Nat.le_refl 8) _
  have h24 := hbyte (k := 24) (by decide)
  have h16 := hbyte (k := 16) (by decide)
  have h8 := hbyte (k := 8) (by decide)
  rw [Bytes.be32Bytes, ofBytes_cons, ofBytes_cons, ofBytes_cons, ofBytes_cons, ofBytes_nil, h24,
    h16, h8, hlast, ofNat_add 8 24, ofNat_add 8 16, ofNat_add 8 8, List.append_nil]
  rfl

/-- Chunks of bytes are chunks of bits. -/
theorem chunks_mul_eight {n : Nat} (hn : 0 < n) (bytes : List UInt8) :
    chunks (n * 8) (ofBytes bytes) = (chunks n bytes).map ofBytes := by
  have h := Rust.chunks_flatMap (f := fun b : UInt8 => ofNat 8 b.toNat) hn (Nat.succ_pos 7)
    (fun b => length_ofNat 8 b.toNat) bytes
  exact h

end Bits

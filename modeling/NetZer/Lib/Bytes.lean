import Mathlib.Algebra.Group.Nat.Defs
import Mathlib.Data.List.Basic

/-! # Words in a byte buffer

Network byte order: a 16- or 32-bit word is read from consecutive bytes, the
most significant first, and a read past the end of the buffer has no value.
For formats that come in either byte order there is `Order`: how a number is
written into some bytes, and how it is read back.
-/

namespace Bytes

/-- `u16::from_be_bytes([hi, lo])`. -/
def be16 (hi lo : UInt8) : UInt16 :=
  hi.toUInt16 <<< 8 ||| lo.toUInt16

/-- `u32::from_be_bytes([a, b, c, d])`. -/
def be32 (a b c d : UInt8) : UInt32 :=
  a.toUInt32 <<< 24 ||| b.toUInt32 <<< 16 ||| c.toUInt32 <<< 8 ||| d.toUInt32

/-- The big-endian 16-bit word at offset `i`. -/
def half (buf : List UInt8) (i : Nat) : Option UInt16 :=
  match buf[i]?, buf[i + 1]? with
  | some hi, some lo => some (be16 hi lo)
  | _, _ => none

/-- The big-endian 32-bit word at offset `i`. -/
def word (buf : List UInt8) (i : Nat) : Option UInt32 :=
  match buf[i]?, buf[i + 1]?, buf[i + 2]?, buf[i + 3]? with
  | some a, some b, some c, some d => some (be32 a b c d)
  | _, _, _, _ => none

/-- A word is there exactly when both of its bytes are. -/
theorem half_eq_none_iff {buf : List UInt8} {i : Nat} :
    half buf i = none ↔ buf.length < i + 2 := by
  by_cases h : i + 1 < buf.length
  · have h0 : i < buf.length := by omega
    simp only [half, List.getElem?_eq_getElem h, List.getElem?_eq_getElem h0]
    simp
    omega
  · have hnone : buf[i + 1]? = none := List.getElem?_eq_none (by omega)
    constructor
    · intro _
      omega
    · intro _
      unfold half
      rw [hnone]
      split <;> simp_all

theorem half_lt {buf : List UInt8} {i : Nat} (h : i + 1 < buf.length) :
    half buf i = some (be16 buf[i] buf[i + 1]) := by
  have h0 : i < buf.length := by omega
  simp [half, h, h0]

theorem half_of_some {buf : List UInt8} {i : Nat} {w : UInt16} (h : half buf i = some w) :
    i + 2 ≤ buf.length := by
  by_contra hlt
  rw [half_eq_none_iff.mpr (by omega)] at h
  cases h

theorem half_drop (buf : List UInt8) (n i : Nat) :
    half (buf.drop n) i = half buf (n + i) := by
  simp [half, List.getElem?_drop, Nat.add_assoc]

theorem half_take {buf : List UInt8} {n i : Nat} (h : i + 1 < n) :
    half (buf.take n) i = half buf i := by
  have h0 : i < n := by omega
  simp [half, h, h0]

/-! ## Writing words -/

/-- `w.to_be_bytes()`. -/
def be16Bytes (w : UInt16) : List UInt8 :=
  [(w >>> 8).toUInt8, w.toUInt8]

/-- `w.to_be_bytes()`. -/
def be32Bytes (w : UInt32) : List UInt8 :=
  [(w >>> 24).toUInt8, (w >>> 16).toUInt8, (w >>> 8).toUInt8, w.toUInt8]

@[simp] theorem length_be16Bytes (w : UInt16) : (be16Bytes w).length = 2 := rfl

@[simp] theorem length_be32Bytes (w : UInt32) : (be32Bytes w).length = 4 := rfl

/-- A word is its high byte times 256 and its low byte. -/
@[simp] theorem be16_be16Bytes (w : UInt16) : be16 (w >>> 8).toUInt8 w.toUInt8 = w := by
  apply UInt16.toNat_inj.mp
  have h : w.toNat < 65536 := w.toNat_lt
  simp only [be16, UInt16.toNat_or, UInt16.toNat_shiftLeft, UInt8.toNat_toUInt16,
    UInt16.toNat_toUInt8, UInt16.toNat_shiftRight]
  have h8 : UInt16.toNat 8 % 16 = 8 := by decide
  rw [h8, Nat.shiftRight_eq_div_pow, Nat.shiftLeft_eq]
  have hlo : w.toNat % 2 ^ 8 < 2 ^ 8 := Nat.mod_lt _ (by decide)
  have hhi : w.toNat / 2 ^ 8 % 2 ^ 8 * 2 ^ 8 % 2 ^ 16 = 2 ^ 8 * (w.toNat / 2 ^ 8) := by omega
  rw [hhi, ← Nat.two_pow_add_eq_or_of_lt hlo]
  omega

/-- A written word is read back where it stands. -/
theorem half_append {pre : List UInt8} {i : Nat} (hi : pre.length = i) (w : UInt16)
    (rest : List UInt8) : half (pre ++ (be16Bytes w ++ rest)) i = some w := by
  subst hi
  simp [half, be16Bytes]

/-! ## Byte orders -/

/-- The number whose digits to the base 256 these are, the lowest first. -/
def leNat : List UInt8 → Nat
  | [] => 0
  | b :: bs => b.toNat + 256 * leNat bs

/-- The lowest `n` digits of a number to the base 256, the lowest first. -/
def leBytes : Nat → Nat → List UInt8
  | 0, _ => []
  | n + 1, v => UInt8.ofNat v :: leBytes n (v / 256)

theorem length_leBytes (n v : Nat) : (leBytes n v).length = n := by
  induction n generalizing v with
  | zero => rfl
  | succ n ih => simp [leBytes, ih]

theorem leNat_leBytes (n : Nat) {v : Nat} (h : v < 256 ^ n) : leNat (leBytes n v) = v := by
  induction n generalizing v with
  | zero =>
      rw [Nat.pow_zero] at h
      simp only [leBytes, leNat]
      omega
  | succ n ih =>
      have hdiv : v / 256 < 256 ^ n := by
        rw [Nat.pow_succ] at h
        omega
      have hlow : (UInt8.ofNat v).toNat = v % 256 := UInt8.toNat_ofNat'
      rw [leBytes, leNat, ih hdiv, hlow]
      omega

theorem leNat_lt (bs : List UInt8) : leNat bs < 256 ^ bs.length := by
  induction bs with
  | nil => exact Nat.one_pos
  | cons b bs ih =>
      have hb : b.toNat < 256 := b.toNat_lt
      rw [leNat, List.length_cons, Nat.pow_succ]
      omega

/-- Bytes are the digits of the number they make. -/
theorem leBytes_leNat (bs : List UInt8) : leBytes bs.length (leNat bs) = bs := by
  induction bs with
  | nil => rfl
  | cons b bs ih =>
      have hb : b.toNat < 256 := b.toNat_lt
      have hlow : UInt8.ofNat (b.toNat + 256 * leNat bs) = b := by
        apply UInt8.toNat_inj.mp
        rw [UInt8.toNat_ofNat']
        omega
      have hhigh : (b.toNat + 256 * leNat bs) / 256 = leNat bs := by omega
      rw [leNat, List.length_cons, leBytes, hlow, hhigh, ih]

/-- A way to write numbers below `256 ^ n` into `n` bytes. -/
structure Order where
  bytes : Nat → Nat → List UInt8
  value : List UInt8 → Nat
  length_bytes : ∀ n v, (bytes n v).length = n
  value_bytes : ∀ n v, v < 256 ^ n → value (bytes n v) = v

/-- The least significant byte first. -/
def Order.little : Order where
  bytes := leBytes
  value := leNat
  length_bytes := length_leBytes
  value_bytes := fun n _ h => leNat_leBytes n h

/-- The most significant byte first. -/
def Order.big : Order where
  bytes n v := (leBytes n v).reverse
  value bs := leNat bs.reverse
  length_bytes := by
    intro n v
    rw [List.length_reverse, length_leBytes]
  value_bytes := by
    intro n v h
    rw [List.reverse_reverse, leNat_leBytes n h]

theorem Order.big_value_lt (bs : List UInt8) : Order.big.value bs < 256 ^ bs.length := by
  have h := leNat_lt bs.reverse
  rwa [List.length_reverse] at h

theorem Order.big_bytes_value (bs : List UInt8) :
    Order.big.bytes bs.length (Order.big.value bs) = bs := by
  have h := leBytes_leNat bs.reverse
  rw [List.length_reverse] at h
  exact (congrArg List.reverse h).trans (List.reverse_reverse bs)

end Bytes

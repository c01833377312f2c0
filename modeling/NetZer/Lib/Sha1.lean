import Mathlib.Order.Bounds.Basic
import NetZer.Lib.Bits

/-! # SHA-1

The Secure Hash Standard's SHA-1, on messages that are strings of bits: the
padding, the message schedule as a recurrence, the functions of the rounds with
exclusive disjunctions, and the compression of one block after the other.
-/

namespace Sha1

open Rust (chunks)

abbrev Word := BitVec 32

/-! ## Padding -/

/-- How many zeros stand between the one behind the message and its length. -/
def zeros (l : Nat) : Nat :=
  (959 - l % 512) % 512

/-- It is the smallest number that leaves room for the length in a last block. -/
theorem zeros_isLeast (l : Nat) : IsLeast {k | (l + 1 + k) % 512 = 448} (zeros l) := by
  constructor
  · show (l + 1 + zeros l) % 512 = 448
    unfold zeros
    omega
  · intro k hk
    have hk' : (l + 1 + k) % 512 = 448 := hk
    unfold zeros
    omega

/-- The message, a one, zeros, and the length of the message. -/
def padded (m : List Bool) : List Bool :=
  m ++ (true :: List.replicate (zeros m.length) false) ++ Bits.ofNat 64 m.length

/-- The word that 32 bits are. -/
def word (bs : List Bool) : Word :=
  BitVec.ofNat 32 (Bits.toNat bs)

/-- The words of a block. -/
def words (block : List Bool) : List Word :=
  (chunks 32 block).map word

/-- The blocks of the padded message. -/
def blocks (m : List Bool) : List (List Word) :=
  (chunks 512 (padded m)).map words

/-! ## Rounds -/

/-- `ROTL`. -/
def rotl (n : Nat) (x : Word) : Word :=
  (x <<< n) ||| (x >>> (32 - n))

def ch (x y z : Word) : Word :=
  (x &&& y) ^^^ (~~~x &&& z)

def parity (x y z : Word) : Word :=
  x ^^^ y ^^^ z

def maj (x y z : Word) : Word :=
  (x &&& y) ^^^ (x &&& z) ^^^ (y &&& z)

/-- The function of round `t`. -/
def f (t : Nat) : Word → Word → Word → Word :=
  if t < 20 then ch else if t < 40 then parity else if t < 60 then maj else parity

/-- The constant of round `t`. -/
def k (t : Nat) : Word :=
  if t < 20 then 0x5a827999 else if t < 40 then 0x6ed9eba1
  else if t < 60 then 0x8f1bbcdc else 0xca62c1d6

/-- The message schedule. -/
def schedule (block : List Word) (t : Nat) : Word :=
  if t < 16 then block.getD t 0
  else rotl 1 (schedule block (t - 3) ^^^ schedule block (t - 8) ^^^ schedule block (t - 14) ^^^
    schedule block (t - 16))

/-- The working variables, or a hash value. -/
structure State where
  a : Word
  b : Word
  c : Word
  d : Word
  e : Word
deriving DecidableEq, Repr

def State.add (s t : State) : State :=
  ⟨s.a + t.a, s.b + t.b, s.c + t.c, s.d + t.d, s.e + t.e⟩

/-- Round `t`. -/
def round (block : List Word) (s : State) (t : Nat) : State :=
  { a := rotl 5 s.a + f t s.b s.c s.d + s.e + k t + schedule block t
    b := s.a
    c := rotl 30 s.b
    d := s.c
    e := s.d }

/-- The hash value after a block. -/
def compress (h : State) (block : List Word) : State :=
  h.add ((List.range 80).foldl (round block) h)

/-- The hash value at the beginning. -/
def initial : State :=
  ⟨0x67452301, 0xefcdab89, 0x98badcfe, 0x10325476, 0xc3d2e1f0⟩

def State.bits (s : State) : List Bool :=
  [s.a, s.b, s.c, s.d, s.e].flatMap fun x => Bits.ofNat 32 x.toNat

def digest (m : List Bool) : List Bool :=
  ((blocks m).foldl compress initial).bits

/-! ## The functions of the rounds without exclusive disjunctions -/

theorem ch_eq_or (x y z : Word) : ch x y z = (x &&& y) ||| (~~~x &&& z) := by
  ext i hi
  simp only [ch, BitVec.getElem_xor, BitVec.getElem_or, BitVec.getElem_and, BitVec.getElem_not]
  cases x[i] <;> simp

theorem maj_eq_or (x y z : Word) : maj x y z = (x &&& y) ||| (x &&& z) ||| (y &&& z) := by
  ext i hi
  simp only [maj, BitVec.getElem_xor, BitVec.getElem_or, BitVec.getElem_and]
  cases x[i] <;> cases y[i] <;> cases z[i] <;> rfl

theorem rotl_eq_rotateLeft {n : Nat} (h : n < 32) (x : Word) : rotl n x = x.rotateLeft n := by
  rw [BitVec.rotateLeft_def, Nat.mod_eq_of_lt h, rotl]

end Sha1

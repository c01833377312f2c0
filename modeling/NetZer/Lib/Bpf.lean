import NetZer.Lib.Bytes

/-! # Classic BPF

The packet filter machine behind `SO_ATTACH_FILTER`: an accumulator, an index
register, sixteen scratch words and a program of `sock_filter` instructions.
Jump offsets are unsigned and relative to the next instruction, so control
only moves forward: the interpreter consumes the program, and a jump skips
instructions. A load past the end of the packet ends the run with 0.

Not modelled: the ancillary loads at negative offsets (`SKF_AD_OFF` and
below). Such an offset is read as the large unsigned number it is, which lies
past the end of every packet.
-/

namespace Bpf

open Bytes

/-- `struct sock_filter`. -/
structure Insn where
  code : UInt16
  jt : UInt8
  jf : UInt8
  k : UInt32
deriving DecidableEq, Repr

/-- `struct sock_fprog`: the instructions, in order. -/
abbrev Program := List Insn

/-- Width of a packet load. -/
inductive Size where
  | word | half | byte
deriving DecidableEq, Repr

/-- Second operand: the constant `k` or the index register. -/
inductive Src where
  | k | x
deriving DecidableEq, Repr

inductive Alu where
  | add | sub | mul | div | or | and | lsh | rsh | neg | mod | xor
deriving DecidableEq, Repr

inductive Cmp where
  | eq | gt | ge | set
deriving DecidableEq, Repr

/-- The instructions of the machine. -/
inductive Op where
  | ldAbs (size : Size)
  | ldInd (size : Size)
  | ldImm | ldLen | ldMem
  | ldxImm | ldxLen | ldxMem
  /-- `X := 4 * (pkt[k] & 0xf)`: the length of the IPv4 header at `k`. -/
  | ldxMsh
  | st | stx
  | alu (op : Alu) (src : Src)
  | ja
  | jmp (cmp : Cmp) (src : Src)
  | retK | retA
  | tax | txa
deriving DecidableEq, Repr

/-- Decode the 16-bit `code` field. -/
def decode (code : UInt16) : Option Op :=
  match code.toNat with
  | 0x20 => some (.ldAbs .word)
  | 0x28 => some (.ldAbs .half)
  | 0x30 => some (.ldAbs .byte)
  | 0x40 => some (.ldInd .word)
  | 0x48 => some (.ldInd .half)
  | 0x50 => some (.ldInd .byte)
  | 0x00 => some .ldImm
  | 0x80 => some .ldLen
  | 0x60 => some .ldMem
  | 0x01 => some .ldxImm
  | 0x81 => some .ldxLen
  | 0x61 => some .ldxMem
  | 0xb1 => some .ldxMsh
  | 0x02 => some .st
  | 0x03 => some .stx
  | 0x04 => some (.alu .add .k)
  | 0x0c => some (.alu .add .x)
  | 0x14 => some (.alu .sub .k)
  | 0x1c => some (.alu .sub .x)
  | 0x24 => some (.alu .mul .k)
  | 0x2c => some (.alu .mul .x)
  | 0x34 => some (.alu .div .k)
  | 0x3c => some (.alu .div .x)
  | 0x44 => some (.alu .or .k)
  | 0x4c => some (.alu .or .x)
  | 0x54 => some (.alu .and .k)
  | 0x5c => some (.alu .and .x)
  | 0x64 => some (.alu .lsh .k)
  | 0x6c => some (.alu .lsh .x)
  | 0x74 => some (.alu .rsh .k)
  | 0x7c => some (.alu .rsh .x)
  | 0x84 => some (.alu .neg .k)
  | 0x94 => some (.alu .mod .k)
  | 0x9c => some (.alu .mod .x)
  | 0xa4 => some (.alu .xor .k)
  | 0xac => some (.alu .xor .x)
  | 0x05 => some .ja
  | 0x15 => some (.jmp .eq .k)
  | 0x1d => some (.jmp .eq .x)
  | 0x25 => some (.jmp .gt .k)
  | 0x2d => some (.jmp .gt .x)
  | 0x35 => some (.jmp .ge .k)
  | 0x3d => some (.jmp .ge .x)
  | 0x45 => some (.jmp .set .k)
  | 0x4d => some (.jmp .set .x)
  | 0x06 => some .retK
  | 0x16 => some .retA
  | 0x07 => some .tax
  | 0x87 => some .txa
  | _ => none

/-- Registers and scratch memory. -/
structure Regs where
  a : UInt32
  x : UInt32
  mem : Nat → UInt32

/-- The kernel clears the registers before a run. -/
def Regs.init : Regs := ⟨0, 0, fun _ => 0⟩

/-- A packet load; `none` when it leaves the packet. -/
def load (pkt : List UInt8) (size : Size) (off : Nat) : Option UInt32 :=
  match size with
  | .word => word pkt off
  | .half => (half pkt off).map UInt16.toUInt32
  | .byte => pkt[off]?.map UInt8.toUInt32

def Src.value (src : Src) (i : Insn) (r : Regs) : UInt32 :=
  match src with
  | .k => i.k
  | .x => r.x

/-- ALU operations; `none` is a division by zero, which ends the run with 0. -/
def Alu.apply (op : Alu) (a v : UInt32) : Option UInt32 :=
  match op with
  | .add => some (a + v)
  | .sub => some (a - v)
  | .mul => some (a * v)
  | .div => if v = 0 then none else some (a / v)
  | .or => some (a ||| v)
  | .and => some (a &&& v)
  | .lsh => some (a <<< v)
  | .rsh => some (a >>> v)
  | .neg => some (-a)
  | .mod => if v = 0 then none else some (a % v)
  | .xor => some (a ^^^ v)

def Cmp.test (c : Cmp) (a v : UInt32) : Bool :=
  match c with
  | .eq => a == v
  | .gt => decide (v < a)
  | .ge => decide (v ≤ a)
  | .set => a &&& v != 0

/-- What one instruction does: return a verdict, or skip some instructions and
go on with new registers. -/
inductive Effect where
  | ret (v : UInt32)
  | skip (n : Nat) (r : Regs)

/-- One instruction. -/
def Op.exec (op : Op) (i : Insn) (pkt : List UInt8) (r : Regs) : Effect :=
  match op with
  | .ldAbs size =>
      match load pkt size i.k.toNat with
      | some v => .skip 0 { r with a := v }
      | none => .ret 0
  | .ldInd size =>
      match load pkt size (r.x + i.k).toNat with
      | some v => .skip 0 { r with a := v }
      | none => .ret 0
  | .ldImm => .skip 0 { r with a := i.k }
  | .ldLen => .skip 0 { r with a := UInt32.ofNat pkt.length }
  | .ldMem => .skip 0 { r with a := r.mem i.k.toNat }
  | .ldxImm => .skip 0 { r with x := i.k }
  | .ldxLen => .skip 0 { r with x := UInt32.ofNat pkt.length }
  | .ldxMem => .skip 0 { r with x := r.mem i.k.toNat }
  | .ldxMsh =>
      match pkt[i.k.toNat]? with
      | some b => .skip 0 { r with x := 4 * (b &&& 0x0f).toUInt32 }
      | none => .ret 0
  | .st => .skip 0 { r with mem := fun j => if j = i.k.toNat then r.a else r.mem j }
  | .stx => .skip 0 { r with mem := fun j => if j = i.k.toNat then r.x else r.mem j }
  | .alu op src =>
      match op.apply r.a (src.value i r) with
      | some v => .skip 0 { r with a := v }
      | none => .ret 0
  | .ja => .skip i.k.toNat r
  | .jmp c src => .skip (if c.test r.a (src.value i r) then i.jt.toNat else i.jf.toNat) r
  | .retK => .ret i.k
  | .retA => .ret r.a
  | .tax => .skip 0 { r with x := r.a }
  | .txa => .skip 0 { r with a := r.x }

/-- Run the program after skipping `n` instructions; `none` if control leaves
the program or meets an unknown instruction. -/
def exec (pkt : List UInt8) : Program → Nat → Regs → Option UInt32
  | [], _, _ => none
  -- a jump is under way: the instruction is passed over
  | _ :: rest, n + 1, r => exec pkt rest n r
  | i :: rest, 0, r =>
      match decode i.code with
      | none => none
      | some op =>
          match op.exec i pkt r with
          | .ret v => some v
          | .skip n r' => exec pkt rest n r'

/-- From this point of the program on, the packet is kept: the verdict is a
non-zero length. -/
def AcceptsFrom (pkt : List UInt8) (prog : Program) (n : Nat) (r : Regs) : Prop :=
  ∃ v, exec pkt prog n r = some v ∧ v ≠ 0

/-- The filter keeps the packet. -/
def Accepts (prog : Program) (pkt : List UInt8) : Prop :=
  AcceptsFrom pkt prog 0 Regs.init

instance (pkt : List UInt8) (prog : Program) (n : Nat) (r : Regs) :
    Decidable (AcceptsFrom pkt prog n r) :=
  match h : exec pkt prog n r with
  | none => isFalse (by simp [AcceptsFrom, h])
  | some v => decidable_of_iff (v ≠ 0) (by simp [AcceptsFrom, h])

instance (prog : Program) (pkt : List UInt8) : Decidable (Accepts prog pkt) :=
  inferInstanceAs (Decidable (AcceptsFrom _ _ _ _))

/-! ## Weakest preconditions

When a program accepts, instruction by instruction: `simp` with these rules
turns acceptance by a concrete program into a formula about the packet. -/

section

variable {pkt : List UInt8} {rest : Program} {r : Regs} {i : Insn} {n : Nat}
variable {jt jf : UInt8} {k : UInt32}

attribute [local simp] AcceptsFrom exec decode Op.exec load

/-- Skipped instructions have no effect. -/
@[simp] theorem acceptsFrom_skip :
    AcceptsFrom pkt (i :: rest) (n + 1) r ↔ AcceptsFrom pkt rest n r := Iff.rfl

/-- `ldh [k]`. -/
@[simp] theorem acceptsFrom_ldAbs_half :
    AcceptsFrom pkt (⟨0x28, jt, jf, k⟩ :: rest) 0 r ↔
      ∃ v, half pkt k.toNat = some v ∧ AcceptsFrom pkt rest 0 { r with a := v.toUInt32 } := by
  cases h : half pkt k.toNat <;> simp [h]

/-- `ldb [k]`. -/
@[simp] theorem acceptsFrom_ldAbs_byte :
    AcceptsFrom pkt (⟨0x30, jt, jf, k⟩ :: rest) 0 r ↔
      ∃ v, pkt[k.toNat]? = some v ∧ AcceptsFrom pkt rest 0 { r with a := v.toUInt32 } := by
  cases h : pkt[k.toNat]? <;> simp [h]

/-- `ldh [x + k]`. -/
@[simp] theorem acceptsFrom_ldInd_half :
    AcceptsFrom pkt (⟨0x48, jt, jf, k⟩ :: rest) 0 r ↔
      ∃ v, half pkt (r.x + k).toNat = some v ∧
        AcceptsFrom pkt rest 0 { r with a := v.toUInt32 } := by
  -- the offset is one number: `simp` must not split the wrapping sum
  generalize hoff : (r.x + k).toNat = off
  cases h : half pkt off <;>
    simp [-UInt32.toNat_add, hoff, h]

/-- `ldxb 4*([k]&0xf)`. -/
@[simp] theorem acceptsFrom_ldxMsh :
    AcceptsFrom pkt (⟨0xb1, jt, jf, k⟩ :: rest) 0 r ↔
      ∃ b, pkt[k.toNat]? = some b ∧
        AcceptsFrom pkt rest 0 { r with x := 4 * (b &&& 0x0f).toUInt32 } := by
  cases h : pkt[k.toNat]? <;> simp [h]

/-- `jeq #k, jt, jf`. -/
@[simp] theorem acceptsFrom_jeqK :
    AcceptsFrom pkt (⟨0x15, jt, jf, k⟩ :: rest) 0 r ↔
      if r.a = k then AcceptsFrom pkt rest jt.toNat r else AcceptsFrom pkt rest jf.toNat r := by
  by_cases h : r.a = k <;> simp [Cmp.test, Src.value, h]

/-- `ret #k`. -/
@[simp] theorem acceptsFrom_retK :
    AcceptsFrom pkt (⟨0x06, jt, jf, k⟩ :: rest) 0 r ↔ k ≠ 0 := by
  simp

/-- The header length that `ldxb 4*([k]&0xf)` leaves in the index register,
plus a small offset, does not wrap. -/
theorem msh_add_toNat (b : UInt8) (k : UInt32) (hk : k.toNat < 0x80000000) :
    (4 * (b &&& 0x0f).toUInt32 + k).toNat = k.toNat + 4 * (b &&& 0x0f).toNat := by
  have hb : (b &&& 0x0f).toNat < 16 := by
    -- the mask leaves four bits
    rw [UInt8.toNat_and]
    exact Nat.lt_of_le_of_lt Nat.and_le_right (by decide)
  -- sixty bytes of header at most, far from the end of the register
  simp only [UInt32.toNat_add, UInt32.toNat_mul, UInt8.toNat_toUInt32, UInt32.reduceToNat]
  omega

end

end Bpf

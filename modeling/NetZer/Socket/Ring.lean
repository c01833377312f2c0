import NetZer.Lib.Bytes
import NetZer.Lib.Window

/-! # The packet ring

`RingSocket`: blocks of memory shared with the kernel. The kernel fills a
block, lays its packets out as a chain of offsets and hands it over by setting
a bit in its status word; `recv_block` walks the chain of the current block,
calls back with every frame and gives the block back by clearing the word.

The ring is its bytes, so the kernel and `recv_block` share nothing but memory.
`recv_block` runs one access at a time, and the kernel may step in between.
-/

namespace NetZer

/-! ## Memory -/

/-- The byte order of the machine; the words of the ring are native. -/
inductive Endian where
  | little
  | big
deriving DecidableEq, Repr

def Endian.toNat : Endian → List UInt8 → Nat
  | .little, bs => bs.foldr (fun b v => b.toNat + 256 * v) 0
  | .big, bs => bs.foldl (fun v b => 256 * v + b.toNat) 0

/-- The mapping, by offset from `ring_ptr`. -/
abbrev Memory := Nat → UInt8

def bytesAt (mem : Memory) (a n : Nat) : List UInt8 :=
  (List.range n).map fun i => mem (a + i)

/-- `c_uint`. -/
def Endian.u32At (e : Endian) (mem : Memory) (a : Nat) : Nat :=
  e.toNat (bytesAt mem a 4)

/-- `c_ushort`. -/
def Endian.u16At (e : Endian) (mem : Memory) (a : Nat) : Nat :=
  e.toNat (bytesAt mem a 2)

/-! ## Geometry and layout -/

def tpStatusUser : Nat := 1

def tpStatusKernel : Nat := 0

/-- `BLOCK_SIZE`: `1 << 22`. -/
def blockSize : Nat := 4194304

def blockNr : Nat := 8

/-- `size_of::<Tpacket3Hdr>()`. -/
def tpacket3HdrSize : Nat := 40

/-- `align_of::<Tpacket3Hdr>()`: that of a `c_uint`. -/
def tpacket3HdrAlign : Nat := 4

/-- The address of a block: `ring_ptr.add(b * BLOCK_SIZE)`. -/
def blockBase (b : Nat) : Nat := b * blockSize

/-- The address of `hdr.block_status` in a block's `TpacketBlockDesc`. -/
def statusAddr (b : Nat) : Nat := blockBase b + 8

def blockStatus (e : Endian) (mem : Memory) (b : Nat) : Nat :=
  e.u32At mem (statusAddr b)

def numPkts (e : Endian) (mem : Memory) (b : Nat) : Nat :=
  e.u32At mem (blockBase b + 12)

def offsetToFirstPkt (e : Endian) (mem : Memory) (b : Nat) : Nat :=
  e.u32At mem (blockBase b + 16)

/-- `tp_next_offset` of the `Tpacket3Hdr` at an offset of a block. -/
def tpNextOffset (e : Endian) (mem : Memory) (b off : Nat) : Nat :=
  e.u32At mem (blockBase b + off)

def tpSnaplen (e : Endian) (mem : Memory) (b off : Nat) : Nat :=
  e.u32At mem (blockBase b + off + 12)

def tpMac (e : Endian) (mem : Memory) (b off : Nat) : Nat :=
  e.u16At mem (blockBase b + off + 24)

abbrev Frame := List UInt8

/-- `slice::from_raw_parts(block_base.add(pkt_offset + mac_offset), snaplen)`. -/
def frameAt (mem : Memory) (b off mac snaplen : Nat) : Frame :=
  bytesAt mem (blockBase b + (off + mac)) snaplen

/-- The block has been handed over: its status has the user bit. -/
def Full (e : Endian) (mem : Memory) (b : Nat) : Prop :=
  blockStatus e mem b &&& tpStatusUser ≠ 0

instance (e : Endian) (mem : Memory) (b : Nat) : Decidable (Full e mem b) :=
  inferInstanceAs (Decidable (_ ≠ _))

/-- `write_volatile(&mut hdr.block_status, TP_STATUS_KERNEL)`. -/
def releaseBlock (mem : Memory) (b : Nat) : Memory :=
  fun a => if statusAddr b ≤ a ∧ a < statusAddr b + 4 then 0 else mem a

/-! ## recv_block -/

/-- Where `recv_block` is. -/
inductive Pc where
  /-- Between two calls. -/
  | idle
  /-- About to read the status of the current block. -/
  | status
  /-- Waiting in `poll`. -/
  | poll
  | numPkts
  | firstOffset (num : Nat)
  /-- At the top of the loop, with so many passes left. -/
  | packet (left off : Nat)
  /-- The header is read; the bounds check and the callback are next. -/
  | frame (left off snaplen mac : Nat)
  | nextOffset (left off : Nat)
  | release
  | advance
  /-- The pointer to a header was not aligned. To read through it is undefined behaviour,
  for which a debug build ends the process. -/
  | aborted
deriving DecidableEq, Repr

/-- The ring with both of its sides. The last three fields are history: the
frames of every block the kernel has handed over, how many of the blocks have
been given back, and the frames the callback has been called with. -/
structure Ring where
  mem : Memory
  kernelBlock : Nat
  currentBlock : Nat
  pc : Pc
  retired : List (List Frame)
  released : Nat
  delivered : List Frame

/-- One step of `recv_block`, and of the loop that calls it again whatever it
returns. `pollOk` is what `poll` answers where it is asked: with an error the
call returns. -/
def Ring.recvStep (e : Endian) (pollOk : Bool) (s : Ring) : Ring :=
  let b := s.currentBlock
  match s.pc with
  | .idle => { s with pc := .status }
  | .status => { s with pc := if Full e s.mem b then .numPkts else .poll }
  | .poll => { s with pc := if pollOk then .status else .idle }
  | .numPkts => { s with pc := .firstOffset (numPkts e s.mem b) }
  | .firstOffset num => { s with pc := .packet num (offsetToFirstPkt e s.mem b) }
  | .packet 0 _ => { s with pc := .release }
  | .packet (left + 1) off =>
      -- a header that would leave the block ends the loop
      if off + tpacket3HdrSize > blockSize then { s with pc := .release }
      -- blocks begin on a page, so the pointer is as aligned as the offset
      else if off % tpacket3HdrAlign ≠ 0 then { s with pc := .aborted }
      else { s with pc := .frame left off (tpSnaplen e s.mem b off) (tpMac e s.mem b off) }
  | .frame left off snaplen mac =>
      if off + mac + snaplen ≤ blockSize ∧ snaplen > 0 then
        { s with
          pc := .nextOffset left off
          delivered := s.delivered ++ [frameAt s.mem b off mac snaplen] }
      else { s with pc := .nextOffset left off }
  | .nextOffset left off =>
      let next := tpNextOffset e s.mem b off
      if next = 0 then { s with pc := .release } else { s with pc := .packet left (off + next) }
  | .release =>
      { s with pc := .advance, mem := releaseBlock s.mem b, released := s.released + 1 }
  | .advance => { s with pc := .idle, currentBlock := (b + 1) % blockNr }
  | .aborted => { s with pc := .aborted }

/-! ## The kernel -/

/-- The packets from an offset on: each header and each frame inside the
block, the header aligned (the kernel aligns it to `TPACKET_ALIGNMENT`, 16), the
frame not empty, and the offset of the next header relative to this one, 0 at the
last. -/
def Chain (e : Endian) (mem : Memory) (b : Nat) : Nat → List Frame → Prop
  | _, [] => True
  | off, f :: rest =>
      off + tpacket3HdrSize ≤ blockSize ∧ off % tpacket3HdrAlign = 0 ∧
      off + tpMac e mem b off + tpSnaplen e mem b off ≤ blockSize ∧
      f ≠ [] ∧ f.length = tpSnaplen e mem b off ∧
      frameAt mem b off (tpMac e mem b off) (tpSnaplen e mem b off) = f ∧
      (rest = [] → tpNextOffset e mem b off = 0) ∧
      (rest ≠ [] → tpNextOffset e mem b off ≠ 0 ∧
        Chain e mem b (off + tpNextOffset e mem b off) rest)

/-- The block holds these frames. -/
def LaidOut (e : Endian) (mem : Memory) (b : Nat) (frames : List Frame) : Prop :=
  numPkts e mem b = frames.length ∧ Chain e mem b (offsetToFirstPkt e mem b) frames

instance Chain.decidable (e : Endian) (mem : Memory) (b : Nat) :
    (off : Nat) → (frames : List Frame) → Decidable (Chain e mem b off frames)
  | _, [] => isTrue trivial
  | off, f :: rest =>
      have := Chain.decidable e mem b (off + tpNextOffset e mem b off) rest
      inferInstanceAs (Decidable (off + tpacket3HdrSize ≤ blockSize ∧
        off % tpacket3HdrAlign = 0 ∧
        off + tpMac e mem b off + tpSnaplen e mem b off ≤ blockSize ∧
        f ≠ [] ∧ f.length = tpSnaplen e mem b off ∧
        frameAt mem b off (tpMac e mem b off) (tpSnaplen e mem b off) = f ∧
        (rest = [] → tpNextOffset e mem b off = 0) ∧
        (rest ≠ [] → tpNextOffset e mem b off ≠ 0 ∧
          Chain e mem b (off + tpNextOffset e mem b off) rest)))

instance (e : Endian) (mem : Memory) (b : Nat) (frames : List Frame) :
    Decidable (LaidOut e mem b frames) :=
  inferInstanceAs (Decidable (_ ∧ _))

/-- The addresses of a block. -/
def InBlock (b a : Nat) : Prop :=
  blockBase b ≤ a ∧ a < blockBase b + blockSize

/-- The addresses of a block's status word. -/
def InStatus (b a : Nat) : Prop :=
  statusAddr b ≤ a ∧ a < statusAddr b + 4

/-- The kernel fills its block while the status says that it is the kernel's,
and hands it over when its packets are laid out. -/
inductive KernelStep (e : Endian) : Ring → Ring → Prop where
  | fill (s : Ring) (mem' : Memory) :
      blockStatus e s.mem s.kernelBlock = tpStatusKernel →
      (∀ a, mem' a ≠ s.mem a → InBlock s.kernelBlock a ∧ ¬ InStatus s.kernelBlock a) →
      KernelStep e s { s with mem := mem' }
  | retire (s : Ring) (mem' : Memory) (frames : List Frame) :
      blockStatus e s.mem s.kernelBlock = tpStatusKernel →
      (∀ a, mem' a ≠ s.mem a → InStatus s.kernelBlock a) →
      Full e mem' s.kernelBlock → LaidOut e mem' s.kernelBlock frames →
      KernelStep e s
        { s with
          mem := mem'
          kernelBlock := (s.kernelBlock + 1) % blockNr
          retired := s.retired ++ [frames] }

/-- The kernel and `recv_block` in any interleaving, from a ring whose blocks
are all the kernel's. -/
def ringSts (e : Endian) : Sts Ring where
  init s :=
    (∀ b, b < blockNr → blockStatus e s.mem b = tpStatusKernel) ∧ s.kernelBlock = 0 ∧
      s.currentBlock = 0 ∧ s.pc = .idle ∧ s.retired = [] ∧ s.released = 0 ∧ s.delivered = []
  next s t := (∃ pollOk, t = s.recvStep e pollOk) ∨ KernelStep e s t

/-! ## Blocks of a little-endian machine -/

/-- Packets one behind the other, each header followed by its frame and filled up to
a multiple of the alignment. -/
def packetBytes (align : Nat) : List Frame → List UInt8
  | [] => []
  | f :: rest =>
      let size := (tpacket3HdrSize + f.length + align - 1) / align * align
      let next := if rest = [] then 0 else size
      Bytes.leBytes 4 next ++ List.replicate 8 0 ++ Bytes.leBytes 4 f.length ++
        List.replicate 8 0 ++ Bytes.leBytes 2 tpacket3HdrSize ++ List.replicate 14 0 ++ f ++
        List.replicate (size - tpacket3HdrSize - f.length) 0 ++ packetBytes align rest

/-- A block that has been handed over with these packets. -/
def blockBytes (align : Nat) (frames : List Frame) : List UInt8 :=
  List.replicate 8 0 ++ Bytes.leBytes 4 tpStatusUser ++ Bytes.leBytes 4 frames.length ++
    Bytes.leBytes 4 48 ++ List.replicate 28 0 ++ packetBytes align frames

/-- The first blocks hold these bytes, the others are empty. -/
def filledMemory (blocks : List (List UInt8)) : Memory :=
  fun a => (blocks.getD (a / blockSize) []).getD (a % blockSize) 0

/-- Two frames, aligned as the kernel aligns them. -/
example : LaidOut .little (filledMemory [blockBytes 16 [[171], [205, 7]]]) 0 [[171], [205, 7]] := by
  decide +kernel

/-! ## What the layout depends on -/

section

variable {e : Endian} {mem mem' : Memory} {b off : Nat}

theorem bytesAt_congr {a n : Nat} (h : ∀ i, i < n → mem' (a + i) = mem (a + i)) :
    bytesAt mem' a n = bytesAt mem a n := by
  unfold bytesAt
  exact List.map_congr_left fun i hi => h i (List.mem_range.mp hi)

/-- Reads inside a block see its bytes only. -/
theorem u32At_congr {a : Nat} (h : ∀ a, InBlock b a → mem' a = mem a)
    (ha : blockBase b ≤ a ∧ a + 4 ≤ blockBase b + blockSize) :
    e.u32At mem' a = e.u32At mem a := by
  unfold Endian.u32At
  rw [bytesAt_congr fun i hi => h _ ⟨by omega, by omega⟩]

theorem u16At_congr {a : Nat} (h : ∀ a, InBlock b a → mem' a = mem a)
    (ha : blockBase b ≤ a ∧ a + 2 ≤ blockBase b + blockSize) :
    e.u16At mem' a = e.u16At mem a := by
  unfold Endian.u16At
  rw [bytesAt_congr fun i hi => h _ ⟨by omega, by omega⟩]

theorem blockStatus_congr (h : ∀ a, InStatus b a → mem' a = mem a) :
    blockStatus e mem' b = blockStatus e mem b := by
  unfold blockStatus Endian.u32At
  rw [bytesAt_congr fun i hi => h _ ⟨by omega, by omega⟩]

/-- Giving a block back leaves the kernel's status in it. -/
theorem blockStatus_releaseBlock (e : Endian) (mem : Memory) (b : Nat) :
    blockStatus e (releaseBlock mem b) b = tpStatusKernel := by
  have hzero : bytesAt (releaseBlock mem b) (statusAddr b) 4 = (List.range 4).map fun _ => 0 :=
    List.map_congr_left fun i hi =>
      if_pos ⟨Nat.le_add_right _ _, Nat.add_lt_add_left (List.mem_range.mp hi) _⟩
  unfold blockStatus Endian.u32At
  rw [hzero]
  cases e <;> rfl

/-- The header a chain starts with is read from the block's bytes. -/
theorem Chain.header_congr (h : ∀ a, InBlock b a → mem' a = mem a) {f : Frame}
    {rest : List Frame} (hchain : Chain e mem b off (f :: rest)) :
    tpSnaplen e mem' b off = tpSnaplen e mem b off ∧ tpMac e mem' b off = tpMac e mem b off := by
  have hhdr : off + 40 ≤ blockSize := hchain.1
  exact ⟨u32At_congr h ⟨by omega, by omega⟩, u16At_congr h ⟨by omega, by omega⟩⟩

/-- A chain is a matter of the block's bytes. -/
theorem Chain.congr (h : ∀ a, InBlock b a → mem' a = mem a) {frames : List Frame}
    (hchain : Chain e mem b off frames) : Chain e mem' b off frames := by
  -- each header fixes where the next one is, so the induction is along the chain
  induction frames generalizing off with
  | nil => trivial
  | cons f rest ih =>
      rcases hchain.header_congr h with ⟨hsnaplen, hmac⟩
      rcases hchain with ⟨hhdr, halign, hframe, hne, hlen, hbytes, hlast, hnext⟩
      have hhdr' : off + 40 ≤ blockSize := hhdr
      have hnextOffset : tpNextOffset e mem' b off = tpNextOffset e mem b off :=
        u32At_congr h ⟨by omega, by omega⟩
      have hframeAt : frameAt mem' b off (tpMac e mem b off) (tpSnaplen e mem b off) =
          frameAt mem b off (tpMac e mem b off) (tpSnaplen e mem b off) :=
        bytesAt_congr fun i hi => h _ ⟨by omega, by omega⟩
      unfold Chain
      rw [hnextOffset, hsnaplen, hmac, hframeAt]
      exact ⟨hhdr, halign, hframe, hne, hlen, hbytes, hlast, fun hrest =>
        ⟨(hnext hrest).1, ih (hnext hrest).2⟩⟩

theorem LaidOut.congr (h : ∀ a, InBlock b a → mem' a = mem a) {frames : List Frame}
    (hlaid : LaidOut e mem b frames) : LaidOut e mem' b frames := by
  rcases hlaid with ⟨hnum, hchain⟩
  have hnum' : numPkts e mem' b = numPkts e mem b :=
    u32At_congr h ⟨by omega, by simp only [blockSize]; omega⟩
  have hfirst : offsetToFirstPkt e mem' b = offsetToFirstPkt e mem b :=
    u32At_congr h ⟨by omega, by simp only [blockSize]; omega⟩
  exact ⟨hnum'.trans hnum, hfirst ▸ hchain.congr h⟩

/-- Blocks do not overlap. -/
theorem not_inBlock_of_ne {b' a : Nat} (h : InBlock b a) (hne : b ≠ b') : ¬ InBlock b' a := by
  unfold InBlock blockBase blockSize at *
  omega

theorem InStatus.inBlock {a : Nat} (h : InStatus b a) : InBlock b a := by
  unfold InStatus statusAddr at h
  unfold InBlock
  simp only [blockSize]
  omega

end

end NetZer

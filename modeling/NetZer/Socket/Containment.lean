import NetZer.Lib.Bytes
import NetZer.Socket.Ring

/-! # Reading a block that cannot be trusted

`recv_block` adds up offsets that it finds in the block. Here nothing is assumed
of what is found there, and the memory may even change between any two steps:
the bounds checks alone keep every access inside the current block. They do not
keep the pointer to a header aligned. A call on a full block whose memory is left
alone ends, after at most as many headers as the block claims to have packets,
with that block and no other given back, exactly if every header that the offsets
lead to is aligned.
-/

namespace NetZer

/-! ## Accesses -/

/-- A range of addresses. -/
structure Access where
  addr : Nat
  len : Nat
deriving DecidableEq, Repr

/-- The range lies in a block as a whole. -/
def Access.Inside (a : Access) (b : Nat) : Prop :=
  blockBase b ≤ a.addr ∧ a.addr + a.len ≤ blockBase b + blockSize

instance (a : Access) (b : Nat) : Decidable (a.Inside b) :=
  inferInstanceAs (Decidable (_ ∧ _))

namespace Ring

/-- The `Tpacket3Hdr` the next step reads, if it reads one, aligned or not. -/
def headerRead (s : Ring) : List Access :=
  match s.pc with
  | .packet (_ + 1) off =>
      if off + tpacket3HdrSize > blockSize then []
      else [⟨blockBase s.currentBlock + off, tpacket3HdrSize⟩]
  | _ => []

/-- The slice the next step passes to the callback, if it passes one. -/
def frameSlice (s : Ring) : List Access :=
  match s.pc with
  | .frame _ off snaplen mac =>
      if off + mac + snaplen ≤ blockSize ∧ snaplen > 0 then
        [⟨blockBase s.currentBlock + (off + mac), snaplen⟩]
      else []
  | _ => []

/-- The words the next step reads or writes besides: those of the block
descriptor, and `tp_next_offset`. -/
def wordAccess (s : Ring) : List Access :=
  match s.pc with
  | .status | .release => [⟨statusAddr s.currentBlock, 4⟩]
  | .numPkts => [⟨blockBase s.currentBlock + 12, 4⟩]
  | .firstOffset _ => [⟨blockBase s.currentBlock + 16, 4⟩]
  | .nextOffset _ off => [⟨blockBase s.currentBlock + off, 4⟩]
  | _ => []

/-- What the next step touches of the mapping. -/
def accesses (s : Ring) : List Access :=
  s.headerRead ++ s.frameSlice ++ s.wordAccess

/-- The sums and products of `usize` the next step computes. -/
def sums (e : Endian) (s : Ring) : List Nat :=
  match s.pc with
  | .status => [blockBase s.currentBlock]
  | .packet (_ + 1) off => [off + tpacket3HdrSize]
  | .frame _ off snaplen mac => [off + mac, off + mac + snaplen]
  | .nextOffset _ off => [off + tpNextOffset e s.mem s.currentBlock off]
  | .advance => [s.currentBlock + 1]
  | _ => []

end Ring

/-! ## What a step depends on -/

section

variable {e : Endian} {s : Ring}

theorem Ring.recvStep_release (h : s.pc = .release) (pollOk : Bool) :
    s.recvStep e pollOk =
      { s with
        pc := .advance
        mem := releaseBlock s.mem s.currentBlock
        released := s.released + 1 } := by
  unfold Ring.recvStep
  rw [h]

/-- A step sees no more of the memory than it accesses. -/
theorem Ring.recvStep_congr {mem' : Memory} (pollOk : Bool)
    (h : ∀ access ∈ s.accesses, ∀ i < access.len,
      mem' (access.addr + i) = s.mem (access.addr + i)) :
    let t := s.recvStep e pollOk
    let t' := Ring.recvStep e pollOk { s with mem := mem' }
    t'.pc = t.pc ∧ t'.currentBlock = t.currentBlock ∧ t'.delivered = t.delivered := by
  simp only [Ring.accesses, List.forall_mem_append] at h
  obtain ⟨⟨hheader, hframe⟩, hword⟩ := h
  intro t t'
  -- the release writes its word and reads nothing
  by_cases hrelease : s.pc = .release
  · have hstep : t = _ := recvStep_release hrelease pollOk
    have hstep' : t' = _ := recvStep_release (s := { s with mem := mem' }) hrelease pollOk
    rw [hstep, hstep']
    exact ⟨rfl, rfl, rfl⟩
  unfold t t' Ring.recvStep
  cases hpc : s.pc with
  | idle | poll | advance | aborted => exact ⟨rfl, rfl, rfl⟩
  | release => exact absurd hpc hrelease
  | status =>
      simp only [Ring.wordAccess, hpc, List.forall_mem_singleton] at hword
      have hstatus : blockStatus e mem' s.currentBlock = blockStatus e s.mem s.currentBlock := by
        rw [blockStatus, Endian.u32At, bytesAt_congr hword, blockStatus, Endian.u32At]
      have hfull : Full e mem' s.currentBlock ↔ Full e s.mem s.currentBlock := by
        rw [Full, Full, hstatus]
      simp only [hfull, and_self]
  | numPkts =>
      simp only [Ring.wordAccess, hpc, List.forall_mem_singleton] at hword
      simp only [NetZer.numPkts, Endian.u32At, bytesAt_congr hword, and_self]
  | firstOffset num =>
      simp only [Ring.wordAccess, hpc, List.forall_mem_singleton] at hword
      simp only [offsetToFirstPkt, Endian.u32At, bytesAt_congr hword, and_self]
  | packet left off =>
      cases left with
      | zero => exact ⟨rfl, rfl, rfl⟩
      | succ left =>
          by_cases hhdr : off + tpacket3HdrSize > blockSize
          · simp only [if_pos hhdr, and_self]
          · -- the length and the offset of the frame are fields of the header
            simp only [Ring.headerRead, hpc, if_neg hhdr, List.forall_mem_singleton] at hheader
            have hfield : ∀ k n, k + n ≤ 40 →
                bytesAt mem' (blockBase s.currentBlock + off + k) n =
                  bytesAt s.mem (blockBase s.currentBlock + off + k) n := by
              intro k n hk
              apply bytesAt_congr
              intro i hi
              have hbyte := hheader (k + i) (show k + i < 40 by omega)
              rwa [← Nat.add_assoc] at hbyte
            simp only [if_neg hhdr, tpSnaplen, tpMac, Endian.u32At, Endian.u16At,
              hfield 12 4 (by decide), hfield 24 2 (by decide)]
            split_ifs <;> exact ⟨rfl, rfl, rfl⟩
  | frame left off snaplen mac =>
      by_cases hcheck : off + mac + snaplen ≤ blockSize ∧ snaplen > 0
      · simp only [Ring.frameSlice, hpc, if_pos hcheck, List.forall_mem_singleton] at hframe
        simp only [if_pos hcheck, frameAt, bytesAt_congr hframe, and_self]
      · simp only [if_neg hcheck, and_self]
  | nextOffset left off =>
      simp only [Ring.wordAccess, hpc, List.forall_mem_singleton] at hword
      have hnext : tpNextOffset e mem' s.currentBlock off =
          tpNextOffset e s.mem s.currentBlock off := by
        rw [tpNextOffset, Endian.u32At, bytesAt_congr hword, tpNextOffset, Endian.u32At]
      by_cases hzero : tpNextOffset e s.mem s.currentBlock off = 0
      · simp only [hnext, if_pos hzero, and_self]
      · simp only [hnext, if_neg hzero, and_self]

/-- What the callback is called with is what the slice holds. -/
theorem Ring.delivered_recvStep (pollOk : Bool) :
    (s.recvStep e pollOk).delivered =
      s.delivered ++ s.frameSlice.map fun a => bytesAt s.mem a.addr a.len := by
  unfold Ring.frameSlice
  -- only the frame step calls back
  cases hpc : s.pc with
  | idle | status | poll | numPkts | firstOffset | advance | aborted => simp [recvStep, hpc]
  | release => simp [recvStep_release hpc]
  | packet left off =>
      cases left with
      | zero => simp [recvStep, hpc]
      | succ left =>
          simp only [recvStep, hpc]
          split_ifs <;> simp
  | frame left off snaplen mac =>
      by_cases hcheck : off + mac + snaplen ≤ blockSize ∧ snaplen > 0
      · simp only [recvStep, hpc, if_pos hcheck, List.map_cons, List.map_nil, frameAt]
      · simp only [recvStep, hpc, if_neg hcheck, List.map_nil, List.append_nil]
  | nextOffset left off =>
      by_cases hzero : tpNextOffset e s.mem s.currentBlock off = 0
      · simp [recvStep, hpc, if_pos hzero]
      · simp [recvStep, hpc, if_neg hzero]

/-- A step of `recv_block` writes to the ring only to give a block back. -/
theorem Ring.recvStep_frame (s : Ring) (pollOk : Bool) :
    (s.recvStep e pollOk).retired = s.retired ∧
      (s.pc ≠ .release → (s.recvStep e pollOk).mem = s.mem) := by
  cases hpc : s.pc with
  | release => simp [recvStep_release hpc]
  | idle | status | poll | numPkts | firstOffset | advance | aborted => simp [recvStep, hpc]
  | packet left off =>
      cases left with
      | zero => simp [recvStep, hpc]
      | succ left =>
          simp only [recvStep, hpc]
          split_ifs <;> simp
  | frame left off snaplen mac =>
      by_cases hcheck : off + mac + snaplen ≤ blockSize ∧ snaplen > 0
      · simp only [recvStep, hpc, if_pos hcheck, true_and, implies_true]
      · simp only [recvStep, hpc, if_neg hcheck, true_and, implies_true]
  | nextOffset left off =>
      by_cases hzero : tpNextOffset e s.mem s.currentBlock off = 0
      · simp [recvStep, hpc, if_pos hzero]
      · simp [recvStep, hpc, if_neg hzero]

theorem Ring.mem_recvStep (pollOk : Bool) {a : Nat} (h : (s.recvStep e pollOk).mem a ≠ s.mem a) :
    s.pc = .release ∧ InStatus s.currentBlock a := by
  by_cases hrelease : s.pc = .release
  · refine ⟨hrelease, ?_⟩
    by_contra hout
    apply h
    rw [recvStep_release hrelease]
    exact if_neg hout
  · exact absurd (congrFun ((s.recvStep_frame pollOk).2 hrelease) a) h

/-- A step stays in its block: it lies in the accesses what the step sees of the
memory, what it calls back with, and what it changes there. -/
structure Ring.Confined (e : Endian) (s : Ring) : Prop where
  reads : ∀ pollOk mem', (∀ access ∈ s.accesses, ∀ i < access.len,
      mem' (access.addr + i) = s.mem (access.addr + i)) →
    let t := s.recvStep e pollOk
    let t' := Ring.recvStep e pollOk { s with mem := mem' }
    t'.pc = t.pc ∧ t'.currentBlock = t.currentBlock ∧ t'.delivered = t.delivered
  calls : ∀ pollOk, (s.recvStep e pollOk).delivered =
    s.delivered ++ s.frameSlice.map fun a => bytesAt s.mem a.addr a.len
  writes : ∀ pollOk a, (s.recvStep e pollOk).mem a ≠ s.mem a →
    ∃ access ∈ s.accesses, access.addr ≤ a ∧ a < access.addr + access.len
  inside : ∀ access ∈ s.accesses, access.Inside s.currentBlock

/-! ## Every access is inside -/

theorem Endian.toNat_lt (e : Endian) (bs : List UInt8) : e.toNat bs < 256 ^ bs.length := by
  have hfoldr : ∀ bs : List UInt8,
      bs.foldr (fun b v => b.toNat + 256 * v) 0 = Bytes.leNat bs := by
    intro bs
    induction bs with
    | nil => rfl
    | cons b bs ih => rw [List.foldr_cons, ih, Bytes.leNat]
  cases e with
  | little =>
      rw [toNat, hfoldr]
      exact Bytes.leNat_lt bs
  | big =>
      have hflip : bs.foldl (fun v b => 256 * v + b.toNat) 0 = Bytes.leNat bs.reverse := by
        rw [← hfoldr, List.foldr_reverse]
        simp only [Nat.add_comm]
      have hlt := Bytes.leNat_lt bs.reverse
      rw [List.length_reverse] at hlt
      rw [toNat, hflip]
      exact hlt

theorem u32At_lt (e : Endian) (mem : Memory) (a : Nat) : e.u32At mem a < 2 ^ 32 := by
  have hlt := e.toNat_lt (bytesAt mem a 4)
  rw [bytesAt, List.length_map, List.length_range] at hlt
  exact hlt

theorem u16At_lt (e : Endian) (mem : Memory) (a : Nat) : e.u16At mem a < 2 ^ 16 := by
  have hlt := e.toNat_lt (bytesAt mem a 2)
  rw [bytesAt, List.length_map, List.length_range] at hlt
  exact hlt

/-- What the places in the loop know of the numbers they hold: what was read
fits into its word, and a header that was read lies in the block. -/
def Ring.Bounded (s : Ring) : Prop :=
  match s.pc with
  | .packet _ off => off < 2 ^ 33
  | .frame _ off snaplen mac =>
      off + tpacket3HdrSize ≤ blockSize ∧ snaplen < 2 ^ 32 ∧ mac < 2 ^ 16
  | .nextOffset _ off => off + tpacket3HdrSize ≤ blockSize
  | _ => True

/-- What holds of `recv_block` whatever it finds in the memory. -/
structure Ring.Safe (s : Ring) : Prop where
  current : s.currentBlock < blockNr
  bounded : s.Bounded

/-- `recv_block`, called over and over, while the memory may become anything at
any time. -/
def untrustedSts (e : Endian) : Sts Ring where
  init s := s.currentBlock = 0 ∧ s.pc = .idle
  next s t := (∃ pollOk, t = s.recvStep e pollOk) ∨ ∃ mem', t = { s with mem := mem' }

theorem Ring.Safe.recvStep (h : s.Safe) (pollOk : Bool) : (s.recvStep e pollOk).Safe := by
  obtain ⟨hcurrent, hbounded⟩ := h
  unfold Ring.Bounded at hbounded
  by_cases hrelease : s.pc = .release
  · rw [recvStep_release hrelease]
    exact ⟨hcurrent, trivial⟩
  unfold Ring.recvStep
  -- the walk offset grows by fields of 32 bits, and stays in the block while it is used
  cases hpc : s.pc with
  | idle | numPkts | aborted => exact ⟨hcurrent, trivial⟩
  | release => exact absurd hpc hrelease
  | status =>
      refine ⟨hcurrent, ?_⟩
      by_cases hfull : Full e s.mem s.currentBlock
      · simp only [if_pos hfull, Bounded]
      · simp only [if_neg hfull, Bounded]
  | poll =>
      refine ⟨hcurrent, ?_⟩
      cases pollOk <;> trivial
  | firstOffset num =>
      refine ⟨hcurrent, ?_⟩
      have hoff := u32At_lt e s.mem (blockBase s.currentBlock + 16)
      exact Nat.lt_trans hoff (by decide)
  | packet left off =>
      cases left with
      | zero => exact ⟨hcurrent, trivial⟩
      | succ left =>
          dsimp only
          split_ifs with hhdr halign
          · exact ⟨hcurrent, trivial⟩
          · exact ⟨hcurrent, trivial⟩
          · exact ⟨hcurrent, Nat.le_of_not_lt hhdr, u32At_lt _ _ _, u16At_lt _ _ _⟩
  | frame left off snaplen mac =>
      simp only [hpc] at hbounded
      dsimp only
      split_ifs
      · exact ⟨hcurrent, hbounded.1⟩
      · exact ⟨hcurrent, hbounded.1⟩
  | nextOffset left off =>
      simp only [hpc] at hbounded
      have hnext : tpNextOffset e s.mem s.currentBlock off < 2 ^ 32 := u32At_lt _ _ _
      dsimp only
      split_ifs
      · exact ⟨hcurrent, trivial⟩
      · refine ⟨hcurrent, ?_⟩
        unfold blockSize at hbounded
        show off + tpNextOffset e s.mem s.currentBlock off < 2 ^ 33
        omega
  | advance => exact ⟨Nat.mod_lt _ (by decide), trivial⟩

theorem Ring.safe_of_reachable (h : (untrustedSts e).Reachable s) : s.Safe := by
  refine h.invariant Ring.Safe ?_ ?_
  · rintro s ⟨hcurrent, hpc⟩
    refine ⟨hcurrent ▸ (by decide), ?_⟩
    rw [Bounded, hpc]
    trivial
  · rintro s t hs (⟨pollOk, rfl⟩ | ⟨mem', rfl⟩)
    · exact hs.recvStep pollOk
    · exact ⟨hs.current, hs.bounded⟩

theorem Ring.Safe.accesses (h : s.Safe) : ∀ access ∈ s.accesses, access.Inside s.currentBlock := by
  obtain ⟨-, hbounded⟩ := h
  unfold Ring.Bounded at hbounded
  simp only [Ring.accesses, List.forall_mem_append]
  unfold Ring.headerRead Ring.frameSlice Ring.wordAccess Access.Inside statusAddr
  -- the words lie at fixed places of the block, headers and frames behind a check
  cases hpc : s.pc with
  | idle | poll | advance | aborted => simp
  | status | numPkts | firstOffset | release => simp [blockSize, Nat.add_assoc]
  | packet left off =>
      cases left with
      | zero => simp
      | succ left =>
          by_cases hhdr : off + tpacket3HdrSize > blockSize
          · simp [if_pos hhdr]
          · simp only [if_neg hhdr, List.forall_mem_singleton, List.not_mem_nil]
            simp
            omega
  | frame left off snaplen mac =>
      by_cases hcheck : off + mac + snaplen ≤ blockSize ∧ snaplen > 0
      · simp only [if_pos hcheck, List.forall_mem_singleton, List.not_mem_nil]
        simp
        omega
      · simp [if_neg hcheck]
  | nextOffset left off =>
      simp only [hpc, tpacket3HdrSize] at hbounded
      simp only [List.forall_mem_singleton, List.not_mem_nil]
      simp
      omega

theorem Ring.Safe.confined (h : s.Safe) : s.Confined e := by
  refine ⟨fun pollOk mem' => Ring.recvStep_congr pollOk, Ring.delivered_recvStep, ?_, h.accesses⟩
  intro pollOk a ha
  rcases Ring.mem_recvStep pollOk ha with ⟨hrelease, hstatus⟩
  refine ⟨⟨statusAddr s.currentBlock, 4⟩, ?_, hstatus⟩
  simp [Ring.accesses, Ring.wordAccess, hrelease]

/-- No sum wraps around. -/
theorem Ring.Safe.sums (h : s.Safe) : ∀ n ∈ s.sums e, n < 2 ^ 64 := by
  obtain ⟨hcurrent, hbounded⟩ := h
  unfold Ring.Bounded at hbounded
  unfold Ring.sums
  unfold blockNr at hcurrent
  cases hpc : s.pc with
  | idle | poll | numPkts | firstOffset | release | aborted => simp
  | status =>
      simp only [List.forall_mem_singleton, blockBase, blockSize]
      omega
  | packet left off =>
      simp only [hpc] at hbounded
      cases left with
      | zero => simp
      | succ left =>
          simp only [List.forall_mem_singleton, tpacket3HdrSize]
          omega
  | frame left off snaplen mac =>
      simp only [hpc, blockSize] at hbounded
      simp only [List.forall_mem_cons, List.not_mem_nil]
      simp
      omega
  | nextOffset left off =>
      simp only [hpc, blockSize] at hbounded
      have hnext : tpNextOffset e s.mem s.currentBlock off < 2 ^ 32 := u32At_lt _ _ _
      simp only [List.forall_mem_singleton]
      omega
  | advance =>
      simp only [List.forall_mem_singleton]
      omega

/-! ## Where the headers are -/

/-- The headers the loop comes to with so many passes left: where the offsets lead,
up to a header that would leave the block. -/
def headerOffsets (e : Endian) (mem : Memory) (b : Nat) : Nat → Nat → List Nat
  | 0, _ => []
  | left + 1, off =>
      if off + tpacket3HdrSize > blockSize then []
      else
        let next := tpNextOffset e mem b off
        off :: if next = 0 then [] else headerOffsets e mem b left (off + next)

/-- These headers are aligned, those of the passes that are left. -/
def AlignedFrom (e : Endian) (mem : Memory) (b left off : Nat) : Prop :=
  ∀ o ∈ headerOffsets e mem b left off, o % tpacket3HdrAlign = 0

/-- Every header the loop comes to in a block is aligned. -/
def HeadersAligned (e : Endian) (mem : Memory) (b : Nat) : Prop :=
  AlignedFrom e mem b (numPkts e mem b) (offsetToFirstPkt e mem b)

instance (e : Endian) (mem : Memory) (b : Nat) : Decidable (HeadersAligned e mem b) :=
  inferInstanceAs (Decidable (∀ o ∈ headerOffsets e mem b _ _, _))

section

variable {mem : Memory} {b left off : Nat}

theorem alignedFrom_nil (h : off + tpacket3HdrSize > blockSize) :
    AlignedFrom e mem b (left + 1) off := by
  rw [AlignedFrom, headerOffsets, if_pos h]
  exact List.forall_mem_nil _

theorem alignedFrom_succ (h : ¬ off + tpacket3HdrSize > blockSize) :
    AlignedFrom e mem b (left + 1) off ↔ off % tpacket3HdrAlign = 0 ∧
      (tpNextOffset e mem b off ≠ 0 →
        AlignedFrom e mem b left (off + tpNextOffset e mem b off)) := by
  rw [AlignedFrom, headerOffsets, if_neg h, List.forall_mem_cons, AlignedFrom]
  refine and_congr_right fun _ => ?_
  by_cases hnext : tpNextOffset e mem b off = 0
  · rw [if_pos hnext]
    exact iff_of_true (List.forall_mem_nil _) fun hne => absurd hnext hne
  · rw [if_neg hnext]
    exact ⟨fun hrest _ => hrest, fun hrest => hrest hnext⟩

end

/-! ## A call -/

/-- The steps of `recv_block` from one state to another, with the memory left
alone: the states they are taken in. -/
inductive Ring.Path (e : Endian) (pollOk : Bool) : Ring → List Ring → Ring → Prop where
  | done (s : Ring) : Path e pollOk s [] s
  | step (s : Ring) {steps : List Ring} {t : Ring} :
      Path e pollOk (s.recvStep e pollOk) steps t → Path e pollOk s (s :: steps) t

/-- The call that is about to read the status of its block ends as it should: every
step stays in this block and none of its sums wraps around, it reads at most as many
headers as the block claims packets, it calls back with slices of this block only, and
at its end this block and no other has been released and the next one is current. -/
def Ring.Completes (e : Endian) (pollOk : Bool) (s : Ring) : Prop :=
  ∃ steps t, Ring.Path e pollOk s steps t ∧
    (∀ u ∈ steps, u.pc ≠ .idle ∧ u.currentBlock = s.currentBlock ∧ u.Confined e ∧
      ∀ n ∈ u.sums e, n < 2 ^ 64) ∧
    (steps.flatMap Ring.headerRead).length ≤ numPkts e s.mem s.currentBlock ∧
    t.delivered = s.delivered ++
      (steps.flatMap fun u => u.frameSlice.map fun a => bytesAt u.mem a.addr a.len) ∧
    t.pc = .idle ∧ t.mem = releaseBlock s.mem s.currentBlock ∧
    t.currentBlock = (s.currentBlock + 1) % blockNr

variable {pollOk : Bool} {t u : Ring} {steps steps' : List Ring}

theorem Ring.Path.append (h : Path e pollOk s steps t) (h' : Path e pollOk t steps' u) :
    Path e pollOk s (steps ++ steps') u := by
  induction h with
  | done s => exact h'
  | step s _ ih => exact .step s (ih h')

theorem Ring.Path.reachable (h : Path e pollOk s steps t)
    (hs : (untrustedSts e).Reachable s) : ∀ u ∈ steps, (untrustedSts e).Reachable u := by
  induction h with
  | done s => simp
  | step s _ ih => exact List.forall_mem_cons.mpr ⟨hs, ih (hs.step (Or.inl ⟨pollOk, rfl⟩))⟩

/-- The callback has been called with the slices of the steps, in order. -/
theorem Ring.Path.delivered (h : Path e pollOk s steps t) :
    t.delivered = s.delivered ++
      steps.flatMap fun u => u.frameSlice.map fun a => bytesAt u.mem a.addr a.len := by
  induction h with
  | done s => simp
  | step s _ ih => rw [ih, delivered_recvStep, List.flatMap_cons, List.append_assoc]

/-- The steps are in the middle of a call on this block. -/
def Ring.WithinCall (b : Nat) (steps : List Ring) : Prop :=
  ∀ u ∈ steps, u.pc ≠ .idle ∧ u.currentBlock = b

theorem Ring.WithinCall.append {b : Nat} (h : WithinCall b steps) (h' : WithinCall b steps') :
    WithinCall b (steps ++ steps') :=
  List.forall_mem_append.mpr ⟨h, h'⟩

theorem Ring.WithinCall.one {b : Nat} (hpc : s.pc ≠ .idle) (hb : s.currentBlock = b) :
    WithinCall b [s] := by
  intro u hu
  rw [List.mem_singleton.mp hu]
  exact ⟨hpc, hb⟩

theorem Ring.Path.cons (hstep : s.recvStep e pollOk = u) (h : Path e pollOk u steps t) :
    Path e pollOk s (s :: steps) t := by
  subst hstep
  exact .step s h

theorem Ring.Path.one (hstep : s.recvStep e pollOk = t) : Path e pollOk s [s] t :=
  .cons hstep (.done t)

/-- Steps that lead to another place begin with the step of this one. -/
theorem Ring.Path.rest (h : Path e pollOk s steps t) (hne : s.pc ≠ t.pc)
    (hstep : s.recvStep e pollOk = u) : ∃ rest, Path e pollOk u rest t := by
  subst hstep
  cases h with
  | done => exact absurd rfl hne
  | step _ hrest => exact ⟨_, hrest⟩

/-- Nothing comes behind a header that is not aligned. -/
theorem Ring.Path.of_aborted (h : Path e pollOk s steps t) (hpc : s.pc = .aborted) :
    t.pc = .aborted := by
  induction h with
  | done s => exact hpc
  | step s _ ih => exact ih (by simp only [recvStep, hpc])

theorem Ring.length_headerRead_le (s : Ring) : s.headerRead.length ≤ 1 := by
  unfold headerRead
  split
  · split_ifs <;> simp
  · simp

/-! ## The loop -/

section

variable {left off : Nat}

theorem Ring.recvStep_leaves (hpc : s.pc = .packet (left + 1) off)
    (hhdr : off + tpacket3HdrSize > blockSize) (pollOk : Bool) :
    s.recvStep e pollOk = { s with pc := .release } := by
  simp only [recvStep, hpc, if_pos hhdr]

theorem Ring.recvStep_misaligned (hpc : s.pc = .packet (left + 1) off)
    (hhdr : ¬ off + tpacket3HdrSize > blockSize) (halign : off % tpacket3HdrAlign ≠ 0)
    (pollOk : Bool) : s.recvStep e pollOk = { s with pc := .aborted } := by
  simp only [recvStep, hpc, if_neg hhdr, if_pos halign]

theorem Ring.recvStep_header (hpc : s.pc = .packet (left + 1) off)
    (hhdr : ¬ off + tpacket3HdrSize > blockSize) (halign : off % tpacket3HdrAlign = 0)
    (pollOk : Bool) :
    s.recvStep e pollOk = { s with
      pc := .frame left off (tpSnaplen e s.mem s.currentBlock off)
        (tpMac e s.mem s.currentBlock off) } := by
  simp only [recvStep, hpc, if_neg hhdr, if_neg (not_not.mpr halign)]

theorem Ring.recvStep_offers {snaplen mac : Nat} (hpc : s.pc = .frame left off snaplen mac)
    (pollOk : Bool) : ∃ delivered, s.recvStep e pollOk =
      { s with pc := .nextOffset left off, delivered := delivered } := by
  simp only [recvStep, hpc]
  split_ifs
  · exact ⟨_, rfl⟩
  · exact ⟨_, rfl⟩

theorem Ring.recvStep_last (hpc : s.pc = .nextOffset left off)
    (hnext : tpNextOffset e s.mem s.currentBlock off = 0) (pollOk : Bool) :
    s.recvStep e pollOk = { s with pc := .release } := by
  simp only [recvStep, hpc, if_pos hnext]

theorem Ring.recvStep_follows (hpc : s.pc = .nextOffset left off)
    (hnext : tpNextOffset e s.mem s.currentBlock off ≠ 0) (pollOk : Bool) :
    s.recvStep e pollOk = { s with
      pc := .packet left (off + tpNextOffset e s.mem s.currentBlock off) } := by
  simp only [recvStep, hpc, if_neg hnext]

/-- The loop, with so many passes left, over aligned headers: it leaves the memory
alone, and reads no more headers than that. -/
theorem Ring.exists_walk (e : Endian) (pollOk : Bool) (hpc : s.pc = .packet left off)
    (haligned : AlignedFrom e s.mem s.currentBlock left off) :
    ∃ steps delivered, Path e pollOk s steps { s with pc := .release, delivered := delivered } ∧
      WithinCall s.currentBlock steps ∧ (steps.flatMap headerRead).length ≤ left := by
  -- the induction is on the passes left; where the offsets lead does not matter
  induction left generalizing s off with
  | zero =>
      have hstep : s.recvStep e pollOk = { s with pc := .release } := by
        simp only [recvStep, hpc]
      refine ⟨[s], s.delivered, .one hstep, .one (by simp [hpc]) rfl, ?_⟩
      simp [headerRead, hpc]
  | succ left ih =>
      by_cases hhdr : off + tpacket3HdrSize > blockSize
      · refine ⟨[s], s.delivered, .one (recvStep_leaves hpc hhdr pollOk),
          .one (by simp [hpc]) rfl, ?_⟩
        simp [headerRead, hpc, hhdr]
      rw [alignedFrom_succ hhdr] at haligned
      rcases haligned with ⟨halign, hfurther⟩
      -- the header is read, the frame delivered or not, and the chain followed
      let framed : Ring :=
        { s with
          pc := .frame left off (tpSnaplen e s.mem s.currentBlock off)
            (tpMac e s.mem s.currentBlock off) }
      have hheader : s.recvStep e pollOk = framed := recvStep_header hpc hhdr halign pollOk
      obtain ⟨delivered, hdelivered⟩ := recvStep_offers (s := framed) (e := e) rfl pollOk
      let offered : Ring := { s with pc := .nextOffset left off, delivered := delivered }
      have hfirst : Path e pollOk s [s, framed] offered := .cons hheader (.one hdelivered)
      have hwithin : WithinCall s.currentBlock [s, framed, offered] := by
        simp [WithinCall, hpc, framed, offered]
      have hone : ([s, framed, offered].flatMap headerRead).length ≤ 1 := by
        have hs := length_headerRead_le s
        simpa [headerRead, framed, offered] using hs
      by_cases hzero : tpNextOffset e s.mem s.currentBlock off = 0
      · have hlast := recvStep_last (s := offered) rfl hzero pollOk
        refine ⟨[s, framed] ++ [offered], delivered, hfirst.append (.one hlast), hwithin, ?_⟩
        exact Nat.le_trans hone (Nat.succ_le_succ (Nat.zero_le left))
      · have hnext := recvStep_follows (s := offered) rfl hzero pollOk
        obtain ⟨steps, delivered', hrest, hwithinRest, hleft⟩ := ih (s := { offered with
            pc := .packet left (off + tpNextOffset e s.mem s.currentBlock off) }) rfl
            (hfurther hzero)
        refine ⟨[s, framed, offered] ++ steps, delivered', ?_, hwithin.append hwithinRest, ?_⟩
        · exact (hfirst.append (.one hnext)).append hrest
        · rw [List.flatMap_append, List.length_append]
          omega

/-- If the call gets out of the loop, the headers it came to were aligned. -/
theorem Ring.Path.aligned (h : Path e pollOk s steps t) (hpc : s.pc = .packet left off)
    (hend : t.pc = .idle) : AlignedFrom e s.mem s.currentBlock left off := by
  induction left generalizing s steps off with
  | zero => exact List.forall_mem_nil _
  | succ left ih =>
      by_cases hhdr : off + tpacket3HdrSize > blockSize
      · exact alignedFrom_nil hhdr
      by_cases halign : off % tpacket3HdrAlign = 0
      · rw [alignedFrom_succ hhdr]
        refine ⟨halign, ?_⟩
        intro hnext
        let framed : Ring :=
          { s with
            pc := .frame left off (tpSnaplen e s.mem s.currentBlock off)
              (tpMac e s.mem s.currentBlock off) }
        have hheader : s.recvStep e pollOk = framed := recvStep_header hpc hhdr halign pollOk
        obtain ⟨_, hframe⟩ := h.rest (by simp [hpc, hend]) hheader
        obtain ⟨delivered, hoffers⟩ := recvStep_offers (s := framed) (e := e) rfl pollOk
        obtain ⟨_, hoffered⟩ := hframe.rest (by simp [framed, hend]) hoffers
        let offered : Ring := { s with pc := .nextOffset left off, delivered := delivered }
        have hfollows := recvStep_follows (s := offered) rfl hnext pollOk
        obtain ⟨_, hfollowed⟩ := hoffered.rest (by simp [hend]) hfollows
        have hfurther := ih hfollowed rfl
        exact hfurther
      · obtain ⟨_, hrest⟩ := h.rest (by simp [hpc, hend])
          (recvStep_misaligned hpc hhdr halign pollOk)
        have haborted := hrest.of_aborted rfl
        rw [hend] at haborted
        cases haborted

end

/-- A call that finds its block full, with its headers aligned, gives back this block
and no other. -/
theorem Ring.exists_call (e : Endian) (pollOk : Bool) (hpc : s.pc = .status)
    (hfull : Full e s.mem s.currentBlock) (haligned : HeadersAligned e s.mem s.currentBlock) :
    ∃ steps t, Path e pollOk s steps t ∧ WithinCall s.currentBlock steps ∧
      (steps.flatMap headerRead).length ≤ numPkts e s.mem s.currentBlock ∧ t.pc = .idle ∧
      t.mem = releaseBlock s.mem s.currentBlock ∧
      t.currentBlock = (s.currentBlock + 1) % blockNr := by
  let num := NetZer.numPkts e s.mem s.currentBlock
  let counting : Ring := { s with pc := .numPkts }
  let counted : Ring := { s with pc := .firstOffset num }
  let walking : Ring := { s with pc := .packet num (offsetToFirstPkt e s.mem s.currentBlock) }
  have hstatus : s.recvStep e pollOk = counting := by
    simp only [recvStep, hpc, if_pos hfull, counting]
  -- open the block, walk through its packets, give it back
  have hopening : Path e pollOk s [s, counting, counted] walking :=
    .cons hstatus (.cons rfl (.one rfl))
  have hwithin : WithinCall s.currentBlock [s, counting, counted] := by
    simp [WithinCall, hpc, counting, counted]
  obtain ⟨steps, delivered, hwalk, hwithinWalk, hheaders⟩ :=
    exists_walk (s := walking) e pollOk rfl haligned
  let releasing : Ring := { walking with pc := .release, delivered := delivered }
  let advancing : Ring :=
    { releasing with
      pc := .advance
      mem := releaseBlock s.mem s.currentBlock
      released := s.released + 1 }
  have hrelease : releasing.recvStep e pollOk = advancing := recvStep_release rfl pollOk
  have hend : Path e pollOk releasing [releasing, advancing] (advancing.recvStep e pollOk) :=
    .cons hrelease (.one rfl)
  have hwithinEnd : WithinCall s.currentBlock [releasing, advancing] := by
    simp [WithinCall, releasing, advancing, walking]
  refine ⟨[s, counting, counted] ++ steps ++ [releasing, advancing], _,
    (hopening.append hwalk).append hend, (hwithin.append hwithinWalk).append hwithinEnd, ?_,
    rfl, rfl, rfl⟩
  have hnone : ([s, counting, counted].flatMap headerRead).length = 0 := by
    simp [headerRead, hpc, counting, counted]
  have hnone' : ([releasing, advancing].flatMap headerRead).length = 0 := by
    simp [headerRead, releasing, advancing]
  rw [List.flatMap_append, List.flatMap_append, List.length_append, List.length_append, hnone,
    hnone']
  omega

/-- A call that finds its block full and comes to its end found its headers aligned. -/
theorem Ring.Path.headersAligned (h : Path e pollOk s steps t) (hpc : s.pc = .status)
    (hfull : Full e s.mem s.currentBlock) (hend : t.pc = .idle) :
    HeadersAligned e s.mem s.currentBlock := by
  let num := NetZer.numPkts e s.mem s.currentBlock
  let counting : Ring := { s with pc := .numPkts }
  let counted : Ring := { s with pc := .firstOffset num }
  let walking : Ring := { s with pc := .packet num (offsetToFirstPkt e s.mem s.currentBlock) }
  have hstatus : s.recvStep e pollOk = counting := by
    simp only [recvStep, hpc, if_pos hfull, counting]
  obtain ⟨_, hcounting⟩ := h.rest (by simp [hpc, hend]) hstatus
  have hnum : counting.recvStep e pollOk = counted := rfl
  obtain ⟨_, hcounted⟩ := hcounting.rest (by simp [counting, hend]) hnum
  have hfirst : counted.recvStep e pollOk = walking := rfl
  obtain ⟨_, hwalking⟩ := hcounted.rest (by simp [counted, hend]) hfirst
  exact hwalking.aligned rfl hend

theorem Ring.completes_iff (h : (untrustedSts e).Reachable s) (hpc : s.pc = .status)
    (hfull : Full e s.mem s.currentBlock) :
    s.Completes e pollOk ↔ HeadersAligned e s.mem s.currentBlock := by
  constructor
  · rintro ⟨steps, t, hpath, -, -, -, hend, -⟩
    exact hpath.headersAligned hpc hfull hend
  · intro haligned
    obtain ⟨steps, t, hpath, hwithin, hheaders, hend⟩ :=
      Ring.exists_call e pollOk hpc hfull haligned
    refine ⟨steps, t, hpath, ?_, hheaders, hpath.delivered, hend⟩
    intro u hu
    have hsafe := Ring.safe_of_reachable (hpath.reachable h u hu)
    exact ⟨(hwithin u hu).1, (hwithin u hu).2, hsafe.confined, hsafe.sums⟩

end

/-- Whatever the memory holds and becomes, every step of `recv_block` stays in the
current block, which is one of the ring, and no sum wraps around. And a call on a full
block, whatever its content, reads at most as many headers as the block claims
packets, calls back with slices of this block only, and ends with this block released
and the next one current, exactly if every header it comes to is aligned. -/
theorem recvBlock_contained_iff {e : Endian} {s : Ring} (h : (untrustedSts e).Reachable s) :
    s.currentBlock < blockNr ∧ s.Confined e ∧ (∀ n ∈ s.sums e, n < 2 ^ 64) ∧
      (s.pc = .status → Full e s.mem s.currentBlock → ∀ pollOk,
        (s.Completes e pollOk ↔ HeadersAligned e s.mem s.currentBlock)) := by
  have hsafe := Ring.safe_of_reachable h
  exact ⟨hsafe.current, hsafe.confined, hsafe.sums,
    fun hpc hfull _ => Ring.completes_iff h hpc hfull⟩

/-- About to read the status of block 0, which holds these packets. -/
def fullRing (align : Nat) (frames : List Frame) : Ring :=
  { mem := filledMemory [blockBytes align frames]
    kernelBlock := 0
    currentBlock := 0
    pc := .status
    retired := []
    released := 0
    delivered := [] }

theorem fullRing_reachable (align : Nat) (frames : List Frame) :
    (untrustedSts .little).Reachable (fullRing align frames) := by
  have hidle : (untrustedSts .little).Reachable { fullRing align frames with pc := .idle } :=
    .init ⟨rfl, rfl⟩
  exact hidle.step (Or.inl ⟨true, rfl⟩)

/-- A chain of three packets is walked to its end. -/
theorem recvBlock_contained_three :
    headerOffsets .little (fullRing 16 [[171], [205, 7], [9]]).mem 0 3 48 = [48, 96, 144] ∧
      (fullRing 16 [[171], [205, 7], [9]]).Confined .little ∧
      (fullRing 16 [[171], [205, 7], [9]]).Completes .little true := by
  have h := recvBlock_contained_iff (fullRing_reachable 16 [[171], [205, 7], [9]])
  exact ⟨by decide +kernel, h.2.1,
    (h.2.2.2 rfl (by decide +kernel) true).mpr (by decide +kernel)⟩

/-- With the packets one behind the other the second header is not aligned: the call
does not come to its end, and the block is not given back. -/
theorem recvBlock_misaligned :
    ¬ ∀ (e : Endian) (s : Ring), (untrustedSts e).Reachable s → s.pc = .status →
      Full e s.mem s.currentBlock → ∀ pollOk, s.Completes e pollOk := by
  intro hall
  have hreachable := fullRing_reachable 1 [[171], [205, 7], [9]]
  have hfull : Full .little (fullRing 1 [[171], [205, 7], [9]]).mem 0 := by decide +kernel
  have hcompletes := hall .little _ hreachable rfl hfull true
  have haligned := (Ring.completes_iff hreachable rfl hfull).mp hcompletes
  exact absurd haligned (by decide +kernel)

end NetZer

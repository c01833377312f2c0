import Mathlib.Data.Prod.Lex
import NetZer.Lib.Fairness
import NetZer.Socket.Containment
import NetZer.Socket.Delivery

/-! # Progress of the ring

What the ring does sooner or later, if `recv_block` goes on taking steps. The
kernel may step in at any time and `poll` may fail as often as it likes: every
block handed over is given back, with all its frames delivered, and the kernel
does not find its block taken for ever. The rank of a state is the number of
blocks that are out, and the steps `recv_block` has to take at most to give the
current one back.
-/

namespace NetZer

/-- A step of `recv_block`, whatever `poll` answers. -/
def Ring.RecvAction (e : Endian) (s t : Ring) : Prop :=
  ∃ pollOk, t = s.recvStep e pollOk

/-- `num_pkts` is a word of 32 bits. -/
@[irreducible] def numPktsBound : Nat := 2 ^ 32

theorem numPkts_lt (e : Endian) (mem : Memory) (b : Nat) : numPkts e mem b < numPktsBound := by
  unfold numPktsBound
  exact u32At_lt e mem _

/-- `recv_block` gives back a full block within so many of its own steps. -/
def Pc.stepsLeft : Pc → Nat
  | .release => 1
  | .packet left _ => 3 * left + 2
  | .nextOffset left _ => 3 * left + 3
  | .frame left _ _ _ => 3 * left + 4
  | .firstOffset num => 3 * num + 3
  | .numPkts => 3 * numPktsBound + 3
  | .status => 3 * numPktsBound + 4
  | .idle => 3 * numPktsBound + 5
  | .poll | .advance => 3 * numPktsBound + 6
  | .aborted => 0

/-- The rank towards the release of block number `k`. -/
def Ring.rank (k : Nat) (s : Ring) : Nat ×ₗ Nat :=
  toLex (k + 1 - s.released, s.pc.stepsLeft)

section

variable {e : Endian} {s t : Ring}

/-! ## One step -/

/-- With a block to give back, a step of `recv_block` gives it back or comes closer. -/
theorem Ring.Inv.recvStep_stepsLeft (h : s.Inv e) (hout : s.released < s.retired.length)
    (pollOk : Bool) :
    (s.recvStep e pollOk).released = s.released + 1 ∨
      (s.recvStep e pollOk).released = s.released ∧
        (s.recvStep e pollOk).pc.stepsLeft < s.pc.stepsLeft := by
  have hprogress := h.progress
  unfold Ring.Progress at hprogress
  unfold Ring.recvStep
  cases hpc : s.pc with
  | release => exact Or.inl rfl
  | aborted => simp only [hpc] at hprogress
  | idle => exact Or.inr ⟨rfl, by simp [Pc.stepsLeft]⟩
  | advance => exact Or.inr ⟨rfl, by simp [Pc.stepsLeft]⟩
  | poll =>
      right
      cases pollOk with
      | true => exact ⟨rfl, by simp [Pc.stepsLeft]⟩
      | false => exact ⟨rfl, by simp [Pc.stepsLeft]⟩
  | status =>
      -- the block is full, so there is nothing to wait for
      simp only [hpc] at hprogress
      have hfull : Full e s.mem s.currentBlock := by
        rw [hprogress.1]
        exact (h.window.full_iff _ (Nat.mod_lt _ blockNr_pos)).mpr
          ⟨s.released, Nat.le_refl _, hout, rfl⟩
      right
      simp only [if_pos hfull, true_and]
      simp [Pc.stepsLeft]
  | numPkts =>
      have hnum := numPkts_lt e s.mem s.currentBlock
      right
      refine ⟨rfl, ?_⟩
      simp only [Pc.stepsLeft]
      omega
  | firstOffset num =>
      right
      refine ⟨rfl, ?_⟩
      simp only [Pc.stepsLeft]
      omega
  | packet left off =>
      right
      cases left with
      | zero => exact ⟨rfl, by simp [Pc.stepsLeft]⟩
      | succ left =>
          dsimp only
          split_ifs
          · exact ⟨rfl, by simp [Pc.stepsLeft]⟩
          · exact ⟨rfl, by simp [Pc.stepsLeft]⟩
          · refine ⟨rfl, ?_⟩
            simp only [Pc.stepsLeft]
            omega
  | frame left off snaplen mac =>
      right
      dsimp only
      split_ifs
      · exact ⟨rfl, by simp [Pc.stepsLeft]⟩
      · exact ⟨rfl, by simp [Pc.stepsLeft]⟩
  | nextOffset left off =>
      right
      dsimp only
      split_ifs
      · exact ⟨rfl, by simp [Pc.stepsLeft]⟩
      · exact ⟨rfl, by simp [Pc.stepsLeft]⟩

/-- The kernel does not move `recv_block`, and hands over more blocks if anything. -/
theorem KernelStep.frame (h : KernelStep e s t) :
    t.pc = s.pc ∧ t.released = s.released ∧ s.retired <+: t.retired := by
  cases h with
  | fill => exact ⟨rfl, rfl, List.prefix_refl _⟩
  | retire mem' frames => exact ⟨rfl, rfl, List.prefix_append _ _⟩

theorem KernelStep.kernelBlock_free (h : KernelStep e s t) :
    blockStatus e s.mem s.kernelBlock = tpStatusKernel := by
  cases h with
  | fill mem' hstatus => exact hstatus
  | retire mem' frames hstatus => exact hstatus

theorem ringSts_retired_mono (h : (ringSts e).next s t) : s.retired <+: t.retired := by
  rcases h with ⟨pollOk, rfl⟩ | hkernel
  · rw [(s.recvStep_frame pollOk).1]
  · exact hkernel.frame.2.2

/-- Block number `k` is out. -/
def Ring.Out (k : Nat) (s : Ring) : Prop :=
  s.released ≤ k ∧ k < s.retired.length

/-- Before block `k` is given back, `recv_block` comes closer to it with every step. -/
theorem Ring.Inv.recvStep_rank {k : Nat} (h : s.Inv e) (hout : s.Out k) (pollOk : Bool) :
    k < (s.recvStep e pollOk).released ∨
      (s.recvStep e pollOk).Out k ∧ (s.recvStep e pollOk).rank k < s.rank k := by
  have hretired : (s.recvStep e pollOk).retired = s.retired := (s.recvStep_frame pollOk).1
  have hlt : s.released < s.retired.length := Nat.lt_of_le_of_lt hout.1 hout.2
  rcases h.recvStep_stepsLeft hlt pollOk with hreleased | ⟨hreleased, hsteps⟩
  · by_cases hlast : s.released = k
    · left
      rw [hreleased, hlast]
      exact Nat.lt_succ_self k
    · right
      have hle := hout.1
      refine ⟨⟨by omega, hretired ▸ hout.2⟩, ?_⟩
      refine Prod.Lex.toLex_lt_toLex.mpr (Or.inl ?_)
      show k + 1 - (s.recvStep e pollOk).released < k + 1 - s.released
      omega
  · right
    refine ⟨⟨hreleased ▸ hout.1, hretired ▸ hout.2⟩, ?_⟩
    refine Prod.Lex.toLex_lt_toLex.mpr (Or.inr ⟨?_, hsteps⟩)
    show k + 1 - (s.recvStep e pollOk).released = k + 1 - s.released
    rw [hreleased]

/-! ## The kernel's block -/

/-- A block that is not full is the kernel's: no other status is ever left. -/
def Ring.Settled (e : Endian) (s : Ring) : Prop :=
  ∀ b, b < blockNr → blockStatus e s.mem b = tpStatusKernel ∨ Full e s.mem b

theorem Ring.Settled.recvStep (h : s.Settled e) (pollOk : Bool) :
    (s.recvStep e pollOk).Settled e := by
  by_cases hrelease : s.pc = .release
  · rw [Ring.recvStep_release hrelease]
    intro b hb
    show blockStatus e (releaseBlock s.mem s.currentBlock) b = _ ∨
      Full e (releaseBlock s.mem s.currentBlock) b
    by_cases hcurrent : b = s.currentBlock
    · left
      rw [hcurrent]
      exact blockStatus_releaseBlock e s.mem s.currentBlock
    · have hsame : blockStatus e (releaseBlock s.mem s.currentBlock) b = blockStatus e s.mem b :=
        blockStatus_congr fun a ha =>
          if_neg fun ha' => not_inBlock_of_ne ha.inBlock hcurrent (InStatus.inBlock ha')
      unfold Full
      rw [hsame]
      exact h b hb
  · have hmem : (s.recvStep e pollOk).mem = s.mem := (s.recvStep_frame pollOk).2 hrelease
    intro b hb
    rw [hmem]
    exact h b hb

theorem Ring.Settled.kernel (h : s.Settled e) (hstep : KernelStep e s t) : t.Settled e := by
  -- another block's status word is out of reach
  have hother : ∀ {mem' : Memory} {b : Nat}, b ≠ s.kernelBlock →
      (∀ a, mem' a ≠ s.mem a → InBlock s.kernelBlock a) →
      blockStatus e mem' b = blockStatus e s.mem b := by
    intro mem' b hne hmem
    refine blockStatus_congr ?_
    intro a ha
    by_contra hchanged
    exact not_inBlock_of_ne ha.inBlock hne (hmem a hchanged)
  cases hstep with
  | fill mem' hstatus hmem =>
      intro b hb
      show blockStatus e mem' b = _ ∨ Full e mem' b
      have hsame : blockStatus e mem' b = blockStatus e s.mem b := by
        by_cases hkernel : b = s.kernelBlock
        · refine blockStatus_congr ?_
          intro a ha
          by_contra hchanged
          exact (hmem a hchanged).2 (hkernel ▸ ha)
        · exact hother hkernel fun a ha => (hmem a ha).1
      unfold Full
      rw [hsame]
      exact h b hb
  | retire mem' frames hstatus hmem hfull hlaid =>
      intro b hb
      show blockStatus e mem' b = _ ∨ Full e mem' b
      by_cases hkernel : b = s.kernelBlock
      · right
        rw [hkernel]
        exact hfull
      · have hsame := hother hkernel fun a ha => (hmem a ha).inBlock
        unfold Full
        rw [hsame]
        exact h b hb

theorem Ring.settled_of_reachable (h : (ringSts e).Reachable s) : s.Settled e := by
  refine h.invariant (Ring.Settled e) ?_ ?_
  · rintro s ⟨hstatus, _⟩
    intro b hb
    exact Or.inl (hstatus b hb)
  · rintro s t hs (⟨pollOk, rfl⟩ | hkernel)
    · exact hs.recvStep pollOk
    · exact hs.kernel hkernel

/-- The kernel's block is taken only while as many blocks are out as there are. -/
theorem Ring.kernelBlock_free (h : (ringSts e).Reachable s)
    (hroom : s.retired.length < s.released + blockNr) :
    blockStatus e s.mem s.kernelBlock = tpStatusKernel := by
  have hinv := Ring.inv_of_reachable h
  have hlt : s.kernelBlock < blockNr := by
    rw [hinv.kernel]
    exact Nat.mod_lt _ blockNr_pos
  rcases Ring.settled_of_reachable h _ hlt with hfree | hfull
  · exact hfree
  · rcases (hinv.window.full_iff _ hlt).mp hfull with ⟨i, hi, hlt', hslot⟩
    have heq : i = s.retired.length :=
      Window.slot_inj (Nat.le_of_lt hlt') (by omega) (hslot.trans hinv.kernel)
    exact absurd heq (Nat.ne_of_lt hlt')

/-! ## Runs -/

variable (b : (ringSts e).Behavior)

/-- Every block that is out is given back. -/
theorem Ring.out_leadsTo (hfair : b.Fair (Ring.RecvAction e)) (k : Nat) :
    b.LeadsTo (Ring.Out k) fun s => k < s.released := by
  refine Sts.Behavior.leadsTo_of_rank (Ring.rank k) hfair ?_ ?_ ?_
  · intro s _ _
    exact ⟨s.recvStep e true, true, rfl⟩
  · intro s t hs hout hstep
    rcases hstep with ⟨pollOk, rfl⟩ | hkernel
    · rcases (Ring.inv_of_reachable hs).recvStep_rank hout pollOk with hdone | ⟨hout', hrank⟩
      · exact Or.inl hdone
      · exact Or.inr ⟨hout', le_of_lt hrank⟩
    · rcases hkernel.frame with ⟨hpc, hreleased, hretired⟩
      right
      refine ⟨⟨hreleased ▸ hout.1, Nat.lt_of_lt_of_le hout.2 hretired.length_le⟩, ?_⟩
      unfold Ring.rank
      rw [hpc, hreleased]
  · rintro s t hs hout ⟨pollOk, rfl⟩
    rcases (Ring.inv_of_reachable hs).recvStep_rank hout pollOk with hdone | ⟨_, hrank⟩
    · exact Or.inl hdone
    · exact Or.inr hrank

theorem Ring.retired_mono {n m : Nat} (h : n ≤ m) :
    (b.state n).retired <+: (b.state m).retired :=
  b.extends_of_step (r := fun s t => s.retired <+: t.retired) (fun _ => List.prefix_refl _)
    (fun _ _ _ => List.IsPrefix.trans) (fun _ _ _ => ringSts_retired_mono) h

/-- Block by block, all that are out now are given back. -/
theorem Ring.given_back (hfair : b.Fair (Ring.RecvAction e)) (n : Nat) :
    ∃ m, n ≤ m ∧ (b.state n).retired.length ≤ (b.state m).released ∧
      (b.state n).retired.flatten <+: (b.state m).delivered := by
  have hgiven : ∃ m, n ≤ m ∧ (b.state n).retired.length ≤ (b.state m).released := by
    by_cases hout : (b.state n).released < (b.state n).retired.length
    · have hlast : (b.state n).Out ((b.state n).retired.length - 1) := ⟨by omega, by omega⟩
      rcases Ring.out_leadsTo b hfair _ n hlast with ⟨m, hnm, hlt⟩
      exact ⟨m, hnm, by omega⟩
    · exact ⟨n, Nat.le_refl n, Nat.le_of_not_lt hout⟩
  rcases hgiven with ⟨m, hnm, hle⟩
  refine ⟨m, hnm, hle, ?_⟩
  have hframes : (b.state n).retired.flatten <+: (b.state m).releasedFrames := by
    rcases Ring.retired_mono b hnm with ⟨later, hlater⟩
    unfold Ring.releasedFrames
    rw [← hlater, List.take_append, List.take_of_length_le hle, List.flatten_append]
    exact List.prefix_append _ _
  have hinv := Ring.inv_of_reachable (b.reachable m)
  exact hframes.trans hinv.releasedFrames_prefix

/-- As long as the kernel finds its block taken, it hands over none. -/
theorem Ring.retired_of_taken {n : Nat}
    (htaken : ∀ m, n ≤ m →
      blockStatus e (b.state m).mem (b.state m).kernelBlock ≠ tpStatusKernel) {m : Nat}
    (hnm : n ≤ m) : (b.state m).retired = (b.state n).retired := by
  induction hnm with
  | refl => rfl
  | @step m hnm ih =>
      rcases b.step m with (⟨pollOk, hrecv⟩ | hkernel) | hrest
      · rw [hrecv, ((b.state m).recvStep_frame pollOk).1, ih]
      · exact absurd hkernel.kernelBlock_free (htaken m hnm)
      · rw [hrest, ih]

end

/-- As long as `recv_block` goes on taking steps, whatever `poll` answers and
however the kernel steps in: every frame handed over is delivered, in order, and
its block given back; and again and again the kernel finds its block free. -/
theorem recvBlock_live {e : Endian} (b : (ringSts e).Behavior)
    (hfair : b.Fair (Ring.RecvAction e)) (n : Nat) :
    (∃ m, n ≤ m ∧ (b.state n).retired.length ≤ (b.state m).released ∧
      (b.state n).retired.flatten <+: (b.state m).delivered) ∧
    ∃ m, n ≤ m ∧ blockStatus e (b.state m).mem (b.state m).kernelBlock = tpStatusKernel := by
  refine ⟨Ring.given_back b hfair n, ?_⟩
  by_contra hnever
  have htaken : ∀ m, n ≤ m →
      blockStatus e (b.state m).mem (b.state m).kernelBlock ≠ tpStatusKernel := by
    intro m hnm hfree
    exact hnever ⟨m, hnm, hfree⟩
  -- all blocks are out, until the first of them is given back
  have hfull : (b.state n).released + blockNr ≤ (b.state n).retired.length := by
    by_contra hroom
    exact htaken n (Nat.le_refl n) (Ring.kernelBlock_free (b.reachable n) (by omega))
  have hpos := blockNr_pos
  have hout : (b.state n).Out (b.state n).released := ⟨Nat.le_refl _, by omega⟩
  rcases Ring.out_leadsTo b hfair _ n hout with ⟨m, hnm, hlt⟩
  have hfits := (Ring.inv_of_reachable (b.reachable n)).window.fits
  refine htaken m hnm (Ring.kernelBlock_free (b.reachable m) ?_)
  rw [Ring.retired_of_taken b htaken hnm]
  omega

/-- The frames of the two full blocks are delivered, and the blocks given back. -/
theorem recvBlock_live_threeFrames :
    ∃ (b : (ringSts .little).Behavior) (n m : Nat), b.state n = threeFrameRing ∧ n ≤ m ∧
      2 ≤ (b.state m).released ∧ [[171], [205, 7], [9]] <+: (b.state m).delivered := by
  rcases Sts.Behavior.exists_fair_through threeFrameRing_reachable (fun _ => ())
    (fun _ n => ⟨n, Nat.le_refl n, rfl⟩) (fun _ => Ring.RecvAction .little)
    (fun _ => Ring.recvStep .little true) (fun _ _ => Or.inl (Or.inl ⟨true, rfl⟩))
    (fun _ _ _ => ⟨true, rfl⟩) with ⟨b, k, hfair, hb⟩
  rcases (recvBlock_live b (hfair ()) k).1 with ⟨m, hm, hreleased, hdelivered⟩
  have hstart : b.state k = threeFrameRing := hb 0
  rw [hstart] at hreleased hdelivered
  exact ⟨b, k, m, hstart, hm, hreleased, hdelivered⟩

end NetZer

import NetZer.Socket.Ring

/-! # Delivery from the ring

Over every interleaving the frames of the callback are a prefix of the frames
of the blocks handed over, in order. The two sides keep in step through the
status words alone: the blocks between the count of released and the count of
retired ones are full, and the walk of `recv_block` through its block tells how
much of it has been delivered.
-/

namespace NetZer

/-- The frames of the blocks that have been given back. -/
def Ring.releasedFrames (s : Ring) : List Frame :=
  (s.retired.take s.released).flatten

/-- The walk has delivered `done` of its block and `rest` is to come. -/
def Ring.Walking (s : Ring) (done rest : List Frame) : Prop :=
  s.currentBlock = s.released % blockNr ∧ s.retired[s.released]? = some (done ++ rest) ∧
    s.delivered = s.releasedFrames ++ done

/-- No block is being walked. -/
def Ring.Resting (s : Ring) : Prop :=
  s.currentBlock = s.released % blockNr ∧ s.delivered = s.releasedFrames

/-- What each place in `recv_block` knows. -/
def Ring.Progress (e : Endian) (s : Ring) : Prop :=
  match s.pc with
  | .idle | .status | .poll => s.Resting
  | .numPkts => ∃ rest, s.Walking [] rest
  | .firstOffset num => ∃ rest, s.Walking [] rest ∧ num = rest.length
  | .packet left off => ∃ done rest, s.Walking done rest ∧ left = rest.length ∧
      Chain e s.mem s.currentBlock off rest
  | .frame left off snaplen mac => ∃ done f rest, s.Walking done (f :: rest) ∧
      left = rest.length ∧ Chain e s.mem s.currentBlock off (f :: rest) ∧
      snaplen = tpSnaplen e s.mem s.currentBlock off ∧ mac = tpMac e s.mem s.currentBlock off
  | .nextOffset left off => ∃ done f rest, s.Walking (done ++ [f]) rest ∧
      left = rest.length ∧ Chain e s.mem s.currentBlock off (f :: rest)
  | .release => ∃ done, s.Walking done []
  | .advance => 0 < s.released ∧ s.currentBlock = (s.released - 1) % blockNr ∧
      s.delivered = s.releasedFrames
  | .aborted => False

/-- The invariant: full blocks are those retired and not released, each holds
its frames, and both sides are where they should be. -/
structure Ring.Inv (e : Endian) (s : Ring) : Prop where
  window : Window blockNr (Full e s.mem) s.released s.retired.length
  kernel : s.kernelBlock = s.retired.length % blockNr
  laid : ∀ i frames, s.released ≤ i → s.retired[i]? = some frames →
    LaidOut e s.mem (i % blockNr) frames
  progress : s.Progress e

theorem not_full_of_kernel {e : Endian} {mem : Memory} {b : Nat}
    (h : blockStatus e mem b = tpStatusKernel) : ¬ Full e mem b := by
  simp [Full, h, tpStatusKernel]

theorem Ring.inv_init {e : Endian} {s : Ring} (h : (ringSts e).init s) : s.Inv e := by
  rcases h with ⟨hstatus, hkernel, hcurrent, hpc, hretired, hreleased, hdelivered⟩
  refine ⟨?_, ?_, ?_, ?_⟩
  · rw [hretired, hreleased]
    exact Window.empty fun b hb => not_full_of_kernel (hstatus b hb)
  · rw [hkernel, hretired]
    rfl
  · intro i frames _ hi
    simp [hretired] at hi
  · simp only [Progress, hpc, Resting, releasedFrames, hcurrent, hreleased, hdelivered, hretired]
    exact ⟨rfl, rfl⟩

/-! ## The kernel's steps -/

section

variable {e : Endian} {s : Ring}

theorem blockNr_pos : 0 < blockNr := by decide

/-- The block that is walked has been retired. -/
theorem Ring.Walking.lt {done rest : List Frame} (h : s.Walking done rest) :
    s.released < s.retired.length :=
  (List.getElem?_eq_some_iff.mp h.2.1).1

/-- A change of memory outside the current block, and more retired blocks,
leave the walk as it is. -/
theorem Ring.Progress.frame {mem' : Memory} {retired' : List (List Frame)} {kernelBlock' : Nat}
    (h : s.Progress e) (hle : s.released ≤ s.retired.length)
    (hmem : s.released < s.retired.length → ∀ a, InBlock (s.released % blockNr) a →
      mem' a = s.mem a) :
    Ring.Progress e
      { s with mem := mem', kernelBlock := kernelBlock', retired := s.retired ++ retired' } := by
  -- the blocks given back are the first ones, so retiring adds none to them
  have hframes : (s.retired ++ retired').take s.released = s.retired.take s.released :=
    List.take_append_of_le_length hle
  have hwalk : ∀ {done rest}, s.Walking done rest → Ring.Walking
      { s with mem := mem', kernelBlock := kernelBlock', retired := s.retired ++ retired' }
      done rest := by
    intro done rest hw
    refine ⟨hw.1, (List.getElem?_append_left hw.lt).trans hw.2.1, ?_⟩
    simpa [releasedFrames, hframes] using hw.2.2
  have hblock : ∀ {done rest}, s.Walking done rest → ∀ a, InBlock s.currentBlock a →
      mem' a = s.mem a := by
    intro done rest hw a ha
    exact hmem hw.lt a (hw.1 ▸ ha)
  unfold Ring.Progress at h ⊢
  cases hpc : s.pc with
  | idle | status | poll =>
      simp only [hpc] at h ⊢
      simpa [Resting, releasedFrames, hframes] using h
  | advance =>
      simp only [hpc] at h ⊢
      simpa [releasedFrames, hframes] using h
  | numPkts =>
      simp only [hpc] at h ⊢
      rcases h with ⟨rest, hw⟩
      exact ⟨rest, hwalk hw⟩
  | firstOffset num =>
      simp only [hpc] at h ⊢
      rcases h with ⟨rest, hw, hnum⟩
      exact ⟨rest, hwalk hw, hnum⟩
  | packet left off =>
      simp only [hpc] at h ⊢
      rcases h with ⟨done, rest, hw, hleft, hchain⟩
      exact ⟨done, rest, hwalk hw, hleft, hchain.congr (hblock hw)⟩
  | frame left off snaplen mac =>
      simp only [hpc] at h ⊢
      rcases h with ⟨done, f, rest, hw, hleft, hchain, hsnaplen, hmac⟩
      rcases hchain.header_congr (hblock hw) with ⟨hs, hm⟩
      exact ⟨done, f, rest, hwalk hw, hleft, hchain.congr (hblock hw), hsnaplen.trans hs.symm,
        hmac.trans hm.symm⟩
  | nextOffset left off =>
      simp only [hpc] at h ⊢
      rcases h with ⟨done, f, rest, hw, hleft, hchain⟩
      exact ⟨done, f, rest, hwalk hw, hleft, hchain.congr (hblock hw)⟩
  | release =>
      simp only [hpc] at h ⊢
      rcases h with ⟨done, hw⟩
      exact ⟨done, hwalk hw⟩
  | aborted => simp only [hpc] at h

/-- What the kernel does to its own block, when its status is the kernel's,
does not touch a full one. -/
theorem Ring.Inv.full_untouched (h : s.Inv e) {mem' : Memory}
    (hstatus : blockStatus e s.mem s.kernelBlock = tpStatusKernel)
    (houtside : ∀ a, ¬ InBlock s.kernelBlock a → mem' a = s.mem a) {i : Nat}
    (hi : s.released ≤ i) (hlt : i < s.retired.length) {a : Nat} (ha : InBlock (i % blockNr) a) :
    mem' a = s.mem a := by
  -- the kernel's block is free, and every block of the window is full
  have hfree : ¬ Full e s.mem (s.retired.length % blockNr) :=
    h.kernel ▸ not_full_of_kernel hstatus
  have hne : i % blockNr ≠ s.kernelBlock := by
    rw [h.kernel]
    exact h.window.slot_ne_head blockNr_pos hfree hi hlt
  exact houtside a (not_inBlock_of_ne ha hne)

theorem Ring.Inv.fill {mem' : Memory} (h : s.Inv e)
    (hstatus : blockStatus e s.mem s.kernelBlock = tpStatusKernel)
    (hmem : ∀ a, mem' a ≠ s.mem a → InBlock s.kernelBlock a ∧ ¬ InStatus s.kernelBlock a) :
    Ring.Inv e { s with mem := mem' } := by
  have houtside : ∀ a, ¬ InBlock s.kernelBlock a → mem' a = s.mem a := by
    intro a ha
    by_contra hne
    exact ha (hmem a hne).1
  have huntouched : ∀ {i a}, s.released ≤ i → i < s.retired.length → InBlock (i % blockNr) a →
      mem' a = s.mem a := by
    intro i a hi hlt ha
    exact h.full_untouched hstatus houtside hi hlt ha
  refine ⟨?_, h.kernel, ?_, ?_⟩
  · -- no status word has changed
    refine h.window.congr ?_
    intro b _
    have hsame : blockStatus e mem' b = blockStatus e s.mem b := by
      refine blockStatus_congr ?_
      intro a ha
      by_contra hne
      rcases hmem a hne with ⟨hin, hout⟩
      by_cases hb : b = s.kernelBlock
      · exact hout (hb ▸ ha)
      · exact not_inBlock_of_ne ha.inBlock hb hin
    unfold Full
    rw [hsame]
  · intro i frames hi hget
    exact (h.laid i frames hi hget).congr fun a ha =>
      huntouched hi (List.getElem?_eq_some_iff.mp hget).1 ha
  · have hprogress : Ring.Progress e { s with mem := mem', retired := s.retired ++ [] } :=
      h.progress.frame h.window.le fun hlt a ha => huntouched (Nat.le_refl _) hlt ha
    rwa [List.append_nil] at hprogress

theorem Ring.Inv.retire {mem' : Memory} {frames : List Frame} (h : s.Inv e)
    (hstatus : blockStatus e s.mem s.kernelBlock = tpStatusKernel)
    (hmem : ∀ a, mem' a ≠ s.mem a → InStatus s.kernelBlock a)
    (hfull : Full e mem' s.kernelBlock) (hlaid : LaidOut e mem' s.kernelBlock frames) :
    Ring.Inv e
      { s with
        mem := mem'
        kernelBlock := (s.kernelBlock + 1) % blockNr
        retired := s.retired ++ [frames] } := by
  have houtside : ∀ a, ¬ InBlock s.kernelBlock a → mem' a = s.mem a := by
    intro a ha
    by_contra hne
    exact ha (hmem a hne).inBlock
  have huntouched : ∀ {i a}, s.released ≤ i → i < s.retired.length → InBlock (i % blockNr) a →
      mem' a = s.mem a := by
    intro i a hi hlt ha
    exact h.full_untouched hstatus houtside hi hlt ha
  have hfree : ¬ Full e s.mem (s.retired.length % blockNr) :=
    h.kernel ▸ not_full_of_kernel hstatus
  refine ⟨?_, ?_, ?_, ?_⟩
  · rw [List.length_append, List.length_singleton]
    refine h.window.put blockNr_pos hfree ?_
    intro b _
    by_cases hb : b = s.kernelBlock
    · refine iff_of_true ?_ (Or.inl (hb.trans h.kernel))
      rw [hb]
      exact hfull
    · have hsame : blockStatus e mem' b = blockStatus e s.mem b :=
        blockStatus_congr fun a ha => houtside a (not_inBlock_of_ne ha.inBlock hb)
      have hb' : b ≠ s.retired.length % blockNr := by
        intro heq
        exact hb (heq.trans h.kernel.symm)
      unfold Full
      rw [hsame]
      exact ⟨Or.inr, fun hor => hor.resolve_left hb'⟩
  · rw [List.length_append, List.length_singleton, h.kernel, Nat.mod_add_mod]
  · intro i frames' hi hget
    by_cases hlt : i < s.retired.length
    · rw [List.getElem?_append_left hlt] at hget
      exact (h.laid i frames' hi hget).congr fun a ha => huntouched hi hlt ha
    · -- the block retired just now
      have hlast : i = s.retired.length ∧ frames' = frames := by
        rw [List.getElem?_append_right (Nat.le_of_not_lt hlt), List.getElem?_singleton] at hget
        split at hget
        · exact ⟨by omega, (Option.some.inj hget).symm⟩
        · cases hget
      rcases hlast with ⟨rfl, rfl⟩
      exact h.kernel ▸ hlaid
  · exact h.progress.frame h.window.le fun hlt a ha => huntouched (Nat.le_refl _) hlt ha

/-! ## The steps of recv_block -/

/-- The current block is full exactly if there is a retired block to walk. -/
theorem Ring.Inv.current_full (h : s.Inv e) (hcurrent : s.currentBlock = s.released % blockNr)
    (hfull : Full e s.mem s.currentBlock) : ∃ frames, s.retired[s.released]? = some frames := by
  have hlt := h.window.lt_of_full blockNr_pos (hcurrent ▸ hfull)
  exact ⟨s.retired[s.released], List.getElem?_eq_getElem hlt⟩

/-- Only the walk has moved. -/
theorem Ring.Inv.walked (h : s.Inv e) {pc : Pc} {delivered : List Frame}
    (hprogress : Ring.Progress e { s with pc := pc, delivered := delivered }) :
    Ring.Inv e { s with pc := pc, delivered := delivered } :=
  ⟨h.window, h.kernel, h.laid, hprogress⟩

/-- The frames handed over, split at the block that is walked. -/
theorem Ring.Walking.flatten {done rest : List Frame} (h : s.Walking done rest) :
    s.retired.flatten =
      s.delivered ++ (rest ++ (s.retired.drop (s.released + 1)).flatten) := by
  rcases List.getElem?_eq_some_iff.mp h.2.1 with ⟨hlt, hget⟩
  calc s.retired.flatten
      = (s.retired.take s.released).flatten ++ (s.retired.drop s.released).flatten := by
        rw [← List.flatten_append, List.take_append_drop]
    _ = s.releasedFrames ++ ((done ++ rest) ++ (s.retired.drop (s.released + 1)).flatten) := by
        rw [List.drop_eq_getElem_cons hlt, hget, List.flatten_cons, releasedFrames]
    _ = _ := by
        rw [h.2.2]
        simp only [List.append_assoc]

/-- With its walk at the end a block has been delivered as a whole. -/
theorem Ring.Walking.releasedFrames_succ {done : List Frame} (h : s.Walking done []) :
    (s.retired.take (s.released + 1)).flatten = s.delivered := by
  rw [List.take_add_one, h.2.1, h.2.2, releasedFrames]
  simp

/-- The packet a chain starts with passes the checks of the loop and is read
as it was laid out. -/
theorem Chain.head {mem : Memory} {b off : Nat} {f : Frame} {rest : List Frame}
    (h : Chain e mem b off (f :: rest)) :
    (off + tpMac e mem b off + tpSnaplen e mem b off ≤ blockSize ∧ tpSnaplen e mem b off > 0) ∧
      frameAt mem b off (tpMac e mem b off) (tpSnaplen e mem b off) = f := by
  rcases h with ⟨_, _, hinside, hne, hlen, hframe, _⟩
  exact ⟨⟨hinside, hlen ▸ List.length_pos_of_ne_nil hne⟩, hframe⟩

/-- Giving the current block back empties its slot and leaves the others. -/
theorem Ring.Inv.release {done : List Frame} (h : s.Inv e) (hwalk : s.Walking done []) :
    Ring.Inv e
      { s with
        pc := .advance
        mem := releaseBlock s.mem s.currentBlock
        released := s.released + 1 } := by
  have hcurrent := hwalk.1
  have hsame : ∀ a, ¬ InStatus s.currentBlock a →
      releaseBlock s.mem s.currentBlock a = s.mem a := by
    intro a ha
    exact if_neg ha
  -- the status word alone changes, and only the current block's
  have hempty : ¬ Full e (releaseBlock s.mem s.currentBlock) s.currentBlock :=
    not_full_of_kernel (blockStatus_releaseBlock e s.mem s.currentBlock)
  refine ⟨?_, h.kernel, ?_, ?_⟩
  · refine h.window.take hwalk.lt ?_
    intro b _
    by_cases hb : b = s.currentBlock
    · rw [hb]
      exact iff_of_false hempty fun hor => hor.2 hcurrent
    · have hstatus : blockStatus e (releaseBlock s.mem s.currentBlock) b =
          blockStatus e s.mem b :=
        blockStatus_congr fun a ha =>
          hsame a fun ha' => not_inBlock_of_ne ha.inBlock hb ha'.inBlock
      unfold Full
      rw [hstatus]
      exact ⟨fun hfull => ⟨hfull, fun heq => hb (heq.trans hcurrent.symm)⟩, And.left⟩
  · intro i frames hi hget
    have hlt := (List.getElem?_eq_some_iff.mp hget).1
    have hne : i % blockNr ≠ s.currentBlock := by
      rw [hcurrent]
      exact h.window.slot_ne_tail hi hlt
    exact (h.laid i frames (Nat.le_of_succ_le hi) hget).congr fun a ha =>
      hsame a fun ha' => not_inBlock_of_ne ha hne ha'.inBlock
  · refine ⟨Nat.succ_pos _, ?_, hwalk.releasedFrames_succ.symm⟩
    rw [Nat.add_sub_cancel]
    exact hcurrent

/-- Every step of `recv_block` keeps the invariant. -/
theorem Ring.Inv.recvStep (h : s.Inv e) (pollOk : Bool) : (s.recvStep e pollOk).Inv e := by
  have hprogress := h.progress
  unfold Ring.Progress at hprogress
  unfold Ring.recvStep
  cases hpc : s.pc with
  | idle =>
      simp only [hpc] at hprogress ⊢
      exact h.walked hprogress
  | status =>
      simp only [hpc] at hprogress ⊢
      by_cases hfull : Full e s.mem s.currentBlock
      · rw [if_pos hfull]
        rcases h.current_full hprogress.1 hfull with ⟨frames, hframes⟩
        exact h.walked ⟨frames, hprogress.1, hframes,
          hprogress.2.trans (List.append_nil _).symm⟩
      · rw [if_neg hfull]
        exact h.walked hprogress
  | poll =>
      simp only [hpc] at hprogress ⊢
      cases pollOk with
      | true => exact h.walked hprogress
      | false => exact h.walked hprogress
  | numPkts =>
      simp only [hpc] at hprogress ⊢
      rcases hprogress with ⟨frames, hwalk⟩
      -- the counts and the chain are what the kernel left in the block
      have hlaid := h.laid _ frames (Nat.le_refl _) hwalk.2.1
      exact h.walked ⟨frames, hwalk, hwalk.1 ▸ hlaid.1⟩
  | firstOffset num =>
      simp only [hpc] at hprogress ⊢
      rcases hprogress with ⟨frames, hwalk, hnum⟩
      have hlaid := h.laid _ frames (Nat.le_refl _) hwalk.2.1
      exact h.walked ⟨[], frames, hwalk, hnum, hwalk.1 ▸ hlaid.2⟩
  | packet left off =>
      simp only [hpc] at hprogress ⊢
      rcases hprogress with ⟨done, rest, hwalk, hleft, hchain⟩
      cases rest with
      | nil =>
          subst hleft
          exact h.walked ⟨done, hwalk⟩
      | cons f rest =>
          subst hleft
          have hhdr : ¬ off + tpacket3HdrSize > blockSize := Nat.not_lt.mpr hchain.1
          have halign : ¬ off % tpacket3HdrAlign ≠ 0 := not_not.mpr hchain.2.1
          simp only [List.length_cons, if_neg hhdr, if_neg halign]
          exact h.walked ⟨done, f, rest, hwalk, rfl, hchain, rfl, rfl⟩
  | frame left off snaplen mac =>
      simp only [hpc] at hprogress ⊢
      rcases hprogress with ⟨done, f, rest, hwalk, hleft, hchain, rfl, rfl⟩
      -- no frame that the kernel laid out fails the checks
      rcases hchain.head with ⟨hchecks, hframe⟩
      rw [if_pos hchecks, hframe]
      refine h.walked ⟨done, f, rest, ⟨hwalk.1, ?_, ?_⟩, hleft, hchain⟩
      · simpa using hwalk.2.1
      · rw [hwalk.2.2, List.append_assoc]
        rfl
  | nextOffset left off =>
      simp only [hpc] at hprogress ⊢
      rcases hprogress with ⟨done, f, rest, hwalk, hleft, hchain⟩
      rcases hchain with ⟨_, _, _, _, _, _, hlast, hnext⟩
      cases rest with
      | nil =>
          rw [if_pos (hlast rfl)]
          exact h.walked ⟨done ++ [f], hwalk⟩
      | cons g rest =>
          rcases hnext (List.cons_ne_nil _ _) with ⟨hne, hchain'⟩
          rw [if_neg hne]
          exact h.walked ⟨done ++ [f], g :: rest, hwalk, hleft, hchain'⟩
  | release =>
      simp only [hpc] at hprogress ⊢
      rcases hprogress with ⟨done, hwalk⟩
      exact h.release hwalk
  | advance =>
      simp only [hpc] at hprogress ⊢
      rcases hprogress with ⟨hpos, hcurrent, hdelivered⟩
      refine ⟨h.window, h.kernel, h.laid, ?_, hdelivered⟩
      show (s.currentBlock + 1) % blockNr = s.released % blockNr
      rw [hcurrent, Nat.mod_add_mod, Nat.sub_add_cancel hpos]
  | aborted => simp only [hpc] at hprogress

theorem Ring.Inv.next {t : Ring} (h : s.Inv e) (hstep : (ringSts e).next s t) : t.Inv e := by
  rcases hstep with ⟨pollOk, rfl⟩ | hkernel
  · exact h.recvStep pollOk
  · cases hkernel with
    | fill mem' hstatus hmem => exact h.fill hstatus hmem
    | retire mem' frames hstatus hmem hfull hlaid => exact h.retire hstatus hmem hfull hlaid

theorem Ring.inv_of_reachable (h : (ringSts e).Reachable s) : s.Inv e :=
  h.invariant (Ring.Inv e) (fun _ => Ring.inv_init) (fun _ _ => Ring.Inv.next)

/-! ## The ring is a channel -/

/-- What the ring is for: the frames handed over go in, the frames the
callback sees come out. -/
def Ring.channel (s : Ring) : Channel Frame :=
  ⟨s.retired.flatten, s.delivered⟩

theorem Ring.channel_congr {t : Ring} (hretired : t.retired = s.retired)
    (hdelivered : t.delivered = s.delivered) : t.channel = s.channel := by
  rw [channel, channel, hretired, hdelivered]

/-- A step of `recv_block` takes the next frame out of the channel or none. -/
theorem Ring.Inv.recvStep_channel (h : s.Inv e) (pollOk : Bool) :
    Channel.Step s.channel (s.recvStep e pollOk).channel ∨
      (s.recvStep e pollOk).channel = s.channel := by
  have hprogress := h.progress
  unfold Ring.Progress at hprogress
  unfold Ring.recvStep
  cases hpc : s.pc with
  | idle | status | poll | numPkts | firstOffset | release | advance | aborted =>
      dsimp only
      exact Or.inr (channel_congr rfl rfl)
  | packet left off =>
      cases left with
      | zero => exact Or.inr (channel_congr rfl rfl)
      | succ left =>
          dsimp only
          split_ifs
          all_goals exact Or.inr (channel_congr rfl rfl)
  | nextOffset left off =>
      by_cases hnext : tpNextOffset e s.mem s.currentBlock off = 0
      · simp only [if_pos hnext]
        exact Or.inr (channel_congr rfl rfl)
      · simp only [if_neg hnext]
        exact Or.inr (channel_congr rfl rfl)
  | frame left off snaplen mac =>
      simp only [hpc] at hprogress ⊢
      rcases hprogress with ⟨done, f, rest, hwalk, _, hchain, rfl, rfl⟩
      rcases hchain.head with ⟨hchecks, hframe⟩
      rw [if_pos hchecks, hframe]
      refine Or.inl (Channel.Step.receive s.channel f ?_)
      simp [channel, hwalk.flatten]

theorem ringSts_refines_fifo (e : Endian) :
    Sts.Refinement (ringSts e) Channel.fifo (Ring.Inv e) Ring.channel := by
  constructor
  · rintro s ⟨_, _, _, _, hretired, _, hdelivered⟩
    exact ⟨by simp [Ring.channel, hretired], hdelivered⟩
  · rintro s t hinv (⟨pollOk, rfl⟩ | hkernel)
    · exact hinv.recvStep_channel pollOk
    · cases hkernel with
      | fill => exact Or.inr (Ring.channel_congr rfl rfl)
      | retire mem' frames =>
          have hsent : (s.retired ++ [frames]).flatten = s.retired.flatten ++ frames := by simp
          left
          unfold Ring.channel
          rw [hsent]
          exact Channel.Step.send s.channel frames

/-- The places of `recv_block` at which it reads a block's packets. -/
def Pc.reads : Pc → Bool
  | .idle | .status | .poll | .advance | .aborted => false
  | .numPkts | .firstOffset _ | .packet .. | .frame .. | .nextOffset .. | .release => true

/-- A block whose packets are read is being walked. -/
theorem Ring.Inv.walking_of_reads (h : s.Inv e) (hreads : s.pc.reads) :
    ∃ done rest, s.Walking done rest := by
  have hprogress := h.progress
  unfold Ring.Progress at hprogress
  cases hpc : s.pc with
  | idle | status | poll | advance | aborted => simp [hpc, Pc.reads] at hreads
  | numPkts =>
      simp only [hpc] at hprogress
      rcases hprogress with ⟨rest, hwalk⟩
      exact ⟨[], rest, hwalk⟩
  | firstOffset num =>
      simp only [hpc] at hprogress
      rcases hprogress with ⟨rest, hwalk, _⟩
      exact ⟨[], rest, hwalk⟩
  | packet left off =>
      simp only [hpc] at hprogress
      rcases hprogress with ⟨done, rest, hwalk, _⟩
      exact ⟨done, rest, hwalk⟩
  | frame left off snaplen mac =>
      simp only [hpc] at hprogress
      rcases hprogress with ⟨done, f, rest, hwalk, _⟩
      exact ⟨done, f :: rest, hwalk⟩
  | nextOffset left off =>
      simp only [hpc] at hprogress
      rcases hprogress with ⟨done, f, rest, hwalk, _⟩
      exact ⟨done ++ [f], rest, hwalk⟩
  | release =>
      simp only [hpc] at hprogress
      rcases hprogress with ⟨done, hwalk⟩
      exact ⟨done, [], hwalk⟩

/-- The slot of a retired block that has not been released is full. -/
theorem Ring.Inv.full_of_walking (h : s.Inv e) {done rest : List Frame}
    (hwalk : s.Walking done rest) : Full e s.mem s.currentBlock := by
  have hslot := (h.window.full_iff _ (Nat.mod_lt _ blockNr_pos)).mpr
    ⟨s.released, Nat.le_refl _, hwalk.lt, rfl⟩
  rw [hwalk.1]
  exact hslot

/-- Every frame of the blocks given back has been delivered. -/
theorem Ring.Inv.releasedFrames_prefix (h : s.Inv e) : s.releasedFrames <+: s.delivered := by
  by_cases hreads : s.pc.reads = true
  · rcases h.walking_of_reads hreads with ⟨done, rest, hwalk⟩
    exact ⟨done, hwalk.2.2.symm⟩
  · have hprogress := h.progress
    unfold Ring.Progress at hprogress
    cases hpc : s.pc with
    | idle | status | poll =>
        simp only [hpc] at hprogress
        rw [hprogress.2]
    | advance =>
        simp only [hpc] at hprogress
        rw [hprogress.2.2]
    | aborted => simp only [hpc] at hprogress
    | _ => simp [hpc, Pc.reads] at hreads

end

/-- In every interleaving of the kernel with the calls of `recv_block`, whether
`poll` fails or not, the callback has seen a prefix of the frames handed over,
all those of the blocks given back among them; and where `recv_block` reads a
block, the block has been retired, has not been released, and is full. -/
theorem recvBlock_fifo {e : Endian} {s : Ring} (h : (ringSts e).Reachable s) :
    s.delivered <+: s.retired.flatten ∧ s.releasedFrames <+: s.delivered ∧
      (s.pc.reads → s.currentBlock = s.released % blockNr ∧ s.released < s.retired.length ∧
        Full e s.mem s.currentBlock) := by
  have hinv : s.Inv e := Ring.inv_of_reachable h
  have hchannel : Channel.fifo.Reachable s.channel :=
    (ringSts_refines_fifo e).reachable Ring.inv_of_reachable h
  refine ⟨Channel.received_prefix hchannel, hinv.releasedFrames_prefix, fun hreads => ?_⟩
  rcases hinv.walking_of_reads hreads with ⟨done, rest, hwalk⟩
  exact ⟨hwalk.1, hwalk.lt, hinv.full_of_walking hwalk⟩

/-! ## Two blocks -/

section

variable {e : Endian} {s : Ring}

/-- The kernel may fill its block and hand it over at once. -/
theorem Ring.reachable_handOver (h : (ringSts e).Reachable s) {mem' : Memory}
    {frames : List Frame} (hfree : blockStatus e s.mem s.kernelBlock = tpStatusKernel)
    (hmem : ∀ a, mem' a ≠ s.mem a → InBlock s.kernelBlock a)
    (hfull : Full e mem' s.kernelBlock) (hlaid : LaidOut e mem' s.kernelBlock frames) :
    (ringSts e).Reachable
      { s with
        mem := mem'
        kernelBlock := (s.kernelBlock + 1) % blockNr
        retired := s.retired ++ [frames] } := by
  -- everything but the status word is written first
  let filled : Memory := fun a =>
    if statusAddr s.kernelBlock ≤ a ∧ a < statusAddr s.kernelBlock + 4 then s.mem a else mem' a
  have hin : ∀ a, InStatus s.kernelBlock a → filled a = s.mem a := fun a ha => if_pos ha
  have hout : ∀ a, ¬ InStatus s.kernelBlock a → filled a = mem' a := fun a ha => if_neg ha
  have hfill : KernelStep e s { s with mem := filled } := by
    refine .fill s filled hfree ?_
    intro a ha
    by_cases hstatus : InStatus s.kernelBlock a
    · exact absurd (hin a hstatus) ha
    · exact ⟨hmem a (hout a hstatus ▸ ha), hstatus⟩
  have hkernel : blockStatus e filled s.kernelBlock = tpStatusKernel :=
    (blockStatus_congr hin).trans hfree
  refine (h.step (Or.inr hfill)).step (Or.inr ?_)
  refine .retire { s with mem := filled } mem' frames hkernel ?_ hfull hlaid
  intro a ha
  by_contra hstatus
  exact ha (hout a hstatus).symm

end

def emptyRing : Ring :=
  { mem := filledMemory []
    kernelBlock := 0
    currentBlock := 0
    pc := .idle
    retired := []
    released := 0
    delivered := [] }

theorem emptyRing_reachable : (ringSts .little).Reachable emptyRing :=
  .init ⟨by decide +kernel, rfl, rfl, rfl, rfl, rfl, rfl⟩

/-- Two blocks have been handed over, with these packets. -/
def twoBlockRing (first second : List Frame) : Ring :=
  { emptyRing with
    mem := filledMemory [blockBytes 16 first, blockBytes 16 second]
    kernelBlock := 2
    retired := [first, second] }

/-- One more block that is filled changes no other. -/
theorem inBlock_of_filled (blocks : List (List UInt8)) {bytes : List UInt8} {a : Nat}
    (h : filledMemory (blocks ++ [bytes]) a ≠ filledMemory blocks a) :
    InBlock blocks.length a := by
  have hblock : a / blockSize = blocks.length := by
    by_contra hne
    apply h
    have hsame : (blocks ++ [bytes]).getD (a / blockSize) [] = blocks.getD (a / blockSize) [] := by
      rw [List.getD_eq_getElem?_getD, List.getD_eq_getElem?_getD]
      rcases Nat.lt_or_gt_of_ne hne with hlt | hgt
      · rw [List.getElem?_append_left hlt]
      · rw [List.getElem?_eq_none (by simpa using Nat.succ_le_of_lt hgt),
          List.getElem?_eq_none (Nat.le_of_lt hgt)]
    unfold filledMemory
    rw [hsame]
  unfold InBlock blockBase
  rw [← hblock]
  have hdiv := Nat.div_add_mod' a blockSize
  have hmod : a % blockSize < blockSize := Nat.mod_lt _ (by decide)
  omega

theorem bytesAt_status (blocks : List (List UInt8)) (b : Nat) :
    bytesAt (filledMemory blocks) (statusAddr b) 4 =
      (List.range 4).map fun i => (blocks.getD b []).getD (8 + i) 0 := by
  unfold bytesAt
  refine List.map_congr_left fun i hi => ?_
  have hlt : i < 4 := List.mem_range.mp hi
  have hblock : (statusAddr b + i) / blockSize = b := by
    unfold statusAddr blockBase blockSize
    omega
  have hplace : (statusAddr b + i) % blockSize = 8 + i := by
    unfold statusAddr blockBase blockSize
    omega
  rw [filledMemory, hblock, hplace]

theorem full_filledMemory {blocks : List (List UInt8)} {b align : Nat} {frames : List Frame}
    (h : blocks.getD b [] = blockBytes align frames) : Full .little (filledMemory blocks) b := by
  have hbytes : (List.range 4).map (fun i => (blockBytes align frames).getD (8 + i) 0) =
      [1, 0, 0, 0] := rfl
  rw [Full, blockStatus, Endian.u32At, bytesAt_status, h, hbytes]
  decide

theorem free_filledMemory {blocks : List (List UInt8)} {b : Nat} (h : blocks.getD b [] = []) :
    blockStatus .little (filledMemory blocks) b = tpStatusKernel := by
  rw [blockStatus, Endian.u32At, bytesAt_status, h]
  rfl

theorem twoBlockRing_reachable {first second : List Frame}
    (hfirst : LaidOut .little (filledMemory [blockBytes 16 first]) 0 first)
    (hsecond : LaidOut .little (filledMemory [blockBytes 16 first, blockBytes 16 second]) 1
      second) : (ringSts .little).Reachable (twoBlockRing first second) := by
  have hfull : Full .little (filledMemory [blockBytes 16 first]) 0 := full_filledMemory rfl
  have hone := Ring.reachable_handOver emptyRing_reachable (free_filledMemory rfl)
    (fun a ha => inBlock_of_filled [] ha) hfull hfirst
  have hfull' : Full .little (filledMemory [blockBytes 16 first, blockBytes 16 second]) 1 :=
    full_filledMemory rfl
  exact Ring.reachable_handOver hone (free_filledMemory rfl)
    (fun a ha => inBlock_of_filled [blockBytes 16 first] ha) hfull' hsecond

def Ring.recvSteps (e : Endian) : Nat → Ring → Ring
  | 0, s => s
  | n + 1, s => (s.recvStep e true).recvSteps e n

theorem Ring.reachable_recvSteps {e : Endian} (n : Nat) {s : Ring}
    (h : (ringSts e).Reachable s) : (ringSts e).Reachable (s.recvSteps e n) := by
  induction n generalizing s with
  | zero => exact h
  | succ n ih => exact ih (h.step (Or.inl ⟨true, rfl⟩))

/-- Two frames and one frame. -/
def threeFrameRing : Ring :=
  twoBlockRing [[171], [205, 7]] [[9]]

theorem threeFrameRing_reachable : (ringSts .little).Reachable threeFrameRing :=
  twoBlockRing_reachable (by decide +kernel) (by decide +kernel)

/-- The first block has been given back, and the frame of the second one delivered. -/
theorem recvBlock_fifo_threeFrames :
    (threeFrameRing.recvSteps .little 18).delivered = [[171], [205, 7], [9]] ∧
      (threeFrameRing.recvSteps .little 18).delivered <+: [[171], [205, 7], [9]] ∧
      [[171], [205, 7]] <+: (threeFrameRing.recvSteps .little 18).delivered ∧
      (threeFrameRing.recvSteps .little 18).currentBlock = 1 ∧
      Full .little (threeFrameRing.recvSteps .little 18).mem 1 := by
  have h := recvBlock_fifo (Ring.reachable_recvSteps 18 threeFrameRing_reachable)
  have hblock := h.2.2 (by decide +kernel)
  have hcurrent : (threeFrameRing.recvSteps .little 18).currentBlock = 1 := hblock.1
  exact ⟨by decide +kernel, h.1, h.2.1, hcurrent, hcurrent ▸ hblock.2.2⟩

end NetZer

import NetZer.Cli.PanicFree
import NetZer.Cli.Process

/-! # Progress of the process

What the whole process does sooner or later, if the main thread and the
broadcaster go on taking steps. The callback makes finitely many calls, so the
main thread comes back to the ring; the ring gives back every block; and the
broadcaster comes through with every message. Each of these is progress of one
part of the process, and the behavior of the part is the behavior of the whole
as the refinement shows it.
-/

namespace NetZer

section

variable {e : Endian} {out : Outputs} {interface : String} {allowed : ServerEvent → Prop}
  {tracker : Option TcpStreamTracker} {s t : Process}

/-! ## The main thread -/

/-- A step of the main thread. -/
def MainAction (e : Endian) (out : Outputs) (s t : Process) : Prop :=
  ∃ pollOk sinceEpoch time, s.mainStep e out pollOk sinceEpoch time = some t

/-- The steps the main thread is away from `recv_block`. -/
def MainThread.stepsLeft : MainThread → Nat
  | .processing calls _ => calls.length + 1
  | .receiving _ | .panicked => 0

/-- The main thread has a next step unless it has panicked. -/
theorem Process.exists_mainStep (h : s.main ≠ .panicked) (e : Endian) (out : Outputs)
    (pollOk : Bool) (sinceEpoch : Option Duration) (time : LocalTime) :
    ∃ t, s.mainStep e out pollOk sinceEpoch time = some t := by
  unfold Process.mainStep
  cases hmain : s.main with
  | receiving tracker => cases s.ring.frameSlice <;> exact ⟨_, rfl⟩
  | processing calls result =>
      cases calls with
      | cons call calls => exact ⟨_, rfl⟩
      | nil => cases result <;> exact ⟨_, rfl⟩
  | panicked => exact absurd hmain h

theorem exists_mainAction (h : s.main ≠ .panicked) : Sts.Enabled (MainAction e out) s := by
  rcases s.exists_mainStep h e out true none midnight with ⟨t, ht⟩
  exact ⟨t, true, none, midnight, ht⟩

/-- The callback comes to an end. -/
theorem MainMove.stepsLeft (hmove : MainMove e out s t) (h : 0 < s.main.stepsLeft) :
    t.main.stepsLeft < s.main.stepsLeft := by
  cases hmove with
  | recv _ _ hs => simp [hs, MainThread.stepsLeft] at h
  | frame _ _ _ hs => simp [hs, MainThread.stepsLeft] at h
  | call _ _ _ hs => simp [hs, MainThread.stepsLeft]
  | finish _ hs => simp [hs, MainThread.stepsLeft]
  | panic _ hs => simp [hs, MainThread.stepsLeft]

/-- Outside a callback it takes a step of `recv_block`. -/
theorem MainMove.recvAction (hmove : MainMove e out s t) {tracker' : Option TcpStreamTracker}
    (h : s.main = .receiving tracker') : Ring.RecvAction e s.ring t.ring := by
  cases hmove with
  | recv _ pollOk => exact ⟨pollOk, rfl⟩
  | frame _ pollOk => exact ⟨pollOk, rfl⟩
  | call _ _ _ hs => exact absurd (h.symm.trans hs) (by simp)
  | finish _ hs => exact absurd (h.symm.trans hs) (by simp)
  | panic _ hs => exact absurd (h.symm.trans hs) (by simp)

/-- Only the main thread moves the main thread. -/
theorem ProcessStep.main_eq (h : ProcessStep e out allowed s t) :
    MainAction e out s t ∨ t.main = s.main := by
  cases h with
  | kernel => exact Or.inr rfl
  | main _ pollOk sinceEpoch time hmain => exact Or.inl ⟨pollOk, sinceEpoch, time, hmain⟩
  | server => exact Or.inr rfl

section

variable (b : (processSts e out interface allowed tracker).Behavior)

/-- From a callback the main thread comes back to `recv_block`, or panics. -/
theorem Process.callback_ends (hfair : b.Fair (MainAction e out)) (n : Nat) :
    ∃ m, n ≤ m ∧ (b.state m).main.stepsLeft = 0 := by
  have hleads : b.LeadsTo (fun s => 0 < s.main.stepsLeft) fun s => s.main.stepsLeft = 0 := by
    refine Sts.Behavior.leadsTo_of_rank (fun s => s.main.stepsLeft) hfair ?_ ?_ ?_
    · intro s _ hp
      refine exists_mainAction ?_
      intro hpanicked
      simp [hpanicked, MainThread.stepsLeft] at hp
    · intro s t _ hp hnext
      rcases hnext.main_eq with ⟨_, _, _, hmain⟩ | hsame
      · have hlt := (mainMove_of_step hmain).stepsLeft hp
        rcases Nat.eq_zero_or_pos t.main.stepsLeft with hzero | hpos
        · exact Or.inl hzero
        · exact Or.inr ⟨hpos, le_of_lt hlt⟩
      · rw [hsame]
        exact Or.inr ⟨hp, le_refl _⟩
    · rintro s t _ hp ⟨_, _, _, hmain⟩
      exact Or.inr ((mainMove_of_step hmain).stepsLeft hp)
  rcases Nat.eq_zero_or_pos (b.state n).main.stepsLeft with hzero | hpos
  · exact ⟨n, Nat.le_refl n, hzero⟩
  · exact hleads n hpos

/-- Unless the main thread panics, `recv_block` goes on taking steps. -/
theorem Process.recvAction_fair (hfair : b.Fair (MainAction e out)) {n : Nat}
    (halive : ∀ m, n ≤ m → (b.state m).main ≠ .panicked) :
    (b.map processSts_refines_ring (fun _ => trivial)).Fair (Ring.RecvAction e) := by
  intro k _
  rcases Process.callback_ends b hfair (max n k) with ⟨m, hm, hback⟩
  have hreceiving : ∃ tracker', (b.state m).main = .receiving tracker' := by
    cases hmain : (b.state m).main with
    | receiving tracker' => exact ⟨tracker', rfl⟩
    | processing calls result => simp [hmain, MainThread.stepsLeft] at hback
    | panicked => exact absurd hmain (halive m (Nat.le_trans (Nat.le_max_left n k) hm))
  have htaken := Sts.Behavior.Fair.taken (P := fun s => ∃ tracker', s.main = .receiving tracker')
    hfair ?_ ?_ hreceiving
  · rcases htaken with ⟨m', hm', ⟨tracker', hmain⟩, _, _, _, hstep⟩
    refine ⟨m', Nat.le_trans (Nat.le_trans (Nat.le_max_right n k) hm) hm', ?_⟩
    exact (mainMove_of_step hstep).recvAction hmain
  · rintro s _ ⟨tracker', hs⟩
    exact exists_mainAction (by simp [hs])
  · rintro s t _ ⟨tracker', hs⟩ hnext
    rcases hnext.main_eq with haction | hsame
    · exact Or.inr haction
    · exact Or.inl ⟨tracker', hsame.trans hs⟩

theorem Process.packets_mono {n m : Nat} (h : n ≤ m) :
    (b.state n).packets <+: (b.state m).packets := by
  refine b.extends_of_step (r := fun s t => s.packets <+: t.packets) (fun _ => List.prefix_refl _)
    (fun _ _ _ => List.IsPrefix.trans) ?_ h
  intro s t _ hnext
  cases hnext with
  | kernel => exact List.prefix_refl _
  | server => exact List.prefix_refl _
  | main _ pollOk sinceEpoch time hmain =>
      cases mainMove_of_step hmain with
      | recv | call | finish | panic => exact List.prefix_refl _
      | frame => exact List.prefix_append _ _

end

/-! ## Panics -/

/-- A run of the capture loop ends only where a packet panics. -/
theorem trackerAfter_panicsOnly (out : Outputs) (tracker : Option TcpStreamTracker)
    (ps : List Packet) :
    Rust.PanicsOnly (fun p => .tlsClientHelloParse ∈ p.within ∨ .truncate ∈ p.within)
      (trackerAfter out tracker ps) := by
  induction ps generalizing tracker with
  | nil => exact .of_eq_ok rfl
  | cons p ps ih =>
      have hone : Rust.Traced.PanicsOnly
          (fun p => .tlsClientHelloParse ∈ p.within ∨ .truncate ∈ p.within)
          (p.process out tracker) :=
        processPacket_panicsOnly (fun _ h => Or.inl h) (fun _ h => Or.inr h) _ _ _
      rw [trackerAfter]
      cases hrun : (p.process out tracker).result with
      | ok next => exact ih next
      | error panic =>
          intro q hq
          cases hq
          exact hone panic hrun

end

/-! ## All together -/

/-- As long as the main thread and the broadcaster go on taking steps, whatever
the kernel, the connections and `poll` do: all frames handed over by now become
packets, and all that is to be broadcast of them is processed, with every client
then on the list having received what was processed since it joined; unless the
main thread panics, in the TLS parser or while it shortens a text. -/
theorem process_live {e : Endian} {out : Outputs} {interface : String}
    {allowed : ServerEvent → Prop} {tracker : Option TcpStreamTracker}
    (b : (processSts e out interface allowed tracker).Behavior)
    (hmain : b.Fair (MainAction e out))
    (hserver : b.Fair fun s t => WebServer.BroadcasterAction s.server t.server) (n : Nat) :
    ∃ m, n ≤ m ∧
      ((∃ p, trackerAfter out tracker (b.state m).packets = .error p ∧
          (.tlsClientHelloParse ∈ p.within ∨ .truncate ∈ p.within)) ∨
        ∃ packets, packets <+: (b.state m).packets ∧
          packets.map Packet.frame = (b.state n).ring.retired.flatten ∧
          webMessages (capture out tracker packets) <+: (b.state m).server.processed ∧
          (b.state m).server.broadcaster.lockFree = true ∧
          ((∀ event, allowed event → event.InformsInFull interface) →
            ∀ c ∈ (b.state m).server.clients,
              c.Received interface ((b.state m).server.processed.drop c.joined))) := by
  by_cases halive : ∀ m, n ≤ m → (b.state m).main ≠ .panicked
  · -- first the frames are delivered
    let ring := b.map processSts_refines_ring (fun _ => trivial)
    let server := b.map processSts_refines_web (fun _ => trivial)
    rcases Ring.given_back ring (Process.recvAction_fair b hmain halive) n with
      ⟨m₁, hm₁, _, hdelivered⟩
    -- then the last callback ends
    rcases Process.callback_ends b hmain m₁ with ⟨m₂, hm₂, hback⟩
    -- and then the broadcaster catches up
    have hfair : server.Fair WebServer.BroadcasterAction := by
      intro k henabled
      refine hserver k ?_
      intro m hm
      rcases henabled m hm with ⟨t, ht⟩
      exact ⟨{ b.state m with server := t }, ht⟩
    rcases WebServer.broadcasted_done server hfair m₂ with ⟨m₃, hm₃, hprocessed, hfree⟩
    have hm : n ≤ m₃ := Nat.le_trans hm₁ (Nat.le_trans hm₂ hm₃)
    have hinv := Process.inv_of_reachable (b.reachable m₂)
    have hall : (b.state m₂).server.broadcasted =
        webMessages (capture out tracker (b.state m₂).packets) := by
      have hnone : (b.state m₂).main.callsLeft = [] := by
        cases hmain₂ : (b.state m₂).main with
        | processing calls result => simp [hmain₂, MainThread.stepsLeft] at hback
        | receiving _ | panicked => rfl
      rw [hinv.broadcasted, webMessages_eq, ← hinv.made, hnone, List.append_nil]
    have hframes : (b.state n).ring.retired.flatten <+:
        (b.state m₂).packets.map Packet.frame := by
      have hearlier := (Process.packets_mono b hm₂).map Packet.frame
      rw [(Process.inv_of_reachable (b.reachable m₁)).frames] at hearlier
      exact hdelivered.trans hearlier
    let packets := (b.state m₂).packets.take (b.state n).ring.retired.flatten.length
    have hpackets : packets <+: (b.state m₂).packets := List.take_prefix _ _
    refine ⟨m₃, hm, Or.inr ⟨packets, hpackets.trans (Process.packets_mono b hm₃), ?_, ?_, hfree,
      ?_⟩⟩
    · rw [List.map_take]
      exact (List.prefix_iff_eq_take.mp hframes).symm
    · refine List.IsPrefix.trans (webMessages_mono ?_) (hall ▸ hprocessed)
      rcases hpackets with ⟨rest, hrest⟩
      rw [← hrest]
      exact capture_prefix_append out tracker packets rest
    · intro hinforms
      have hinv' : (b.state m₃).server.Inv interface :=
        WebServer.inv_of_reachable (informsInFull_withBroadcasts hinforms)
          (Process.server_reachable (b.reachable m₃))
      exact hinv'.received hfree
  · rcases not_forall.mp halive with ⟨m, hm⟩
    rcases Classical.not_imp.mp hm with ⟨hnm, hpanicked⟩
    have hafter := (Process.inv_of_reachable (b.reachable m)).after
    rw [Classical.not_not.mp hpanicked] at hafter
    rcases hafter with ⟨p, hp⟩
    exact ⟨m, hnm, Or.inl ⟨p, hp, trackerAfter_panicsOnly _ _ _ p hp⟩⟩

/-- The next step of the main thread, or of the broadcaster. -/
def Process.proceed (e : Endian) (out : Outputs) (main : Bool) (s : Process) : Process :=
  if main then (s.mainStep e out true none midnight).getD s
  else { s with server := s.server.proceed }

section

variable {e : Endian} {out : Outputs} {interface : String}
  {tracker : Option TcpStreamTracker} {s t : Process}

theorem Process.proceed_main (e : Endian) (out : Outputs) (s : Process) :
    s.mainStep e out true none midnight = some (Process.proceed e out true s) ∨
      s.main = .panicked ∧ Process.proceed e out true s = s := by
  by_cases hpanicked : s.main = .panicked
  · right
    refine ⟨hpanicked, ?_⟩
    simp [Process.proceed, Process.mainStep, hpanicked]
  · left
    rcases s.exists_mainStep hpanicked e out true none midnight with ⟨t, ht⟩
    rw [Process.proceed, if_pos rfl, ht]
    rfl

/-- What both have to take steps of. -/
def Process.action (e : Endian) (out : Outputs) (main : Bool) (s t : Process) : Prop :=
  if main then MainAction e out s t else WebServer.BroadcasterAction s.server t.server

theorem Process.proceed_next (main : Bool) (s : Process) :
    (processSts e out interface (ServerEvent.InformsInFull interface) tracker).next s
        (Process.proceed e out main s) ∨ Process.proceed e out main s = s := by
  cases main with
  | true =>
      rcases Process.proceed_main e out s with hstep | ⟨_, hsame⟩
      · exact Or.inl (.main _ _ true none midnight hstep)
      · exact Or.inr hsame
  | false =>
      rcases s.server.proceed_eq with ⟨event, he, hstep⟩ | ⟨hsame, _⟩
      · have hfull : event.InformsInFull interface := by
          cases he with
          | recv | lock | deliver o | release => trivial
        exact Or.inl (.server s event _ he.sent hfull hstep)
      · right
        show { s with server := s.server.proceed } = s
        rw [hsame]

theorem Process.proceed_takes (main : Bool) (s : Process)
    (h : Sts.Enabled (Process.action e out main) s) :
    Process.action e out main s (Process.proceed e out main s) := by
  rcases h with ⟨t, ht⟩
  cases main with
  | true =>
      rcases Process.proceed_main e out s with hstep | ⟨hpanicked, _⟩
      · exact ⟨true, none, midnight, hstep⟩
      · rcases ht with ⟨_, _, _, hstep⟩
        simp [Process.mainStep, hpanicked] at hstep
  | false => exact WebServer.proceed_takes ⟨t.server, ht⟩

/-- The clocks show what they show in this step. -/
theorem Process.packets_mainStep {pollOk : Bool} {sinceEpoch : Option Duration}
    {time : LocalTime} (h : s.mainStep e out pollOk sinceEpoch time = some t) :
    ∀ p ∈ t.packets, p ∈ s.packets ∨ p = ⟨p.frame, sinceEpoch, time⟩ := by
  intro p hp
  unfold Process.mainStep at h
  split at h
  · split at h
    · cases h
      exact Or.inl hp
    · cases h
      rcases List.mem_append.mp hp with hbefore | hnew
      · exact Or.inl hbefore
      · right
        rw [List.mem_singleton.mp hnew]
  · cases h
    exact Or.inl hp
  · cases h
    exact Or.inl hp
  · cases h
    exact Or.inl hp
  · cases h

theorem MainMove.server_kept (hmove : MainMove e out s t) :
    t.ring.retired = s.ring.retired ∧ t.server.clients = s.server.clients ∧
      t.server.broadcaster = s.server.broadcaster := by
  cases hmove with
  | recv _ pollOk => exact ⟨(s.ring.recvStep_frame pollOk).1, rfl, rfl⟩
  | frame _ pollOk => exact ⟨(s.ring.recvStep_frame pollOk).1, rfl, rfl⟩
  | call call =>
      rcases call.onServer_cases s.server with ⟨msg, _, hsent⟩ | ⟨_, hsame⟩
      · simp [hsent, WebServer.broadcast]
      · simp [hsame]
  | finish => exact ⟨rfl, rfl, rfl⟩
  | panic => exact ⟨rfl, rfl, rfl⟩

end

/-! From the connected page on, with the datagram and the short frame in the ring. -/

/-- What the scheduler of the two threads keeps. -/
structure Process.Settled (s : Process) : Prop where
  retired : s.ring.retired = [[echoPacket.frame], [[171]]]
  packets : ∀ p ∈ s.packets, p = ⟨p.frame, none, midnight⟩
  unmarked : s.server.broadcaster.toRemove = []
  clients : s.server.clients.map (fun c => (c.accept, c.joined)) = [(sampleAccept, 0)]

theorem Process.Settled.proceed {s : Process} (h : s.Settled) (e : Endian) (out : Outputs)
    (main : Bool) : (Process.proceed e out main s).Settled := by
  cases main with
  | true =>
      rcases Process.proceed_main e out s with hstep | ⟨_, hsame⟩
      · rcases (mainMove_of_step hstep).server_kept with ⟨hretired, hclients, hbroadcaster⟩
        refine ⟨hretired.trans h.retired, ?_, ?_, ?_⟩
        · intro p hp
          rcases Process.packets_mainStep hstep p hp with hbefore | hnew
          · exact h.packets p hbefore
          · exact hnew
        · rw [hbroadcaster]
          exact h.unmarked
        · rw [hclients]
          exact h.clients
      · rw [hsame]
        exact h
  | false =>
      rcases WebServer.proceed_clients h.unmarked with ⟨hunmarked, hclients⟩
      exact ⟨h.retired, h.packets, hunmarked, hclients.trans h.clients⟩

theorem Process.Settled.packets_first {e : Endian} {out : Outputs} {interface : String}
    {allowed : ServerEvent → Prop} {tracker : Option TcpStreamTracker} {s : Process}
    (h : s.Settled) (hs : (processSts e out interface allowed tracker).Reachable s) :
    s.packets <+: echoPackets := by
  have hframes := (Process.frames_first hs).map fun frame => (⟨frame, none, midnight⟩ : Packet)
  have hsame : (s.packets.map Packet.frame).map (fun frame => (⟨frame, none, midnight⟩ : Packet)) =
      s.packets := by
    rw [List.map_map]
    exact List.map_congr_left (fun p hp => (h.packets p hp).symm) |>.trans (List.map_id _)
  rw [hsame, h.retired] at hframes
  exact hframes

/-- Both packets are processed, the message is broadcast, and the client, which is
still on the list, has received it. -/
theorem process_live_echo :
    ∃ (b : echoSts.Behavior) (n m : Nat) (c : Client),
      b.state n = connectedProcess ∧ n ≤ m ∧ (b.state m).packets = echoPackets ∧
      webMessages (capture webOnly none echoPackets) <+: (b.state m).server.processed ∧
      (webMessages (capture webOnly none echoPackets)).length = 1 ∧
      (b.state m).server.clients = [c] ∧ c.Received "lo" (b.state m).server.processed := by
  have hturn : ∀ (main : Bool) (n : Nat), ∃ m, n ≤ m ∧ (m % 2 == 0) = main := by
    intro main n
    cases main with
    | true => exact ⟨2 * n, by omega, by simp⟩
    | false => exact ⟨2 * n + 1, by omega, by simp [Nat.add_mod]⟩
  rcases Sts.Behavior.exists_fair_through connectedProcess_reachable
      (fun n => n % 2 == 0) hturn (Process.action .little webOnly)
      (Process.proceed .little webOnly) Process.proceed_next
      Process.proceed_takes with ⟨b, k, hfair, hb⟩
  have hstart : b.state k = connectedProcess := hb 0
  have hsettled : ∀ n, (b.state (k + n)).Settled := by
    intro n
    rw [hb n]
    induction n with
    | zero => exact ⟨rfl, fun p hp => absurd hp List.not_mem_nil, rfl, rfl⟩
    | succ n ih => exact ih.proceed _ _ _
  rcases process_live b (hfair true) (hfair false) k with ⟨m, hm, hdone⟩
  have hsettled_m : (b.state m).Settled := Nat.add_sub_cancel' hm ▸ hsettled (m - k)
  have hfirst := hsettled_m.packets_first (b.reachable m)
  rcases hdone with ⟨p, hp, _⟩ | ⟨packets, hpackets, hframes, hmessages, hfree, hreceived⟩
  · -- neither packet panics
    have hnone : ∀ n ≤ 2,
        (trackerAfter webOnly none (echoPackets.take n)).toOption.isSome = true := by
      decide +kernel
    have hlen := hnone (b.state m).packets.length hfirst.length_le
    rw [← List.prefix_iff_eq_take.mp hfirst, hp] at hlen
    cases hlen
  · rw [hstart] at hframes
    have hall : packets = echoPackets := by
      refine (hpackets.trans hfirst).eq_of_length ?_
      have hlen := congrArg List.length hframes
      rw [List.length_map] at hlen
      exact hlen
    rw [hall] at hpackets hmessages
    rcases List.map_eq_singleton_iff.mp hsettled_m.clients with ⟨c, hlist, hc⟩
    have hclient := hreceived (fun _ he => he) c (by rw [hlist]; exact List.mem_singleton_self c)
    rw [(Prod.mk.inj hc).2] at hclient
    exact ⟨b, k, m, c, hstart, hm, hfirst.eq_of_length_le hpackets.length_le, hmessages,
      by decide +kernel, hlist, hclient⟩

end NetZer

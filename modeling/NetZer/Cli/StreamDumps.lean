import NetZer.Cli.Capture
import NetZer.Cli.StreamKeys
import NetZer.Core.StreamHistory

/-! # Stream dumps over a capture

With stream tracking on, what a packet flushes is printed between two rules
before its own line. A dump does not say which connection it is of, but it stands
with the packet that caused it, and that packet is of the connection. So the
dumps of a connection can be told from the others; one after the other they are
what its segments carried, but for the bytes the tracker has not given out yet.
-/

namespace NetZer

open Rust Rust.Traced TcpStreamTracker

/-! ## The segment of a frame -/

/-- A TCP segment as it is followed. -/
structure FollowedSegment where
  src : ConnectionEnd
  dst : ConnectionEnd
  payload : List UInt8
deriving DecidableEq

/-- The call of `feed` for it. -/
def FollowedSegment.call (s : FollowedSegment) : FeedCall :=
  { srcIp := s.src.address.display, srcPort := s.src.port, dstIp := s.dst.address.display,
    dstPort := s.dst.port, payload := s.payload }

/-- The segment is of the connection between the two ends, in either direction. -/
def FollowedSegment.Joins (s : FollowedSegment) (a b : ConnectionEnd) : Prop :=
  s.src = a ∧ s.dst = b ∨ s.src = b ∧ s.dst = a

instance (s : FollowedSegment) (a b : ConnectionEnd) : Decidable (s.Joins a b) :=
  inferInstanceAs (Decidable (_ ∨ _))

theorem FollowedSegment.key_call_eq_iff (s : FollowedSegment) (a b : ConnectionEnd) :
    s.call.key = .between a b ↔ s.Joins a b := by
  have hkey : s.call.key = .between s.src s.dst := rfl
  rw [hkey, ← StreamKey.ranks_injective.eq_iff, StreamKey.ranks_between, StreamKey.ranks_between,
    Prod.mk.injEq, Sym2.inf_eq_inf_and_sup_eq_sup, Sym2.eq_iff]
  simp only [ConnectionEnd.rank_injective.eq_iff, Joins]

def tcpSegment (src dst : Ipv4Address) (ipPayload : List UInt8) : Run (Option FollowedSegment) := do
  match ← TcpHeader.parse ipPayload with
  | .error _ => return none
  | .ok (tcpHeader, payload) =>
      let srcPort ← tcpHeader.sourcePort
      let dstPort ← tcpHeader.destinationPort
      return some { src := ⟨.v4 src, srcPort⟩, dst := ⟨.v4 dst, dstPort⟩, payload := payload }

def ipv4Segment (payload : List UInt8) : Run (Option FollowedSegment) := do
  match ← Ipv4Header.parse payload with
  | .error _ => return none
  | .ok (ipv4Header, ipPayload) =>
      let src ← ipv4Header.source
      let dst ← ipv4Header.destination
      if (← ipv4Header.protocol) = 6 then tcpSegment src dst ipPayload
      else return none

/-- The segment of a frame, if it carries one over IPv4. -/
def frameSegment (packetData : List UInt8) : Run (Option FollowedSegment) := do
  match ← EthernetFrame.parse packetData with
  | .error _ => return none
  | .ok (ethFrame, payload) =>
      match ← ethFrame.ethertype with
      | .ipv4 => ipv4Segment payload
      | _ => return none

def Packet.segment (p : Packet) : Option FollowedSegment :=
  (frameSegment p.frame).toOption.join

/-! ## What a packet does to the tracker -/

/-- The tracker after a packet with the segment, if any, and what it flushes. -/
def TcpStreamTracker.feedSegment (t : TcpStreamTracker) :
    Option FollowedSegment → TcpStreamTracker × Option (StreamKey × List UInt8)
  | some s => t.feed s.call
  | none => (t, none)

/-- The evaluation prints what the segment makes the tracker flush, and leaves
the tracker as `feed` does. -/
structure Follows (t : TcpStreamTracker) (segment : Option FollowedSegment)
    (x : Act (Option TcpStreamTracker)) : Prop where
  flushed : x.trace.filterMap Call.flush =
    (t.feedSegment segment).2.toList.map fun (_, data) => streamDump data
  tracker : ∀ t', x.result = .ok t' → t' = some (t.feedSegment segment).1

section

variable {out : Outputs} {r : Report} {t : TcpStreamTracker} {segment : Option FollowedSegment}
  {srcIp dstIp : String} {src dst : Ipv4Address} {payload : List UInt8}

theorem Follows.of_untracked {x : Act (Option TcpStreamTracker)}
    (hquiet : EmitsOnly Call.Untracked x) (hresult : ∀ t', x.result = .ok t' → t' = some t) :
    Follows t none x :=
  ⟨hquiet.filterMap_eq_nil _ Call.flush_of_untracked, hresult⟩

/-- A handler that does not know of the tracker. -/
theorem Follows.seq {x : Act Unit} (hquiet : EmitsOnly Call.Untracked x) :
    Follows t none (do x; return some t) :=
  .of_untracked (hquiet.bind fun _ => .pure _) fun _ => returned_of_seq

/-- The raw outputs in front do not concern it. -/
theorem Follows.raw {x : Act (Option TcpStreamTracker)} (h : Follows t segment x)
    (packetData : List UInt8) :
    Follows t segment (do
      emitIf out.pcapWriter (.pcapWrite packetData)
      printHexdump out.showHexdump packetData
      x) := by
  have hsame := sameDissection_raw out packetData x
  have hflush := (hsame.coarsen Call.flush Call.flush fun c => by cases c <;> rfl).trace
  exact ⟨hflush.trans h.flushed, fun t' ht' => h.tracker t' (hsame.result ▸ ht')⟩

theorem handleArp_untracked : EmitsOnly Call.Untracked (handleArp out r payload) := by
  refine .bind (.lift _) ?_
  intro res
  rcases res with e | arp
  · exact .pure _
  · refine .bind (.lift _) fun infoRaw => .bind (.lift _) fun smac => ?_
    exact .bind (.lift _) fun tmac => .bind (.lift _) fun shown => report_untracked

theorem followTcp_follows :
    ∃ segment, tcpSegment src dst payload = .ok segment ∧
      Follows t segment (followTcp out r (some t) src.display dst.display payload) := by
  rcases TcpHeader.parse_returns payload with ⟨res, hparse⟩
  rcases res with e | ⟨tcp, tcpPayload⟩
  · refine ⟨none, by simp only [tcpSegment, hparse, ok_bind]; rfl, ?_⟩
    rw [followTcp_of_error hparse]
    exact .of_untracked (.pure _) fun t' ht' => (Except.ok.inj ht').symm
  · rcases tcp.sourcePort_returns with ⟨srcPort, hsrc⟩
    rcases tcp.destinationPort_returns with ⟨dstPort, hdst⟩
    have hfeeds : Feeds t ⟨src.display, srcPort, dst.display, dstPort, tcpPayload⟩
        (followTcp out r (some t) src.display dst.display payload) :=
      followTcp_feeds ⟨tcp, hparse, hsrc, hdst⟩ t
    refine ⟨some ⟨⟨.v4 src, srcPort⟩, ⟨.v4 dst, dstPort⟩, tcpPayload⟩, ?_, ?_⟩
    · simp only [tcpSegment, hparse, hsrc, hdst, ok_bind]
      rfl
    · exact ⟨hfeeds.flushed, hfeeds.tracker⟩

theorem processIpv4_follows :
    ∃ segment, ipv4Segment payload = .ok segment ∧
      Follows t segment (processIpv4 out r (some t) payload) := by
  rcases Ipv4Header.parse_returns payload with ⟨res, hparse⟩
  rcases res with e | ⟨ip, ipPayload⟩
  · refine ⟨none, by simp only [ipv4Segment, hparse, ok_bind]; rfl, ?_⟩
    simp only [processIpv4, hparse, lift_ok, pure_bind]
    exact .of_untracked (.pure _) fun t' ht' => (Except.ok.inj ht').symm
  · rcases ip.source_returns with ⟨src, hsrc⟩
    rcases ip.destination_returns with ⟨dst, hdst⟩
    rcases ip.protocol_returns with ⟨number, hnumber⟩
    simp only [processIpv4, ipv4Segment, hparse, hsrc, hdst, hnumber, lift_ok, pure_bind, ok_bind,
      dispatchIpv4]
    split_ifs with htcp hudp hicmp
    · exact followTcp_follows
    · exact ⟨none, rfl, .seq handleUdp_untracked⟩
    · exact ⟨none, rfl, .seq handleIcmpWith_untracked⟩
    · exact ⟨none, rfl, .of_untracked (.pure _) fun t' ht' => (Except.ok.inj ht').symm⟩

theorem processIpv6_untracked : EmitsOnly Call.Untracked (processIpv6 out r payload) := by
  refine .bind (.lift _) ?_
  intro res
  rcases res with e | ⟨ip, ipPayload⟩
  · exact .pure _
  · refine .bind (.lift _) fun src => .bind (.lift _) fun dst => ?_
    exact .bind (.lift _) fun number => dispatchIpv6_untracked

end

/-- Every packet feeds the tracker its segment and nothing else. -/
theorem Packet.process_follows (out : Outputs) (t : TcpStreamTracker) (p : Packet) :
    Follows t p.segment (p.process out (some t)) := by
  unfold Packet.process processPacket Packet.segment frameSegment
  refine .raw ?_ p.frame
  rcases EthernetFrame.parse_returns p.frame with ⟨res, hparse⟩
  rcases res with e | ⟨eth, payload⟩
  · simp only [hparse, lift_ok, pure_bind, ok_bind]
    exact .of_untracked (.pure _) fun t' ht' => (Except.ok.inj ht').symm
  · rcases eth.ethertype_returns with ⟨ethertype, htype⟩
    rcases toHexString_returns p.frame with ⟨rawHex, hhex⟩
    simp only [hparse, htype, hhex, lift_ok, pure_bind, ok_bind]
    cases ethertype with
    | ipv4 =>
        rcases processIpv4_follows with ⟨segment, hsegment, hfollows⟩
        rw [hsegment]
        exact hfollows
    | ipv6 => exact .seq processIpv6_untracked
    | arp => exact .seq handleArp_untracked
    | other val => exact .of_untracked (.pure _) fun t' ht' => (Except.ok.inj ht').symm

/-- In a run with a tracker every packet is processed with one. -/
theorem capture_tracked (out : Outputs) (t : TcpStreamTracker) (packets : List Packet) :
    ∀ e ∈ capture out (some t) packets, ∃ t', e.2 = (e.1.process out (some t')).trace := by
  induction packets generalizing t with
  | nil =>
      intro e he
      cases he
  | cons p ps ih =>
      have hfollows := p.process_follows out t
      intro e he
      rcases List.mem_cons.mp he with rfl | he
      · exact ⟨t, rfl⟩
      · cases hresult : (p.process out (some t)).result with
        | error panic =>
            rw [hresult] at he
            cases he
        | ok t' =>
            rw [hresult, hfollows.tracker t' hresult] at he
            exact ih _ e he

/-! ## The dumps of a connection -/

/-- What a dump shows between its rules. -/
def dumpText (lines : List ColoredString) : List Char :=
  (lines.drop 1).dropLast.flatMap fun line => line.text.toList

@[simp] theorem dumpText_streamDump (data : List UInt8) :
    dumpText (streamDump data) = data.map printable := by
  simp [dumpText, streamDump]

/-- The packet carries a segment of the connection. -/
def Packet.isBetween (a b : ConnectionEnd) (p : Packet) : Bool :=
  p.segment.any fun s => s.Joins a b

/-- The dumps that stand with the packets of a connection, in the order they are
printed. -/
def dumpsBetween (a b : ConnectionEnd) (run : List (Packet × List Call)) : List Char :=
  (run.filter fun e => e.1.isBetween a b).flatMap fun e =>
    (e.2.filterMap Call.flush).flatMap dumpText

/-- What the segments of a connection carry. -/
def payloadBetween (a b : ConnectionEnd) (packets : List Packet) : List UInt8 :=
  ((packets.filterMap Packet.segment).filter fun s => s.Joins a b).flatMap FollowedSegment.payload

/-- The tracker as a ledger of the connection's bytes, packet by packet. -/
def connectionLedger (a b : ConnectionEnd) :
    Ledger TcpStreamTracker (Option FollowedSegment) (Option (StreamKey × List UInt8)) UInt8 where
  step := feedSegment
  held := fun t => t.buffered (.between a b)
  taken := fun segment =>
    (segment.filter fun s => s.Joins a b).toList.flatMap FollowedSegment.payload
  given := flushedFor (.between a b)

section

variable (a b : ConnectionEnd)

theorem connectionLedger_conserves : (connectionLedger a b).Conserves := by
  intro t segment
  cases segment with
  | none => simp [connectionLedger, feedSegment, flushedFor]
  | some s =>
      have hone := ledger_conserves (.between a b) t s.call
      simp only [ledger, fedFor, s.key_call_eq_iff] at hone
      simp only [connectionLedger, feedSegment, hone]
      by_cases hjoins : s.Joins a b
      · simp [hjoins, Option.filter, FollowedSegment.call]
      · simp [hjoins, Option.filter]

/-- The bytes a run gives its segments to feed. -/
theorem flatMap_taken (packets : List Packet) :
    (packets.map Packet.segment).flatMap (connectionLedger a b).taken =
      payloadBetween a b packets := by
  induction packets with
  | nil => rfl
  | cons p ps ih =>
      simp only [List.map_cons, List.flatMap_cons, ih]
      cases hsegment : p.segment with
      | none => simp [connectionLedger, payloadBetween, hsegment]
      | some s =>
          by_cases hjoins : s.Joins a b
          · simp [connectionLedger, payloadBetween, hsegment, Option.filter, hjoins]
          · simp [connectionLedger, payloadBetween, hsegment, Option.filter, hjoins]

/-- A flush is filed under the key of its segment. -/
theorem feedSegment_key {t : TcpStreamTracker} {segment : Option FollowedSegment} {key : StreamKey}
    {data : List UInt8} (h : (t.feedSegment segment).2 = some (key, data)) :
    ∃ s, segment = some s ∧ key = s.call.key := by
  cases segment with
  | none => cases h
  | some s =>
      refine ⟨s, rfl, ?_⟩
      rcases t.feed_cases s.call with ⟨_, hfeed⟩ | ⟨_, _, hfeed⟩ | ⟨_, _, hfeed⟩
      · simp [feedSegment, hfeed] at h
      · simp only [feedSegment, hfeed, Option.some.injEq, Prod.mk.injEq] at h
        exact h.1.symm
      · simp [feedSegment, hfeed] at h

/-- The dumps of one packet. -/
theorem dumpsBetween_one {t : TcpStreamTracker} {p : Packet} {calls : List Call}
    (h : calls.filterMap Call.flush =
      (t.feedSegment p.segment).2.toList.map fun (_, data) => streamDump data) :
    dumpsBetween a b [(p, calls)] =
      (flushedFor (.between a b) (t.feedSegment p.segment).2).map printable := by
  cases hflushed : (t.feedSegment p.segment).2 with
  | none =>
      rw [hflushed] at h
      cases hof : p.isBetween a b <;> simp [dumpsBetween, hof, h, flushedFor]
  | some flushed =>
      rcases flushed with ⟨key, data⟩
      rcases feedSegment_key hflushed with ⟨s, hsegment, rfl⟩
      rw [hflushed] at h
      by_cases hjoins : s.Joins a b
      · simp [dumpsBetween, Packet.isBetween, hsegment, hjoins, h, flushedFor, s.key_call_eq_iff]
      · simp [dumpsBetween, Packet.isBetween, hsegment, hjoins, flushedFor, s.key_call_eq_iff]

/-- The dumps of a run are what the ledger gives out. -/
theorem capture_dumpsBetween (out : Outputs) (t : TcpStreamTracker) (packets : List Packet) :
    dumpsBetween a b (capture out (some t) packets) =
      (((connectionLedger a b).run t
        ((capture out (some t) packets).map fun e => e.1.segment)).2.flatMap
          (flushedFor (.between a b))).map printable := by
  induction packets generalizing t with
  | nil => rfl
  | cons p ps ih =>
      have hfollows := p.process_follows out t
      have hone := dumpsBetween_one a b hfollows.flushed
      have hsplit : ∀ rest, dumpsBetween a b ((p, (p.process out (some t)).trace) :: rest) =
          dumpsBetween a b [(p, (p.process out (some t)).trace)] ++ dumpsBetween a b rest := by
        intro rest
        simp only [dumpsBetween, ← List.flatMap_append, ← List.filter_append,
          List.singleton_append]
      rw [capture, hsplit, hone]
      simp only [List.map_cons, Ledger.run, List.flatMap_cons, List.map_append]
      congr 1
      cases hresult : (p.process out (some t)).result with
      | error panic => rfl
      | ok t' =>
          rw [hfollows.tracker t' hresult]
          exact ih _

/-- The tracker of the run is one that can be. -/
theorem exists_recorded {t : TcpStreamTracker} {entries : List Entry}
    (h : recorded.Reachable ⟨t, entries⟩) (segments : List (Option FollowedSegment)) :
    ∃ entries', recorded.Reachable ⟨((connectionLedger a b).run t segments).1, entries'⟩ := by
  induction segments generalizing t entries with
  | nil => exact ⟨entries, h⟩
  | cons segment segments ih =>
      cases segment with
      | none => exact ih h
      | some s => exact ih (h.step (Or.inl ⟨s.call, rfl⟩))

end

end NetZer

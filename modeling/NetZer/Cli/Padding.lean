import NetZer.Cli.Dissection
import NetZer.Cli.PanicFree

/-! # Link-layer padding

The parsers hand on the rest of the buffer, not the rest of the datagram:
neither the total length of IPv4 nor the payload length of IPv6 is read. Bytes
behind the datagram, as on a short Ethernet frame, are therefore part of a TCP
or UDP payload, and complete a transport header that was cut short.
-/

namespace NetZer

open Rust Rust.Traced Bytes

/-- The frame carries an IP datagram with the given protocol number and
payload, and ends where the datagram's length field says. `icmp` is the number
of ICMP in the datagram's version of IP. -/
inductive Unpadded (frame : List UInt8) (number : UInt8) (segment : List UInt8) :
    (icmp : UInt8) → Prop where
  | v4 (ip : Ipv4Header) (total : UInt16) : CarriesIpv4 frame ip segment →
      ip.protocol = .ok number → half frame 16 = some total →
      frame.length = 14 + total.toNat → Unpadded frame number segment 1
  | v6 (ip : Ipv6Header) (len : UInt16) : CarriesIpv6 frame ip segment →
      ip.nextHeader = .ok number → half frame 18 = some len →
      frame.length = 14 + 40 + len.toNat → Unpadded frame number segment 58

/-- The padding makes no difference to the handlers: no TCP header is found,
and a UDP or ICMP header that is found ends before the padding and has no DNS
payload behind it. -/
structure Unaffected (number icmp : UInt8) (segment pad : List UInt8) : Prop where
  tcp : number = 6 → ∀ tcp payload, TcpHeader.parse (segment ++ pad) ≠ .ok (.ok (tcp, payload))
  udp : number = 17 → ∀ udp payload, UdpHeader.parse (segment ++ pad) = .ok (.ok (udp, payload)) →
    udpHeaderLen ≤ segment.length ∧ udp.sourcePort ≠ .ok 53 ∧ udp.destinationPort ≠ .ok 53
  icmp : number = icmp → ∀ icmp payload,
    IcmpHeader.parse (segment ++ pad) = .ok (.ok (icmp, payload)) → icmpHeaderLen ≤ segment.length

/-! Each protocol has one condition. -/

section

variable {icmp : UInt8} {segment pad : List UInt8}

theorem unaffected_tcp_iff (h : icmp ≠ 6) : Unaffected 6 icmp segment pad ↔
    ∀ tcp payload, TcpHeader.parse (segment ++ pad) ≠ .ok (.ok (tcp, payload)) := by
  constructor
  · intro hun
    exact hun.tcp rfl
  · intro htcp
    exact ⟨fun _ => htcp, fun hno => absurd hno (by decide), fun hno => absurd hno.symm h⟩

theorem unaffected_udp_iff (h : icmp ≠ 17) : Unaffected 17 icmp segment pad ↔
    ∀ udp payload, UdpHeader.parse (segment ++ pad) = .ok (.ok (udp, payload)) →
      udpHeaderLen ≤ segment.length ∧ udp.sourcePort ≠ .ok 53 ∧ udp.destinationPort ≠ .ok 53 := by
  constructor
  · intro hun
    exact hun.udp rfl
  · intro hudp
    exact ⟨fun hno => absurd hno (by decide), fun _ => hudp, fun hno => absurd hno.symm h⟩

theorem unaffected_icmp_iff (htcp : icmp ≠ 6) (hudp : icmp ≠ 17) :
    Unaffected icmp icmp segment pad ↔
      ∀ hd payload, IcmpHeader.parse (segment ++ pad) = .ok (.ok (hd, payload)) →
        icmpHeaderLen ≤ segment.length := by
  constructor
  · intro hun
    exact hun.icmp rfl
  · intro hicmp
    exact ⟨fun hno => absurd hno htcp, fun hno => absurd hno hudp, fun _ => hicmp⟩

end

section

variable {out : Outputs} {r r' : Report} {tracker : Option TcpStreamTracker} {srcIp dstIp : String}
  {segment payload pad : List UInt8} {srcPort dstPort : UInt16}

/-! ## The first thing seen of a segment -/

@[simp] theorem tcpDetection_core : (tcpDetection dstPort payload).core =
    some (tcpDetection dstPort payload) := by
  unfold tcpDetection
  split <;> rfl

theorem tcpDetection_inj {payload' : List UInt8}
    (h : tcpDetection dstPort payload = tcpDetection dstPort payload') : payload = payload' := by
  unfold tcpDetection at h
  split at h <;> simpa using h

theorem handleTcp_head {tcp : TcpHeader} (h : TcpHeader.parse segment = .ok (.ok (tcp, payload)))
    (hdst : tcp.destinationPort = .ok dstPort) :
    ((handleTcp out r srcIp dstIp segment).trace.filterMap Call.core).head? =
      some (tcpDetection dstPort payload) := by
  rcases tcp.sourcePort_returns with ⟨srcPort, hsrc⟩
  simp [handleTcp_of_ok h hsrc hdst]

theorem followTcp_head {t : TcpStreamTracker} {tcp : TcpHeader}
    (h : TcpHeader.parse segment = .ok (.ok (tcp, payload)))
    (hsrc : tcp.sourcePort = .ok srcPort) (hdst : tcp.destinationPort = .ok dstPort) :
    ((followTcp out r (some t) srcIp dstIp segment).trace.filterMap Call.core).head? =
      some (.feed
        { srcIp := srcIp, srcPort := srcPort, dstIp := dstIp, dstPort := dstPort,
          payload := payload }) := by
  simp [followTcp_of_ok h hsrc hdst, feedTracker, Call.core]

/-- Without a tracker the IPv4 arm only handles the segment. -/
theorem followTcp_none :
    followTcp out r none srcIp dstIp segment = (do
      handleTcp out r srcIp dstIp segment
      return none) := by
  rcases TcpHeader.parse_returns segment with ⟨res, hres⟩
  rcases res with e | ⟨tcp, payload⟩
  · simp only [followTcp_of_error hres, handleTcp_of_error hres, pure_bind]
  · rcases tcp.sourcePort_returns with ⟨srcPort, hsrc⟩
    rcases tcp.destinationPort_returns with ⟨dstPort, hdst⟩
    simp only [followTcp_of_ok hres hsrc hdst, feedTracker, pure_bind]

theorem handleUdp_head {udp : UdpHeader} (h : UdpHeader.parse segment = .ok (.ok (udp, payload)))
    (hsrc : udp.sourcePort = .ok srcPort) (hdst : udp.destinationPort = .ok dstPort) :
    ((handleUdp out r srcIp dstIp segment).trace.filterMap Call.core).head? =
      if dstPort = 53 ∨ srcPort = 53 then some (.dnsParse payload)
      else some (.printPacketLine r.timeStr
        { text := Text.padRight 5 "UDP", styles := [.brightBlue, .bold] }
        (endpoint srcIp srcPort) (endpoint dstIp dstPort)
        { text := Text.padRight 35 "-", styles := [.brightBlack] } 0) := by
  rw [handleUdp_of_ok h hsrc hdst]
  unfold udpInfo
  split
  · simp [Call.core]
  · simp [report, Call.core, UdpInfo.infoColored]

theorem report_head {proto info : ColoredString} {infoRaw protoLog protoName : String} :
    ((report out r proto info srcIp dstIp infoRaw protoLog protoName).trace.filterMap
      Call.core).head? = some (.printPacketLine r.timeStr proto srcIp dstIp info 0) := by
  simp [report, Call.core]

/-! ## The handlers on a padded segment -/

/-- A segment without and with padding. -/
theorem TcpHeader.parse_append_cases (segment pad : List UInt8) :
    (∃ e e', TcpHeader.parse segment = .ok (.error e) ∧
      TcpHeader.parse (segment ++ pad) = .ok (.error e')) ∨
    (∃ e tcp rest, TcpHeader.parse segment = .ok (.error e) ∧
      TcpHeader.parse (segment ++ pad) = .ok (.ok (tcp, rest))) ∨
    (∃ tcp rest, TcpHeader.parse segment = .ok (.ok (tcp, rest)) ∧
      TcpHeader.parse (segment ++ pad) = .ok (.ok (tcp, rest ++ pad))) :=
  NetZer.parse_append_cases TcpHeader.parse_returns
    (fun h pad => parseScaled_append (by decide) pad h) segment pad

theorem UdpHeader.parse_append_cases (segment pad : List UInt8) :
    (∃ e e', UdpHeader.parse segment = .ok (.error e) ∧
      UdpHeader.parse (segment ++ pad) = .ok (.error e')) ∨
    (∃ e udp rest, UdpHeader.parse segment = .ok (.error e) ∧
      UdpHeader.parse (segment ++ pad) = .ok (.ok (udp, rest))) ∨
    (∃ udp rest, UdpHeader.parse segment = .ok (.ok (udp, rest)) ∧
      UdpHeader.parse (segment ++ pad) = .ok (.ok (udp, rest ++ pad))) :=
  NetZer.parse_append_cases (parseFixed_returns _ _) (fun h pad => parseFixed_append pad h)
    segment pad

theorem IcmpHeader.parse_append_cases (segment pad : List UInt8) :
    (∃ e e', IcmpHeader.parse segment = .ok (.error e) ∧
      IcmpHeader.parse (segment ++ pad) = .ok (.error e')) ∨
    (∃ e icmp rest, IcmpHeader.parse segment = .ok (.error e) ∧
      IcmpHeader.parse (segment ++ pad) = .ok (.ok (icmp, rest))) ∨
    (∃ icmp rest, IcmpHeader.parse segment = .ok (.ok (icmp, rest)) ∧
      IcmpHeader.parse (segment ++ pad) = .ok (.ok (icmp, rest ++ pad))) :=
  NetZer.parse_append_cases (parseFixed_returns _ _) (fun h pad => parseFixed_append pad h)
    segment pad

theorem ne_append_of_ne_nil (hpad : pad ≠ []) : payload ≠ payload ++ pad := by
  intro h
  exact hpad (by simpa using h)

theorem handleTcp_same_iff (hpad : pad ≠ []) :
    SameDissection (handleTcp out r srcIp dstIp segment)
        (handleTcp out r' srcIp dstIp (segment ++ pad)) ↔
      ∀ tcp payload, TcpHeader.parse (segment ++ pad) ≠ .ok (.ok (tcp, payload)) := by
  rcases TcpHeader.parse_append_cases segment pad with
    ⟨e, e', h, h'⟩ | ⟨e, tcp, rest, h, h'⟩ | ⟨tcp, rest, h, h'⟩
  · -- no TCP header with the padding either
    rw [handleTcp_of_error h, handleTcp_of_error h']
    exact iff_of_true (.refl _) fun tcp payload hok => by simp [h'] at hok
  · -- the padding completes a header
    refine iff_of_false (fun hsame => ?_) fun hno => hno tcp rest h'
    rcases tcp.destinationPort_returns with ⟨dstPort, hdst⟩
    have hhead := hsame.head
    rw [handleTcp_of_error h, handleTcp_head h' hdst] at hhead
    simp at hhead
  · -- the padding is behind the payload
    refine iff_of_false (fun hsame => ?_) fun hno => hno tcp _ h'
    rcases tcp.destinationPort_returns with ⟨dstPort, hdst⟩
    have hhead := hsame.head
    rw [handleTcp_head h hdst, handleTcp_head h' hdst, Option.some.injEq] at hhead
    exact ne_append_of_ne_nil hpad (tcpDetection_inj hhead)

theorem followTcp_same_iff (hpad : pad ≠ []) :
    SameDissection (followTcp out r tracker srcIp dstIp segment)
        (followTcp out r' tracker srcIp dstIp (segment ++ pad)) ↔
      ∀ tcp payload, TcpHeader.parse (segment ++ pad) ≠ .ok (.ok (tcp, payload)) := by
  cases tracker with
  | none =>
      rw [followTcp_none, followTcp_none]
      exact AgreeOn.return_iff.trans (handleTcp_same_iff hpad)
  | some t =>
      rcases TcpHeader.parse_append_cases segment pad with
        ⟨e, e', h, h'⟩ | ⟨e, tcp, rest, h, h'⟩ | ⟨tcp, rest, h, h'⟩
      · rw [followTcp_of_error h, followTcp_of_error h']
        exact iff_of_true (.refl _) fun tcp payload hok => by simp [h'] at hok
      -- the padding completes a header that was cut short: a feed appears
      · refine iff_of_false (fun hsame => ?_) fun hno => hno tcp rest h'
        rcases tcp.sourcePort_returns with ⟨srcPort, hsrc⟩
        rcases tcp.destinationPort_returns with ⟨dstPort, hdst⟩
        have hhead := hsame.head
        rw [followTcp_of_error h, followTcp_head h' hsrc hdst] at hhead
        simp at hhead
      -- both runs feed, the second one with the padding behind the payload
      · refine iff_of_false (fun hsame => ?_) fun hno => hno tcp _ h'
        rcases tcp.sourcePort_returns with ⟨srcPort, hsrc⟩
        rcases tcp.destinationPort_returns with ⟨dstPort, hdst⟩
        have hhead := hsame.head
        rw [followTcp_head h hsrc hdst, followTcp_head h' hsrc hdst] at hhead
        simp only [Option.some.injEq, Call.feed.injEq, FeedCall.mk.injEq] at hhead
        exact ne_append_of_ne_nil hpad hhead.2.2.2.2

theorem handleUdp_same_iff (hpad : pad ≠ []) (htime : r.timeStr = r'.timeStr) :
    SameDissection (handleUdp out r srcIp dstIp segment)
        (handleUdp out r' srcIp dstIp (segment ++ pad)) ↔
      ∀ udp payload, UdpHeader.parse (segment ++ pad) = .ok (.ok (udp, payload)) →
        udpHeaderLen ≤ segment.length ∧ udp.sourcePort ≠ .ok 53 ∧
          udp.destinationPort ≠ .ok 53 := by
  rcases UdpHeader.parse_append_cases segment pad with
    ⟨e, e', h, h'⟩ | ⟨e, udp, rest, h, h'⟩ | ⟨udp, rest, h, h'⟩
  · rw [handleUdp_of_error h, handleUdp_of_error h']
    exact iff_of_true (.refl _) fun udp payload hok => by simp [h'] at hok
  -- the padding completes the header
  · refine iff_of_false (fun hsame => ?_) fun hcond => ?_
    · rcases udp.sourcePort_returns with ⟨srcPort, hsrc⟩
      rcases udp.destinationPort_returns with ⟨dstPort, hdst⟩
      have hhead := hsame.head
      rw [handleUdp_of_error h, handleUdp_head h' hsrc hdst] at hhead
      split at hhead <;> simp at hhead
    · exact absurd (hcond udp rest h').1 (Nat.not_le.mpr (parseFixed_error h))
  · rcases udp.sourcePort_returns with ⟨srcPort, hsrc⟩
    rcases udp.destinationPort_returns with ⟨dstPort, hdst⟩
    by_cases hdns : dstPort = 53 ∨ srcPort = 53
    · -- the payload goes to the DNS parser
      refine iff_of_false (fun hsame => ?_) fun hcond => ?_
      · have hhead := hsame.head
        rw [handleUdp_head h hsrc hdst, handleUdp_head h' hsrc hdst, if_pos hdns, if_pos hdns,
          Option.some.injEq, Call.dnsParse.injEq] at hhead
        exact ne_append_of_ne_nil hpad hhead
      · rcases hcond udp _ h' with ⟨-, hs, hd⟩
        rcases hdns with rfl | rfl
        · exact hd hdst
        · exact hs hsrc
    · -- the payload is not looked at
      refine iff_of_true ?_ fun udp' payload hok => ?_
      · rw [handleUdp_of_ok h hsrc hdst, handleUdp_of_ok h' hsrc hdst]
        simp only [udpInfo, if_neg hdns, pure_bind]
        exact report_sameDissection htime
      · simp only [h', Except.ok.injEq, Prod.mk.injEq] at hok
        rcases hok with ⟨rfl, -⟩
        refine ⟨(parseFixed_inv h).1, fun hs => hdns (Or.inr ?_), fun hd => hdns (Or.inl ?_)⟩
        · exact Except.ok.inj (hsrc.symm.trans hs)
        · exact Except.ok.inj (hdst.symm.trans hd)

theorem handleIcmpWith_same_iff {describe : IcmpHeader → Run String}
    (hdescribe : ∀ icmp, ∃ s, describe icmp = .ok s) {proto protoLog protoName : String}
    (htime : r.timeStr = r'.timeStr) :
    SameDissection (handleIcmpWith describe proto protoLog protoName out r srcIp dstIp segment)
        (handleIcmpWith describe proto protoLog protoName out r' srcIp dstIp (segment ++ pad)) ↔
      ∀ icmp payload, IcmpHeader.parse (segment ++ pad) = .ok (.ok (icmp, payload)) →
        icmpHeaderLen ≤ segment.length := by
  rcases IcmpHeader.parse_append_cases segment pad with
    ⟨e, e', h, h'⟩ | ⟨e, icmp, rest, h, h'⟩ | ⟨icmp, rest, h, h'⟩
  · rw [handleIcmpWith_of_error h, handleIcmpWith_of_error h']
    exact iff_of_true (.refl _) fun icmp payload hok => by simp [h'] at hok
  -- the padding completes the header
  · rcases hdescribe icmp with ⟨infoRaw, hinfo⟩
    refine iff_of_false (fun hsame => ?_) fun hcond => ?_
    · have hhead := hsame.head
      rw [handleIcmpWith_of_error h, handleIcmpWith_of_ok h' hinfo, report_head] at hhead
      simp at hhead
    · exact absurd (hcond icmp rest h') (Nat.not_le.mpr (parseFixed_error h))
  -- the header was whole, and no more than the header is reported
  · rcases hdescribe icmp with ⟨infoRaw, hinfo⟩
    rw [handleIcmpWith_of_ok h hinfo, handleIcmpWith_of_ok h' hinfo]
    exact iff_of_true (report_sameDissection htime) fun _ _ _ => (parseFixed_inv h).1

/-! ## The packet -/

theorem dispatchIpv4_same_iff {number : UInt8} (hpad : pad ≠ []) (htime : r.timeStr = r'.timeStr) :
    SameDissection (dispatchIpv4 out r tracker srcIp dstIp number segment)
        (dispatchIpv4 out r' tracker srcIp dstIp number (segment ++ pad)) ↔
      Unaffected number 1 segment pad := by
  unfold dispatchIpv4
  split_ifs with htcp hudp hicmp
  · subst htcp
    exact (followTcp_same_iff hpad).trans (unaffected_tcp_iff (by decide)).symm
  · subst hudp
    exact AgreeOn.return_iff.trans
      ((handleUdp_same_iff hpad htime).trans (unaffected_udp_iff (by decide)).symm)
  · subst hicmp
    exact AgreeOn.return_iff.trans ((handleIcmpWith_same_iff describeIcmp_returns htime).trans
      (unaffected_icmp_iff (by decide) (by decide)).symm)
  · exact iff_of_true (.refl _)
      ⟨fun h => absurd h htcp, fun h => absurd h hudp, fun h => absurd h hicmp⟩

theorem dispatchIpv6_same_iff {number : UInt8} (hpad : pad ≠ []) (htime : r.timeStr = r'.timeStr) :
    SameDissection (dispatchIpv6 out r srcIp dstIp number segment)
        (dispatchIpv6 out r' srcIp dstIp number (segment ++ pad)) ↔
      Unaffected number 58 segment pad := by
  unfold dispatchIpv6
  split_ifs with htcp hudp hicmp
  · subst htcp
    exact (handleTcp_same_iff hpad).trans (unaffected_tcp_iff (by decide)).symm
  · subst hudp
    exact (handleUdp_same_iff hpad htime).trans (unaffected_udp_iff (by decide)).symm
  · subst hicmp
    exact (handleIcmpWith_same_iff describeIcmpv6_returns htime).trans
      (unaffected_icmp_iff (by decide) (by decide)).symm
  · exact iff_of_true (.refl _)
      ⟨fun h => absurd h htcp, fun h => absurd h hudp, fun h => absurd h hicmp⟩

end

/-- Padding behind a datagram shows nowhere but in the size and the raw bytes
if and only if there is none, or the handlers are unaffected by it. -/
theorem padding_invisible_iff {frame segment : List UInt8} {number icmp : UInt8}
    (h : Unpadded frame number segment icmp) (pad : List UInt8) (out : Outputs)
    (timeStr : String) (tracker : Option TcpStreamTracker) :
    SameDissection (processPacket out timeStr tracker frame frame.length)
        (processPacket out timeStr tracker (frame ++ pad) (frame ++ pad).length) ↔
      pad = [] ∨ Unaffected number icmp segment pad := by
  by_cases hpad : pad = []
  · subst hpad
    rw [List.append_nil]
    exact iff_of_true (.refl _) (Or.inl rfl)
  rw [or_iff_right hpad]
  -- the same for both families: the header is read as before, and the segment grows
  cases h with
  | v4 ip total hcarries hnumber =>
      rcases ip.source_returns with ⟨src, hsrc⟩
      rcases ip.destination_returns with ⟨dst, hdst⟩
      obtain ⟨hex, hrun⟩ := processPacket_of_ipv4 hcarries hsrc hdst hnumber out timeStr tracker
        frame.length
      obtain ⟨hex', hrun'⟩ := processPacket_of_ipv4 (hcarries.append pad) hsrc hdst hnumber out
        timeStr tracker (frame ++ pad).length
      rw [hrun, hrun']
      exact ((sameDissection_raw _ _ _).congr (sameDissection_raw _ _ _)).trans
        (dispatchIpv4_same_iff hpad rfl)
  | v6 ip len hcarries hnumber =>
      rcases ip.source_returns with ⟨src, hsrc⟩
      rcases ip.destination_returns with ⟨dst, hdst⟩
      obtain ⟨hex, hrun⟩ := processPacket_of_ipv6 hcarries hsrc hdst hnumber out timeStr tracker
        frame.length
      obtain ⟨hex', hrun'⟩ := processPacket_of_ipv6 (hcarries.append pad) hsrc hdst hnumber out
        timeStr tracker (frame ++ pad).length
      rw [hrun, hrun']
      exact ((sameDissection_raw _ _ _).congr (sameDissection_raw _ _ _)).trans
        (AgreeOn.return_iff.trans (dispatchIpv6_same_iff hpad rfl))

/-- An ICMP echo request from 10.0.0.1 to 10.0.0.2 without data: total length 28. -/
def ping : List UInt8 :=
  [0x00, 0x1a, 0x2b, 0x3c, 0x4d, 0x5e, 0x00, 0x1a, 0x2b, 0x3c, 0x4d, 0x5f, 0x08, 0x00] ++
  [0x45, 0x00, 0x00, 28, 0, 1, 0x40, 0x00, 64, 1, 0, 0, 10, 0, 0, 1, 10, 0, 0, 2] ++
  [8, 0, 0, 0, 0, 1, 0, 1]

theorem padding_invisible_iff_ping :
    SameDissection
      (processPacket ⟨false, true, false, true⟩ "12:00:00.000" (some .new) ping ping.length)
      (processPacket ⟨false, true, false, true⟩ "12:00:00.000" (some .new)
        (ping ++ List.replicate 18 0) (ping ++ List.replicate 18 0).length) := by
  have hping : Unpadded ping 1 (ping.drop 34) 1 :=
    .v4 _ 28 ⟨_, _, rfl, rfl, rfl⟩ rfl rfl rfl
  refine (padding_invisible_iff hping _ _ _ _).mpr (Or.inr ?_)
  exact (unaffected_icmp_iff (by decide) (by decide)).mpr fun _ _ _ => by decide

/-! ## An empty acknowledgement

The shortest TCP segment over IPv4, without options and payload, makes a frame
of 54 bytes; a driver pads it to 60. -/

/-- From 10.0.0.1:49152 to 10.0.0.2:80: Ethernet, IPv4 of total length 40, TCP. -/
def emptyAck : List UInt8 :=
  [0x00, 0x1a, 0x2b, 0x3c, 0x4d, 0x5e, 0x00, 0x1a, 0x2b, 0x3c, 0x4d, 0x5f, 0x08, 0x00] ++
  [0x45, 0x00, 0x00, 40, 0, 1, 0x40, 0x00, 64, 6, 0, 0, 10, 0, 0, 1, 10, 0, 0, 2] ++
  [0xc0, 0x00, 0, 80, 0, 0, 0, 1, 0, 0, 0, 1, 0x50, 0x10, 0xff, 0xff, 0, 0, 0, 0]

theorem emptyAck_unpadded : Unpadded emptyAck 6 (emptyAck.drop 34) 1 :=
  .v4 _ 40 ⟨_, _, rfl, rfl, rfl⟩ rfl rfl rfl

/-- The six bytes of padding are fed to the stream tracker. -/
theorem emptyAck_padding_visible :
    Unpadded emptyAck 6 (emptyAck.drop 34) 1 ∧
    ¬ SameDissection
      (processPacket ⟨false, false, false, false⟩ "12:00:00.000" (some .new) emptyAck 54)
      (processPacket ⟨false, false, false, false⟩ "12:00:00.000" (some .new)
        (emptyAck ++ [0, 0, 0, 0, 0, 0]) 60) := by
  refine ⟨emptyAck_unpadded, fun hsame => ?_⟩
  have hhead := hsame.head
  revert hhead
  decide

end NetZer

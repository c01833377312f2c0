import NetZer.Cli.ProcessPacket

/-! # Dissection does not panic

Every index, slice and subtraction of the dissection is in range on every
frame: the only panics `process_packet` can end with are raised inside
`TlsClientHello::parse` or `truncate`. Each handler is safe for any set of
panics that contains these two kinds.
-/

namespace NetZer

open Rust Rust.Traced

section

variable {P : Panic Fn → Prop}

/-! ## Parts of the handlers -/

variable {out : Outputs} {r : Report} {srcIp dstIp : String} {payload : List UInt8}
  {tracker : Option TcpStreamTracker}

theorem report_panicsOnly {proto info : ColoredString} {infoRaw protoLog protoName : String} :
    Traced.PanicsOnly P (report out r proto info srcIp dstIp infoRaw protoLog protoName) := by
  refine .bind (.emit _) ?_
  intro _ _
  refine .bind (.emitIf _ _) ?_
  intro _ _
  exact .emitIf _ _

/-- Two parts make a second part exist, so the word splitting is in range. -/
theorem httpInfo_returns (tcpPayload : List UInt8) : ∃ i, httpInfo tcpPayload = .ok i := by
  simp only [httpInfo]
  split_ifs with hmethod hparts hversion hparts
  · obtain ⟨method, hm⟩ := index_returns (φ := Fn) (i := 0) (Nat.lt_of_lt_of_le (by decide) hparts)
    obtain ⟨target, ht⟩ := index_returns (φ := Fn) (i := 1) (Nat.lt_of_lt_of_le (by decide) hparts)
    exact ⟨_, by simp only [hm, ht, bind, Except.bind, pure, Except.pure]; rfl⟩
  · exact ⟨_, rfl⟩
  · rcases sliceFrom_returns (φ := Fn) (a := 1) (Nat.le_trans (by decide) hparts) with ⟨rest, hr⟩
    exact ⟨_, by simp only [hr, bind, Except.bind, pure, Except.pure]; rfl⟩
  · exact ⟨_, rfl⟩
  · exact ⟨_, rfl⟩

theorem describeIcmp_returns (icmpHeader : IcmpHeader) : ∃ s, describeIcmp icmpHeader = .ok s := by
  rcases icmpHeader.icmpType_returns with ⟨t, ht⟩
  rcases icmpHeader.code_returns with ⟨c, hc⟩
  simp only [describeIcmp, ht, hc, bind, Except.bind]
  split <;> exact ⟨_, rfl⟩

theorem describeIcmpv6_returns (icmpHeader : IcmpHeader) :
    ∃ s, describeIcmpv6 icmpHeader = .ok s := by
  rcases icmpHeader.icmpType_returns with ⟨t, ht⟩
  simp only [describeIcmpv6, ht, bind, Except.bind]
  split <;> exact ⟨_, rfl⟩

theorem describeArp_returns (arp : ArpPacket) : ∃ s, describeArp arp = .ok s := by
  rcases arp.opcode_returns with ⟨op, hop⟩
  rcases arp.senderMac_returns with ⟨smac, hsmac⟩
  rcases arp.senderIp_returns with ⟨sip, hsip⟩
  rcases arp.targetIp_returns with ⟨tip, htip⟩
  simp only [describeArp, hop, hsmac, hsip, htip, bind, Except.bind]
  split <;> exact ⟨_, rfl⟩

theorem printFlush_panicsOnly (flushed : Option (StreamKey × List UInt8)) :
    Traced.PanicsOnly P (printFlush flushed) := by
  cases flushed with
  | none => exact .pure _
  | some kd => exact .emit _

theorem feedTracker_panicsOnly (call : FeedCall) :
    Traced.PanicsOnly P (feedTracker tracker call) := by
  cases tracker with
  | none => exact .pure _
  | some t =>
      refine .bind (.emit _) ?_
      intro _ _
      exact .bind (printFlush_panicsOnly _) fun _ _ => .pure _

theorem printHexdump_panicsOnly (showHexdump : Bool) (packetData : List UInt8) :
    Traced.PanicsOnly P (printHexdump showHexdump packetData) :=
  .ite (.bind (.lift_ok (hexdump_returns packetData)) fun _ _ => .emit _) (.pure _)

/-! ## The handlers -/

variable (htls : ∀ p : Panic Fn, .tlsClientHelloParse ∈ p.within → P p)
  (htruncate : ∀ p : Panic Fn, .truncate ∈ p.within → P p)

include htruncate in
theorem truncate_panicsOnly (s : String) (maxChars : Nat) :
    Rust.PanicsOnly P (truncate s maxChars) :=
  .calling htruncate

include htls htruncate in
theorem tcpInfo_panicsOnly (dstPort : UInt16) (tcpPayload : List UInt8) :
    Rust.PanicsOnly P (tcpInfo dstPort tcpPayload) := by
  unfold tcpInfo
  split
  · -- port 443
    refine .bind (.calling htls) ?_
    intro res _
    cases res with
    | ok tls => exact .bind (truncate_panicsOnly htruncate _ _) fun _ _ => .pure _
    | error e => exact .pure _
  · exact .of_returns (httpInfo_returns tcpPayload)

include htruncate in
theorem udpInfo_panicsOnly (srcPort dstPort : UInt16) (udpPayload : List UInt8) :
    Traced.PanicsOnly P (udpInfo srcPort dstPort udpPayload) := by
  refine .ite (.bind (.emit _) fun _ _ => .lift ?_) (.pure _)
  refine .bind (.of_returns (DnsQuery.parse_returns udpPayload)) ?_
  intro res _
  cases res with
  | ok dns => exact .bind (truncate_panicsOnly htruncate _ _) fun _ _ => .pure _
  | error e => exact .pure _

include htls htruncate in
theorem handleTcp_panicsOnly : Traced.PanicsOnly P (handleTcp out r srcIp dstIp payload) := by
  refine .bind (.lift_ok (TcpHeader.parse_returns _)) ?_
  intro res _
  rcases res with e | ⟨tcpHeader, tcpPayload⟩
  · exact .pure _
  · refine .bind (.lift_ok tcpHeader.sourcePort_returns) ?_
    intro srcPort _
    refine .bind (.lift_ok tcpHeader.destinationPort_returns) ?_
    intro dstPort _
    refine .bind (.emit _) ?_
    intro _ _
    refine .bind (.lift (tcpInfo_panicsOnly htls htruncate _ _)) ?_
    intro i _
    exact report_panicsOnly

include htruncate in
theorem handleUdp_panicsOnly : Traced.PanicsOnly P (handleUdp out r srcIp dstIp payload) := by
  refine .bind (.lift_ok (parseFixed_returns _ _ _)) ?_
  intro res _
  rcases res with e | ⟨udpHeader, udpPayload⟩
  · exact .pure _
  · refine .bind (.lift_ok udpHeader.sourcePort_returns) ?_
    intro srcPort _
    refine .bind (.lift_ok udpHeader.destinationPort_returns) ?_
    intro dstPort _
    exact .bind (udpInfo_panicsOnly htruncate _ _ _) fun i _ => report_panicsOnly

theorem handleIcmpWith_panicsOnly {describe : IcmpHeader → Run String}
    (hdescribe : ∀ icmpHeader, ∃ s, describe icmpHeader = .ok s)
    {proto protoLog protoName : String} :
    Traced.PanicsOnly P
      (handleIcmpWith describe proto protoLog protoName out r srcIp dstIp payload) := by
  refine .bind (.lift_ok (parseFixed_returns _ _ _)) ?_
  intro res _
  rcases res with e | ⟨icmpHeader, _⟩
  · exact .pure _
  · refine .bind (.lift_ok (hdescribe icmpHeader)) ?_
    intro infoRaw _
    exact report_panicsOnly

include htruncate in
theorem handleArp_panicsOnly : Traced.PanicsOnly P (handleArp out r payload) := by
  refine .bind (.lift_ok (ArpPacket.parse_returns payload)) ?_
  intro res _
  rcases res with e | arp
  · exact .pure _
  · refine .bind (.lift_ok (describeArp_returns arp)) ?_
    intro infoRaw _
    refine .bind (.lift_ok arp.senderMac_returns) ?_
    intro src _
    refine .bind (.lift_ok arp.targetMac_returns) ?_
    intro dst _
    refine .bind (.lift (truncate_panicsOnly htruncate _ _)) ?_
    intro shown _
    exact report_panicsOnly

/-! ## The packet -/

include htls htruncate in
theorem followTcp_panicsOnly :
    Traced.PanicsOnly P (followTcp out r tracker srcIp dstIp payload) := by
  refine .bind (.lift_ok (TcpHeader.parse_returns _)) ?_
  intro res _
  rcases res with e | ⟨tcpHeader, tcpPayload⟩
  · exact .bind (handleTcp_panicsOnly htls htruncate) fun _ _ => .pure _
  · refine .bind (.lift_ok tcpHeader.sourcePort_returns) ?_
    intro srcPort _
    refine .bind (.lift_ok tcpHeader.destinationPort_returns) ?_
    intro dstPort _
    refine .bind (feedTracker_panicsOnly _) ?_
    intro tracker' _
    exact .bind (handleTcp_panicsOnly htls htruncate) fun _ _ => .pure _

include htls htruncate in
theorem dispatchIpv4_panicsOnly (protocol : UInt8) :
    Traced.PanicsOnly P (dispatchIpv4 out r tracker srcIp dstIp protocol payload) := by
  refine .ite (followTcp_panicsOnly htls htruncate) ?_
  refine .ite (.bind (handleUdp_panicsOnly htruncate) fun _ _ => .pure _) ?_
  refine .ite ?_ (.pure _)
  exact .bind (handleIcmpWith_panicsOnly describeIcmp_returns) fun _ _ => .pure _

include htls htruncate in
theorem dispatchIpv6_panicsOnly (nextHeader : UInt8) :
    Traced.PanicsOnly P (dispatchIpv6 out r srcIp dstIp nextHeader payload) := by
  refine .ite (handleTcp_panicsOnly htls htruncate) ?_
  refine .ite (handleUdp_panicsOnly htruncate) ?_
  exact .ite (handleIcmpWith_panicsOnly describeIcmpv6_returns) (.pure _)

include htls htruncate in
theorem processIpv4_panicsOnly : Traced.PanicsOnly P (processIpv4 out r tracker payload) := by
  refine .bind (.lift_ok (Ipv4Header.parse_returns _)) ?_
  intro res _
  rcases res with e | ⟨ipv4Header, ipPayload⟩
  · exact .pure _
  refine .bind (.lift_ok ipv4Header.source_returns) ?_
  intro src _
  refine .bind (.lift_ok ipv4Header.destination_returns) ?_
  intro dst _
  refine .bind (.lift_ok ipv4Header.protocol_returns) ?_
  intro protocol _
  exact dispatchIpv4_panicsOnly htls htruncate _

include htls htruncate in
theorem processIpv6_panicsOnly : Traced.PanicsOnly P (processIpv6 out r payload) := by
  refine .bind (.lift_ok (parseFixed_returns _ _ _)) ?_
  intro res _
  rcases res with e | ⟨ipv6Header, ipPayload⟩
  · exact .pure _
  refine .bind (.lift_ok ipv6Header.source_returns) ?_
  intro src _
  refine .bind (.lift_ok ipv6Header.destination_returns) ?_
  intro dst _
  refine .bind (.lift_ok ipv6Header.nextHeader_returns) ?_
  intro nextHeader _
  exact dispatchIpv6_panicsOnly htls htruncate _

include htls htruncate in
theorem processPacket_panicsOnly (timeStr : String) (packetData : List UInt8) (size : Nat) :
    Traced.PanicsOnly P (processPacket out timeStr tracker packetData size) := by
  refine .bind (.emitIf _ _) ?_
  intro _ _
  refine .bind (printHexdump_panicsOnly _ _) ?_
  intro _ _
  refine .bind (.lift_ok (parseFixed_returns _ _ _)) ?_
  intro res _
  rcases res with e | ⟨ethFrame, payload⟩
  · exact .pure _
  refine .bind (.lift_ok (toHexString_returns packetData)) ?_
  intro rawHex _
  refine .bind (.lift_ok ethFrame.ethertype_returns) ?_
  intro ethertype _
  cases ethertype with
  | ipv4 => exact processIpv4_panicsOnly htls htruncate
  | ipv6 => exact .bind (processIpv6_panicsOnly htls htruncate) fun _ _ => .pure _
  | arp => exact .bind (handleArp_panicsOnly htruncate) fun _ _ => .pure _
  | other val => exact .pure _

end

/-- On every frame and with every tracker `process_packet` returns, unless
`TlsClientHello::parse` or `truncate` panics. -/
theorem processPacket_returns (out : Outputs) (timeStr : String)
    (tracker : Option TcpStreamTracker) (packetData : List UInt8) (size : Nat) :
    (∃ tracker', (processPacket out timeStr tracker packetData size).result = .ok tracker') ∨
      ∃ p, (processPacket out timeStr tracker packetData size).result = .error p ∧
        (.tlsClientHelloParse ∈ p.within ∨ .truncate ∈ p.within) := by
  have hsafe : PanicsOnly (fun p => .tlsClientHelloParse ∈ p.within ∨ .truncate ∈ p.within)
      (processPacket out timeStr tracker packetData size) :=
    processPacket_panicsOnly (fun _ h => Or.inl h) (fun _ h => Or.inr h) timeStr packetData size
  cases hrun : (processPacket out timeStr tracker packetData size).result with
  | ok tracker' => exact Or.inl ⟨tracker', rfl⟩
  | error p => exact Or.inr ⟨p, rfl, hsafe p hrun⟩

end NetZer

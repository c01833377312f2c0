import NetZer.Cli.ProcessPacket

/-! # What a packet is reported as

The calls of `process_packet` without the frame's size and raw bytes: what is
fed, handed to a detection, printed and reported. Up to these, processing a
frame that carries an IP datagram is dispatching its payload.
-/

namespace NetZer

open Rust Rust.Traced

/-- A call without the size of the frame and its raw bytes. -/
def Call.core : Call → Option Call
  | .pcapWrite _ => none
  | .printDump _ => none
  | .printPacketLine timeStr proto src dst info _ =>
      some (.printPacketLine timeStr proto src dst info 0)
  | .jsonWrite record => some (.jsonWrite { record with size := 0 })
  | .broadcast record _ => some (.broadcast { record with size := 0 } "")
  | .feed call => some (.feed call)
  | .printStream lines => some (.printStream lines)
  | .tlsParse payload => some (.tlsParse payload)
  | .httpDetect payload => some (.httpDetect payload)
  | .dnsParse payload => some (.dnsParse payload)

/-- The two evaluations differ at most in frame sizes and raw bytes. -/
abbrev SameDissection {α : Type} (x y : Act α) : Prop := AgreeOn Call.core x y

/-! ## The handlers -/

section

variable {out : Outputs} {r r' : Report} {tracker : Option TcpStreamTracker} {srcIp dstIp : String}
  {segment payload : List UInt8} {srcPort dstPort : UInt16} {e : ParseError}

theorem handleTcp_of_error (h : TcpHeader.parse segment = .ok (.error e)) :
    handleTcp out r srcIp dstIp segment = pure () := by
  simp only [handleTcp, h, lift_ok, pure_bind]

theorem handleTcp_of_ok {tcp : TcpHeader} (h : TcpHeader.parse segment = .ok (.ok (tcp, payload)))
    (hsrc : tcp.sourcePort = .ok srcPort) (hdst : tcp.destinationPort = .ok dstPort) :
    handleTcp out r srcIp dstIp segment = (do
      emit (tcpDetection dstPort payload)
      let i ← tcpInfo dstPort payload
      report out r i.protoColored i.infoColored (endpoint srcIp srcPort)
        (endpoint dstIp dstPort) i.infoRaw i.proto i.proto) := by
  simp only [handleTcp, h, hsrc, hdst, lift_ok, pure_bind]

theorem followTcp_of_error (h : TcpHeader.parse segment = .ok (.error e)) :
    followTcp out r tracker srcIp dstIp segment = pure tracker := by
  simp only [followTcp, h, handleTcp_of_error h, lift_ok, pure_bind]

theorem followTcp_of_ok {tcp : TcpHeader} (h : TcpHeader.parse segment = .ok (.ok (tcp, payload)))
    (hsrc : tcp.sourcePort = .ok srcPort) (hdst : tcp.destinationPort = .ok dstPort) :
    followTcp out r tracker srcIp dstIp segment = (do
      let tracker' ← feedTracker tracker
        { srcIp := srcIp, srcPort := srcPort, dstIp := dstIp, dstPort := dstPort,
          payload := payload }
      handleTcp out r srcIp dstIp segment
      return tracker') := by
  simp only [followTcp, h, hsrc, hdst, lift_ok, pure_bind]

theorem handleUdp_of_error (h : UdpHeader.parse segment = .ok (.error e)) :
    handleUdp out r srcIp dstIp segment = pure () := by
  simp only [handleUdp, h, lift_ok, pure_bind]

theorem handleUdp_of_ok {udp : UdpHeader} (h : UdpHeader.parse segment = .ok (.ok (udp, payload)))
    (hsrc : udp.sourcePort = .ok srcPort) (hdst : udp.destinationPort = .ok dstPort) :
    handleUdp out r srcIp dstIp segment = (do
      let i ← udpInfo srcPort dstPort payload
      report out r { text := Text.padRight 5 "UDP", styles := [.brightBlue, .bold] }
        i.infoColored (endpoint srcIp srcPort) (endpoint dstIp dstPort) i.infoRaw "UDP"
        (if i.isDns then "DNS" else "UDP")) := by
  simp only [handleUdp, h, hsrc, hdst, lift_ok, pure_bind]

variable {describe : IcmpHeader → Run String} {proto protoLog protoName infoRaw : String}

theorem handleIcmpWith_of_error (h : IcmpHeader.parse segment = .ok (.error e)) :
    handleIcmpWith describe proto protoLog protoName out r srcIp dstIp segment = pure () := by
  simp only [handleIcmpWith, h, lift_ok, pure_bind]

theorem handleIcmpWith_of_ok {icmp : IcmpHeader}
    (h : IcmpHeader.parse segment = .ok (.ok (icmp, payload)))
    (hdescribe : describe icmp = .ok infoRaw) :
    handleIcmpWith describe proto protoLog protoName out r srcIp dstIp segment =
      report out r { text := Text.padRight 5 proto, styles := [.brightRed, .bold] }
        { text := Text.padRight 35 infoRaw, styles := [.brightRed] } srcIp dstIp infoRaw
        protoLog protoName := by
  simp only [handleIcmpWith, h, hdescribe, lift_ok, pure_bind]

/-- Reports at the same time differ in sizes and raw bytes only. -/
theorem report_sameDissection (htime : r.timeStr = r'.timeStr) {protoColored info : ColoredString} :
    SameDissection (report out r protoColored info srcIp dstIp infoRaw protoLog protoName)
      (report out r' protoColored info srcIp dstIp infoRaw protoLog protoName) := by
  refine .bind (.emit (by simp [Call.core, htime])) ?_
  intro _
  refine .bind (.emitIf (by simp [Call.core, htime])) ?_
  intro _
  exact .emitIf (by simp [Call.core, htime])

/-! ## The packet -/

variable {packetData : List UInt8}

theorem printHexdump_result (showHexdump : Bool) :
    (printHexdump showHexdump packetData).result = .ok () := by
  rcases hexdump_returns packetData with ⟨dump, hdump⟩
  cases showHexdump with
  | true => simp [printHexdump, hdump]
  | false => rfl

theorem printHexdump_core (showHexdump : Bool) :
    ∀ c ∈ (printHexdump showHexdump packetData).trace, c.core = none := by
  rcases hexdump_returns packetData with ⟨dump, hdump⟩
  cases showHexdump with
  | true => simp [printHexdump, hdump, Call.core]
  | false => simp [printHexdump]

/-- The raw outputs before the analysis do not show. -/
theorem sameDissection_raw (out : Outputs) (packetData : List UInt8) {α : Type} (x : Act α) :
    SameDissection (do
      emitIf out.pcapWriter (.pcapWrite packetData)
      printHexdump out.showHexdump packetData
      x) x := by
  refine (AgreeOn.skip (result_emitIf _ _) ?_).trans ?_
  · cases out.pcapWriter <;> simp [Call.core]
  · exact AgreeOn.skip (printHexdump_result _) (printHexdump_core _)

variable {number : UInt8}

/-- An IPv4 packet is dispatched by its protocol number. -/
theorem processPacket_of_ipv4 {ip : Ipv4Header} {src dst : Ipv4Address}
    (h : CarriesIpv4 packetData ip segment) (hsrc : ip.source = .ok src)
    (hdst : ip.destination = .ok dst) (hnumber : ip.protocol = .ok number) (out : Outputs)
    (timeStr : String) (tracker : Option TcpStreamTracker) (size : Nat) :
    ∃ rawHex, processPacket out timeStr tracker packetData size = (do
      emitIf out.pcapWriter (.pcapWrite packetData)
      printHexdump out.showHexdump packetData
      dispatchIpv4 out { timeStr := timeStr, size := size, rawHex := rawHex } tracker
        src.display dst.display number segment) := by
  rcases h with ⟨eth, rest, heth, hethertype, hip⟩
  rcases toHexString_returns packetData with ⟨rawHex, hhex⟩
  exact ⟨rawHex, by simp only [processPacket, heth, hhex, hethertype, processIpv4, hip, hsrc, hdst,
    hnumber, lift_ok, pure_bind]⟩

/-- An IPv6 packet is dispatched by its next header; the tracker stays. -/
theorem processPacket_of_ipv6 {ip : Ipv6Header} {src dst : Ipv6Address}
    (h : CarriesIpv6 packetData ip segment) (hsrc : ip.source = .ok src)
    (hdst : ip.destination = .ok dst) (hnumber : ip.nextHeader = .ok number) (out : Outputs)
    (timeStr : String) (tracker : Option TcpStreamTracker) (size : Nat) :
    ∃ rawHex, processPacket out timeStr tracker packetData size = (do
      emitIf out.pcapWriter (.pcapWrite packetData)
      printHexdump out.showHexdump packetData
      dispatchIpv6 out { timeStr := timeStr, size := size, rawHex := rawHex } src.display
        dst.display number segment
      return tracker) := by
  rcases h with ⟨eth, rest, heth, hethertype, hip⟩
  rcases toHexString_returns packetData with ⟨rawHex, hhex⟩
  exact ⟨rawHex, by simp only [processPacket, heth, hhex, hethertype, processIpv6, hip, hsrc, hdst,
    hnumber, lift_ok, pure_bind]⟩

end

end NetZer

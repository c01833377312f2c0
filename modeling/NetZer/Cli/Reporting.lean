import NetZer.Cli.Families

/-! # What a frame is reported as

The handlers of `process_packet` end in the same three steps: the terminal
line, the JSON line and the broadcast. `frameReport` is what these say of a
frame, a function of the frame alone; the calls of `process_packet` that leave
the program are the raw outputs and the report of the frame, whatever the
tracker holds and flushes.
-/

namespace NetZer

open Rust Rust.Traced

/-- What a handler reports. -/
structure Reporting where
  proto : ColoredString
  info : ColoredString
  src : String
  dst : String
  infoRaw : String
  protoLog : String
  protoName : String
deriving DecidableEq, Repr

namespace Reporting

variable (g : Reporting) (out : Outputs) (r : Report)

/-- The arguments of `JsonWriter::write_packet`. -/
def jsonRecord (timeStr : String) (size : Nat) : Record :=
  { timestamp := timeStr, proto := g.protoLog, src := g.src, dst := g.dst, info := g.infoRaw,
    size := size }

/-- What the broadcast message says. -/
def webRecord (timeStr : String) (size : Nat) : Record :=
  { timestamp := timeStr, proto := g.protoName, src := g.src, dst := g.dst, info := g.infoRaw,
    size := size }

/-- The calls of `report`. -/
def calls : List Call :=
  [.printPacketLine r.timeStr g.proto g.src g.dst g.info r.size] ++
    (if out.jsonWriter then [.jsonWrite (g.jsonRecord r.timeStr r.size)] else []) ++
    (if out.webServer then [.broadcast (g.webRecord r.timeStr r.size) r.rawHex] else [])

end Reporting

/-! ## The report of a frame -/

def TcpInfo.reporting (i : TcpInfo) (src dst : String) : Reporting :=
  { proto := i.protoColored
    info := i.infoColored
    src := src
    dst := dst
    infoRaw := i.infoRaw
    protoLog := i.proto
    protoName := i.proto }

def tcpReport (srcIp dstIp : String) (segment : List UInt8) : Run (Option Reporting) := do
  match ← TcpHeader.parse segment with
  | .error _ => return none
  | .ok (tcpHeader, payload) =>
      let srcPort ← tcpHeader.sourcePort
      let dstPort ← tcpHeader.destinationPort
      let i ← tcpInfo dstPort payload
      return some (i.reporting (endpoint srcIp srcPort) (endpoint dstIp dstPort))

/-- `udpInfo` without the call it records. -/
def udpText (srcPort dstPort : UInt16) (payload : List UInt8) : Run UdpInfo :=
  if dstPort = 53 ∨ srcPort = 53 then dnsInfo payload
  else return { infoRaw := "-", isDns := false }

def UdpInfo.reporting (i : UdpInfo) (src dst : String) : Reporting :=
  { proto := { text := Text.padRight 5 "UDP", styles := [.brightBlue, .bold] }
    info := i.infoColored
    src := src
    dst := dst
    infoRaw := i.infoRaw
    protoLog := "UDP"
    protoName := if i.isDns then "DNS" else "UDP" }

def udpReport (srcIp dstIp : String) (segment : List UInt8) : Run (Option Reporting) := do
  match ← UdpHeader.parse segment with
  | .error _ => return none
  | .ok (udpHeader, payload) =>
      let srcPort ← udpHeader.sourcePort
      let dstPort ← udpHeader.destinationPort
      let i ← udpText srcPort dstPort payload
      return some (i.reporting (endpoint srcIp srcPort) (endpoint dstIp dstPort))

def icmpReporting (proto protoLog protoName src dst infoRaw : String) : Reporting :=
  { proto := { text := Text.padRight 5 proto, styles := [.brightRed, .bold] }
    info := { text := Text.padRight 35 infoRaw, styles := [.brightRed] }
    src := src
    dst := dst
    infoRaw := infoRaw
    protoLog := protoLog
    protoName := protoName }

def icmpReport (describe : IcmpHeader → Run String) (proto protoLog protoName : String)
    (srcIp dstIp : String) (segment : List UInt8) : Run (Option Reporting) := do
  match ← IcmpHeader.parse segment with
  | .error _ => return none
  | .ok (icmpHeader, _) =>
      return some (icmpReporting proto protoLog protoName srcIp dstIp (← describe icmpHeader))

def arpReporting (src dst infoRaw shown : String) : Reporting :=
  { proto := { text := Text.padRight 5 "ARP", styles := [.brightYellow, .bold] }
    info := { text := Text.padRight 35 shown, styles := [.brightYellow] }
    src := src
    dst := dst
    infoRaw := infoRaw
    protoLog := "ARP"
    protoName := "ARP" }

def arpReport (payload : List UInt8) : Run (Option Reporting) := do
  match ← ArpPacket.parse payload with
  | .error _ => return none
  | .ok arp =>
      let infoRaw ← describeArp arp
      let src := (← arp.senderMac).display
      let dst := (← arp.targetMac).display
      let shown ← truncate infoRaw 35
      return some (arpReporting src dst infoRaw shown)

def ipv4Report (srcIp dstIp : String) (protocol : UInt8) (segment : List UInt8) :
    Run (Option Reporting) :=
  if protocol = 6 then tcpReport srcIp dstIp segment
  else if protocol = 17 then udpReport srcIp dstIp segment
  else if protocol = 1 then icmpReport describeIcmp "ICMP" "ICMP" "ICMP" srcIp dstIp segment
  else return none

def ipv6Report (srcIp dstIp : String) (nextHeader : UInt8) (segment : List UInt8) :
    Run (Option Reporting) :=
  if nextHeader = 6 then tcpReport srcIp dstIp segment
  else if nextHeader = 17 then udpReport srcIp dstIp segment
  else if nextHeader = 58 then
    icmpReport describeIcmpv6 "ICMP6" "ICMPv6" "ICMP6" srcIp dstIp segment
  else return none

/-- What the frame is reported as, if it is. -/
def frameReport (packetData : List UInt8) : Run (Option Reporting) := do
  match ← EthernetFrame.parse packetData with
  | .error _ => return none
  | .ok (ethFrame, payload) =>
      match ← ethFrame.ethertype with
      | .ipv4 =>
          match ← Ipv4Header.parse payload with
          | .error _ => return none
          | .ok (ip, segment) =>
              ipv4Report (← ip.source).display (← ip.destination).display (← ip.protocol) segment
      | .ipv6 =>
          match ← Ipv6Header.parse payload with
          | .error _ => return none
          | .ok (ip, segment) =>
              ipv6Report (← ip.source).display (← ip.destination).display (← ip.nextHeader) segment
      | .arp => arpReport payload
      | .other _ => return none

/-- The calls a report makes. -/
def reportCalls (out : Outputs) (r : Report) : Run (Option Reporting) → List Call
  | .ok (some g) => g.calls out r
  | _ => []

/-! ## The output of the handlers -/

/-- A call that leaves the program with something said of the packet. -/
def Call.output : Call → Option Call
  | .pcapWrite data => some (.pcapWrite data)
  | .printDump dump => some (.printDump dump)
  | .printPacketLine timeStr proto src dst info size =>
      some (.printPacketLine timeStr proto src dst info size)
  | .jsonWrite record => some (.jsonWrite record)
  | .broadcast record rawHex => some (.broadcast record rawHex)
  | .feed _ | .printStream _ | .tlsParse _ | .httpDetect _ | .dnsParse _ => none

/-- What an evaluation puts out. -/
def outputs {α : Type} (x : Act α) : List Call :=
  x.trace.filterMap Call.output

section

variable {α β : Type} {out : Outputs} {r : Report} {srcIp dstIp : String}
  {segment payload : List UInt8}

theorem outputs_bind {x : Act α} {a : α} (h : x.result = .ok a) (f : α → Act β) :
    outputs (x >>= f) = outputs x ++ outputs (f a) := by
  rw [bind_of_ok h]
  exact List.filterMap_append

/-- What is told from the output alone. -/
theorem filterMap_outputs {γ : Type} (view : Call → Option γ)
    (hview : ∀ c : Call, c.output.bind view = view c) {x : Act α} :
    x.trace.filterMap view = (outputs x).filterMap view := by
  rw [outputs, List.filterMap_filterMap]
  exact List.filterMap_congr fun c _ => (hview c).symm

/-- A value returned behind an evaluation puts nothing out. -/
theorem outputs_seq (x : Act Unit) (a : α) : outputs (do x; return a) = outputs x := by
  rw [outputs, trace_seq, outputs]

theorem outputs_silent_bind {c : Call} (h : c.output = none) (f : Unit → Act β) :
    outputs (emit c >>= f) = outputs (f ()) := by
  simp only [outputs, trace_emit_bind, List.filterMap_cons, h]

theorem outputs_report (g : Reporting) :
    outputs (report out r g.proto g.info g.src g.dst g.infoRaw g.protoLog g.protoName) =
      g.calls out r := by
  simp only [outputs, report_trace, Reporting.calls, List.filterMap_append]
  cases out.jsonWriter <;> cases out.webServer <;> rfl

/-- What is computed first and then reported. -/
theorem outputs_lift_bind (x : Run β) {f : β → Act Unit} {g : β → Reporting}
    (hf : ∀ b, outputs (f b) = (g b).calls out r) :
    outputs ((liftM x : Act β) >>= f) = reportCalls out r (do return some (g (← x))) := by
  cases x with
  | error p => rfl
  | ok b => exact hf b

theorem handleTcp_outputs :
    outputs (handleTcp out r srcIp dstIp segment) =
      reportCalls out r (tcpReport srcIp dstIp segment) := by
  rcases TcpHeader.parse_returns segment with ⟨res, hparse⟩
  rcases res with e | ⟨tcp, payload⟩
  · rw [handleTcp_of_error hparse, tcpReport, hparse]
    rfl
  · rcases tcp.sourcePort_returns with ⟨srcPort, hsrc⟩
    rcases tcp.destinationPort_returns with ⟨dstPort, hdst⟩
    -- the detection is a call, but puts nothing out
    have hquiet : (tcpDetection dstPort payload).output = none := by
      unfold tcpDetection
      split <;> rfl
    rw [handleTcp_of_ok hparse hsrc hdst, outputs_silent_bind hquiet, tcpReport, hparse, ok_bind]
    simp only [hsrc, hdst, ok_bind]
    apply outputs_lift_bind
    intro i
    exact outputs_report (i.reporting _ _)

theorem handleUdp_outputs :
    outputs (handleUdp out r srcIp dstIp segment) =
      reportCalls out r (udpReport srcIp dstIp segment) := by
  rcases UdpHeader.parse_returns segment with ⟨res, hparse⟩
  rcases res with e | ⟨udp, payload⟩
  · rw [handleUdp_of_error hparse, udpReport, hparse]
    rfl
  · rcases udp.sourcePort_returns with ⟨srcPort, hsrc⟩
    rcases udp.destinationPort_returns with ⟨dstPort, hdst⟩
    rw [handleUdp_of_ok hparse hsrc hdst, udpReport, hparse, ok_bind]
    simp only [hsrc, hdst, ok_bind, udpInfo, udpText]
    by_cases hport : dstPort = 53 ∨ srcPort = 53
    · simp only [hport, if_true, bind_assoc]
      rw [outputs_silent_bind rfl]
      apply outputs_lift_bind
      intro i
      exact outputs_report (i.reporting _ _)
    · simp only [hport, if_false, pure_bind]
      exact outputs_report (UdpInfo.reporting ⟨"-", false⟩ _ _)

theorem handleIcmpWith_outputs {describe : IcmpHeader → Run String}
    {proto protoLog protoName : String} :
    outputs (handleIcmpWith describe proto protoLog protoName out r srcIp dstIp segment) =
      reportCalls out r (icmpReport describe proto protoLog protoName srcIp dstIp segment) := by
  rcases IcmpHeader.parse_returns segment with ⟨res, hparse⟩
  rcases res with e | ⟨icmp, payload⟩
  · rw [handleIcmpWith_of_error hparse, icmpReport, hparse]
    rfl
  · simp only [handleIcmpWith, icmpReport, hparse, lift_ok, pure_bind, ok_bind]
    apply outputs_lift_bind
    intro infoRaw
    exact outputs_report (icmpReporting proto protoLog protoName srcIp dstIp infoRaw)

theorem handleArp_outputs :
    outputs (handleArp out r payload) = reportCalls out r (arpReport payload) := by
  rcases ArpPacket.parse_returns payload with ⟨res, hparse⟩
  rcases res with e | arp
  · simp only [handleArp, arpReport, hparse, lift_ok, pure_bind, ok_bind]
    rfl
  · rcases arp.senderMac_returns with ⟨smac, hsmac⟩
    rcases arp.targetMac_returns with ⟨tmac, htmac⟩
    simp only [handleArp, arpReport, hparse, hsmac, htmac, lift_ok, pure_bind, ok_bind]
    cases describeArp arp with
    | error p => rfl
    | ok infoRaw =>
        simp only [lift_ok, pure_bind, ok_bind]
        apply outputs_lift_bind
        intro shown
        exact outputs_report (arpReporting _ _ infoRaw shown)

/-! ## The output of a packet -/

variable {tracker : Option TcpStreamTracker}

/-- Feeding the tracker returns, and prints no report. -/
theorem feedTracker_silent (tracker : Option TcpStreamTracker) (call : FeedCall) :
    ∃ tracker', (feedTracker tracker call).result = .ok tracker' ∧
      outputs (feedTracker tracker call) = [] := by
  cases tracker with
  | none => exact ⟨none, rfl, rfl⟩
  | some t =>
      refine ⟨some (t.feed call).1, ?_, ?_⟩
      · simp only [feedTracker, printFlush_eq, result_emit_bind]
        rfl
      · have hfeed : (Call.feed call).output = none := rfl
        simp only [feedTracker, outputs_silent_bind hfeed, printFlush_eq]
        rw [outputs_bind rfl]
        cases (t.feed call).2 <;> rfl

theorem followTcp_outputs :
    outputs (followTcp out r tracker srcIp dstIp segment) =
      reportCalls out r (tcpReport srcIp dstIp segment) := by
  rcases TcpHeader.parse_returns segment with ⟨res, hparse⟩
  rcases res with e | ⟨tcp, payload⟩
  · rw [followTcp_of_error hparse, tcpReport, hparse]
    rfl
  · rcases tcp.sourcePort_returns with ⟨srcPort, hsrc⟩
    rcases tcp.destinationPort_returns with ⟨dstPort, hdst⟩
    rcases feedTracker_silent tracker ⟨srcIp, srcPort, dstIp, dstPort, payload⟩ with
      ⟨tracker', hfed, hsilent⟩
    rw [followTcp_of_ok hparse hsrc hdst, outputs_bind hfed, hsilent, List.nil_append,
      outputs_seq, handleTcp_outputs]

theorem dispatchIpv4_outputs (protocol : UInt8) :
    outputs (dispatchIpv4 out r tracker srcIp dstIp protocol segment) =
      reportCalls out r (ipv4Report srcIp dstIp protocol segment) := by
  unfold dispatchIpv4 ipv4Report
  split_ifs
  · exact followTcp_outputs
  · rw [outputs_seq, handleUdp_outputs]
  · rw [outputs_seq, handleIcmp, handleIcmpWith_outputs]
  · rfl

theorem dispatchIpv6_outputs (nextHeader : UInt8) :
    outputs (dispatchIpv6 out r srcIp dstIp nextHeader segment) =
      reportCalls out r (ipv6Report srcIp dstIp nextHeader segment) := by
  unfold dispatchIpv6 ipv6Report
  split_ifs
  · exact handleTcp_outputs
  · exact handleUdp_outputs
  · exact handleIcmpWith_outputs
  · rfl

theorem processIpv4_outputs :
    outputs (processIpv4 out r tracker payload) =
      reportCalls out r (do
        match ← Ipv4Header.parse payload with
        | .error _ => return none
        | .ok (ip, segment) =>
            ipv4Report (← ip.source).display (← ip.destination).display (← ip.protocol)
              segment) := by
  rcases Ipv4Header.parse_returns payload with ⟨res, hparse⟩
  rcases res with e | ⟨ip, segment⟩
  · simp only [processIpv4, hparse, lift_ok, pure_bind, ok_bind]
    rfl
  · rcases ip.source_returns with ⟨src, hsrc⟩
    rcases ip.destination_returns with ⟨dst, hdst⟩
    rcases ip.protocol_returns with ⟨number, hnumber⟩
    simp only [processIpv4, hparse, hsrc, hdst, hnumber, lift_ok, pure_bind, ok_bind]
    exact dispatchIpv4_outputs number

theorem processIpv6_outputs :
    outputs (processIpv6 out r payload) =
      reportCalls out r (do
        match ← Ipv6Header.parse payload with
        | .error _ => return none
        | .ok (ip, segment) =>
            ipv6Report (← ip.source).display (← ip.destination).display (← ip.nextHeader)
              segment) := by
  rcases Ipv6Header.parse_returns payload with ⟨res, hparse⟩
  rcases res with e | ⟨ip, segment⟩
  · simp only [processIpv6, hparse, lift_ok, pure_bind, ok_bind]
    rfl
  · rcases ip.source_returns with ⟨src, hsrc⟩
    rcases ip.destination_returns with ⟨dst, hdst⟩
    rcases ip.nextHeader_returns with ⟨number, hnumber⟩
    simp only [processIpv6, hparse, hsrc, hdst, hnumber, lift_ok, pure_bind, ok_bind]
    exact dispatchIpv6_outputs number

/-- A frame is put out raw, as the options say, and then reported. -/
theorem processPacket_outputs (out : Outputs) (timeStr : String)
    (tracker : Option TcpStreamTracker) (packetData : List UInt8) (size : Nat) :
    ∃ rawHex, toHexString packetData = .ok rawHex ∧
      outputs (processPacket out timeStr tracker packetData size) =
        (if out.pcapWriter then [.pcapWrite packetData] else []) ++
        outputs (printHexdump out.showHexdump packetData) ++
        reportCalls out ⟨timeStr, size, rawHex⟩ (frameReport packetData) := by
  rcases toHexString_returns packetData with ⟨rawHex, hhex⟩
  refine ⟨rawHex, hhex, ?_⟩
  have hpcap : outputs (emitIf out.pcapWriter (.pcapWrite packetData) : Act Unit) =
      if out.pcapWriter then [.pcapWrite packetData] else [] := by
    cases out.pcapWriter <;> rfl
  unfold processPacket
  rw [outputs_bind (result_emitIf _ _), hpcap, List.append_assoc,
    outputs_bind (printHexdump_result _)]
  congr 2
  -- behind the raw outputs both follow the same parsers
  rcases EthernetFrame.parse_returns packetData with ⟨res, hparse⟩
  rcases res with e | ⟨eth, payload⟩
  · simp only [frameReport, hparse, lift_ok, pure_bind, ok_bind]
    rfl
  · rcases eth.ethertype_returns with ⟨ethertype, htype⟩
    simp only [frameReport, hparse, hhex, htype, lift_ok, pure_bind, ok_bind]
    cases ethertype with
    | ipv4 => exact processIpv4_outputs
    | ipv6 =>
        rw [outputs_seq]
        exact processIpv6_outputs
    | arp =>
        rw [outputs_seq]
        exact handleArp_outputs
    | other val => rfl

end

end NetZer

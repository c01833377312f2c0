import NetZer.Cli.Reporting

/-! # Which frames are reported as what

The report of a frame, by what the frame carries: one case for each handler
and one for the frames none of them reports. Everything that is to be known of
a report is read off these cases.
-/

namespace NetZer

open Rust

/-- The datagram's ports and payload, as `UdpHeader` reads them. -/
structure UdpSegment (segment : List UInt8) (srcPort dstPort : UInt16) (payload : List UInt8) :
    Prop where
  parse : ∃ udp, UdpHeader.parse segment = .ok (.ok (udp, payload)) ∧
    udp.sourcePort = .ok srcPort ∧ udp.destinationPort = .ok dstPort

/-- The text of an address. -/
inductive AddressText : String → Prop where
  | v4 (a : Ipv4Address) : AddressText a.display
  | v6 (a : Ipv6Address) : AddressText a.display
  | mac (a : MacAddress) : AddressText a.display

/-- A frame and its report. -/
inductive FrameCase (frame : List UInt8) : Run (Option Reporting) → Prop where
  /-- Nothing is reported. -/
  | silent : FrameCase frame (.ok none)
  | tcp {segment payload : List UInt8} {srcPort dstPort : UInt16} {srcIp dstIp : String} :
      CarriesSegment frame 6 segment → TcpSegment segment srcPort dstPort payload →
      AddressText srcIp → AddressText dstIp →
      FrameCase frame (do
        return some ((← tcpInfo dstPort payload).reporting (endpoint srcIp srcPort)
          (endpoint dstIp dstPort)))
  | udp {segment payload : List UInt8} {srcPort dstPort : UInt16} {srcIp dstIp : String} :
      CarriesSegment frame 17 segment → UdpSegment segment srcPort dstPort payload →
      AddressText srcIp → AddressText dstIp →
      FrameCase frame (do
        return some ((← udpText srcPort dstPort payload).reporting (endpoint srcIp srcPort)
          (endpoint dstIp dstPort)))
  | icmp (icmp : IcmpHeader) {srcIp dstIp : String} : AddressText srcIp → AddressText dstIp →
      FrameCase frame (do
        return some (icmpReporting "ICMP" "ICMP" "ICMP" srcIp dstIp (← describeIcmp icmp)))
  | icmpv6 {ip : Ipv6Header} {segment rest : List UInt8} {icmp : IcmpHeader}
      {srcIp dstIp : String} :
      CarriesIpv6 frame ip segment → ip.nextHeader = .ok 58 →
      IcmpHeader.parse segment = .ok (.ok (icmp, rest)) → AddressText srcIp → AddressText dstIp →
      FrameCase frame (do
        return some (icmpReporting "ICMP6" "ICMPv6" "ICMP6" srcIp dstIp (← describeIcmpv6 icmp)))
  | arp (arp : ArpPacket) {src dst : String} : AddressText src → AddressText dst →
      FrameCase frame (do
        let infoRaw ← describeArp arp
        return some (arpReporting src dst infoRaw (← truncate infoRaw 35)))

/-- What a case that reports something has computed. -/
theorem returned_some {β : Type} {x : Run β} {f : β → Reporting} {g : Reporting}
    (h : (do return some (f (← x))) = (.ok (some g) : Run (Option Reporting))) :
    ∃ b, x = .ok b ∧ g = f b := by
  rcases bind_eq_ok.mp h with ⟨b, hb, hg⟩
  have hsome : some (f b) = some g := Except.ok.inj hg
  exact ⟨b, hb, (Option.some.inj hsome).symm⟩

/-! ## The handlers -/

section

variable {frame segment payload : List UInt8} {srcPort dstPort number : UInt16}
  {srcIp dstIp : String}

theorem tcpReport_of_segment (h : TcpSegment segment srcPort dstPort payload) :
    tcpReport srcIp dstIp segment = (do
      return some ((← tcpInfo dstPort payload).reporting (endpoint srcIp srcPort)
        (endpoint dstIp dstPort))) := by
  rcases h.parse with ⟨tcp, hparse, hsrc, hdst⟩
  simp only [tcpReport, hparse, hsrc, hdst, ok_bind]

theorem udpReport_of_segment (h : UdpSegment segment srcPort dstPort payload) :
    udpReport srcIp dstIp segment = (do
      return some ((← udpText srcPort dstPort payload).reporting (endpoint srcIp srcPort)
        (endpoint dstIp dstPort))) := by
  rcases h.parse with ⟨udp, hparse, hsrc, hdst⟩
  simp only [udpReport, hparse, hsrc, hdst, ok_bind]

/-- A segment that is no TCP segment is not reported as one. -/
theorem tcpReport_cases (srcIp dstIp : String) (segment : List UInt8) :
    tcpReport srcIp dstIp segment = .ok none ∨
      ∃ srcPort dstPort payload, TcpSegment segment srcPort dstPort payload := by
  rcases TcpHeader.parse_returns segment with ⟨res, hparse⟩
  rcases res with e | ⟨tcp, payload⟩
  · left
    rw [tcpReport, hparse]
    rfl
  · right
    rcases tcp.sourcePort_returns with ⟨srcPort, hsrc⟩
    rcases tcp.destinationPort_returns with ⟨dstPort, hdst⟩
    exact ⟨srcPort, dstPort, payload, ⟨tcp, hparse, hsrc, hdst⟩⟩

theorem udpReport_cases (srcIp dstIp : String) (segment : List UInt8) :
    udpReport srcIp dstIp segment = .ok none ∨
      ∃ srcPort dstPort payload, UdpSegment segment srcPort dstPort payload := by
  rcases UdpHeader.parse_returns segment with ⟨res, hparse⟩
  rcases res with e | ⟨udp, payload⟩
  · left
    rw [udpReport, hparse]
    rfl
  · right
    rcases udp.sourcePort_returns with ⟨srcPort, hsrc⟩
    rcases udp.destinationPort_returns with ⟨dstPort, hdst⟩
    exact ⟨srcPort, dstPort, payload, ⟨udp, hparse, hsrc, hdst⟩⟩

theorem icmpReport_cases (describe : IcmpHeader → Run String)
    (proto protoLog protoName srcIp dstIp : String) (segment : List UInt8) :
    icmpReport describe proto protoLog protoName srcIp dstIp segment = .ok none ∨
      ∃ icmp rest, IcmpHeader.parse segment = .ok (.ok (icmp, rest)) ∧
        icmpReport describe proto protoLog protoName srcIp dstIp segment = (do
          return some
            (icmpReporting proto protoLog protoName srcIp dstIp (← describe icmp))) := by
  rcases IcmpHeader.parse_returns segment with ⟨res, hparse⟩
  rcases res with e | ⟨icmp, rest⟩
  · left
    rw [icmpReport, hparse]
    rfl
  · right
    exact ⟨icmp, rest, hparse, by simp only [icmpReport, hparse, ok_bind]⟩

/-! ## The layers below -/

/-- The report of an IPv4 datagram is that of its segment. -/
theorem frameReport_of_ipv4 {ip : Ipv4Header} {src dst : Ipv4Address} {number : UInt8}
    (h : CarriesIpv4 frame ip segment) (hsrc : ip.source = .ok src)
    (hdst : ip.destination = .ok dst) (hnumber : ip.protocol = .ok number) :
    frameReport frame = ipv4Report src.display dst.display number segment := by
  rcases h with ⟨eth, rest, heth, htype, hip⟩
  simp only [frameReport, heth, htype, hip, hsrc, hdst, hnumber, ok_bind]

theorem frameReport_of_ipv6 {ip : Ipv6Header} {src dst : Ipv6Address} {number : UInt8}
    (h : CarriesIpv6 frame ip segment) (hsrc : ip.source = .ok src)
    (hdst : ip.destination = .ok dst) (hnumber : ip.nextHeader = .ok number) :
    frameReport frame = ipv6Report src.display dst.display number segment := by
  rcases h with ⟨eth, rest, heth, htype, hip⟩
  simp only [frameReport, heth, htype, hip, hsrc, hdst, hnumber, ok_bind]

theorem frameReport_of_segment {number : UInt8} (h : CarriesSegment frame number segment) :
    ∃ srcIp dstIp, AddressText srcIp ∧ AddressText dstIp ∧
      (frameReport frame = ipv4Report srcIp dstIp number segment ∨
        frameReport frame = ipv6Report srcIp dstIp number segment) := by
  rcases h with ⟨ip, hcarries, hnumber⟩ | ⟨ip, hcarries, hnumber⟩
  · rcases ip.source_returns with ⟨src, hsrc⟩
    rcases ip.destination_returns with ⟨dst, hdst⟩
    have hreport := frameReport_of_ipv4 hcarries hsrc hdst hnumber
    exact ⟨src.display, dst.display, .v4 src, .v4 dst, Or.inl hreport⟩
  · rcases ip.source_returns with ⟨src, hsrc⟩
    rcases ip.destination_returns with ⟨dst, hdst⟩
    have hreport := frameReport_of_ipv6 hcarries hsrc hdst hnumber
    exact ⟨src.display, dst.display, .v6 src, .v6 dst, Or.inr hreport⟩

/-- A TCP segment is reported alike over both versions of IP. -/
theorem frameReport_of_tcp (h : CarriesSegment frame 6 segment) :
    ∃ srcIp dstIp, AddressText srcIp ∧ AddressText dstIp ∧
      frameReport frame = tcpReport srcIp dstIp segment := by
  rcases frameReport_of_segment h with ⟨srcIp, dstIp, hsrc, hdst, hreport | hreport⟩
  · exact ⟨srcIp, dstIp, hsrc, hdst, hreport⟩
  · exact ⟨srcIp, dstIp, hsrc, hdst, hreport⟩

/-- So is a UDP datagram. -/
theorem frameReport_of_udp (h : CarriesSegment frame 17 segment) :
    ∃ srcIp dstIp, AddressText srcIp ∧ AddressText dstIp ∧
      frameReport frame = udpReport srcIp dstIp segment := by
  rcases frameReport_of_segment h with ⟨srcIp, dstIp, hsrc, hdst, hreport | hreport⟩
  · exact ⟨srcIp, dstIp, hsrc, hdst, hreport⟩
  · exact ⟨srcIp, dstIp, hsrc, hdst, hreport⟩

/-! ## The cases -/

theorem tcpCase (h : CarriesSegment frame 6 segment) (hsrc : AddressText srcIp)
    (hdst : AddressText dstIp) : FrameCase frame (tcpReport srcIp dstIp segment) := by
  rcases tcpReport_cases srcIp dstIp segment with hnone | ⟨srcPort, dstPort, payload, hseg⟩
  · rw [hnone]
    exact .silent
  · rw [tcpReport_of_segment hseg]
    exact .tcp h hseg hsrc hdst

theorem udpCase (h : CarriesSegment frame 17 segment) (hsrc : AddressText srcIp)
    (hdst : AddressText dstIp) : FrameCase frame (udpReport srcIp dstIp segment) := by
  rcases udpReport_cases srcIp dstIp segment with hnone | ⟨srcPort, dstPort, payload, hseg⟩
  · rw [hnone]
    exact .silent
  · rw [udpReport_of_segment hseg]
    exact .udp h hseg hsrc hdst

theorem ipv4Case {ip : Ipv4Header} {number : UInt8} (h : CarriesIpv4 frame ip segment)
    (hnumber : ip.protocol = .ok number) (hsrc : AddressText srcIp) (hdst : AddressText dstIp) :
    FrameCase frame (ipv4Report srcIp dstIp number segment) := by
  unfold ipv4Report
  split_ifs with h6 h17 h1
  · exact tcpCase (.v4 ip h (h6 ▸ hnumber)) hsrc hdst
  · exact udpCase (.v4 ip h (h17 ▸ hnumber)) hsrc hdst
  · rcases icmpReport_cases describeIcmp "ICMP" "ICMP" "ICMP" srcIp dstIp segment with
      hnone | ⟨icmp, rest, _, hreport⟩
    · rw [hnone]
      exact .silent
    · rw [hreport]
      exact .icmp icmp hsrc hdst
  · exact .silent

theorem ipv6Case {ip : Ipv6Header} {number : UInt8} (h : CarriesIpv6 frame ip segment)
    (hnumber : ip.nextHeader = .ok number) (hsrc : AddressText srcIp)
    (hdst : AddressText dstIp) : FrameCase frame (ipv6Report srcIp dstIp number segment) := by
  unfold ipv6Report
  split_ifs with h6 h17 h58
  · exact tcpCase (.v6 ip h (h6 ▸ hnumber)) hsrc hdst
  · exact udpCase (.v6 ip h (h17 ▸ hnumber)) hsrc hdst
  · rcases icmpReport_cases describeIcmpv6 "ICMP6" "ICMPv6" "ICMP6" srcIp dstIp segment with
      hnone | ⟨icmp, rest, hparse, hreport⟩
    · rw [hnone]
      exact .silent
    · rw [hreport]
      exact .icmpv6 h (h58 ▸ hnumber) hparse hsrc hdst
  · exact .silent

theorem arpCase (payload : List UInt8) : FrameCase frame (arpReport payload) := by
  rcases ArpPacket.parse_returns payload with ⟨res, hparse⟩
  rcases res with e | arp
  · rw [arpReport, hparse]
    exact .silent
  · rcases arp.senderMac_returns with ⟨smac, hsmac⟩
    rcases arp.targetMac_returns with ⟨tmac, htmac⟩
    simp only [arpReport, hparse, hsmac, htmac, ok_bind]
    exact .arp arp (.mac smac) (.mac tmac)

/-- Every frame is one of the cases. -/
theorem frameReport_case (frame : List UInt8) : FrameCase frame (frameReport frame) := by
  rcases EthernetFrame.parse_returns frame with ⟨res, heth⟩
  rcases res with e | ⟨eth, payload⟩
  · rw [frameReport, heth]
    exact .silent
  rcases eth.ethertype_returns with ⟨ethertype, htype⟩
  -- as the parsers go on: what fails on the way is not reported
  cases ethertype with
  | ipv4 =>
      rcases Ipv4Header.parse_returns payload with ⟨res, hip⟩
      rcases res with e | ⟨ip, segment⟩
      · simp only [frameReport, heth, htype, hip, ok_bind]
        exact .silent
      · rcases ip.source_returns with ⟨src, hsrc⟩
        rcases ip.destination_returns with ⟨dst, hdst⟩
        rcases ip.protocol_returns with ⟨number, hnumber⟩
        have hcarries : CarriesIpv4 frame ip segment := ⟨eth, payload, heth, htype, hip⟩
        rw [frameReport_of_ipv4 hcarries hsrc hdst hnumber]
        exact ipv4Case hcarries hnumber (.v4 src) (.v4 dst)
  | ipv6 =>
      rcases Ipv6Header.parse_returns payload with ⟨res, hip⟩
      rcases res with e | ⟨ip, segment⟩
      · simp only [frameReport, heth, htype, hip, ok_bind]
        exact .silent
      · rcases ip.source_returns with ⟨src, hsrc⟩
        rcases ip.destination_returns with ⟨dst, hdst⟩
        rcases ip.nextHeader_returns with ⟨number, hnumber⟩
        have hcarries : CarriesIpv6 frame ip segment := ⟨eth, payload, heth, htype, hip⟩
        rw [frameReport_of_ipv6 hcarries hsrc hdst hnumber]
        exact ipv6Case hcarries hnumber (.v6 src) (.v6 dst)
  | arp =>
      simp only [frameReport, heth, htype, ok_bind]
      exact arpCase payload
  | other val =>
      simp only [frameReport, heth, htype, ok_bind]
      exact .silent

end

end NetZer

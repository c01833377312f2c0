import NetZer.Cli.Capture
import NetZer.Cli.FrameCases

/-! # Where a packet goes and which domain it names

Both are read off the frame alone: the destination of its IP datagram, and the
name in a ClientHello or a DNS query. The report of the frame says the first
before a port or on its own, and the second behind a prefix or on its own.
-/

namespace NetZer

open Rust Text

/-- A network address. -/
inductive NetAddress where
  | v4 (a : Ipv4Address)
  | v6 (a : Ipv6Address)
deriving DecidableEq

def NetAddress.display : NetAddress → String
  | .v4 a => a.display
  | .v6 a => a.display

/-- An IP datagram: its destination, the protocol it carries and its segment. -/
structure Datagram where
  dst : NetAddress
  number : UInt8
  segment : List UInt8
deriving DecidableEq

/-- The datagram in a frame. -/
def datagram (frame : List UInt8) : Run (Option Datagram) := do
  match ← EthernetFrame.parse frame with
  | .error _ => return none
  | .ok (eth, payload) =>
      match ← eth.ethertype with
      | .ipv4 =>
          match ← Ipv4Header.parse payload with
          | .error _ => return none
          | .ok (ip, segment) =>
              return some ⟨.v4 (← ip.destination), ← ip.protocol, segment⟩
      | .ipv6 =>
          match ← Ipv6Header.parse payload with
          | .error _ => return none
          | .ok (ip, segment) =>
              return some ⟨.v6 (← ip.destination), ← ip.nextHeader, segment⟩
      | _ => return none

/-- The name in a ClientHello to port 443, as far as it is shown. -/
def Datagram.tlsDomain (d : Datagram) : Run (Option String) := do
  if d.number ≠ 6 then return none
  match ← TcpHeader.parse d.segment with
  | .error _ => return none
  | .ok (tcp, payload) =>
      if (← tcp.destinationPort) ≠ 443 then return none
      match ← TlsClientHello.parse payload with
      | .error _ => return none
      | .ok tls => return some (← truncate tls.sni 35)

/-- The name in a DNS query from or to port 53, as far as it is shown. -/
def Datagram.dnsDomain (d : Datagram) : Run (Option String) := do
  if d.number ≠ 17 then return none
  match ← UdpHeader.parse d.segment with
  | .error _ => return none
  | .ok (udp, payload) =>
      if (← udp.destinationPort) ≠ 53 ∧ (← udp.sourcePort) ≠ 53 then return none
      match ← DnsQuery.parse payload with
      | .error _ => return none
      | .ok dns => return some (← truncate dns.domainName 30)

namespace Packet

def datagram (p : Packet) : Option Datagram :=
  (NetZer.datagram p.frame).toOption.join

def destination (p : Packet) : Option NetAddress :=
  p.datagram.map Datagram.dst

def tlsDomain (p : Packet) : Option String :=
  p.datagram.bind fun d => d.tlsDomain.toOption.join

def dnsDomain (p : Packet) : Option String :=
  p.datagram.bind fun d => d.dnsDomain.toOption.join

/-- The domain a packet carries. -/
def domain (p : Packet) : Option String :=
  p.tlsDomain.or p.dnsDomain

end Packet

/-! ## What the report says of them -/

/-- A datagram, or none, and the report of its frame. -/
inductive DatagramCase : Option Datagram → Run (Option Reporting) → Prop where
  | v4 (srcIp : String) (dst : Ipv4Address) (number : UInt8) (segment : List UInt8) :
      DatagramCase (some ⟨.v4 dst, number, segment⟩)
        (ipv4Report srcIp dst.display number segment)
  | v6 (srcIp : String) (dst : Ipv6Address) (number : UInt8) (segment : List UInt8) :
      DatagramCase (some ⟨.v6 dst, number, segment⟩)
        (ipv6Report srcIp dst.display number segment)
  | arp (payload : List UInt8) : DatagramCase none (arpReport payload)
  | silent : DatagramCase none (.ok none)

theorem datagram_case (frame : List UInt8) :
    ∃ d, datagram frame = .ok d ∧ DatagramCase d (frameReport frame) := by
  obtain ⟨res, heth⟩ := EthernetFrame.parse_returns frame
  obtain e | ⟨eth, payload⟩ := res
  · refine ⟨none, ?_, ?_⟩
    · rw [datagram, heth]
      rfl
    · rw [frameReport, heth]
      exact .silent
  obtain ⟨ethertype, htype⟩ := eth.ethertype_returns
  -- both read the same headers, and give up at the same ones
  cases ethertype with
  | ipv4 =>
      obtain ⟨res, hip⟩ := Ipv4Header.parse_returns payload
      obtain e | ⟨ip, segment⟩ := res
      · simp only [datagram, frameReport, heth, htype, hip, ok_bind]
        exact ⟨none, rfl, .silent⟩
      · obtain ⟨src, hsrc⟩ := ip.source_returns
        obtain ⟨dst, hdst⟩ := ip.destination_returns
        obtain ⟨number, hnumber⟩ := ip.protocol_returns
        simp only [datagram, frameReport, heth, htype, hip, hsrc, hdst, hnumber, ok_bind]
        exact ⟨_, rfl, .v4 src.display dst number segment⟩
  | ipv6 =>
      obtain ⟨res, hip⟩ := Ipv6Header.parse_returns payload
      obtain e | ⟨ip, segment⟩ := res
      · simp only [datagram, frameReport, heth, htype, hip, ok_bind]
        exact ⟨none, rfl, .silent⟩
      · obtain ⟨src, hsrc⟩ := ip.source_returns
        obtain ⟨dst, hdst⟩ := ip.destination_returns
        obtain ⟨number, hnumber⟩ := ip.nextHeader_returns
        simp only [datagram, frameReport, heth, htype, hip, hsrc, hdst, hnumber, ok_bind]
        exact ⟨_, rfl, .v6 src.display dst number segment⟩
  | arp =>
      simp only [datagram, frameReport, heth, htype, ok_bind]
      exact ⟨none, rfl, .arp payload⟩
  | other val =>
      simp only [datagram, frameReport, heth, htype, ok_bind]
      exact ⟨none, rfl, .silent⟩

/-! ## Addresses as texts -/

/-- A text of at least two parts has a separator. -/
theorem mem_intercalate (c : Char) (s t : String) (l : List String) :
    c ∈ ((String.singleton c).intercalate (s :: t :: l)).toList := by
  rw [String.intercalate_cons_cons]
  simp

theorem Ipv4Address.display_injective : Function.Injective Ipv4Address.display := by
  have hdot : ∀ a : Ipv4Address, ∀ s ∈ a.octets.toList.map fun b => toString b.toNat,
      '.' ∉ s.toList := by
    intro a s hs hmem
    obtain ⟨b, -, rfl⟩ := List.mem_map.mp hs
    have havoids : Avoids (· == '.') (toString b.toNat) := avoids_decimal (by decide) b.toNat
    exact absurd (havoids '.' hmem) (by decide)
  have hne : ∀ a : Ipv4Address, (a.octets.toList.map fun b => toString b.toNat) ≠ [] := by
    intro a hnil
    have hlen := congrArg List.length hnil
    simp at hlen
  intro a b h
  have hparts := intercalate_inj (hne a) (hne b) (hdot a) (hdot b) h
  have hbytes : Function.Injective fun b : UInt8 => toString b.toNat := fun x y hxy =>
    UInt8.toNat_inj.mp (toString_injective hxy)
  have hoctets : a.octets = b.octets :=
    Vector.toList_inj.mp (List.map_injective_iff.mpr hbytes hparts)
  exact congrArg Ipv4Address.mk hoctets

theorem Ipv4Address.dot_mem_display (a : Ipv4Address) : '.' ∈ a.display.toList := by
  obtain ⟨⟨⟨l⟩, hl⟩⟩ := a
  match l, hl with
  | b :: b' :: rest, _ => exact mem_intercalate '.' _ _ _

theorem Ipv6Address.colon_mem_display (a : Ipv6Address) : ':' ∈ a.display.toList := by
  obtain ⟨⟨⟨l⟩, hl⟩⟩ := a
  match l, hl with
  | b :: b' :: c :: c' :: rest, _ => exact mem_intercalate ':' _ _ _

theorem Ipv4Address.colon_not_mem_display (a : Ipv4Address) : ':' ∉ a.display.toList := by
  have havoids : Avoids (· == ':') a.display := by
    rw [display, avoids_intercalate (by decide), List.forall_mem_map]
    intro b _
    exact avoids_decimal (by decide) b.toNat
  intro hmem
  exact absurd (havoids ':' hmem) (by decide)

theorem MacAddress.dot_not_mem_display (a : MacAddress) : '.' ∉ a.display.toList := by
  have havoids : Avoids (· == '.') a.display := by
    rw [display, avoids_intercalate (by decide), List.forall_mem_map]
    intro b _
    exact avoids_leftpad (by decide) (by decide) 2 b.toNat
  intro hmem
  exact absurd (havoids '.' hmem) (by decide)

/-- The address, alone or with a port. -/
inductive Endpoint (ip : String) : String → Prop where
  | bare : Endpoint ip ip
  | port (port : UInt16) : Endpoint ip (endpoint ip port)

section

variable {srcIp dstIp : String} {segment : List UInt8} {number : UInt8} {g : Reporting}

theorem tcpReport_dst (h : tcpReport srcIp dstIp segment = .ok (some g)) :
    Endpoint dstIp g.dst := by
  obtain hnone | ⟨srcPort, dstPort, payload, hseg⟩ := tcpReport_cases srcIp dstIp segment
  · rw [hnone] at h
    cases h
  · rw [tcpReport_of_segment hseg] at h
    obtain ⟨i, -, rfl⟩ := returned_some h
    exact .port dstPort

theorem udpReport_dst (h : udpReport srcIp dstIp segment = .ok (some g)) :
    Endpoint dstIp g.dst := by
  obtain hnone | ⟨srcPort, dstPort, payload, hseg⟩ := udpReport_cases srcIp dstIp segment
  · rw [hnone] at h
    cases h
  · rw [udpReport_of_segment hseg] at h
    obtain ⟨i, -, rfl⟩ := returned_some h
    exact .port dstPort

theorem icmpReport_dst {describe : IcmpHeader → Run String} {proto protoLog protoName : String}
    (h : icmpReport describe proto protoLog protoName srcIp dstIp segment = .ok (some g)) :
    Endpoint dstIp g.dst := by
  obtain hnone | ⟨icmp, rest, -, hreport⟩ :=
    icmpReport_cases describe proto protoLog protoName srcIp dstIp segment
  · rw [hnone] at h
    cases h
  · rw [hreport] at h
    obtain ⟨infoRaw, -, rfl⟩ := returned_some h
    exact .bare

theorem ipv4Report_dst (h : ipv4Report srcIp dstIp number segment = .ok (some g)) :
    Endpoint dstIp g.dst := by
  unfold ipv4Report at h
  split_ifs at h
  · exact tcpReport_dst h
  · exact udpReport_dst h
  · exact icmpReport_dst h
  · cases h

theorem ipv6Report_dst (h : ipv6Report srcIp dstIp number segment = .ok (some g)) :
    Endpoint dstIp g.dst := by
  unfold ipv6Report at h
  split_ifs at h
  · exact tcpReport_dst h
  · exact udpReport_dst h
  · exact icmpReport_dst h
  · cases h

theorem arpReport_dst {payload : List UInt8} (h : arpReport payload = .ok (some g)) :
    ∃ mac : MacAddress, g.dst = mac.display := by
  obtain ⟨res, hparse⟩ := ArpPacket.parse_returns payload
  obtain e | arp := res
  · rw [arpReport, hparse] at h
    cases h
  · obtain ⟨smac, hsmac⟩ := arp.senderMac_returns
    obtain ⟨tmac, htmac⟩ := arp.targetMac_returns
    simp only [arpReport, hparse, hsmac, htmac, ok_bind] at h
    obtain ⟨infoRaw, -, hshown⟩ := bind_eq_ok.mp h
    obtain ⟨shown, -, rfl⟩ := returned_some hshown
    exact ⟨tmac, rfl⟩

/-- A reported packet is said to go to its address; without a datagram, to a
hardware address. -/
theorem Packet.reported_dst {p : Packet} (hg : p.reported = some g) :
    (∃ a : NetAddress, p.destination = some a ∧ Endpoint a.display g.dst) ∨
      (p.destination = none ∧ ∃ mac : MacAddress, g.dst = mac.display) := by
  rw [reported_eq_some_iff] at hg
  obtain ⟨d, hd, hcase⟩ := datagram_case p.frame
  have hdst : p.destination = d.map Datagram.dst := by
    rw [destination, datagram, hd]
    rfl
  rw [hdst]
  generalize frameReport p.frame = report at hcase hg
  cases hcase with
  | v4 srcIp dst number segment => exact Or.inl ⟨.v4 dst, rfl, ipv4Report_dst hg⟩
  | v6 srcIp dst number segment => exact Or.inl ⟨.v6 dst, rfl, ipv6Report_dst hg⟩
  | arp payload => exact Or.inr ⟨rfl, arpReport_dst hg⟩
  | silent => cases hg

/-! ## The domain -/

/-- The info of a DNS query is its name behind a prefix. -/
theorem udpReport_info {dst : NetAddress} {dom : String}
    (h : udpReport srcIp dstIp segment = .ok (some g))
    (hdom : Datagram.dnsDomain ⟨dst, 17, segment⟩ = .ok (some dom)) :
    g.infoRaw = "DNS: " ++ dom := by
  obtain ⟨res, hparse⟩ := UdpHeader.parse_returns segment
  obtain e | ⟨udp, payload⟩ := res
  · rw [udpReport, hparse] at h
    cases h
  obtain ⟨srcPort, hsrc⟩ := udp.sourcePort_returns
  obtain ⟨dstPort, hdst⟩ := udp.destinationPort_returns
  rw [udpReport_of_segment ⟨udp, hparse, hsrc, hdst⟩] at h
  obtain ⟨i, hi, rfl⟩ := returned_some h
  have hpass : ¬ (17 : UInt8) ≠ 17 := by decide
  simp only [Datagram.dnsDomain, hpass, if_false, hparse, hsrc, hdst, ok_bind] at hdom
  -- only a datagram to or from port 53 has a domain
  by_cases hport : dstPort = 53 ∨ srcPort = 53
  · rw [udpText, if_pos hport, dnsInfo] at hi
    obtain ⟨res, hquery⟩ := DnsQuery.parse_returns payload
    rw [if_neg (by tauto), hquery, ok_bind] at hdom
    rw [hquery, ok_bind] at hi
    obtain e | dns := res
    · cases hdom
    · -- the same call of `truncate` on both sides
      obtain ⟨name, hname, hi⟩ := bind_eq_ok.mp hi
      simp only [hname, ok_bind] at hdom
      obtain rfl : name = dom := Option.some.inj (Except.ok.inj hdom)
      rw [← Except.ok.inj hi]
      rfl
  · rw [if_pos (by tauto)] at hdom
    cases hdom

theorem Packet.reported_dns {p : Packet} {dom : String} (hg : p.reported = some g)
    (hdom : p.dnsDomain = some dom) : g.infoRaw = "DNS: " ++ dom := by
  rw [reported_eq_some_iff] at hg
  obtain ⟨d, hd, hcase⟩ := datagram_case p.frame
  have hdatagram : p.datagram = d := by
    rw [datagram, hd]
    rfl
  rw [dnsDomain, hdatagram] at hdom
  obtain ⟨d, rfl, hquery⟩ := Option.bind_eq_some_iff.mp hdom
  rw [toOption_join_eq_some_iff] at hquery
  -- a packet with a domain carries UDP
  have hnumber : d.number = 17 := by
    by_contra hother
    simp [Datagram.dnsDomain, hother, pure, Except.pure] at hquery
  generalize frameReport p.frame = report at hcase hg
  cases hcase with
  | v4 srcIp dst number segment =>
      obtain rfl : number = 17 := hnumber
      exact udpReport_info hg hquery
  | v6 srcIp dst number segment =>
      obtain rfl : number = 17 := hnumber
      exact udpReport_info hg hquery

end

end NetZer

import NetZer.Core.Layers

/-! # Packets on the wire

The byte layouts of Ethernet II, IPv4 (RFC 791), IPv6 (RFC 8200), ARP for IPv4
over Ethernet (RFC 826), TCP (RFC 9293), UDP (RFC 768) and ICMP (RFC 792 and
4443), written from the standards, one layer in another. `dissect` is the chain
of the parsers, from the frame to the transport payload; it finds in a frame
what the standards put there, for every length of the options of both headers
that have any.
-/

namespace NetZer

open Rust Bytes

/-! ## What the parsers see -/

/-- The ports, or the type and code, and the payload behind the header. -/
inductive Transport where
  | tcp (sourcePort destinationPort : UInt16) (payload : List UInt8)
  | udp (sourcePort destinationPort : UInt16) (payload : List UInt8)
  | icmp (icmpType code : UInt8) (payload : List UInt8)
  | other (payload : List UInt8)
deriving DecidableEq

inductive Network where
  | ipv4 (source destination : Ipv4Address) (protocol : UInt8) (transport : Transport)
  | ipv6 (source destination : Ipv6Address) (nextHeader : UInt8) (transport : Transport)
  | arp (hardwareType protocolType opcode : UInt16) (senderMac : MacAddress)
      (senderIp : Ipv4Address) (targetMac : MacAddress) (targetIp : Ipv4Address)
  | other (payload : List UInt8)
deriving DecidableEq

structure Dissection where
  destination : MacAddress
  source : MacAddress
  ethertype : EtherType
  network : Network
deriving DecidableEq

/-- The transport header a protocol number stands for; ICMP has a number of
its own under either version of IP. -/
def dissectTransport (icmpNumber number : UInt8) (segment : List UInt8) :
    Run (Result Transport) := do
  if number = 6 then
    match ← TcpHeader.parse segment with
    | .error e => return .error e
    | .ok (tcp, payload) =>
        return .ok (.tcp (← tcp.sourcePort) (← tcp.destinationPort) payload)
  else if number = 17 then
    match ← UdpHeader.parse segment with
    | .error e => return .error e
    | .ok (udp, payload) =>
        return .ok (.udp (← udp.sourcePort) (← udp.destinationPort) payload)
  else if number = icmpNumber then
    match ← IcmpHeader.parse segment with
    | .error e => return .error e
    | .ok (icmp, payload) => return .ok (.icmp (← icmp.icmpType) (← icmp.code) payload)
  else
    return .ok (.other segment)

def dissectIpv4 (payload : List UInt8) : Run (Result Network) := do
  match ← Ipv4Header.parse payload with
  | .error e => return .error e
  | .ok (ip, segment) =>
      let number ← ip.protocol
      match ← dissectTransport 1 number segment with
      | .error e => return .error e
      | .ok transport =>
          return .ok (.ipv4 (← ip.source) (← ip.destination) number transport)

def dissectIpv6 (payload : List UInt8) : Run (Result Network) := do
  match ← Ipv6Header.parse payload with
  | .error e => return .error e
  | .ok (ip, segment) =>
      let number ← ip.nextHeader
      match ← dissectTransport 58 number segment with
      | .error e => return .error e
      | .ok transport =>
          return .ok (.ipv6 (← ip.source) (← ip.destination) number transport)

def dissectArp (payload : List UInt8) : Run (Result Network) := do
  match ← ArpPacket.parse payload with
  | .error e => return .error e
  | .ok arp =>
      return .ok (.arp (← arp.hardwareType) (← arp.protocolType) (← arp.opcode) (← arp.senderMac)
        (← arp.senderIp) (← arp.targetMac) (← arp.targetIp))

def dissectNetwork (ethertype : EtherType) (payload : List UInt8) : Run (Result Network) :=
  match ethertype with
  | .ipv4 => dissectIpv4 payload
  | .ipv6 => dissectIpv6 payload
  | .arp => dissectArp payload
  | .other _ => return .ok (.other payload)

/-- The parse chain of a frame. -/
def dissect (frame : List UInt8) : Run (Result Dissection) := do
  match ← EthernetFrame.parse frame with
  | .error e => return .error e
  | .ok (eth, payload) =>
      let ethertype ← eth.ethertype
      match ← dissectNetwork ethertype payload with
      | .error e => return .error e
      | .ok network =>
          return .ok
            { destination := ← eth.destination
              source := ← eth.source
              ethertype := ethertype
              network := network }

/-! ## What the standards write -/

/-- The options of an IPv4 or TCP header: up to ten words behind the five of
its fixed part. -/
structure HeaderOptions where
  words : List (Vector UInt8 4)
  length_le : words.length ≤ 10

def HeaderOptions.bytes (o : HeaderOptions) : List UInt8 :=
  o.words.flatMap Vector.toList

/-- IHL, or data offset: the length of the header in words. -/
def HeaderOptions.headerWords (o : HeaderOptions) : Nat :=
  5 + o.words.length

structure TcpFields where
  sourcePort : UInt16
  destinationPort : UInt16
  sequence : UInt32
  acknowledgment : UInt32
  reserved : Fin 16
  control : UInt8
  window : UInt16
  checksum : UInt16
  urgent : UInt16
  options : HeaderOptions

def TcpFields.bytes (h : TcpFields) : List UInt8 :=
  be16Bytes h.sourcePort ++ be16Bytes h.destinationPort ++ be32Bytes h.sequence ++
    be32Bytes h.acknowledgment ++
    [UInt8.ofNat (16 * h.options.headerWords + h.reserved.val), h.control] ++
    be16Bytes h.window ++ be16Bytes h.checksum ++ be16Bytes h.urgent ++ h.options.bytes

structure UdpFields where
  sourcePort : UInt16
  destinationPort : UInt16
  length : UInt16
  checksum : UInt16

def UdpFields.bytes (h : UdpFields) : List UInt8 :=
  be16Bytes h.sourcePort ++ be16Bytes h.destinationPort ++ be16Bytes h.length ++
    be16Bytes h.checksum

structure IcmpFields where
  icmpType : UInt8
  code : UInt8
  checksum : UInt16
  restOfHeader : Vector UInt8 4

def IcmpFields.bytes (h : IcmpFields) : List UInt8 :=
  [h.icmpType, h.code] ++ be16Bytes h.checksum ++ h.restOfHeader.toList

/-- A transport packet under a version of IP, whose number for ICMP is given. -/
inductive Segment (icmpNumber : UInt8) where
  | tcp (header : TcpFields) (payload : List UInt8)
  | udp (header : UdpFields) (payload : List UInt8)
  | icmp (header : IcmpFields) (payload : List UInt8)
  | other (number : UInt8) (hother : number ≠ 6 ∧ number ≠ 17 ∧ number ≠ icmpNumber)
      (payload : List UInt8)

namespace Segment

variable {icmpNumber : UInt8}

def number : Segment icmpNumber → UInt8
  | tcp _ _ => 6
  | udp _ _ => 17
  | icmp _ _ => icmpNumber
  | other number _ _ => number

def bytes : Segment icmpNumber → List UInt8
  | tcp header payload => header.bytes ++ payload
  | udp header payload => header.bytes ++ payload
  | icmp header payload => header.bytes ++ payload
  | other _ _ payload => payload

/-- What there is to be seen of it. -/
def seen : Segment icmpNumber → Transport
  | tcp header payload => .tcp header.sourcePort header.destinationPort payload
  | udp header payload => .udp header.sourcePort header.destinationPort payload
  | icmp header payload => .icmp header.icmpType header.code payload
  | other _ _ payload => .other payload

end Segment

/-- An IPv4 header but for the protocol number, which the segment has. -/
structure Ipv4Fields where
  typeOfService : UInt8
  totalLength : UInt16
  identification : UInt16
  flagsAndOffset : UInt16
  timeToLive : UInt8
  checksum : UInt16
  source : Ipv4Address
  destination : Ipv4Address
  options : HeaderOptions

def Ipv4Fields.bytes (h : Ipv4Fields) (number : UInt8) : List UInt8 :=
  [UInt8.ofNat (16 * 4 + h.options.headerWords), h.typeOfService] ++ be16Bytes h.totalLength ++
    be16Bytes h.identification ++ be16Bytes h.flagsAndOffset ++ [h.timeToLive, number] ++
    be16Bytes h.checksum ++ h.source.octets.toList ++ h.destination.octets.toList ++
    h.options.bytes

structure Ipv6Fields where
  trafficClass : UInt8
  flowLabel : Fin 1048576
  payloadLength : UInt16
  hopLimit : UInt8
  source : Ipv6Address
  destination : Ipv6Address

/-- The version, the traffic class and the flow label share the first word. -/
def Ipv6Fields.bytes (h : Ipv6Fields) (nextHeader : UInt8) : List UInt8 :=
  be32Bytes (UInt32.ofNat (6 * 268435456 + h.trafficClass.toNat * 1048576 + h.flowLabel.val)) ++
    be16Bytes h.payloadLength ++ [nextHeader, h.hopLimit] ++ h.source.octets.toList ++
    h.destination.octets.toList

/-- The address lengths are those of Ethernet and of IPv4. -/
structure ArpFields where
  hardwareType : UInt16
  protocolType : UInt16
  opcode : UInt16
  senderMac : MacAddress
  senderIp : Ipv4Address
  targetMac : MacAddress
  targetIp : Ipv4Address

def ArpFields.bytes (a : ArpFields) : List UInt8 :=
  be16Bytes a.hardwareType ++ be16Bytes a.protocolType ++ [6, 4] ++ be16Bytes a.opcode ++
    a.senderMac.octets.toList ++ a.senderIp.octets.toList ++ a.targetMac.octets.toList ++
    a.targetIp.octets.toList

/-- What a frame carries. -/
inductive Content where
  | ipv4 (header : Ipv4Fields) (segment : Segment 1)
  | ipv6 (header : Ipv6Fields) (segment : Segment 58)
  | arp (packet : ArpFields) (trailer : List UInt8)
  | other (type : UInt16) (hother : type ≠ 0x0800 ∧ type ≠ 0x0806 ∧ type ≠ 0x86DD)
      (payload : List UInt8)

namespace Content

def type : Content → UInt16
  | ipv4 _ _ => 0x0800
  | ipv6 _ _ => 0x86DD
  | arp _ _ => 0x0806
  | other type _ _ => type

def bytes : Content → List UInt8
  | ipv4 header segment => header.bytes segment.number ++ segment.bytes
  | ipv6 header segment => header.bytes segment.number ++ segment.bytes
  | arp packet trailer => packet.bytes ++ trailer
  | other _ _ payload => payload

def seen : Content → Network
  | ipv4 header segment => .ipv4 header.source header.destination segment.number segment.seen
  | ipv6 header segment => .ipv6 header.source header.destination segment.number segment.seen
  | arp packet _ => .arp packet.hardwareType packet.protocolType packet.opcode packet.senderMac
      packet.senderIp packet.targetMac packet.targetIp
  | other _ _ payload => .other payload

end Content

/-- A frame with everything in it. -/
structure LayeredPacket where
  destination : MacAddress
  source : MacAddress
  content : Content

namespace LayeredPacket

def header (p : LayeredPacket) : List UInt8 :=
  p.destination.octets.toList ++ p.source.octets.toList ++ be16Bytes p.content.type

def bytes (p : LayeredPacket) : List UInt8 :=
  p.header ++ p.content.bytes

def seen (p : LayeredPacket) : Dissection :=
  { destination := p.destination
    source := p.source
    ethertype := .from p.content.type
    network := p.content.seen }

end LayeredPacket

/-! ## Reading what was written -/

theorem HeaderOptions.length_bytes (o : HeaderOptions) : o.bytes.length = 4 * o.words.length := by
  have hlen : ∀ ws : List (Vector UInt8 4), (ws.flatMap Vector.toList).length = 4 * ws.length := by
    intro ws
    induction ws with
    | nil => rfl
    | cons w ws ih =>
        rw [List.flatMap_cons, List.length_append, ih, Vector.length_toList, List.length_cons]
        omega
  exact hlen o.words

/-- The low half of the first byte of an IPv4 header is its length. -/
theorem ihl_eq : ∀ n ≤ 10, (UInt8.ofNat (16 * 4 + (5 + n)) &&& 0x0F).toNat = 5 + n := by
  decide

/-- The high half of byte 12 of a TCP header is its length, whatever the
reserved bits below it are. -/
theorem dataOffset_eq :
    ∀ n ≤ 10, ∀ r < 16, (UInt8.ofNat (16 * (5 + n) + r) >>> 4).toNat = 5 + n := by
  decide

theorem TcpFields.length_bytes (h : TcpFields) :
    h.bytes.length = 4 * h.options.headerWords := by
  simp [bytes, HeaderOptions.length_bytes, HeaderOptions.headerWords]
  omega

theorem Ipv4Fields.length_bytes (h : Ipv4Fields) (number : UInt8) :
    (h.bytes number).length = 4 * h.options.headerWords := by
  simp [bytes, HeaderOptions.length_bytes, HeaderOptions.headerWords]
  omega

section

variable (rest : List UInt8)

theorem TcpHeader.parse_bytes (h : TcpFields) :
    ∃ tcp, TcpHeader.parse (h.bytes ++ rest) = .ok (.ok (tcp, rest)) ∧
      tcp.sourcePort = .ok h.sourcePort ∧ tcp.destinationPort = .ok h.destinationPort := by
  have hlen := h.length_bytes
  have hmin : tcpHeaderMinLen ≤ h.bytes.length := by
    rw [hlen, HeaderOptions.headerWords, tcpHeaderMinLen]
    omega
  have hoffset : h.bytes[12]? =
      some (UInt8.ofNat (16 * h.options.headerWords + h.reserved.val)) := by
    simp [TcpFields.bytes, be16Bytes, be32Bytes]
  have hunits := dataOffset_eq _ h.options.length_le _ h.reserved.isLt
  refine ⟨⟨⟨h.bytes, hmin⟩⟩, ?_, ?_, ?_⟩
  · refine parseScaled_header (by decide) hoffset ?_ hmin rest
    rw [hlen, HeaderOptions.headerWords, hunits, Nat.mul_comm]
  · apply Buf.u16_eq rfl (by decide)
    simp [half, TcpFields.bytes, be16Bytes]
  · apply Buf.u16_eq rfl (by decide)
    simp [half, TcpFields.bytes, be16Bytes]

theorem UdpHeader.parse_bytes (h : UdpFields) :
    ∃ udp, UdpHeader.parse (h.bytes ++ rest) = .ok (.ok (udp, rest)) ∧
      udp.sourcePort = .ok h.sourcePort ∧ udp.destinationPort = .ok h.destinationPort := by
  have hlen : h.bytes.length = udpHeaderLen := rfl
  refine ⟨⟨⟨h.bytes, Nat.le_of_eq hlen.symm⟩⟩, parseFixed_header hlen _ rest, ?_, ?_⟩
  · apply Buf.u16_eq rfl (by decide)
    simp [half, UdpFields.bytes, be16Bytes]
  · apply Buf.u16_eq rfl (by decide)
    simp [half, UdpFields.bytes, be16Bytes]

theorem IcmpHeader.parse_bytes (h : IcmpFields) :
    ∃ icmp, IcmpHeader.parse (h.bytes ++ rest) = .ok (.ok (icmp, rest)) ∧
      icmp.icmpType = .ok h.icmpType ∧ icmp.code = .ok h.code := by
  have hlen : h.bytes.length = icmpHeaderLen := by
    simp [IcmpFields.bytes, icmpHeaderLen]
  refine ⟨⟨⟨h.bytes, Nat.le_of_eq hlen.symm⟩⟩, parseFixed_header hlen _ rest, ?_, ?_⟩
  · exact Buf.u8_eq rfl
  · exact Buf.u8_eq rfl

/-- The transport header and payload of a segment. -/
theorem dissectTransport_bytes {icmpNumber : UInt8} (h6 : icmpNumber ≠ 6) (h17 : icmpNumber ≠ 17)
    (s : Segment icmpNumber) : dissectTransport icmpNumber s.number s.bytes = .ok (.ok s.seen) := by
  cases s with
  | tcp header payload =>
      rcases TcpHeader.parse_bytes payload header with ⟨tcp, hparse, hsrc, hdst⟩
      simp [dissectTransport, Segment.number, Segment.bytes, Segment.seen, hparse, hsrc, hdst, bind,
        Except.bind, pure, Except.pure]
  | udp header payload =>
      rcases UdpHeader.parse_bytes payload header with ⟨udp, hparse, hsrc, hdst⟩
      simp [dissectTransport, Segment.number, Segment.bytes, Segment.seen, hparse, hsrc, hdst, bind,
        Except.bind, pure, Except.pure]
  | icmp header payload =>
      rcases IcmpHeader.parse_bytes payload header with ⟨icmp, hparse, htype, hcode⟩
      simp [dissectTransport, Segment.number, Segment.bytes, Segment.seen, h6, h17, hparse, htype,
        hcode, bind, Except.bind, pure, Except.pure]
  | other number hother payload =>
      rcases hother with ⟨hn6, hn17, hicmp⟩
      simp [dissectTransport, Segment.number, Segment.bytes, Segment.seen, hn6, hn17, hicmp, pure,
        Except.pure]

theorem Ipv4Header.parse_bytes (h : Ipv4Fields) (number : UInt8) :
    ∃ ip, Ipv4Header.parse (h.bytes number ++ rest) = .ok (.ok (ip, rest)) ∧
      ip.protocol = .ok number ∧ ip.source = .ok h.source ∧
      ip.destination = .ok h.destination := by
  have hlen := h.length_bytes number
  have hmin : ipv4HeaderMinLen ≤ (h.bytes number).length := by
    rw [hlen, HeaderOptions.headerWords, ipv4HeaderMinLen]
    omega
  have hihl : (h.bytes number)[0]? = some (UInt8.ofNat (16 * 4 + h.options.headerWords)) := by
    simp [Ipv4Fields.bytes]
  have hunits := ihl_eq _ h.options.length_le
  refine ⟨⟨⟨h.bytes number, hmin⟩⟩, ?_, ?_, ?_, ?_⟩
  · refine parseScaled_header (by decide) hihl ?_ hmin rest
    rw [hlen, HeaderOptions.headerWords, hunits, Nat.mul_comm]
  · apply Buf.u8_eq
    simp [Ipv4Fields.bytes, be16Bytes]
  · have hsrc : (⟨h.bytes number, hmin⟩ : Buf ipv4HeaderMinLen).array 4 12 16 =
        .ok h.source.octets := by
      apply Buf.array_eq rfl (by decide)
      simp [Ipv4Fields.bytes, be16Bytes]
    simp [Ipv4Header.source, hsrc, bind, Except.bind, pure, Except.pure]
  · have hdst : (⟨h.bytes number, hmin⟩ : Buf ipv4HeaderMinLen).array 4 16 20 =
        .ok h.destination.octets := by
      apply Buf.array_eq rfl (by decide)
      simp [Ipv4Fields.bytes, be16Bytes]
    simp [Ipv4Header.destination, hdst, bind, Except.bind, pure, Except.pure]

theorem Ipv6Header.parse_bytes (h : Ipv6Fields) (number : UInt8) :
    ∃ ip, Ipv6Header.parse (h.bytes number ++ rest) = .ok (.ok (ip, rest)) ∧
      ip.nextHeader = .ok number ∧ ip.source = .ok h.source ∧
      ip.destination = .ok h.destination := by
  have hlen : (h.bytes number).length = ipv6HeaderLen := by
    simp [Ipv6Fields.bytes, ipv6HeaderLen]
  have hmin : ipv6HeaderLen ≤ (h.bytes number).length := Nat.le_of_eq hlen.symm
  refine ⟨⟨⟨h.bytes number, hmin⟩⟩, parseFixed_header hlen _ rest, ?_, ?_, ?_⟩
  · apply Buf.u8_eq
    simp [Ipv6Fields.bytes, be16Bytes, be32Bytes]
  · have hsrc : (⟨h.bytes number, hmin⟩ : Buf ipv6HeaderLen).array 16 8 24 =
        .ok h.source.octets := by
      apply Buf.array_eq rfl (by decide)
      simp [Ipv6Fields.bytes, be16Bytes, be32Bytes]
    simp [Ipv6Header.source, hsrc, bind, Except.bind, pure, Except.pure]
  · have hdst : (⟨h.bytes number, hmin⟩ : Buf ipv6HeaderLen).array 16 24 40 =
        .ok h.destination.octets := by
      apply Buf.array_eq rfl (by decide)
      simp [Ipv6Fields.bytes, be16Bytes, be32Bytes, List.take_of_length_le]
    simp [Ipv6Header.destination, hdst, bind, Except.bind, pure, Except.pure]

/-- What follows the 28 bytes is not part of the packet. -/
theorem dissectArp_bytes (a : ArpFields) :
    dissectArp (a.bytes ++ rest) =
      .ok (.ok (.arp a.hardwareType a.protocolType a.opcode a.senderMac a.senderIp a.targetMac
        a.targetIp)) := by
  have hlen : a.bytes.length = arpHeaderLen := by
    simp [ArpFields.bytes, arpHeaderLen]
  have hmin : arpHeaderLen ≤ a.bytes.length := Nat.le_of_eq hlen.symm
  have hparse : ArpPacket.parse (a.bytes ++ rest) = .ok (.ok ⟨⟨a.bytes, hmin⟩⟩) := by
    have hle : arpHeaderLen ≤ (a.bytes ++ rest).length := by
      rw [List.length_append]
      omega
    have htake : (a.bytes ++ rest).take arpHeaderLen = a.bytes := List.take_left' hlen
    simp only [ArpPacket.parse, Nat.not_lt.mpr hle, if_false, slice_ok _ (Nat.zero_le _) hle,
      List.drop_zero, Nat.sub_zero, htake, bind, Except.bind, pure, Except.pure]
  have hhardware : (⟨a.bytes, hmin⟩ : Buf arpHeaderLen).u16 0 2 = .ok a.hardwareType := by
    apply Buf.u16_eq rfl (by decide)
    simp [half, ArpFields.bytes, be16Bytes]
  have hprotocol : (⟨a.bytes, hmin⟩ : Buf arpHeaderLen).u16 2 4 = .ok a.protocolType := by
    apply Buf.u16_eq rfl (by decide)
    simp [half, ArpFields.bytes, be16Bytes]
  have hopcode : (⟨a.bytes, hmin⟩ : Buf arpHeaderLen).u16 6 8 = .ok a.opcode := by
    apply Buf.u16_eq rfl (by decide)
    simp [half, ArpFields.bytes, be16Bytes]
  have hsmac : (⟨a.bytes, hmin⟩ : Buf arpHeaderLen).array 6 8 14 = .ok a.senderMac.octets := by
    apply Buf.array_eq rfl (by decide)
    simp [ArpFields.bytes, be16Bytes]
  have hsip : (⟨a.bytes, hmin⟩ : Buf arpHeaderLen).array 4 14 18 = .ok a.senderIp.octets := by
    apply Buf.array_eq rfl (by decide)
    simp [ArpFields.bytes, be16Bytes]
  have htmac : (⟨a.bytes, hmin⟩ : Buf arpHeaderLen).array 6 18 24 = .ok a.targetMac.octets := by
    apply Buf.array_eq rfl (by decide)
    simp [ArpFields.bytes, be16Bytes, List.drop_append, List.drop_eq_nil_of_le]
  have htip : (⟨a.bytes, hmin⟩ : Buf arpHeaderLen).array 4 24 28 = .ok a.targetIp.octets := by
    apply Buf.array_eq rfl (by decide)
    simp [ArpFields.bytes, be16Bytes, List.drop_append, List.drop_eq_nil_of_le,
      List.take_of_length_le]
  simp only [dissectArp, hparse, ArpPacket.hardwareType, ArpPacket.protocolType, ArpPacket.opcode,
    ArpPacket.senderMac, ArpPacket.senderIp, ArpPacket.targetMac, ArpPacket.targetIp, hhardware,
    hprotocol, hopcode, hsmac, hsip, htmac, htip, bind, Except.bind, pure, Except.pure]

theorem EthernetFrame.parse_bytes (p : LayeredPacket) :
    ∃ eth, EthernetFrame.parse (p.header ++ rest) = .ok (.ok (eth, rest)) ∧
      eth.destination = .ok p.destination ∧ eth.source = .ok p.source ∧
      eth.ethertype = .ok (.from p.content.type) := by
  have hlen : p.header.length = ethernetHeaderLen := by
    simp [LayeredPacket.header, ethernetHeaderLen]
  have hmin : ethernetHeaderLen ≤ p.header.length := Nat.le_of_eq hlen.symm
  refine ⟨⟨⟨p.header, hmin⟩⟩, parseFixed_header hlen _ rest, ?_, ?_, ?_⟩
  · have hdst : (⟨p.header, hmin⟩ : Buf ethernetHeaderLen).array 6 0 6 =
        .ok p.destination.octets := by
      apply Buf.array_eq rfl (by decide)
      simp [LayeredPacket.header]
    simp [EthernetFrame.destination, hdst, bind, Except.bind, pure, Except.pure]
  · have hsrc : (⟨p.header, hmin⟩ : Buf ethernetHeaderLen).array 6 6 12 =
        .ok p.source.octets := by
      apply Buf.array_eq rfl (by decide)
      simp [LayeredPacket.header]
    simp [EthernetFrame.source, hsrc, bind, Except.bind, pure, Except.pure]
  · have htype : (⟨p.header, hmin⟩ : Buf ethernetHeaderLen).u16 12 14 =
        .ok p.content.type := by
      apply Buf.u16_eq rfl (by decide)
      have hmacs : (p.destination.octets.toList ++ p.source.octets.toList).length = 12 := by simp
      have hword := half_append hmacs p.content.type []
      rwa [List.append_nil] at hword
    simp [EthernetFrame.ethertype, htype, bind, Except.bind, pure, Except.pure]

end

/-! ## The chain -/

theorem dissectNetwork_bytes (c : Content) :
    dissectNetwork (.from c.type) c.bytes = .ok (.ok c.seen) := by
  cases c with
  | ipv4 header segment =>
      rcases Ipv4Header.parse_bytes segment.bytes header segment.number with
        ⟨ip, hparse, hnumber, hsrc, hdst⟩
      have htransport := dissectTransport_bytes (by decide) (by decide) segment
      simp [dissectNetwork, EtherType.from, dissectIpv4, Content.type, Content.bytes, Content.seen,
        hparse, hnumber, hsrc, hdst, htransport, bind, Except.bind, pure, Except.pure]
  | ipv6 header segment =>
      rcases Ipv6Header.parse_bytes segment.bytes header segment.number with
        ⟨ip, hparse, hnumber, hsrc, hdst⟩
      have htransport := dissectTransport_bytes (by decide) (by decide) segment
      simp [dissectNetwork, EtherType.from, dissectIpv6, Content.type, Content.bytes, Content.seen,
        hparse, hnumber, hsrc, hdst, htransport, bind, Except.bind, pure, Except.pure]
  | arp packet trailer =>
      exact dissectArp_bytes trailer packet
  | other type hother payload =>
      rcases hother with ⟨hv4, harp, hv6⟩
      simp [dissectNetwork, EtherType.from, Content.type, Content.bytes, Content.seen, hv4, hv6,
        harp, pure, Except.pure]

/-- The chain finds in a frame what was put into it. -/
theorem dissect_bytes (p : LayeredPacket) : dissect p.bytes = .ok (.ok p.seen) := by
  rcases EthernetFrame.parse_bytes p.content.bytes p with ⟨eth, hparse, hdst, hsrc, htype⟩
  have hnetwork := dissectNetwork_bytes p.content
  simp only [dissect, LayeredPacket.bytes, hparse, htype, hnetwork, hdst, hsrc, bind, Except.bind,
    pure, Except.pure]
  rfl

/-- The header of every successful parse and the rest are the buffer. -/
def Splits {H : Type} (parse : List UInt8 → Run (Result (H × List UInt8)))
    (bytes : H → List UInt8) : Prop :=
  ∀ buffer header rest, parse buffer = .ok (.ok (header, rest)) → bytes header ++ rest = buffer

theorem parseFixed_splits {H : Type} {n : Nat} {mk : Buf n → H} {bytes : H → List UInt8}
    (hmk : ∀ b, bytes (mk b) = b.bytes) : Splits (parseFixed n mk) bytes := by
  intro buffer header rest h
  rcases parseFixed_inv h with ⟨_, rfl, _, rfl⟩
  rw [hmk]
  exact List.take_append_drop n buffer

theorem parseScaled_splits {H : Type} {n i : Nat} {units : UInt8 → UInt8} {mk : Buf n → H}
    {bytes : H → List UInt8} (hi : i < n) (hmk : ∀ b, bytes (mk b) = b.bytes) :
    Splits (parseScaled n i units mk) bytes := by
  intro buffer header rest h
  rcases parseScaled_inv hi h with ⟨b, _, _, _, _, rfl, _, rfl⟩
  rw [hmk]
  exact List.take_append_drop _ buffer

/-- Dissection inverts the layouts of the standards, and no parser that hands
on a rest loses or repeats a byte. -/
theorem dissection_faithful :
    (∀ p : LayeredPacket, dissect p.bytes = .ok (.ok p.seen)) ∧
      Splits EthernetFrame.parse (fun h => h.buffer.bytes) ∧
      Splits Ipv4Header.parse (fun h => h.buffer.bytes) ∧
      Splits Ipv6Header.parse (fun h => h.buffer.bytes) ∧
      Splits TcpHeader.parse (fun h => h.buffer.bytes) ∧
      Splits UdpHeader.parse (fun h => h.buffer.bytes) ∧
      Splits IcmpHeader.parse (fun h => h.buffer.bytes) := by
  refine ⟨dissect_bytes, ?_, ?_, ?_, ?_, ?_, ?_⟩
  · exact parseFixed_splits fun _ => rfl
  · exact parseScaled_splits (by decide) fun _ => rfl
  · exact parseFixed_splits fun _ => rfl
  · exact parseScaled_splits (by decide) fun _ => rfl
  · exact parseFixed_splits fun _ => rfl
  · exact parseFixed_splits fun _ => rfl

end NetZer

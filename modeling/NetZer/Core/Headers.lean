import NetZer.Core.Buffer
import NetZer.Lib.Text

/-! # Protocol headers

Ethernet, ARP, IPv4, IPv6, TCP, UDP and ICMP: the views of `netzer-core`, with
the constants and offsets of its source files.
-/

namespace NetZer

open Rust Bytes

/-! ## mac.rs -/

structure MacAddress where
  octets : Vector UInt8 6
deriving DecidableEq

/-- `Display`: six pairs of hexadecimal digits. -/
def MacAddress.display (m : MacAddress) : String :=
  String.intercalate ":" (m.octets.toList.map fun b => Text.hex 2 b.toNat)

example : (MacAddress.mk #v[0x00, 0x1A, 0x2B, 0x3C, 0x4D, 0x5E]).display =
    "00:1a:2b:3c:4d:5e" := by decide

/-! ## ethernet.rs -/

def ethernetHeaderLen : Nat := 14

inductive EtherType where
  | ipv4
  | ipv6
  | arp
  | other (val : UInt16)
deriving DecidableEq, Repr

/-- `impl From<u16> for EtherType`. -/
def EtherType.from (val : UInt16) : EtherType :=
  if val = 0x0800 then .ipv4
  else if val = 0x0806 then .arp
  else if val = 0x86DD then .ipv6
  else .other val

structure EthernetFrame where
  buffer : Buf ethernetHeaderLen

namespace EthernetFrame

def parse (buffer : List UInt8) : Run (Result (EthernetFrame × List UInt8)) :=
  parseFixed ethernetHeaderLen EthernetFrame.mk buffer

def destination (self : EthernetFrame) : Run MacAddress := do
  return ⟨← self.buffer.array 6 0 6⟩

def source (self : EthernetFrame) : Run MacAddress := do
  return ⟨← self.buffer.array 6 6 12⟩

def ethertype (self : EthernetFrame) : Run EtherType := do
  return .from (← self.buffer.u16 12 14)

end EthernetFrame

/-! ## ipv4.rs -/

def ipv4HeaderMinLen : Nat := 20

structure Ipv4Address where
  octets : Vector UInt8 4
deriving DecidableEq

/-- `Display`: dotted decimal. -/
def Ipv4Address.display (a : Ipv4Address) : String :=
  String.intercalate "." (a.octets.toList.map fun b => toString b.toNat)

example : (Ipv4Address.mk #v[192, 168, 0, 1]).display = "192.168.0.1" := by decide

structure Ipv4Header where
  buffer : Buf ipv4HeaderMinLen

namespace Ipv4Header

/-- The header length is the low half of the first byte, in words. -/
def parse (buffer : List UInt8) : Run (Result (Ipv4Header × List UInt8)) :=
  parseScaled ipv4HeaderMinLen 0 (fun b => b &&& 0x0F) Ipv4Header.mk buffer

def source (self : Ipv4Header) : Run Ipv4Address := do
  return ⟨← self.buffer.array 4 12 16⟩

def destination (self : Ipv4Header) : Run Ipv4Address := do
  return ⟨← self.buffer.array 4 16 20⟩

def protocol (self : Ipv4Header) : Run UInt8 :=
  self.buffer.u8 9

end Ipv4Header

/-! ## ipv6.rs -/

def ipv6HeaderLen : Nat := 40

structure Ipv6Address where
  octets : Vector UInt8 16
deriving DecidableEq

/-- The octets in pairs, two hexadecimal digits each. -/
def hexPairs : List UInt8 → List String
  | a :: b :: rest => (Text.hex 2 a.toNat ++ Text.hex 2 b.toNat) :: hexPairs rest
  | _ => []

/-- `Display`: eight groups of four hexadecimal digits, none left out. -/
def Ipv6Address.display (a : Ipv6Address) : String :=
  String.intercalate ":" (hexPairs a.octets.toList)

example : (Ipv6Address.mk #v[0x20, 0x01, 0x0d, 0xb8, 0, 0, 0, 0, 0, 0, 0, 0, 0, 0, 0, 1]).display =
    "2001:0db8:0000:0000:0000:0000:0000:0001" := by decide

structure Ipv6Header where
  buffer : Buf ipv6HeaderLen

namespace Ipv6Header

def parse (buffer : List UInt8) : Run (Result (Ipv6Header × List UInt8)) :=
  parseFixed ipv6HeaderLen Ipv6Header.mk buffer

def source (self : Ipv6Header) : Run Ipv6Address := do
  return ⟨← self.buffer.array 16 8 24⟩

def destination (self : Ipv6Header) : Run Ipv6Address := do
  return ⟨← self.buffer.array 16 24 40⟩

def nextHeader (self : Ipv6Header) : Run UInt8 :=
  self.buffer.u8 6

end Ipv6Header

/-! ## arp.rs -/

def arpHeaderLen : Nat := 28

structure ArpPacket where
  buffer : Buf arpHeaderLen

namespace ArpPacket

/-- No rest is returned: what follows the 28 bytes is dropped. -/
def parse (buffer : List UInt8) : Run (Result ArpPacket) := do
  if buffer.length < arpHeaderLen then
    return .error .bufferTooShort
  let s ← slice buffer 0 arpHeaderLen
  return .ok ⟨⟨s.1, by simp [s.2]⟩⟩

def hardwareType (self : ArpPacket) : Run UInt16 :=
  self.buffer.u16 0 2

def protocolType (self : ArpPacket) : Run UInt16 :=
  self.buffer.u16 2 4

def opcode (self : ArpPacket) : Run UInt16 :=
  self.buffer.u16 6 8

def senderMac (self : ArpPacket) : Run MacAddress := do
  return ⟨← self.buffer.array 6 8 14⟩

def senderIp (self : ArpPacket) : Run Ipv4Address := do
  return ⟨← self.buffer.array 4 14 18⟩

def targetMac (self : ArpPacket) : Run MacAddress := do
  return ⟨← self.buffer.array 6 18 24⟩

def targetIp (self : ArpPacket) : Run Ipv4Address := do
  return ⟨← self.buffer.array 4 24 28⟩

end ArpPacket

/-! ## icmp.rs -/

def icmpHeaderLen : Nat := 8

structure IcmpHeader where
  buffer : Buf icmpHeaderLen

namespace IcmpHeader

def parse (buffer : List UInt8) : Run (Result (IcmpHeader × List UInt8)) :=
  parseFixed icmpHeaderLen IcmpHeader.mk buffer

def icmpType (self : IcmpHeader) : Run UInt8 :=
  self.buffer.u8 0

def code (self : IcmpHeader) : Run UInt8 :=
  self.buffer.u8 1

end IcmpHeader

/-! ## tcp.rs -/

def tcpHeaderMinLen : Nat := 20

structure TcpHeader where
  buffer : Buf tcpHeaderMinLen

namespace TcpHeader

/-- The header length is the high half of byte 12, in words. -/
def parse (buffer : List UInt8) : Run (Result (TcpHeader × List UInt8)) :=
  parseScaled tcpHeaderMinLen 12 (fun b => b >>> 4) TcpHeader.mk buffer

def sourcePort (self : TcpHeader) : Run UInt16 :=
  self.buffer.u16 0 2

def destinationPort (self : TcpHeader) : Run UInt16 :=
  self.buffer.u16 2 4

end TcpHeader

/-! ## udp.rs -/

def udpHeaderLen : Nat := 8

structure UdpHeader where
  buffer : Buf udpHeaderLen

namespace UdpHeader

def parse (buffer : List UInt8) : Run (Result (UdpHeader × List UInt8)) :=
  parseFixed udpHeaderLen UdpHeader.mk buffer

def sourcePort (self : UdpHeader) : Run UInt16 :=
  self.buffer.u16 0 2

def destinationPort (self : UdpHeader) : Run UInt16 :=
  self.buffer.u16 2 4

end UdpHeader

/-! ## No parser and no accessor panics -/

section

variable (eth : EthernetFrame) (v4 : Ipv4Header) (v6 : Ipv6Header) (arp : ArpPacket)
  (icmp : IcmpHeader) (tcp : TcpHeader) (udp : UdpHeader)

theorem EthernetFrame.ethertype_returns : ∃ e, eth.ethertype = .ok e :=
  returns_map (Buf.u16_returns rfl (by decide)) _

theorem Ipv4Header.source_returns : ∃ a, v4.source = .ok a :=
  returns_map (Buf.array_returns rfl (by decide)) _

theorem Ipv4Header.destination_returns : ∃ a, v4.destination = .ok a :=
  returns_map (Buf.array_returns rfl (by decide)) _

theorem Ipv4Header.protocol_returns : ∃ p, v4.protocol = .ok p :=
  Buf.u8_returns (by decide)

theorem Ipv6Header.source_returns : ∃ a, v6.source = .ok a :=
  returns_map (Buf.array_returns rfl (by decide)) _

theorem Ipv6Header.destination_returns : ∃ a, v6.destination = .ok a :=
  returns_map (Buf.array_returns rfl (by decide)) _

theorem Ipv6Header.nextHeader_returns : ∃ p, v6.nextHeader = .ok p :=
  Buf.u8_returns (by decide)

theorem ArpPacket.opcode_returns : ∃ op, arp.opcode = .ok op :=
  Buf.u16_returns rfl (by decide)

theorem ArpPacket.senderMac_returns : ∃ a, arp.senderMac = .ok a :=
  returns_map (Buf.array_returns rfl (by decide)) _

theorem ArpPacket.senderIp_returns : ∃ a, arp.senderIp = .ok a :=
  returns_map (Buf.array_returns rfl (by decide)) _

theorem ArpPacket.targetMac_returns : ∃ a, arp.targetMac = .ok a :=
  returns_map (Buf.array_returns rfl (by decide)) _

theorem ArpPacket.targetIp_returns : ∃ a, arp.targetIp = .ok a :=
  returns_map (Buf.array_returns rfl (by decide)) _

theorem IcmpHeader.icmpType_returns : ∃ t, icmp.icmpType = .ok t :=
  Buf.u8_returns (by decide)

theorem IcmpHeader.code_returns : ∃ c, icmp.code = .ok c :=
  Buf.u8_returns (by decide)

theorem TcpHeader.sourcePort_returns : ∃ p, tcp.sourcePort = .ok p :=
  Buf.u16_returns rfl (by decide)

theorem TcpHeader.destinationPort_returns : ∃ p, tcp.destinationPort = .ok p :=
  Buf.u16_returns rfl (by decide)

theorem UdpHeader.sourcePort_returns : ∃ p, udp.sourcePort = .ok p :=
  Buf.u16_returns rfl (by decide)

theorem UdpHeader.destinationPort_returns : ∃ p, udp.destinationPort = .ok p :=
  Buf.u16_returns rfl (by decide)

end

theorem Ipv4Header.parse_returns (buffer : List UInt8) : ∃ r, Ipv4Header.parse buffer = .ok r :=
  parseScaled_returns (by decide) _ _ _

theorem TcpHeader.parse_returns (buffer : List UInt8) : ∃ r, TcpHeader.parse buffer = .ok r :=
  parseScaled_returns (by decide) _ _ _

theorem Ipv6Header.parse_returns (buffer : List UInt8) : ∃ r, Ipv6Header.parse buffer = .ok r :=
  parseFixed_returns _ _ _

theorem EthernetFrame.parse_returns (buffer : List UInt8) :
    ∃ r, EthernetFrame.parse buffer = .ok r :=
  parseFixed_returns _ _ _

theorem UdpHeader.parse_returns (buffer : List UInt8) : ∃ r, UdpHeader.parse buffer = .ok r :=
  parseFixed_returns _ _ _

theorem IcmpHeader.parse_returns (buffer : List UInt8) : ∃ r, IcmpHeader.parse buffer = .ok r :=
  parseFixed_returns _ _ _

/-- `ArpPacket::parse` returns on every buffer. -/
theorem ArpPacket.parse_returns (buffer : List UInt8) : ∃ r, ArpPacket.parse buffer = .ok r := by
  by_cases hlen : buffer.length < arpHeaderLen
  · exact ⟨.error .bufferTooShort, by simp [ArpPacket.parse, hlen, pure, Except.pure]⟩
  · have hslice := slice_ok (φ := Fn) buffer (Nat.zero_le arpHeaderLen) (by omega)
    simp only [ArpPacket.parse, hlen, if_false, hslice, bind, Except.bind, pure, Except.pure]
    exact ⟨_, rfl⟩

end NetZer

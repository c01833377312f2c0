import NetZer.Core.Layers
import NetZer.Socket.Filter

/-! # The port filter against the parsers

A packet the analyzer would report on a port must not be dropped by the port
filter: the filter's indirect loads have to stay inside every frame the
parsers accept, and to find the ports where the parsers find them.
-/

namespace NetZer

open Bpf Bytes

/-- The parsers decode the frame as TCP or UDP, over IPv4 or IPv6, with `port`
on one of its sides. -/
inductive ReportedOnPort (port : UInt16) (frame : List UInt8) : Prop where
  | tcp {segment payload : List UInt8} {hdr : TcpHeader} :
      CarriesSegment frame 6 segment → TcpHeader.parse segment = .ok (.ok (hdr, payload)) →
      hdr.sourcePort = .ok port ∨ hdr.destinationPort = .ok port → ReportedOnPort port frame
  | udp {segment payload : List UInt8} {hdr : UdpHeader} :
      CarriesSegment frame 17 segment → UdpHeader.parse segment = .ok (.ok (hdr, payload)) →
      hdr.sourcePort = .ok port ∨ hdr.destinationPort = .ok port → ReportedOnPort port frame

/-- A port read from a header slice is the word at that offset of the
segment the slice was cut from. -/
theorem half_segment_of_u16 {n i : Nat} {b : Buf n} {segment : List UInt8} {len : Nat}
    {port : UInt16} (hb : b.bytes = segment.take len) (hi : i + 2 ≤ n)
    (h : b.u16 i (i + 2) = .ok port) : half segment i = some port := by
  rcases Buf.u16_ok (b := b) hi with ⟨w, hw, hrun⟩
  have hport : w = port := by
    rw [hrun] at h
    exact Except.ok.inj h
  have hlen : i + 1 < len := by
    have hle := b.le_length
    rw [hb, List.length_take] at hle
    omega
  rw [hb, half_take hlen, hport] at hw
  exact hw

/-- A TCP segment shows its ports in its first four bytes. -/
theorem TcpHeader.ports_of_parse {segment payload : List UInt8} {hdr : TcpHeader}
    {port : UInt16} (h : TcpHeader.parse segment = .ok (.ok (hdr, payload)))
    (hport : hdr.sourcePort = .ok port ∨ hdr.destinationPort = .ok port) :
    half segment 0 = some port ∨ half segment 2 = some port := by
  rcases parseScaled_inv (by decide) h with ⟨_, _, _, _, _, _, _, rfl⟩
  rcases hport with hsrc | hdst
  · exact Or.inl (half_segment_of_u16 rfl (by decide) hsrc)
  · exact Or.inr (half_segment_of_u16 rfl (by decide) hdst)

/-- A UDP datagram shows its ports in its first four bytes. -/
theorem UdpHeader.ports_of_parse {segment payload : List UInt8} {hdr : UdpHeader}
    {port : UInt16} (h : UdpHeader.parse segment = .ok (.ok (hdr, payload)))
    (hport : hdr.sourcePort = .ok port ∨ hdr.destinationPort = .ok port) :
    half segment 0 = some port ∨ half segment 2 = some port := by
  rcases parseFixed_inv h with ⟨_, _, _, rfl⟩
  rcases hport with hsrc | hdst
  · exact Or.inl (half_segment_of_u16 rfl (by decide) hsrc)
  · exact Or.inr (half_segment_of_u16 rfl (by decide) hdst)

/-- A frame that carries a segment with the port in it gets past the port
program, whatever the length of its IP header: over IPv4 the loads find the
ports where the parsers do, over IPv6 the EtherType alone decides. -/
theorem accepts_of_carriesSegment {port : UInt16} {frame segment : List UInt8} {number : UInt8}
    (h : CarriesSegment frame number segment)
    (hport : half segment 0 = some port ∨ half segment 2 = some port) :
    Accepts (portFilter port) frame := by
  rw [accepts_portFilter_iff]
  cases h with
  | v4 ip hip hproto =>
      rcases hip.inv with ⟨hety, hlen, b, p, hb, hp, -, rfl⟩
      refine ⟨0x0800, hety, Or.inr ⟨p, hp, Or.inr ⟨b, hb, ?_⟩⟩⟩
      rw [half_drop, half_drop] at hport
      -- the segment starts behind the IP header, where the indirect loads point
      have hshift : 14 + 4 * (b &&& 0x0f).toNat + 2 = 16 + 4 * (b &&& 0x0f).toNat := by omega
      rw [hshift] at hport
      exact hport
  | v6 ip hip hproto =>
      -- an EtherType other than 0x0800 is accepted as it is
      rcases hip.inv with ⟨hety, -, -⟩
      exact ⟨0x86DD, hety, Or.inl (by decide)⟩

/-- The kernel filter never drops a packet the analyzer would have reported on
the port. -/
theorem portFilter_complete (port : UInt16) (frame : List UInt8)
    (h : ReportedOnPort port frame) : Accepts (portFilter port) frame := by
  cases h with
  | tcp hseg hparse hport =>
      exact accepts_of_carriesSegment hseg (TcpHeader.ports_of_parse hparse hport)
  | udp hseg hparse hport =>
      exact accepts_of_carriesSegment hseg (UdpHeader.ports_of_parse hparse hport)

/-- A DNS query over IPv4: ports 40000 and 53, no payload. -/
def dnsFrame : List UInt8 :=
  [0, 0, 0, 0, 0, 0, 0, 0, 0, 0, 0, 0, 0x08, 0x00,
    0x45, 0, 0, 28, 0, 0, 0, 0, 64, 17, 0, 0, 10, 0, 0, 1, 10, 0, 0, 2,
    0x9c, 0x40, 0, 53, 0, 8, 0, 0]

theorem portFilter_complete_dns :
    ReportedOnPort 53 dnsFrame ∧ Accepts (portFilter 53) dnsFrame := by
  have h : ReportedOnPort 53 dnsFrame :=
    @ReportedOnPort.udp 53 dnsFrame (dnsFrame.drop 34) [] ⟨⟨dnsFrame.drop 34, by decide⟩⟩
      (.v4 ⟨⟨(dnsFrame.drop 14).take 20, by decide⟩⟩
        ⟨⟨⟨dnsFrame.take 14, by decide⟩⟩, dnsFrame.drop 14, rfl, rfl, rfl⟩ rfl)
      rfl (Or.inr rfl)
  exact ⟨h, portFilter_complete 53 dnsFrame h⟩

end NetZer

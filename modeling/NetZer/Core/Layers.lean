import NetZer.Core.Headers

/-! # What a frame carries

The parser chain Ethernet → IPv4 or IPv6 → TCP or UDP as one relation between
a frame and what comes out at its end, and the bytes of the frame it reads on
the way.
-/

namespace NetZer

open Rust Bytes

/-- The frame is dissected as an IPv4 datagram. -/
def CarriesIpv4 (frame : List UInt8) (ip : Ipv4Header) (payload : List UInt8) : Prop :=
  ∃ eth rest, EthernetFrame.parse frame = .ok (.ok (eth, rest)) ∧
    eth.ethertype = .ok .ipv4 ∧ Ipv4Header.parse rest = .ok (.ok (ip, payload))

/-- The frame is dissected as an IPv6 datagram. -/
def CarriesIpv6 (frame : List UInt8) (ip : Ipv6Header) (payload : List UInt8) : Prop :=
  ∃ eth rest, EthernetFrame.parse frame = .ok (.ok (eth, rest)) ∧
    eth.ethertype = .ok .ipv6 ∧ Ipv6Header.parse rest = .ok (.ok (ip, payload))

/-- The frame carries a transport segment of the given protocol number, over
either version of IP. -/
inductive CarriesSegment (frame : List UInt8) (number : UInt8) (segment : List UInt8) : Prop where
  | v4 (ip : Ipv4Header) : CarriesIpv4 frame ip segment → ip.protocol = .ok number →
      CarriesSegment frame number segment
  | v6 (ip : Ipv6Header) : CarriesIpv6 frame ip segment → ip.nextHeader = .ok number →
      CarriesSegment frame number segment

/-! ## Reading the frame -/

/-- An EtherType is decoded from one value only, except `other`. -/
theorem EtherType.from_eq_ipv4 {w : UInt16} : EtherType.from w = .ipv4 ↔ w = 0x0800 := by
  unfold EtherType.from
  split_ifs <;> simp_all

theorem EtherType.from_eq_ipv6 {w : UInt16} : EtherType.from w = .ipv6 ↔ w = 0x86DD := by
  unfold EtherType.from
  split_ifs <;> simp_all

theorem EthernetFrame.ethertype_eq (eth : EthernetFrame) :
    ∃ w, half eth.buffer.bytes 12 = some w ∧ eth.ethertype = .ok (.from w) := by
  rcases Buf.u16_ok (b := eth.buffer) (i := 12) (by decide) with ⟨w, hw, hrun⟩
  exact ⟨w, hw, by simp [ethertype, hrun, bind, Except.bind, pure, Except.pure]⟩

/-- The EtherType of a parsed frame is the word at offset 12. -/
theorem EthernetFrame.parse_inv {frame rest : List UInt8} {eth : EthernetFrame}
    (h : EthernetFrame.parse frame = .ok (.ok (eth, rest))) :
    14 ≤ frame.length ∧ rest = frame.drop 14 ∧
      ∃ w, half frame 12 = some w ∧ eth.ethertype = .ok (.from w) := by
  rcases parseFixed_inv h with ⟨hlen, hrest, _, rfl⟩
  obtain ⟨w, hw, hrun⟩ := EthernetFrame.ethertype_eq ⟨⟨frame.take ethernetHeaderLen, by assumption⟩⟩
  rw [half_take (by decide)] at hw
  exact ⟨hlen, hrest, w, hw, hrun⟩

/-- An IPv4 datagram in terms of the frame's bytes: its header length and
protocol number, and where its payload starts. -/
theorem CarriesIpv4.inv {frame payload : List UInt8} {ip : Ipv4Header}
    (h : CarriesIpv4 frame ip payload) :
    half frame 12 = some 0x0800 ∧ 34 ≤ frame.length ∧
      ∃ b p, frame[14]? = some b ∧ frame[23]? = some p ∧ ip.protocol = .ok p ∧
        payload = frame.drop (14 + 4 * (b &&& 0x0F).toNat) := by
  rcases h with ⟨eth, rest, heth, hety, hip⟩
  rcases EthernetFrame.parse_inv heth with ⟨hlen, rfl, w, hw, hrun⟩
  rw [hrun] at hety
  have hw4 : w = 0x0800 := EtherType.from_eq_ipv4.mp (Except.ok.inj hety)
  rcases parseScaled_inv (by decide) hip with ⟨b, hb, hmin, hmin4, hle, rfl, hn, rfl⟩
  have hmin' : 20 ≤ frame.length - 14 := by simpa [ipv4HeaderMinLen] using hmin
  rcases Buf.u8_ok (b := ⟨_, hn⟩) (i := 9) (by decide) with ⟨p, hp, hproto⟩
  refine ⟨hw4 ▸ hw, by omega, b, p, by simpa using hb, ?_, hproto, ?_⟩
  · have hlt : 9 < (b &&& 0x0F).toNat * 4 := Nat.lt_of_lt_of_le (by decide) hmin4
    rwa [List.getElem?_take_of_lt hlt, List.getElem?_drop] at hp
  · simp [Nat.mul_comm]

/-- An IPv6 datagram in terms of the frame's bytes. -/
theorem CarriesIpv6.inv {frame payload : List UInt8} {ip : Ipv6Header}
    (h : CarriesIpv6 frame ip payload) :
    half frame 12 = some 0x86DD ∧ 54 ≤ frame.length ∧ payload = frame.drop 54 := by
  rcases h with ⟨eth, rest, heth, hety, hip⟩
  rcases EthernetFrame.parse_inv heth with ⟨hlen, rfl, w, hw, hrun⟩
  rw [hrun] at hety
  have hw6 : w = 0x86DD := EtherType.from_eq_ipv6.mp (Except.ok.inj hety)
  rcases parseFixed_inv hip with ⟨hmin, rfl, -⟩
  have hmin' : 40 ≤ frame.length - 14 := by simpa [ipv6HeaderLen] using hmin
  exact ⟨hw6 ▸ hw, by omega, by simp [ipv6HeaderLen]⟩

/-! ## Trailing bytes -/

/-- Bytes after the frame end up after the datagram's payload. -/
theorem CarriesIpv4.append {frame payload : List UInt8} {ip : Ipv4Header}
    (h : CarriesIpv4 frame ip payload) (pad : List UInt8) :
    CarriesIpv4 (frame ++ pad) ip (payload ++ pad) := by
  rcases h with ⟨eth, rest, heth, hety, hip⟩
  exact ⟨eth, rest ++ pad, parseFixed_append pad heth, hety,
    parseScaled_append (by decide) pad hip⟩

theorem CarriesIpv6.append {frame payload : List UInt8} {ip : Ipv6Header}
    (h : CarriesIpv6 frame ip payload) (pad : List UInt8) :
    CarriesIpv6 (frame ++ pad) ip (payload ++ pad) := by
  rcases h with ⟨eth, rest, heth, hety, hip⟩
  exact ⟨eth, rest ++ pad, parseFixed_append pad heth, hety, parseFixed_append pad hip⟩

end NetZer

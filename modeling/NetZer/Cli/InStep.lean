import NetZer.Cli.Capture
import NetZer.Cli.FrameCases
import NetZer.Cli.PanicFree

/-! # The JSON export and the dashboard

Every handler builds the JSON line and the broadcast message separately. They
are in step on a packet if there is one record, or none, that goes to each of
the two outputs that is on. They are, but for the name of the protocol: two
handlers give the dashboard another name than the JSON file.
-/

namespace NetZer

open Rust

/-- One record at most, the same for both outputs. -/
def InStep (out : Outputs) (calls : List Call) : Prop :=
  ∃ record : Option Record,
    calls.filterMap Call.jsonRecord = (if out.jsonWriter then record.toList else []) ∧
      calls.filterMap Call.webRecord = (if out.webServer then record.toList else [])

/-- The frame goes through a handler that names its protocol twice: to or from
port 53, or as ICMPv6. -/
inductive NamedTwice (frame : List UInt8) : Prop where
  | dns {segment payload : List UInt8} {srcPort dstPort : UInt16} :
      CarriesSegment frame 17 segment → UdpSegment segment srcPort dstPort payload →
      dstPort = 53 ∨ srcPort = 53 → (∃ i, dnsInfo payload = .ok i) → NamedTwice frame
  | icmpv6 {ip : Ipv6Header} {segment rest : List UInt8} {icmp : IcmpHeader} :
      CarriesIpv6 frame ip segment → ip.nextHeader = .ok 58 →
      IcmpHeader.parse segment = .ok (.ok (icmp, rest)) → NamedTwice frame

/-! ## One packet -/

/-- The two records of a report are the same up to the name of the protocol. -/
theorem Reporting.jsonRecord_eq_webRecord_iff (g : Reporting) (timeStr : String) (size : Nat) :
    g.jsonRecord timeStr size = g.webRecord timeStr size ↔ g.protoLog = g.protoName := by
  simp [Reporting.jsonRecord, Reporting.webRecord]

theorem Packet.inStep_iff (out : Outputs) (tracker : Option TcpStreamTracker) (p : Packet) :
    InStep out (p.process out tracker).trace ↔
      (out.jsonWriter = true → out.webServer = true →
        ∀ g, p.reported = some g → g.protoLog = g.protoName) := by
  rw [InStep, p.process_jsonRecord, p.process_webRecord]
  constructor
  · rintro ⟨record, hjson, hweb⟩ hj hw g hg
    rw [if_pos hj, if_pos hj, hg] at hjson
    rw [if_pos hw, if_pos hw, hg] at hweb
    have hsame : g.jsonRecord p.time.display p.frame.length =
        g.webRecord p.time.display p.frame.length := by
      have hlists := hjson.trans hweb.symm
      simpa using hlists
    exact (g.jsonRecord_eq_webRecord_iff _ _).mp hsame
  · intro h
    -- with one of them off, the record is what the other one has
    by_cases hj : out.jsonWriter = true
    · refine ⟨p.reported.map fun g => g.jsonRecord p.time.display p.frame.length, rfl, ?_⟩
      by_cases hw : out.webServer = true
      · rw [if_pos hw, if_pos hw]
        cases hg : p.reported with
        | none => rfl
        | some g =>
            have hsame := (g.jsonRecord_eq_webRecord_iff p.time.display p.frame.length).mpr
              (h hj hw g hg)
            simp [hsame]
      · rw [if_neg hw, if_neg hw]
    · refine ⟨p.reported.map fun g => g.webRecord p.time.display p.frame.length, ?_, rfl⟩
      rw [if_neg hj, if_neg hj]

theorem dnsInfo_isDns {payload : List UInt8} {i : UdpInfo} (h : dnsInfo payload = .ok i) :
    i.isDns = true := by
  rcases DnsQuery.parse_returns payload with ⟨res, hparse⟩
  rcases res with e | dns
  · simp only [dnsInfo, hparse, ok_bind, pure, Except.pure, Except.ok.injEq] at h
    rw [← h]
  · simp only [dnsInfo, hparse, ok_bind] at h
    rcases bind_eq_ok.mp h with ⟨name, _, hi⟩
    rw [← Except.ok.inj hi]

theorem differ_of_namedTwice {frame : List UInt8} (h : NamedTwice frame) :
    ∃ g, frameReport frame = .ok (some g) ∧ g.protoLog ≠ g.protoName := by
  cases h with
  | @dns segment payload srcPort dstPort hcarries hseg hport hreturns =>
      rcases hreturns with ⟨i, hi⟩
      rcases frameReport_of_udp hcarries with ⟨srcIp, dstIp, _, _, hreport⟩
      refine ⟨i.reporting (endpoint srcIp srcPort) (endpoint dstIp dstPort), ?_, ?_⟩
      · rw [hreport, udpReport_of_segment hseg, udpText, if_pos hport, hi]
        rfl
      · simp [UdpInfo.reporting, dnsInfo_isDns hi]
  | @icmpv6 ip segment rest icmp hcarries hnext hparse =>
      rcases ip.source_returns with ⟨src, hsrc⟩
      rcases ip.destination_returns with ⟨dst, hdst⟩
      rcases describeIcmpv6_returns icmp with ⟨infoRaw, hdescribe⟩
      refine ⟨icmpReporting "ICMP6" "ICMPv6" "ICMP6" src.display dst.display infoRaw, ?_, ?_⟩
      · rw [frameReport_of_ipv6 hcarries hsrc hdst hnext]
        simp only [ipv6Report, icmpReport, hparse, hdescribe, ok_bind]
        rfl
      · simp [icmpReporting]

theorem namedTwice_of_differ {frame : List UInt8} {g : Reporting}
    (hg : frameReport frame = .ok (some g)) (hne : g.protoLog ≠ g.protoName) :
    NamedTwice frame := by
  have hcase := frameReport_case frame
  generalize frameReport frame = x at hcase hg
  -- only DNS queries and ICMPv6 have two names
  cases hcase with
  | silent => cases hg
  | tcp _ _ _ _ =>
      rcases returned_some hg with ⟨i, _, rfl⟩
      exact absurd rfl hne
  | @udp segment payload srcPort dstPort _ _ hcarries hseg _ _ =>
      rcases returned_some hg with ⟨i, hi, rfl⟩
      by_cases hport : dstPort = 53 ∨ srcPort = 53
      · rw [udpText, if_pos hport] at hi
        exact .dns hcarries hseg hport ⟨i, hi⟩
      · rw [udpText, if_neg hport] at hi
        rw [← Except.ok.inj hi] at hne
        exact absurd rfl hne
  | icmp icmp _ _ =>
      rcases returned_some hg with ⟨infoRaw, _, rfl⟩
      exact absurd rfl hne
  | icmpv6 hcarries hnext hparse _ _ => exact .icmpv6 hcarries hnext hparse
  | arp arp _ _ =>
      rcases bind_eq_ok.mp hg with ⟨infoRaw, _, hshown⟩
      rcases returned_some hshown with ⟨shown, _, rfl⟩
      exact absurd rfl hne

/-! ## The run -/

/-- The JSON export and the dashboard are in step on every packet of a run if
and only if they are not both on, or no packet of it is named twice. -/
theorem in_step_iff (out : Outputs) (tracker : Option TcpStreamTracker) (packets : List Packet) :
    (∀ e ∈ capture out tracker packets, InStep out e.2) ↔
      (out.jsonWriter = true → out.webServer = true →
        ∀ e ∈ capture out tracker packets, ¬ NamedTwice e.1.frame) := by
  -- packet by packet
  have hone : ∀ e ∈ capture out tracker packets,
      (InStep out e.2 ↔
        (out.jsonWriter = true → out.webServer = true → ¬ NamedTwice e.1.frame)) := by
    refine capture_forall (P := fun p calls => InStep out calls ↔
      (out.jsonWriter = true → out.webServer = true → ¬ NamedTwice p.frame)) ?_ tracker packets
    intro tracker p
    rw [p.inStep_iff]
    constructor
    · intro h hj hw htwice
      rcases differ_of_namedTwice htwice with ⟨g, hg, hne⟩
      exact hne (h hj hw g (Packet.reported_eq_some_iff.mpr hg))
    · intro h hj hw g hg
      by_contra hne
      exact h hj hw (namedTwice_of_differ (Packet.reported_eq_some_iff.mp hg) hne)
  constructor
  · intro h hj hw e he
    exact (hone e he).mp (h e he) hj hw
  · intro h e he
    exact (hone e he).mpr fun hj hw => h hj hw e he

/-- A UDP datagram to port 53 without a payload. -/
def dnsPacket : Packet :=
  { frame := List.replicate 12 0 ++ [0x08, 0x00] ++
      [0x45, 0, 0, 28, 0, 0, 0, 0, 64, 17, 0, 0, 10, 0, 0, 1, 10, 0, 0, 2] ++
      [0xc0, 0x00, 0, 53, 0, 8, 0, 0]
    sinceEpoch := none
    time := midnight }

/-- It is `UDP` in the JSON file and `DNS` on the dashboard. -/
theorem out_of_step_dns :
    ¬ ∀ (out : Outputs) (tracker : Option TcpStreamTracker) (packets : List Packet),
      ∀ e ∈ capture out tracker packets, InStep out e.2 := by
  intro hall
  rcases hall ⟨false, true, false, true⟩ none [dnsPacket] _ (List.mem_cons_self ..) with
    ⟨record, hjson, hweb⟩
  have hdiffer : (dnsPacket.process ⟨false, true, false, true⟩ none).trace.filterMap
        Call.jsonRecord ≠
      (dnsPacket.process ⟨false, true, false, true⟩ none).trace.filterMap Call.webRecord := by
    decide
  exact hdiffer (hjson.trans hweb.symm)

end NetZer

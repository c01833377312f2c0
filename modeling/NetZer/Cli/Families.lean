import NetZer.Cli.Dissection

/-! # TCP over IPv4 and over IPv6

The IPv4 arm of `process_packet` feeds the stream tracker, the IPv6 arm does
not. Both report a segment alike, so the difference is that of a segment that
carries data: it never reaches a stream buffer over IPv6.
-/

namespace NetZer

open Rust Rust.Traced

/-- The segment's ports and payload, as `TcpHeader` reads them. -/
structure TcpSegment (segment : List UInt8) (srcPort dstPort : UInt16) (payload : List UInt8) :
    Prop where
  parse : ∃ tcp, TcpHeader.parse segment = .ok (.ok (tcp, payload)) ∧
    tcp.sourcePort = .ok srcPort ∧ tcp.destinationPort = .ok dstPort

/-- The frame carries the segment over IPv4, between these addresses. -/
structure TcpOverIpv4 (frame : List UInt8) (src dst : Ipv4Address) (segment : List UInt8) :
    Prop where
  carries : ∃ ip, CarriesIpv4 frame ip segment ∧ ip.protocol = .ok 6 ∧ ip.source = .ok src ∧
    ip.destination = .ok dst

/-- The frame carries the segment over IPv6, without extension headers. -/
structure TcpOverIpv6 (frame : List UInt8) (src dst : Ipv6Address) (segment : List UInt8) :
    Prop where
  carries : ∃ ip, CarriesIpv6 frame ip segment ∧ ip.nextHeader = .ok 6 ∧ ip.source = .ok src ∧
    ip.destination = .ok dst

/-! ## What can be told of a run -/

/-- A segment that reaches a stream buffer. Feeding an empty payload leaves
the tracker as it is. -/
def Call.fedSegment : Call → Option FeedCall
  | .feed call => if call.payload = [] then none else some call
  | _ => none

/-- A flush that is printed. -/
def Call.flush : Call → Option (List ColoredString)
  | .printStream lines => some lines
  | _ => none

/-- A record: the terminal line, the JSON line or the broadcast, without size
and raw bytes. -/
def Call.record (c : Call) : Option Call :=
  match c with
  | .printPacketLine .. | .jsonWrite _ | .broadcast .. => c.core
  | _ => none

/-- The run feeds the tracker with the call: the segment reaches a buffer
unless it is empty, what `feed` flushes is printed, and the tracker is left as
`feed` leaves it. -/
structure Feeds (t : TcpStreamTracker) (call : FeedCall) (x : Act (Option TcpStreamTracker)) :
    Prop where
  fed : x.trace.filterMap Call.fedSegment = [Call.feed call].filterMap Call.fedSegment
  flushed : x.trace.filterMap Call.flush =
    (t.feed call).2.toList.map fun (_, data) => streamDump data
  tracker : ∀ t', x.result = .ok t' → t' = some (t.feed call).1

/-- The same record but for the text of the addresses. -/
inductive Record.SameBut (src dst src' dst' : String) : Record → Record → Prop where
  | mk {timestamp proto s d info : String} {size : Nat} :
      SameBut src dst src' dst'
        { timestamp := timestamp, proto := proto, src := src ++ s, dst := dst ++ d, info := info,
          size := size }
        { timestamp := timestamp, proto := proto, src := src' ++ s, dst := dst' ++ d, info := info,
          size := size }

inductive Call.SameBut (src dst src' dst' : String) : Call → Call → Prop where
  | line {timeStr s d : String} {proto info : ColoredString} {size : Nat} :
      SameBut src dst src' dst'
        (.printPacketLine timeStr proto (src ++ s) (dst ++ d) info size)
        (.printPacketLine timeStr proto (src' ++ s) (dst' ++ d) info size)
  | json {record record' : Record} : Record.SameBut src dst src' dst' record record' →
      SameBut src dst src' dst' (.jsonWrite record) (.jsonWrite record')
  | broadcast {record record' : Record} {rawHex : String} :
      Record.SameBut src dst src' dst' record record' →
      SameBut src dst src' dst' (.broadcast record rawHex) (.broadcast record' rawHex)

/-- A segment is treated alike over the two versions of IP: both runs feed the
tracker with its ports and payload under their addresses, and their records
differ in the addresses only. -/
structure TreatedAlike (t : TcpStreamTracker) (call4 call6 : FeedCall)
    (x4 x6 : Act (Option TcpStreamTracker)) : Prop where
  ipv4 : Feeds t call4 x4
  ipv6 : Feeds t call6 x6
  records : List.Forall₂ (Call.SameBut call4.srcIp call4.dstIp call6.srcIp call6.dstIp)
    (x4.trace.filterMap Call.record) (x6.trace.filterMap Call.record)

/-! ## The tracker is fed over IPv4 only -/

/-- The call does not concern the stream tracker. -/
def Call.Untracked : Call → Prop
  | .feed _ | .printStream _ => False
  | _ => True

theorem Call.fedSegment_of_untracked (c : Call) (h : c.Untracked) : c.fedSegment = none := by
  cases c with
  | feed call => exact h.elim
  | _ => rfl

theorem Call.flush_of_untracked (c : Call) (h : c.Untracked) : c.flush = none := by
  cases c with
  | printStream lines => exact h.elim
  | _ => rfl

section

variable {out : Outputs} {r r' : Report} {tracker : Option TcpStreamTracker} {srcIp dstIp : String}
  {segment payload : List UInt8} {srcPort dstPort : UInt16}

theorem report_untracked {proto info : ColoredString} {infoRaw protoLog protoName : String} :
    EmitsOnly Call.Untracked
      (report out r proto info srcIp dstIp infoRaw protoLog protoName) := by
  refine .bind (.emit trivial) ?_
  intro _
  exact .bind (.emitIf _ trivial) fun _ => .emitIf _ trivial

theorem tcpDetection_untracked : (tcpDetection dstPort payload).Untracked := by
  unfold tcpDetection
  split <;> trivial

theorem handleTcp_untracked :
    EmitsOnly Call.Untracked (handleTcp out r srcIp dstIp segment) := by
  refine .bind (.lift _) ?_
  intro res
  rcases res with e | ⟨tcp, payload⟩
  · exact .pure _
  · refine .bind (.lift _) fun srcPort => .bind (.lift _) fun dstPort => ?_
    exact .bind (.emit tcpDetection_untracked) fun _ => .bind (.lift _) fun _ => report_untracked

theorem handleUdp_untracked :
    EmitsOnly Call.Untracked (handleUdp out r srcIp dstIp segment) := by
  refine .bind (.lift _) ?_
  intro res
  rcases res with e | ⟨udp, payload⟩
  · exact .pure _
  · refine .bind (.lift _) fun srcPort => .bind (.lift _) fun dstPort => ?_
    refine .bind (.ite (.bind (.emit trivial) fun _ => .lift _) (.pure _)) fun _ => ?_
    exact report_untracked

theorem handleIcmpWith_untracked {describe : IcmpHeader → Run String}
    {proto protoLog protoName : String} :
    EmitsOnly Call.Untracked
      (handleIcmpWith describe proto protoLog protoName out r srcIp dstIp segment) := by
  refine .bind (.lift _) ?_
  intro res
  rcases res with e | ⟨icmp, _⟩
  · exact .pure _
  · exact .bind (.lift _) fun _ => report_untracked

theorem dispatchIpv6_untracked {number : UInt8} :
    EmitsOnly Call.Untracked (dispatchIpv6 out r srcIp dstIp number segment) := by
  refine .ite handleTcp_untracked (.ite handleUdp_untracked ?_)
  exact .ite handleIcmpWith_untracked (.pure _)

/-- Over IPv6 the tracker is neither fed nor changed, whatever the packet. -/
theorem processPacket_ipv6_untracked {frame : List UInt8} {ip : Ipv6Header}
    (h : CarriesIpv6 frame ip segment) (out : Outputs) (timeStr : String)
    (tracker : Option TcpStreamTracker) (size : Nat) :
    EmitsOnly Call.Untracked (processPacket out timeStr tracker frame size) ∧
      ∀ t', (processPacket out timeStr tracker frame size).result = .ok t' → t' = tracker := by
  rcases ip.source_returns with ⟨src, hsrc⟩
  rcases ip.destination_returns with ⟨dst, hdst⟩
  rcases ip.nextHeader_returns with ⟨number, hnumber⟩
  rcases processPacket_of_ipv6 h hsrc hdst hnumber out timeStr tracker size with ⟨rawHex, hrun⟩
  rw [hrun]
  constructor
  · refine .bind (.emitIf _ trivial) ?_
    intro _
    refine .bind (.ite (.bind (.lift _) fun _ => .emit trivial) (.pure _)) fun _ => ?_
    exact .bind dispatchIpv6_untracked fun _ => .pure _
  · intro t' hresult
    rw [(sameDissection_raw _ _ _).result] at hresult
    exact returned_of_seq hresult

/-! ## The records of a segment -/

variable {srcIp' dstIp' : String}

theorem report_trace {proto info : ColoredString} {infoRaw protoLog protoName : String} :
    (report out r proto info srcIp dstIp infoRaw protoLog protoName).trace =
      [.printPacketLine r.timeStr proto srcIp dstIp info r.size] ++
      (if out.jsonWriter then
        [.jsonWrite ⟨r.timeStr, protoLog, srcIp, dstIp, infoRaw, r.size⟩] else []) ++
      (if out.webServer then
        [.broadcast ⟨r.timeStr, protoName, srcIp, dstIp, infoRaw, r.size⟩ r.rawHex] else []) := by
  simp [report, bind_of_ok]

theorem report_records (htime : r.timeStr = r'.timeStr) {proto info : ColoredString}
    {s d infoRaw protoLog protoName : String} :
    List.Forall₂ (Call.SameBut srcIp dstIp srcIp' dstIp')
      ((report out r proto info (srcIp ++ s) (dstIp ++ d) infoRaw protoLog
        protoName).trace.filterMap Call.record)
      ((report out r' proto info (srcIp' ++ s) (dstIp' ++ d) infoRaw protoLog
        protoName).trace.filterMap Call.record) := by
  rw [report_trace, report_trace, htime]
  cases out.jsonWriter <;> cases out.webServer
  · exact .cons .line .nil
  · exact .cons .line (.cons (.broadcast .mk) .nil)
  · exact .cons .line (.cons (.json .mk) .nil)
  · exact .cons .line (.cons (.json .mk) (.cons (.broadcast .mk) .nil))

theorem handleTcp_records (hseg : TcpSegment segment srcPort dstPort payload)
    (htime : r.timeStr = r'.timeStr) :
    List.Forall₂ (Call.SameBut srcIp dstIp srcIp' dstIp')
      ((handleTcp out r srcIp dstIp segment).trace.filterMap Call.record)
      ((handleTcp out r' srcIp' dstIp' segment).trace.filterMap Call.record) := by
  rcases hseg.parse with ⟨tcp, h, hsrc, hdst⟩
  -- the detection sees ports and payload only, so both runs report alike
  have hdetection : (tcpDetection dstPort payload).record = none := by
    unfold tcpDetection
    split <;> rfl
  rw [handleTcp_of_ok h hsrc hdst, handleTcp_of_ok h hsrc hdst]
  simp only [trace_emit_bind, trace_lift_bind, List.filterMap_cons, hdetection]
  cases tcpInfo dstPort payload with
  | error p => exact .nil
  | ok i =>
      simp only [endpoint, String.append_assoc]
      exact report_records htime

/-! ## The two arms -/

theorem printFlush_eq (flushed : Option (StreamKey × List UInt8)) :
    printFlush flushed =
      ⟨flushed.toList.map fun (_, data) => .printStream (streamDump data), .ok ()⟩ := by
  cases flushed <;> rfl

/-- Over IPv4 the segment is fed first, and what the tracker flushes printed;
then the segment is handled. -/
theorem followTcp_trace (hseg : TcpSegment segment srcPort dstPort payload)
    (t : TcpStreamTracker) :
    (followTcp out r (some t) srcIp dstIp segment).trace =
      .feed ⟨srcIp, srcPort, dstIp, dstPort, payload⟩ ::
      ((t.feed ⟨srcIp, srcPort, dstIp, dstPort, payload⟩).2.toList.map fun (_, data) =>
        Call.printStream (streamDump data)) ++
      (handleTcp out r srcIp dstIp segment).trace := by
  rcases hseg.parse with ⟨tcp, h, hsrc, hdst⟩
  rw [followTcp_of_ok h hsrc hdst]
  simp only [feedTracker, bind_assoc, pure_bind, trace_emit_bind, printFlush_eq]
  rw [bind_of_ok rfl]
  simp only [trace_seq, List.cons_append]

theorem followTcp_result (hseg : TcpSegment segment srcPort dstPort payload)
    (t : TcpStreamTracker) {t' : Option TcpStreamTracker}
    (hresult : (followTcp out r (some t) srcIp dstIp segment).result = .ok t') :
    t' = some (t.feed ⟨srcIp, srcPort, dstIp, dstPort, payload⟩).1 := by
  rcases hseg.parse with ⟨tcp, h, hsrc, hdst⟩
  rw [followTcp_of_ok h hsrc hdst] at hresult
  simp only [feedTracker, bind_assoc, pure_bind, result_emit_bind, printFlush_eq] at hresult
  rw [bind_of_ok rfl] at hresult
  exact returned_of_seq hresult

theorem followTcp_feeds (hseg : TcpSegment segment srcPort dstPort payload)
    (t : TcpStreamTracker) :
    Feeds t ⟨srcIp, srcPort, dstIp, dstPort, payload⟩
      (followTcp out r (some t) srcIp dstIp segment) := by
  have hquiet : EmitsOnly Call.Untracked (handleTcp out r srcIp dstIp segment) :=
    handleTcp_untracked
  refine ⟨?_, ?_, fun t' => followTcp_result hseg t⟩
  · have hfed := hquiet.filterMap_eq_nil Call.fedSegment Call.fedSegment_of_untracked
    rw [followTcp_trace hseg, List.filterMap_append, hfed, List.append_nil]
    cases (t.feed ⟨srcIp, srcPort, dstIp, dstPort, payload⟩).2 <;>
      by_cases hpayload : payload = [] <;> simp [Call.fedSegment, hpayload]
  · have hflush := hquiet.filterMap_eq_nil Call.flush Call.flush_of_untracked
    rw [followTcp_trace hseg, List.filterMap_append, hflush, List.append_nil]
    cases (t.feed ⟨srcIp, srcPort, dstIp, dstPort, payload⟩).2 <;>
      simp [List.filterMap_cons, Call.flush]

theorem followTcp_records (hseg : TcpSegment segment srcPort dstPort payload)
    (t : TcpStreamTracker) :
    (followTcp out r (some t) srcIp dstIp segment).trace.filterMap Call.record =
      (handleTcp out r srcIp dstIp segment).trace.filterMap Call.record := by
  rw [followTcp_trace hseg, List.filterMap_append]
  cases (t.feed ⟨srcIp, srcPort, dstIp, dstPort, payload⟩).2 <;>
    simp [List.filterMap_cons, Call.record]

/-- Over IPv6 an empty segment leaves the tracker as feeding it would. -/
theorem untracked_feeds_nil {x : Act (Option TcpStreamTracker)} {t : TcpStreamTracker}
    (hquiet : EmitsOnly Call.Untracked x) (hresult : ∀ t', x.result = .ok t' → t' = some t) :
    Feeds t ⟨srcIp, srcPort, dstIp, dstPort, []⟩ x := by
  refine ⟨?_, ?_, ?_⟩
  · rw [hquiet.filterMap_eq_nil _ Call.fedSegment_of_untracked]
    rfl
  · rw [hquiet.filterMap_eq_nil _ Call.flush_of_untracked]
    rfl
  · exact hresult

/-! ## The packet -/

/-- The views of a run do not depend on sizes and raw bytes. -/
theorem SameDissection.feeds {x y : Act (Option TcpStreamTracker)} {t : TcpStreamTracker}
    {call : FeedCall} (h : SameDissection x y) (hy : Feeds t call y) : Feeds t call x := by
  have hfed := (h.coarsen Call.fedSegment Call.fedSegment fun c => by
    cases c <;> rfl).trace
  have hflush := (h.coarsen Call.flush Call.flush fun c => by cases c <;> rfl).trace
  exact ⟨hfed.trans hy.fed, hflush.trans hy.flushed, fun t' ht' => hy.tracker t' (h.result ▸ ht')⟩

theorem SameDissection.records {x y : Act (Option TcpStreamTracker)} (h : SameDissection x y) :
    x.trace.filterMap Call.record = y.trace.filterMap Call.record :=
  (h.coarsen Call.record Call.record fun c => by cases c <;> rfl).trace

end

/-- A TCP segment is treated alike over IPv4 and IPv6 if and only if it
carries no data. -/
theorem families_alike_iff {frame4 frame6 segment payload : List UInt8} {src4 dst4 : Ipv4Address}
    {src6 dst6 : Ipv6Address} {srcPort dstPort : UInt16}
    (h4 : TcpOverIpv4 frame4 src4 dst4 segment) (h6 : TcpOverIpv6 frame6 src6 dst6 segment)
    (hseg : TcpSegment segment srcPort dstPort payload) (out : Outputs) (timeStr : String)
    (t : TcpStreamTracker) :
    TreatedAlike t ⟨src4.display, srcPort, dst4.display, dstPort, payload⟩
        ⟨src6.display, srcPort, dst6.display, dstPort, payload⟩
        (processPacket out timeStr (some t) frame4 frame4.length)
        (processPacket out timeStr (some t) frame6 frame6.length) ↔
      payload = [] := by
  rcases h4.carries with ⟨ip4, hcarries4, hproto4, hsrc4, hdst4⟩
  rcases h6.carries with ⟨ip6, hcarries6, hnext6, hsrc6, hdst6⟩
  obtain ⟨hquiet6, hresult6⟩ := processPacket_ipv6_untracked hcarries6 out timeStr (some t)
    frame6.length
  constructor
  · intro halike
    by_contra hpayload
    -- the IPv6 run feeds nothing
    have hfed := halike.ipv6.fed
    rw [hquiet6.filterMap_eq_nil _ Call.fedSegment_of_untracked] at hfed
    simp [Call.fedSegment, hpayload] at hfed
  · intro hpayload
    obtain ⟨hex4, hrun4⟩ := processPacket_of_ipv4 hcarries4 hsrc4 hdst4 hproto4 out timeStr
      (some t) frame4.length
    obtain ⟨hex6, hrun6⟩ := processPacket_of_ipv6 hcarries6 hsrc6 hdst6 hnext6 out timeStr
      (some t) frame6.length
    -- what is left of each run behind its raw outputs
    have hsame4 := hrun4 ▸ sameDissection_raw out frame4
      (followTcp out ⟨timeStr, frame4.length, hex4⟩ (some t) src4.display dst4.display segment)
    have hsame6 := hrun6 ▸ sameDissection_raw out frame6
      (do handleTcp out ⟨timeStr, frame6.length, hex6⟩ src6.display dst6.display segment
          return some t)
    refine ⟨hsame4.feeds (followTcp_feeds hseg t), ?_, ?_⟩
    · subst hpayload
      exact untracked_feeds_nil hquiet6 hresult6
    · rw [hsame4.records, hsame6.records, followTcp_records hseg, trace_seq]
      exact handleTcp_records hseg rfl

/-! ## Segments over both versions -/

/-- A short segment from 10.0.0.1 to 10.0.0.2. -/
def overIpv4 (segment : List UInt8) : List UInt8 :=
  [0x00, 0x1a, 0x2b, 0x3c, 0x4d, 0x5e, 0x00, 0x1a, 0x2b, 0x3c, 0x4d, 0x5f, 0x08, 0x00] ++
  [0x45, 0, 0, UInt8.ofNat (20 + segment.length), 0, 1, 0x40, 0, 64, 6, 0, 0] ++
  [10, 0, 0, 1] ++ [10, 0, 0, 2] ++ segment

/-- The same segment from fe80::1 to fe80::2. -/
def overIpv6 (segment : List UInt8) : List UInt8 :=
  [0x00, 0x1a, 0x2b, 0x3c, 0x4d, 0x5e, 0x00, 0x1a, 0x2b, 0x3c, 0x4d, 0x5f, 0x86, 0xdd] ++
  [0x60, 0, 0, 0, 0, UInt8.ofNat segment.length, 6, 64] ++
  [0xfe, 0x80, 0, 0, 0, 0, 0, 0, 0, 0, 0, 0, 0, 0, 0, 1] ++
  [0xfe, 0x80, 0, 0, 0, 0, 0, 0, 0, 0, 0, 0, 0, 0, 0, 2] ++ segment

/-- A TCP header from port 49152 to port 80. -/
def tcpTo80 : List UInt8 :=
  [0xc0, 0x00, 0, 80, 0, 0, 0, 1, 0, 0, 0, 1, 0x50, 0x18, 0xff, 0xff, 0, 0, 0, 0]

/-- An empty segment is treated alike. -/
theorem families_alike_iff_empty :
    TreatedAlike .new ⟨"10.0.0.1", 49152, "10.0.0.2", 80, []⟩
      ⟨"fe80:0000:0000:0000:0000:0000:0000:0001", 49152,
        "fe80:0000:0000:0000:0000:0000:0000:0002", 80, []⟩
      (processPacket ⟨false, false, true, true⟩ "12:00:00.000" (some .new)
        (overIpv4 tcpTo80) (overIpv4 tcpTo80).length)
      (processPacket ⟨false, false, true, true⟩ "12:00:00.000" (some .new)
        (overIpv6 tcpTo80) (overIpv6 tcpTo80).length) := by
  have h4 : TcpOverIpv4 (overIpv4 tcpTo80) ⟨#v[10, 0, 0, 1]⟩ ⟨#v[10, 0, 0, 2]⟩ tcpTo80 :=
    ⟨_, ⟨_, _, rfl, rfl, rfl⟩, rfl, rfl, rfl⟩
  have h6 : TcpOverIpv6 (overIpv6 tcpTo80)
      ⟨#v[0xfe, 0x80, 0, 0, 0, 0, 0, 0, 0, 0, 0, 0, 0, 0, 0, 1]⟩
      ⟨#v[0xfe, 0x80, 0, 0, 0, 0, 0, 0, 0, 0, 0, 0, 0, 0, 0, 2]⟩ tcpTo80 :=
    ⟨_, ⟨_, _, rfl, rfl, rfl⟩, rfl, rfl, rfl⟩
  have hseg : TcpSegment tcpTo80 49152 80 [] := ⟨_, rfl, rfl, rfl⟩
  exact (families_alike_iff h4 h6 hseg _ _ _).mpr rfl

/-- The request is fed over IPv4 and lost over IPv6. -/
theorem request_treated_differently :
    TcpOverIpv4 (overIpv4 (tcpTo80 ++ asciiBytes "GET / HTTP/1.1\n")) ⟨#v[10, 0, 0, 1]⟩
      ⟨#v[10, 0, 0, 2]⟩ (tcpTo80 ++ asciiBytes "GET / HTTP/1.1\n") ∧
    TcpOverIpv6 (overIpv6 (tcpTo80 ++ asciiBytes "GET / HTTP/1.1\n"))
      ⟨#v[0xfe, 0x80, 0, 0, 0, 0, 0, 0, 0, 0, 0, 0, 0, 0, 0, 1]⟩
      ⟨#v[0xfe, 0x80, 0, 0, 0, 0, 0, 0, 0, 0, 0, 0, 0, 0, 0, 2]⟩
      (tcpTo80 ++ asciiBytes "GET / HTTP/1.1\n") ∧
    TcpSegment (tcpTo80 ++ asciiBytes "GET / HTTP/1.1\n") 49152 80
      (asciiBytes "GET / HTTP/1.1\n") ∧
    ¬ TreatedAlike .new
      ⟨"10.0.0.1", 49152, "10.0.0.2", 80, asciiBytes "GET / HTTP/1.1\n"⟩
      ⟨"fe80:0000:0000:0000:0000:0000:0000:0001", 49152,
        "fe80:0000:0000:0000:0000:0000:0000:0002", 80, asciiBytes "GET / HTTP/1.1\n"⟩
      (processPacket ⟨false, false, false, false⟩ "12:00:00.000" (some .new)
        (overIpv4 (tcpTo80 ++ asciiBytes "GET / HTTP/1.1\n")) 69)
      (processPacket ⟨false, false, false, false⟩ "12:00:00.000" (some .new)
        (overIpv6 (tcpTo80 ++ asciiBytes "GET / HTTP/1.1\n")) 89) := by
  refine ⟨⟨_, ⟨_, _, rfl, rfl, rfl⟩, rfl, rfl, rfl⟩, ⟨_, ⟨_, _, rfl, rfl, rfl⟩, rfl, rfl, rfl⟩,
    ⟨_, rfl, rfl, rfl⟩, fun halike => ?_⟩
  -- over IPv6 nothing is fed to the tracker
  have hfed := halike.ipv6.fed
  revert hfed
  decide

end NetZer

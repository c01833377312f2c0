import Mathlib.Data.List.Forall2
import NetZer.Cli.PcapExport

/-! # The outputs do not disturb each other

Which outputs are on, and whether streams are tracked, decides what is written
and printed, but nothing else: two runs over the same packets process the same
ones, detect the same in them, and give every output that both have on the same.
Nor does the clock decide anything but the time that is written down: a capture
file can be read back and processed once more, with the same outcome. The runs
are followed side by side, by an observer who sees of each call what the two have
in common.
-/

namespace NetZer

open Rust Rust.Traced

/-- A call of an output that is on or off in both runs alike; the calls of the
tracker, if it is the same in both. Of a time is seen what `stamp` leaves. -/
def Call.common (out out' : Outputs) (tracked : Bool) (stamp : String → String) :
    Call → Option Call
  | .pcapWrite data => if out.pcapWriter = out'.pcapWriter then some (.pcapWrite data) else none
  | .printDump dump => if out.showHexdump = out'.showHexdump then some (.printDump dump) else none
  | .feed call => if tracked then some (.feed call) else none
  | .printStream lines => if tracked then some (.printStream lines) else none
  | .tlsParse payload => some (.tlsParse payload)
  | .httpDetect payload => some (.httpDetect payload)
  | .dnsParse payload => some (.dnsParse payload)
  | .printPacketLine timeStr proto src dst info size =>
      some (.printPacketLine (stamp timeStr) proto src dst info size)
  | .jsonWrite record =>
      if out.jsonWriter = out'.jsonWriter then
        some (.jsonWrite { record with timestamp := stamp record.timestamp })
      else none
  | .broadcast record rawHex =>
      if out.webServer = out'.webServer then
        some (.broadcast { record with timestamp := stamp record.timestamp } rawHex)
      else none

/-- The trackers of the two runs. -/
def SameTracker (tracked : Bool) (tracker tracker' : Option TcpStreamTracker) : Prop :=
  tracked = true → tracker = tracker'

/-- The reports of the two runs. -/
structure SameReport (stamp : String → String) (r r' : Report) : Prop where
  timeStr : stamp r.timeStr = stamp r'.timeStr
  size : r.size = r'.size
  rawHex : r.rawHex = r'.rawHex

section

variable {out out' : Outputs} {tracked : Bool} {stamp : String → String} {r r' : Report}
  {srcIp dstIp : String} {payload segment : List UInt8}
  {tracker tracker' : Option TcpStreamTracker}

/-! ## The handlers -/

theorem report_related (hr : SameReport stamp r r') {proto info : ColoredString}
    {src dst infoRaw protoLog protoName : String} :
    Related (Call.common out out' tracked stamp) (· = ·)
      (report out r proto info src dst infoRaw protoLog protoName)
      (report out' r' proto info src dst infoRaw protoLog protoName) := by
  rcases hr with ⟨htime, hsize, hhex⟩
  refine .bindEq (.emit ?_) fun _ => .bindEq (.emitIf ?_) fun _ => .emitIf ?_
  · simp only [Call.common, htime, hsize]
  · by_cases h : out.jsonWriter = out'.jsonWriter
    · exact Or.inl ⟨h, by simp only [Call.common, htime, hsize]⟩
    · exact Or.inr ⟨if_neg h, if_neg h⟩
  · by_cases h : out.webServer = out'.webServer
    · exact Or.inl ⟨h, by simp only [Call.common, htime, hsize, hhex]⟩
    · exact Or.inr ⟨if_neg h, if_neg h⟩

theorem handleTcp_related (hr : SameReport stamp r r') :
    Related (Call.common out out' tracked stamp) (· = ·) (handleTcp out r srcIp dstIp segment)
      (handleTcp out' r' srcIp dstIp segment) := by
  refine .bindEq (.lift _) ?_
  intro res
  rcases res with e | ⟨tcpHeader, tcpPayload⟩
  · exact .pure rfl
  · refine .bindEq (.lift _) fun srcPort => ?_
    refine .bindEq (.lift _) fun dstPort => ?_
    refine .bindEq (.emit rfl) fun _ => ?_
    exact .bindEq (.lift _) fun i => report_related hr

theorem handleUdp_related (hr : SameReport stamp r r') :
    Related (Call.common out out' tracked stamp) (· = ·) (handleUdp out r srcIp dstIp segment)
      (handleUdp out' r' srcIp dstIp segment) := by
  refine .bindEq (.lift _) ?_
  intro res
  rcases res with e | ⟨udpHeader, udpPayload⟩
  · exact .pure rfl
  · refine .bindEq (.lift _) fun srcPort => ?_
    refine .bindEq (.lift _) fun dstPort => ?_
    refine .bindEq ?_ fun i => report_related hr
    unfold udpInfo
    split
    · exact .bindEq (.emit rfl) fun _ => .lift _
    · exact .pure rfl

theorem handleIcmpWith_related (hr : SameReport stamp r r') {describe : IcmpHeader → Run String}
    {proto protoLog protoName : String} :
    Related (Call.common out out' tracked stamp) (· = ·)
      (handleIcmpWith describe proto protoLog protoName out r srcIp dstIp segment)
      (handleIcmpWith describe proto protoLog protoName out' r' srcIp dstIp segment) := by
  refine .bindEq (.lift _) ?_
  intro res
  rcases res with e | ⟨icmpHeader, rest⟩
  · exact .pure rfl
  · exact .bindEq (.lift _) fun infoRaw => report_related hr

theorem handleArp_related (hr : SameReport stamp r r') :
    Related (Call.common out out' tracked stamp) (· = ·) (handleArp out r payload)
      (handleArp out' r' payload) := by
  refine .bindEq (.lift _) ?_
  intro res
  rcases res with e | arp
  · exact .pure rfl
  · refine .bindEq (.lift _) fun infoRaw => ?_
    refine .bindEq (.lift _) fun src => ?_
    refine .bindEq (.lift _) fun dst => ?_
    exact .bindEq (.lift _) fun shown => report_related hr

/-! ## The tracker -/

/-- What concerns the tracker is not seen if the trackers may differ. -/
theorem feedTracker_unseen (out out' : Outputs) (tracker : Option TcpStreamTracker)
    (call : FeedCall) :
    ∃ t, (feedTracker tracker call).result = .ok t ∧
      (feedTracker tracker call).trace.filterMap (Call.common out out' false stamp) = [] := by
  cases tracker with
  | none => exact ⟨none, rfl, rfl⟩
  | some t =>
      refine ⟨some (t.feed call).1, ?_, ?_⟩
      · simp only [feedTracker, printFlush_eq, result_emit_bind]
        rfl
      · simp only [feedTracker, printFlush_eq, trace_emit_bind]
        rw [bind_of_ok rfl]
        cases (t.feed call).2 <;> simp [Call.common]

theorem feedTracker_related (h : SameTracker tracked tracker tracker') (call : FeedCall) :
    Related (Call.common out out' tracked stamp) (SameTracker tracked) (feedTracker tracker call)
      (feedTracker tracker' call) := by
  cases tracked with
  | true =>
      rw [h rfl]
      exact .refl (fun _ _ => rfl) _
  | false =>
      rcases feedTracker_unseen out out' tracker call with ⟨t, ht, htrace⟩
      rcases feedTracker_unseen out out' tracker' call with ⟨t', ht', htrace'⟩
      refine .of_silent ht ht' htrace htrace' ?_
      intro htracked
      cases htracked

/-- What is done before the tracker is handed on. -/
theorem andReturn_related (h : SameTracker tracked tracker tracker') {x y : Act Unit}
    (hxy : Related (Call.common out out' tracked stamp) (· = ·) x y) :
    Related (Call.common out out' tracked stamp) (SameTracker tracked) (do x; return tracker)
      (do y; return tracker') :=
  hxy.bindEq fun _ => .pure h

theorem followTcp_related (hr : SameReport stamp r r')
    (h : SameTracker tracked tracker tracker') :
    Related (Call.common out out' tracked stamp) (SameTracker tracked)
      (followTcp out r tracker srcIp dstIp segment)
      (followTcp out' r' tracker' srcIp dstIp segment) := by
  refine .bindEq (.lift _) ?_
  intro res
  rcases res with e | ⟨tcpHeader, tcpPayload⟩
  · exact andReturn_related h (handleTcp_related hr)
  · refine .bindEq (.lift _) fun srcPort => ?_
    refine .bindEq (.lift _) fun dstPort => ?_
    refine .bind (feedTracker_related h _) ?_
    intro t t' ht
    exact andReturn_related ht (handleTcp_related hr)

/-! ## A packet -/

theorem dispatchIpv4_related (hr : SameReport stamp r r')
    (h : SameTracker tracked tracker tracker') (protocol : UInt8) :
    Related (Call.common out out' tracked stamp) (SameTracker tracked)
      (dispatchIpv4 out r tracker srcIp dstIp protocol segment)
      (dispatchIpv4 out' r' tracker' srcIp dstIp protocol segment) := by
  unfold dispatchIpv4
  split_ifs
  · exact followTcp_related hr h
  · exact andReturn_related h (handleUdp_related hr)
  · exact andReturn_related h (handleIcmpWith_related hr)
  · exact .pure h

theorem processIpv4_related (hr : SameReport stamp r r')
    (h : SameTracker tracked tracker tracker') :
    Related (Call.common out out' tracked stamp) (SameTracker tracked)
      (processIpv4 out r tracker payload) (processIpv4 out' r' tracker' payload) := by
  refine .bindEq (.lift _) ?_
  intro res
  rcases res with e | ⟨ipv4Header, ipPayload⟩
  · exact .pure h
  · refine .bindEq (.lift _) fun src => ?_
    refine .bindEq (.lift _) fun dst => ?_
    exact .bindEq (.lift _) fun protocol => dispatchIpv4_related hr h protocol

theorem processIpv6_related (hr : SameReport stamp r r') :
    Related (Call.common out out' tracked stamp) (· = ·) (processIpv6 out r payload)
      (processIpv6 out' r' payload) := by
  refine .bindEq (.lift _) ?_
  intro res
  rcases res with e | ⟨ipv6Header, ipPayload⟩
  · exact .pure rfl
  · refine .bindEq (.lift _) fun src => ?_
    refine .bindEq (.lift _) fun dst => ?_
    refine .bindEq (.lift _) fun nextHeader => ?_
    unfold dispatchIpv6
    split_ifs
    · exact handleTcp_related hr
    · exact handleUdp_related hr
    · exact handleIcmpWith_related hr
    · exact .pure rfl

/-- The dump returns, so it can be there or not. -/
theorem printHexdump_related (packetData : List UInt8) :
    Related (Call.common out out' tracked stamp) (· = ·) (printHexdump out.showHexdump packetData)
      (printHexdump out'.showHexdump packetData) := by
  by_cases hsame : out.showHexdump = out'.showHexdump
  · rw [hsame]
    exact .refl (fun _ => rfl) _
  · rcases hexdump_returns packetData with ⟨dump, hdump⟩
    have hunseen : ∀ b : Bool, (printHexdump b packetData).trace.filterMap
        (Call.common out out' tracked stamp) = [] := by
      intro b
      cases b with
      | true => simp [printHexdump, hdump, Call.common, hsame]
      | false => rfl
    exact .of_silent (printHexdump_result _) (printHexdump_result _) (hunseen _) (hunseen _) rfl

theorem processPacket_related (h : SameTracker tracked tracker tracker') {timeStr timeStr' : String}
    (htime : stamp timeStr = stamp timeStr') (packetData : List UInt8) (size : Nat) :
    Related (Call.common out out' tracked stamp) (SameTracker tracked)
      (processPacket out timeStr tracker packetData size)
      (processPacket out' timeStr' tracker' packetData size) := by
  refine .bindEq (.emitIf ?_) fun _ => ?_
  · by_cases hsame : out.pcapWriter = out'.pcapWriter
    · exact Or.inl ⟨hsame, rfl⟩
    · exact Or.inr ⟨if_neg hsame, if_neg hsame⟩
  refine .bindEq (printHexdump_related packetData) fun _ => ?_
  refine .bindEq (.lift _) ?_
  intro res
  rcases res with e | ⟨ethFrame, payload⟩
  · exact .pure h
  · refine .bindEq (.lift _) fun rawHex => ?_
    have hr : SameReport stamp ⟨timeStr, size, rawHex⟩ ⟨timeStr', size, rawHex⟩ := ⟨htime, rfl, rfl⟩
    refine .bindEq (.lift _) ?_
    intro ethertype
    cases ethertype with
    | ipv4 => exact processIpv4_related hr h
    | ipv6 => exact andReturn_related h (processIpv6_related hr)
    | arp => exact andReturn_related h (handleArp_related hr)
    | other val => exact .pure h

/-! ## A capture -/

/-- Runs over packets of the same frames, whose times look alike. -/
theorem capture_related {R : Packet → Packet → Prop}
    (hR : ∀ p p', R p p' → p.frame = p'.frame ∧ stamp p.time.display = stamp p'.time.display)
    {packets packets' : List Packet} (hpackets : List.Forall₂ R packets packets')
    (h : SameTracker tracked tracker tracker') :
    List.Forall₂ (fun e e' => R e.1 e'.1 ∧
        e.2.filterMap (Call.common out out' tracked stamp) =
          e'.2.filterMap (Call.common out out' tracked stamp))
      (capture out tracker packets) (capture out' tracker' packets') := by
  induction hpackets generalizing tracker tracker' with
  | nil => exact .nil
  | @cons p p' ps ps' hp _ ih =>
      rcases hR p p' hp with ⟨hframe, htime⟩
      have hone : Related (Call.common out out' tracked stamp) (SameTracker tracked)
          (p.process out tracker) (p'.process out' tracker') := by
        unfold Packet.process
        rw [hframe]
        exact processPacket_related h htime _ _
      refine .cons ⟨hp, hone.trace⟩ ?_
      rcases hone.result with ⟨t, t', ht, ht', hsame⟩ | ⟨panic, hx, hy⟩
      · rw [ht, ht']
        exact ih hsame
      · rw [hx, hy]
        exact .nil

end

/-- Two runs over the same packets, with any outputs and any trackers: they process
the same packets, up to the same panic; and for each of them they make the same
calls, in the same order, but for the outputs that only one of the runs has, and
for the calls of the tracker if the trackers are not the same. -/
theorem outputs_independent (out out' : Outputs) (tracked : Bool)
    (tracker tracker' : Option TcpStreamTracker) (h : SameTracker tracked tracker tracker')
    (packets : List Packet) :
    List.Forall₂ (fun e e' => e.1 = e'.1 ∧
        e.2.filterMap (Call.common out out' tracked id) =
          e'.2.filterMap (Call.common out out' tracked id))
      (capture out tracker packets) (capture out' tracker' packets) := by
  refine capture_related ?_ (List.forall₂_same.mpr fun _ _ => rfl) h
  rintro p _ rfl
  exact ⟨rfl, rfl⟩

/-- A run that only serves the dashboard, and one with a dump and a tracker as well:
both print the line of the datagram and broadcast its message. -/
theorem outputs_independent_echo :
    List.Forall₂ (fun e e' => e.1 = e'.1 ∧
        e.2.filterMap (Call.common webOnly { webOnly with showHexdump := true } false id) =
          e'.2.filterMap (Call.common webOnly { webOnly with showHexdump := true } false id))
      (capture webOnly none echoPackets)
      (capture { webOnly with showHexdump := true } (some TcpStreamTracker.new) echoPackets) ∧
    (capture webOnly none echoPackets).map (fun e => (e.2.filterMap
      (Call.common webOnly { webOnly with showHexdump := true } false id)).length) = [2, 0] :=
  ⟨outputs_independent _ _ false none _ (fun htracked => by cases htracked) _, by decide +kernel⟩

/-! ## Reading a capture file back -/

/-- The packets that are processed are the run. -/
theorem capture_processed (out : Outputs) (tracker : Option TcpStreamTracker)
    (packets : List Packet) :
    capture out tracker ((capture out tracker packets).map Prod.fst) =
      capture out tracker packets := by
  induction packets generalizing tracker with
  | nil => rfl
  | cons p ps ih =>
      simp only [capture, List.map_cons]
      cases (p.process out tracker).result with
      | error panic => rfl
      | ok tracker' => exact congrArg _ (ih tracker')

/-- The records of the file of a run: one of each packet. -/
theorem read_pcapFile (e : Endian) (out : Outputs) (tracker : Option TcpStreamTracker)
    {packets : List Packet} (hlen : ∀ p ∈ packets, p.frame.length ≤ blockSize) :
    ∃ contents, Pcap.read (pcapFile e out tracker packets) = some contents ∧
      contents.records = (capture { out with pcapWriter := true } tracker packets).map
        fun e => e.1.pcapCall.record := by
  let calls := (capture { out with pcapWriter := true } tracker packets).map
    fun e => e.1.pcapCall
  have hshort : ∀ c ∈ calls, c.data.length ≤ blockSize := by
    intro c hc
    rcases List.mem_map.mp hc with ⟨e, he, rfl⟩
    exact hlen e.1 ((capture_prefix_packets _ tracker packets).subset (List.mem_map_of_mem he))
  have hsucceeds : ∀ c ∈ calls, c.Succeeds := by
    intro c hc
    rcases List.mem_map.mp hc with ⟨e, _, rfl⟩
    exact ⟨Nat.le_refl 16, Nat.le_refl _⟩
  have hfits : ∀ r ∈ calls.map PcapCall.record, r.WellFormed := by
    intro r hr
    rcases List.mem_map.mp hr with ⟨c, hc, rfl⟩
    exact PcapCall.record_wellFormed (hshort c hc)
  have hread := Pcap.read_file e.order_cases
    (⟨by decide, by decide, by decide, by decide⟩ : Pcap.HeaderFits 2 4 65535 1) hfits
    (rfl : Pcap.readRecord e.order [] = none)
  rw [List.append_nil, ← PcapWriter.run_of_succeeds hshort hsucceeds] at hread
  rw [pcapFile, flatMap_pcapCalls]
  refine ⟨_, hread, ?_⟩
  simp only [calls, List.map_map]
  rfl

/-- Reading a capture file back and processing its frames once more, at any time
and with any outputs, from the tracker the run began with: every packet of the
run is processed again, up to the same panic, and makes the same calls but for
the time, as far as both runs have the outputs. -/
theorem pcap_replay (e : Endian) (out out' : Outputs) (tracker : Option TcpStreamTracker)
    (packets : List Packet) (hlen : ∀ p ∈ packets, p.frame.length ≤ blockSize) :
    ∃ contents, Pcap.read (pcapFile e out tracker packets) = some contents ∧
      ∀ again : List Packet, again.map Packet.frame = contents.records.map Pcap.Record.data →
        List.Forall₂ (fun e e' => e.1.frame = e'.1.frame ∧
            e.2.filterMap (Call.common { out with pcapWriter := true } out' true fun _ => "") =
              e'.2.filterMap (Call.common { out with pcapWriter := true } out' true fun _ => ""))
          (capture { out with pcapWriter := true } tracker packets)
          (capture out' tracker again) := by
  rcases read_pcapFile e out tracker hlen with ⟨contents, hread, hrecords⟩
  refine ⟨contents, hread, ?_⟩
  intro again hagain
  have hframes : List.Forall₂ (fun p p' : Packet => p.frame = p'.frame)
      ((capture { out with pcapWriter := true } tracker packets).map Prod.fst) again := by
    have heq : List.Forall₂ Eq
        (((capture { out with pcapWriter := true } tracker packets).map Prod.fst).map Packet.frame)
        (again.map Packet.frame) := by
      rw [List.forall₂_eq_eq_eq, hagain, hrecords, List.map_map, List.map_map]
      rfl
    rwa [List.forall₂_map_left_iff, List.forall₂_map_right_iff] at heq
  rw [← capture_processed { out with pcapWriter := true } tracker packets]
  refine capture_related ?_ hframes ?_
  · intro p p' hp
    exact ⟨hp, rfl⟩
  · intro _
    rfl

/-- The same frames at noon. -/
def echoPacketsAtNoon : List Packet :=
  echoPackets.map fun p => { p with time := { midnight with hour := 12, hour_lt := by decide } }

/-- Processed again with a dump: the line of the datagram and its record are the same. -/
theorem pcap_replay_echo :
    List.Forall₂ (fun e e' => e.1.frame = e'.1.frame ∧
        e.2.filterMap
            (Call.common ⟨true, true, false, false⟩ ⟨false, true, true, false⟩ true fun _ => "") =
          e'.2.filterMap
            (Call.common ⟨true, true, false, false⟩ ⟨false, true, true, false⟩ true fun _ => ""))
      (capture ⟨true, true, false, false⟩ none echoPackets)
      (capture ⟨false, true, true, false⟩ none echoPacketsAtNoon) ∧
    (capture ⟨true, true, false, false⟩ none echoPackets).map (fun e => (e.2.filterMap (Call.common
      ⟨true, true, false, false⟩ ⟨false, true, true, false⟩ true fun _ => "")).length) =
        [2, 0] := by
  have hshort : ∀ p ∈ echoPackets, p.frame.length ≤ blockSize := by decide +kernel
  rcases pcap_replay .big ⟨false, true, false, false⟩ ⟨false, true, true, false⟩ none
    echoPackets hshort with ⟨contents, hread, hagain⟩
  have hdata : (Pcap.read (pcapFile .big ⟨false, true, false, false⟩ none echoPackets)).map
      (fun c => c.records.map Pcap.Record.data) = some (echoPacketsAtNoon.map Packet.frame) := by
    decide +kernel
  rw [hread, Option.map_some, Option.some.injEq] at hdata
  exact ⟨hagain echoPacketsAtNoon hdata.symm, by decide +kernel⟩

end NetZer

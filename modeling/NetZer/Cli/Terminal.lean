import NetZer.Cli.Capture
import NetZer.Cli.CapturedText
import NetZer.Core.HexColumns

/-! # What reaches the terminal

The text of the three kinds of terminal output, the colour codes left out. The
hex dump and the stream dump show a byte as it is only if it is printable; the
line of a packet shows the info as it was captured. So a frame puts a control
character on the terminal exactly if one of its captured texts has one.
-/

namespace NetZer

open Rust Rust.Traced Text

/-- The line of `print_packet_line`. -/
def packetLine (timeStr : String) (proto : ColoredString) (src dst : String)
    (info : ColoredString) (size : Nat) : String :=
  " " ++ padRight 14 timeStr ++ " │ " ++ proto.text ++ " │ " ++ padRight 21 src ++ " │ " ++
    padRight 21 dst ++ " │ " ++ info.text ++ " │ " ++ padRight 6 (toString size ++ " B")

/-- The line breaks and carriage returns the stream dump keeps. -/
def isLineEnd (c : Char) : Bool :=
  c == '\n' || c == '\r'

/-- No control character in what a call prints of a frame, but for the line
ends of a stream dump. A hex dump has its own line break after every row. -/
def Call.Sanitized (frame : List UInt8) : Call → Prop
  | .printDump dump => ∃ rows : List String, rows.length = (chunks 16 frame).length ∧
      dump.text = String.join (rows.map (· ++ "\n")) ∧ ∀ row ∈ rows, Avoids isControl row
  | .printStream lines =>
      ∀ line ∈ lines, Avoids (fun c => isControl c && !isLineEnd c) line.text
  | .printPacketLine timeStr proto src dst info size =>
      Avoids isControl (packetLine timeStr proto src dst info size)
  | _ => True

/-! ## The dumps -/

/-- The stream dump shows none but line ends. -/
theorem printable_clean (b : UInt8) :
    (isControl (printable b) && !isLineEnd (printable b)) = false := by
  unfold printable
  split
  · next h =>
      simp only [Bool.or_eq_true] at h
      rcases h with ((hgraphic | hspace) | hbreak) | hreturn
      · rcases isAsciiGraphic_iff.mp hgraphic with ⟨hlow, hhigh⟩
        rw [isControl_ofNat (by omega) hhigh, Bool.false_and]
      · rw [eq_of_beq hspace]
        rfl
      · rw [eq_of_beq hbreak]
        rfl
      · rw [eq_of_beq hreturn]
        rfl
  · rfl

/-- A hex dump is its rows. -/
theorem hexdump_sanitized {frame : List UInt8} {dump : String} (h : hexdump frame = .ok dump) :
    ∃ rows : List String, rows.length = (chunks 16 frame).length ∧
      dump = String.join (rows.map (· ++ "\n")) ∧ ∀ row ∈ rows, Avoids isControl row := by
  have hdump := Except.ok.inj (h.symm.trans (hexdump_eq frame))
  refine ⟨(dumpRows frame).map ("  " ++ ·), ?_, ?_, ?_⟩
  · rw [List.length_map, dumpRows, List.length_map, List.length_zipIdx]
  · rw [hdump, List.map_map]
    rfl
  · rw [dumpRows, List.map_map, List.forall_mem_map]
    intro e _
    exact avoids_append.mpr ⟨by decide, dumpRow_avoids _ _⟩

set_option maxRecDepth 2000 in
/-- The rules around a stream dump are plain text. -/
theorem streamRules_clean : Avoids isControl streamHeader ∧ Avoids isControl streamFooter := by
  constructor
  · refine avoids_append.mpr ⟨?_, ?_⟩
    · exact avoids_of_all (by decide +kernel)
    · exact avoids_of_all (by decide +kernel)
  · refine avoids_append.mpr ⟨?_, ?_⟩
    · exact avoids_of_all (by decide +kernel)
    · exact avoids_of_all (by decide +kernel)

theorem streamDump_clean (data : List UInt8) (frame : List UInt8) :
    (Call.printStream (streamDump data)).Sanitized frame := by
  have hplain : ∀ c, isControl c = false → (isControl c && !isLineEnd c) = false := by
    intro c hc
    rw [hc, Bool.false_and]
  have hdata : ∀ c ∈ data.map printable, (isControl c && !isLineEnd c) = false := by
    rw [List.forall_mem_map]
    intro b _
    exact printable_clean b
  intro line hline
  rcases List.mem_cons.mp hline with rfl | hline
  · exact streamRules_clean.1.mono hplain
  rcases List.mem_cons.mp hline with rfl | hline
  · exact avoids_ofList.mpr hdata
  rcases List.mem_singleton.mp hline with rfl
  exact streamRules_clean.2.mono hplain

/-! ## Which calls print -/

/-- A flush is printed as a stream dump. -/
def Call.DumpsStreams : Call → Prop
  | .printStream lines => ∃ data, lines = streamDump data
  | _ => True

theorem Call.dumpsStreams_of_untracked {c : Call} (h : c.Untracked) : c.DumpsStreams := by
  cases c with
  | printStream lines => exact h.elim
  | _ => trivial

section

variable {out : Outputs} {r : Report} {tracker : Option TcpStreamTracker} {srcIp dstIp : String}
  {segment payload : List UInt8} {number : UInt8}

theorem dumpsStreams_of_untracked {α : Type} {x : Act α} (h : EmitsOnly Call.Untracked x) :
    EmitsOnly Call.DumpsStreams x :=
  fun c hc => Call.dumpsStreams_of_untracked (h c hc)

theorem feedTracker_dumpsStreams (tracker : Option TcpStreamTracker) (call : FeedCall) :
    EmitsOnly Call.DumpsStreams (feedTracker tracker call) := by
  cases tracker with
  | none => exact .pure _
  | some t =>
      refine .bind (.emit trivial) fun _ => .bind ?_ fun _ => .pure _
      cases (t.feed call).2 with
      | none => exact .pure _
      | some flushed => exact .emit ⟨flushed.2, rfl⟩

theorem followTcp_dumpsStreams :
    EmitsOnly Call.DumpsStreams (followTcp out r tracker srcIp dstIp segment) := by
  have hhandle : EmitsOnly Call.DumpsStreams (handleTcp out r srcIp dstIp segment) :=
    dumpsStreams_of_untracked handleTcp_untracked
  refine .bind (.lift _) ?_
  intro res
  rcases res with e | ⟨tcp, payload⟩
  · exact .bind hhandle fun _ => .pure _
  · refine .bind (.lift _) fun srcPort => .bind (.lift _) fun dstPort => ?_
    exact .bind (feedTracker_dumpsStreams _ _) fun _ => .bind hhandle fun _ => .pure _

theorem dispatchIpv4_dumpsStreams :
    EmitsOnly Call.DumpsStreams (dispatchIpv4 out r tracker srcIp dstIp number segment) := by
  refine .ite followTcp_dumpsStreams (.ite ?_ (.ite ?_ (.pure _)))
  · exact .bind (dumpsStreams_of_untracked handleUdp_untracked) fun _ => .pure _
  · exact .bind (dumpsStreams_of_untracked handleIcmpWith_untracked) fun _ => .pure _

theorem processIpv4_dumpsStreams :
    EmitsOnly Call.DumpsStreams (processIpv4 out r tracker payload) := by
  refine .bind (.lift _) ?_
  intro res
  rcases res with e | ⟨ip, segment⟩
  · exact .pure _
  · refine .bind (.lift _) fun _ => .bind (.lift _) fun _ => .bind (.lift _) fun _ => ?_
    exact dispatchIpv4_dumpsStreams

theorem processIpv6_dumpsStreams :
    EmitsOnly Call.DumpsStreams (processIpv6 out r payload) := by
  refine .bind (.lift _) ?_
  intro res
  rcases res with e | ⟨ip, segment⟩
  · exact .pure _
  · refine .bind (.lift _) fun _ => .bind (.lift _) fun _ => .bind (.lift _) fun _ => ?_
    exact dumpsStreams_of_untracked dispatchIpv6_untracked

theorem handleArp_dumpsStreams : EmitsOnly Call.DumpsStreams (handleArp out r payload) := by
  refine .bind (.lift _) ?_
  intro res
  rcases res with e | arp
  · exact .pure _
  · refine .bind (.lift _) fun _ => .bind (.lift _) fun _ => .bind (.lift _) fun _ => ?_
    exact .bind (.lift _) fun _ => dumpsStreams_of_untracked report_untracked

/-- Whatever the tracker holds, a packet prints buffered bytes as a stream
dump only. -/
theorem processPacket_dumpsStreams (out : Outputs) (timeStr : String)
    (tracker : Option TcpStreamTracker) (packetData : List UInt8) (size : Nat) :
    EmitsOnly Call.DumpsStreams (processPacket out timeStr tracker packetData size) := by
  refine .bind (.emitIf _ trivial) fun _ => .bind ?_ fun _ => .bind (.lift _) ?_
  · exact .ite (.bind (.lift _) fun _ => .emit trivial) (.pure _)
  intro res
  rcases res with e | ⟨eth, payload⟩
  · exact .pure _
  · refine .bind (.lift _) fun rawHex => .bind (.lift _) ?_
    intro ethertype
    cases ethertype with
    | ipv4 => exact processIpv4_dumpsStreams
    | ipv6 => exact .bind processIpv6_dumpsStreams fun _ => .pure _
    | arp => exact .bind handleArp_dumpsStreams fun _ => .pure _
    | other val => exact .pure _

end

theorem Call.eq_of_output {c c' : Call} (h : c'.output = some c) : c' = c := by
  cases c' with
  | feed call => cases h
  | printStream lines => cases h
  | tlsParse payload => cases h
  | httpDetect payload => cases h
  | dnsParse payload => cases h
  | _ => exact Option.some.inj h

/-- The calls that put something out are in the trace as they are. -/
theorem mem_outputs {α : Type} {x : Act α} {c : Call} (hc : c.output = some c) :
    c ∈ outputs x ↔ c ∈ x.trace := by
  rw [outputs, List.mem_filterMap]
  constructor
  · rintro ⟨c', hmem, hout⟩
    exact Call.eq_of_output hout ▸ hmem
  · intro hmem
    exact ⟨c, hmem, hc⟩

/-! ## One packet -/

/-- The line of a packet is as clean as its info. -/
theorem Reporting.Plain.packetLine_avoids_iff {g : Reporting} (hg : g.Plain) (t : LocalTime)
    (size : Nat) :
    Avoids isControl (packetLine t.display g.proto g.src g.dst g.info size) ↔
      Avoids isControl g.infoRaw := by
  have htime := (avoids_padRight (n := 14) rfl).mpr t.display_avoids
  have hsrc := (avoids_padRight (n := 21) rfl).mpr hg.src
  have hdst := (avoids_padRight (n := 21) rfl).mpr hg.dst
  have hsize : Avoids isControl (padRight 6 (toString size ++ " B")) :=
    (avoids_padRight rfl 6).mpr (avoids_append.mpr ⟨avoids_toString _, by decide⟩)
  have hspace : Avoids isControl " " := by decide
  have hbar : Avoids isControl " │ " := by decide
  rw [← hg.info isControl fun _ h => h]
  unfold packetLine
  simp only [avoids_append, htime, hsrc, hdst, hsize, hspace, hbar, hg.proto, true_and, and_true]

/-- What a packet puts out: its bytes, its dump and its report. -/
theorem Packet.output_cases {out : Outputs} {tracker : Option TcpStreamTracker} {p : Packet}
    {c : Call} (hc : c ∈ outputs (p.process out tracker)) :
    c = .pcapWrite p.frame ∨
    (∃ dump, hexdump p.frame = .ok dump ∧
      c = .printDump { text := dump, styles := [.brightBlack] }) ∨
    ∃ g rawHex, frameReport p.frame = .ok (some g) ∧
      c ∈ g.calls out ⟨p.time.display, p.frame.length, rawHex⟩ := by
  rcases p.process_outputs out tracker with ⟨rawHex, _, hout⟩
  rw [hout, List.mem_append, List.mem_append] at hc
  -- the export, the dump if it is asked for, and the calls of the report
  rcases hc with (hpcap | hdump) | hreport
  · left
    cases hon : out.pcapWriter <;> simp_all
  · right
    left
    rcases hexdump_returns p.frame with ⟨dump, hdump'⟩
    refine ⟨dump, hdump', ?_⟩
    cases hon : out.showHexdump with
    | true =>
        rw [hon] at hdump
        simpa [outputs, printHexdump, hdump', Call.output] using hdump
    | false =>
        rw [hon] at hdump
        cases hdump
  · right
    right
    rcases hframe : frameReport p.frame with panic | none | g
    · rw [hframe] at hreport
      cases hreport
    · rw [hframe] at hreport
      cases hreport
    · rw [hframe] at hreport
      exact ⟨g, rawHex, rfl, hreport⟩

/-- Only the line of a packet can show a control character. -/
theorem Packet.sanitized_iff (out : Outputs) (tracker : Option TcpStreamTracker) (p : Packet) :
    (∀ c ∈ (p.process out tracker).trace, c.Sanitized p.frame) ↔
      ∀ g, frameReport p.frame = .ok (some g) →
        Avoids isControl
          (packetLine p.time.display g.proto g.src g.dst g.info p.frame.length) := by
  rcases p.process_outputs out tracker with ⟨rawHex, _, hout⟩
  constructor
  · intro h g hg
    have hline : Call.printPacketLine p.time.display g.proto g.src g.dst g.info p.frame.length ∈
        outputs (p.process out tracker) := by
      rw [hout, hg]
      simp [reportCalls, Reporting.calls]
    exact h _ ((mem_outputs rfl).mp hline)
  · intro h c hc
    -- the two dumps are always clean
    cases c with
    | printStream lines =>
        rcases processPacket_dumpsStreams _ _ _ _ _ _ hc with ⟨data, rfl⟩
        exact streamDump_clean data p.frame
    | printDump dump =>
        rcases Packet.output_cases ((mem_outputs rfl).mpr hc) with heq | ⟨text, htext, heq⟩ |
          ⟨g, rawHex, _, hmem⟩
        · cases heq
        · cases heq
          exact hexdump_sanitized htext
        · exact absurd hmem (by simp [Reporting.calls])
    | printPacketLine timeStr proto src dst info size =>
        rcases Packet.output_cases ((mem_outputs rfl).mpr hc) with heq | ⟨text, htext, heq⟩ |
          ⟨g, rawHex, hg, hmem⟩
        · cases heq
        · cases heq
        · have hline : Call.printPacketLine timeStr proto src dst info size =
              .printPacketLine p.time.display g.proto g.src g.dst g.info p.frame.length := by
            cases out.jsonWriter <;> cases out.webServer <;> simpa [Reporting.calls] using hmem
          rw [hline]
          exact h g hg
    | _ => trivial

/-! ## Every packet -/

/-- Whatever the tracker holds, a packet prints no control character exactly if
none of the texts captured in its frame has one. -/
theorem terminal_clean_iff (out : Outputs) (tracker : Option TcpStreamTracker) (p : Packet) :
    (∀ c ∈ (p.process out tracker).trace, c.Sanitized p.frame) ↔
      ∀ text, CapturedText p.frame text → Avoids isControl text := by
  rw [p.sanitized_iff]
  constructor
  · intro h text htext
    rcases htext.reported with ⟨g, hg, hclean⟩
    exact hclean isControl (fun _ hc => hc)
      (((frameReport_plain hg).packetLine_avoids_iff _ _).mp (h g hg))
  · intro h g hg
    rw [(frameReport_plain hg).packetLine_avoids_iff]
    exact (frameReport_info_avoids_iff (fun _ hc => hc) hg).mpr h

/-- A request to port 80 whose target clears the screen. -/
def escapePacket : Packet :=
  { frame := List.replicate 12 0 ++ [0x08, 0x00] ++
      [0x45, 0, 0, 52, 0, 0, 0, 0, 64, 6, 0, 0, 10, 0, 0, 1, 10, 0, 0, 2] ++
      [0xc0, 0x00, 0, 80, 0, 0, 0, 0, 0, 0, 0, 0, 0x50, 0x18, 0, 0, 0, 0, 0, 0] ++
      asciiBytes "GET /\x1b[2J \r\n"
    sinceEpoch := none
    time := midnight }

theorem info_avoids_of_packetLine {timeStr src dst : String} {proto info : ColoredString}
    {size : Nat} (h : Avoids isControl (packetLine timeStr proto src dst info size)) :
    Avoids isControl info.text := by
  unfold packetLine at h
  simp only [avoids_append] at h
  exact h.1.1.2

/-- The escape sequence reaches the terminal. -/
theorem terminal_injection :
    ¬ ∀ (out : Outputs) (tracker : Option TcpStreamTracker) (p : Packet),
      ∀ c ∈ (p.process out tracker).trace, c.Sanitized p.frame := by
  intro hall
  have hline := hall ⟨false, false, false, false⟩ none escapePacket
    (.printPacketLine "00:00:00.000" ⟨"HTTP ", [.brightGreen, .bold]⟩ "10.0.0.1:49152"
      "10.0.0.2:80" ⟨padRight 35 "GET /\x1b[2J", [.brightGreen]⟩ 66) (by decide +kernel)
  have hescape : ¬ Avoids isControl (padRight 35 "GET /\x1b[2J") := by decide
  exact hescape (info_avoids_of_packetLine hline)

end NetZer

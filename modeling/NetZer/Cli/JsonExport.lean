import Mathlib.Data.List.Forall2
import NetZer.Cli.Capture
import NetZer.Cli.CapturedText
import NetZer.Lib.Json

/-! # The JSON export

`JsonWriter` appends one line to its file for every record. Its lines escape
the quotation mark and the backslash only, so a line is an object that holds
the record exactly if no text of it has a control character below U+0020; a
line feed even breaks the line in two. Of all that is in a record only the
texts captured from the wire can have one.
-/

namespace NetZer

open Rust Text

/-- `JsonWriter`, by the content of its file. -/
structure JsonWriter where
  file : List UInt8
deriving DecidableEq, Repr

def JsonWriter.create : JsonWriter :=
  { file := [] }

/-- `JsonWriter::write_packet`, with a write that succeeds. -/
def JsonWriter.writePacket (self : JsonWriter) (record : Record) : JsonWriter :=
  { file := self.file ++ utf8 record.jsonLine }

/-- The records a run hands to `JsonWriter::write_packet`. -/
def jsonRecords (run : List (Packet × List Call)) : List Record :=
  run.flatMap fun e => e.2.filterMap Call.jsonRecord

/-- The file a run exports. -/
def jsonFile (run : List (Packet × List Call)) : List UInt8 :=
  ((jsonRecords run).foldl JsonWriter.writePacket JsonWriter.create).file

/-- The arguments of a call, as the members of an object. -/
def Record.members (r : Record) : List (String × Json.Field) :=
  [("timestamp", .text r.timestamp), ("proto", .text r.proto), ("src", .text r.src),
    ("dst", .text r.dst), ("info", .text r.info), ("size", .natural r.size)]

/-- The line is an object whose members are the arguments of the call. -/
def Record.InLine (line : List UInt8) (r : Record) : Prop :=
  (fromUtf8 line).bind Json.decode =
    some (.object [("timestamp", .string r.timestamp), ("proto", .string r.proto),
      ("src", .string r.src), ("dst", .string r.dst), ("info", .string r.info),
      ("size", .number r.size 0)])

/-- The newline bytes of the file end one line for every record, in order,
which holds the record. -/
def JsonExact (run : List (Packet × List Call)) : Prop :=
  ∃ lines, (jsonFile run).splitOn 0x0A = lines ++ [[]] ∧
    List.Forall₂ Record.InLine lines (jsonRecords run)

/-! ## One line -/

theorem escapeJson_toList (s : String) :
    (escapeJson s).toList = s.toList.flatMap Json.escapeQuotes := by
  simp only [escapeJson, replace, String.toList_ofList, List.flatMap_assoc]
  apply List.flatMap_congr
  intro c _
  -- a backslash is doubled before quotation marks get theirs
  by_cases hback : c = '\\'
  · subst hback
    rfl
  · by_cases hquote : c = '"'
    · subst hquote
      rfl
    · simp [Json.escapeQuotes, hback, hquote]

/-- The line without its line feed. -/
def Record.body (r : Record) : String :=
  String.ofList (Json.writeObject r.members)

theorem Record.jsonLine_eq (r : Record) : r.jsonLine = r.body ++ "\n" := by
  apply String.toList_inj.mp
  unfold Record.jsonLine
  simp [Record.body, Record.members, Json.writeObject, Json.writeMember, Json.quoted,
    Json.Field.write, Json.escapeQuotes, escapeJson_toList]

/-- No text of the record has a character that JSON wants escaped and the
writer leaves as it is. -/
def Record.plain (r : Record) : Bool :=
  r.members.all fun m => Json.plain m.1 && m.2.plain

/-- The line holds the record exactly if the record is plain. -/
theorem Record.inLine_body_iff (r : Record) : r.InLine (utf8 r.body) ↔ r.plain = true := by
  have hmembers : r.members ≠ [] := by simp [members]
  have htext : r.body.toList = Json.writeObject r.members := String.toList_ofList
  have hdecode := Json.decode_writeObject hmembers htext
  rw [InLine, fromUtf8_utf8, Option.bind_some, hdecode, plain]
  split_ifs with hplain
  · exact iff_of_true rfl hplain
  · exact iff_of_false (by simp) hplain

/-- The line of a plain record has no line feed inside. -/
theorem Record.newline_not_mem_body {r : Record} (h : r.plain = true) : 0x0A ∉ utf8 r.body := by
  rw [newline_mem_utf8, body, String.toList_ofList]
  intro hmem
  exact absurd (Json.mem_writeObject h '\n' hmem) (by decide)

/-! ## The file -/

theorem foldl_writePacket (records : List Record) (self : JsonWriter) :
    (records.foldl JsonWriter.writePacket self).file =
      self.file ++ (records.map fun r => utf8 r.body).flatMap (· ++ [0x0A]) := by
  induction records generalizing self with
  | nil => simp
  | cons r records ih =>
      have hline : utf8 r.jsonLine = utf8 r.body ++ [0x0A] := by
        rw [r.jsonLine_eq, utf8_append]
        rfl
      rw [List.foldl_cons, ih, JsonWriter.writePacket, hline]
      simp

theorem jsonExact_iff_plain (run : List (Packet × List Call)) :
    JsonExact run ↔ ∀ r ∈ jsonRecords run, r.plain = true := by
  have hfile : jsonFile run = ((jsonRecords run).map fun r => utf8 r.body).flatMap (· ++ [0x0A]) :=
    foldl_writePacket (jsonRecords run) JsonWriter.create
  rw [JsonExact, hfile]
  constructor
  · rintro ⟨lines, hsplit, hlines⟩
    -- one line for each record, so no record has a line feed
    have hclean := not_mem_of_splitOn hsplit (by rw [List.length_map, hlines.length_eq])
    rw [splitOn_terminated hclean, List.append_cancel_right_eq] at hsplit
    rw [← hsplit, List.forall₂_map_left_iff, List.forall₂_same] at hlines
    intro r hr
    exact r.inLine_body_iff.mp (hlines r hr)
  · intro h
    refine ⟨_, splitOn_terminated ?_, ?_⟩
    · rw [List.forall_mem_map]
      intro r hr
      exact Record.newline_not_mem_body (h r hr)
    · rw [List.forall₂_map_left_iff, List.forall₂_same]
      intro r hr
      exact r.inLine_body_iff.mpr (h r hr)

/-! ## The run -/

/-- The control characters below U+0020. -/
def isC0 (c : Char) : Bool :=
  c.toNat < 0x20

theorem isC0_controlsOnly : ControlsOnly isC0 := by
  intro c hc
  simp only [isControl, Bool.or_eq_false_iff] at hc
  exact hc.1

theorem plain_iff_avoids {s : String} : Json.plain s = true ↔ Avoids isC0 s := by
  simp [Json.plain, Avoids, isC0]

theorem plain_of_avoids {s : String} (h : Avoids isControl s) : Json.plain s = true :=
  plain_iff_avoids.mpr (isC0_controlsOnly.avoids h)

/-- Of a record only the info can be other than plain. -/
theorem Reporting.Plain.jsonRecord_plain_iff {g : Reporting} (hg : g.Plain) (t : LocalTime)
    (size : Nat) : (g.jsonRecord t.display size).plain = true ↔ Json.plain g.infoRaw = true := by
  have hkeys : ∀ key ∈ ["timestamp", "proto", "src", "dst", "info", "size"],
      Json.plain key = true := by decide
  simp only [List.forall_mem_cons] at hkeys
  simp only [Record.plain, Record.members, Reporting.jsonRecord, List.all_cons, List.all_nil,
    Json.Field.plain, plain_of_avoids t.display_avoids, plain_of_avoids hg.protoLog,
    plain_of_avoids hg.src, plain_of_avoids hg.dst, hkeys, Bool.and_true, Bool.true_and]

theorem Packet.jsonRecord_plain_iff (p : Packet) :
    (∀ g, p.reported = some g →
        (g.jsonRecord p.time.display p.frame.length).plain = true) ↔
      ∀ text, CapturedText p.frame text → Json.plain text = true := by
  simp only [plain_iff_avoids]
  constructor
  · intro h text htext
    rcases htext.reported with ⟨g, hg, hclean⟩
    have hrecord := h g (Packet.reported_eq_some_iff.mpr hg)
    rw [(frameReport_plain hg).jsonRecord_plain_iff, plain_iff_avoids] at hrecord
    exact hclean isC0 isC0_controlsOnly hrecord
  · intro h g hg
    have hframe := Packet.reported_eq_some_iff.mp hg
    rw [(frameReport_plain hframe).jsonRecord_plain_iff, plain_iff_avoids]
    exact (frameReport_info_avoids_iff isC0_controlsOnly hframe).mpr h

/-- The JSON export of a run is exact if and only if no text captured in a
processed packet has a control character below U+0020. -/
theorem json_export_exact_iff (out : Outputs) (tracker : Option TcpStreamTracker)
    (packets : List Packet) :
    JsonExact (capture { out with jsonWriter := true } tracker packets) ↔
      ∀ e ∈ capture { out with jsonWriter := true } tracker packets,
        ∀ text, CapturedText e.1.frame text → Json.plain text = true := by
  -- a packet adds the record of its report, if it has one
  have hrecords : ∀ e ∈ capture { out with jsonWriter := true } tracker packets,
      e.2.filterMap Call.jsonRecord =
        (e.1.reported.map fun g => g.jsonRecord e.1.time.display e.1.frame.length).toList :=
    capture_forall (P := fun p calls => calls.filterMap Call.jsonRecord =
      (p.reported.map fun g => g.jsonRecord p.time.display p.frame.length).toList)
      (fun tracker p => p.process_jsonRecord { out with jsonWriter := true } tracker) tracker
      packets
  rw [jsonExact_iff_plain]
  simp only [jsonRecords, List.mem_flatMap]
  constructor
  · intro h e he
    rw [← e.1.jsonRecord_plain_iff]
    intro g hg
    refine h _ ⟨e, he, ?_⟩
    rw [hrecords e he, hg]
    exact List.mem_singleton_self _
  · rintro h r ⟨e, he, hr⟩
    rw [hrecords e he, Option.mem_toList, Option.map_eq_some_iff] at hr
    rcases hr with ⟨g, hg, rfl⟩
    exact e.1.jsonRecord_plain_iff.mpr (h e he) g hg

/-- The first segment of a response from port 80. -/
def responsePacket : Packet :=
  { frame := List.replicate 12 0 ++ [0x08, 0x00] ++
      [0x45, 0, 0, 57, 0, 0, 0, 0, 64, 6, 0, 0, 10, 0, 0, 2, 10, 0, 0, 1] ++
      [0, 80, 0xc0, 0x00, 0, 0, 0, 0, 0, 0, 0, 0, 0x50, 0x18, 0, 0, 0, 0, 0, 0] ++
      asciiBytes "HTTP/1.1 200 OK\r\n"
    sinceEpoch := none
    time := midnight }

/-- The line end of the response breaks the line of its record. -/
theorem json_response_broken :
    ¬ ∀ (out : Outputs) (tracker : Option TcpStreamTracker) (packets : List Packet),
      JsonExact (capture { out with jsonWriter := true } tracker packets) := by
  intro hall
  have hexact := hall ⟨false, true, false, false⟩ none [responsePacket]
  rw [jsonExact_iff_plain] at hexact
  have hrecord := hexact
    { timestamp := "00:00:00.000", proto := "HTTP", src := "10.0.0.2:80"
      dst := "10.0.0.1:49152", info := "200 OK\r\n", size := 71 } (by decide +kernel)
  exact absurd hrecord (by decide)

end NetZer

import NetZer.Cli.Capture
import NetZer.Lib.Pcap
import NetZer.Lib.Posix
import NetZer.Socket.Ring

/-! # PCAP export

`PcapWriter`: a file header when the file is created, and for every packet a
record in two writes, its header and its data. `process_packet` drops the
result, so the run goes on after a write that failed. What was written then is
whatever the file took of it.
-/

namespace NetZer

open Posix Rust Rust.Traced

/-! ## The writer -/

/-- How the machine writes numbers. -/
def Endian.order : Endian → Bytes.Order
  | .little => .little
  | .big => .big

/-- `u32::to_ne_bytes`. -/
def Endian.u32 (e : Endian) (v : Nat) : List UInt8 :=
  e.order.bytes 4 v

/-- `u16::to_ne_bytes`. -/
def Endian.u16 (e : Endian) (v : Nat) : List UInt8 :=
  e.order.bytes 2 v

/-- `n as u32`. -/
def asU32 (n : Nat) : Nat :=
  n % 4294967296

/-- A call of `PcapWriter::write_packet`, with the reading of the clock and
what the file takes of its two writes. -/
structure PcapCall where
  sinceEpoch : Option Duration
  data : List UInt8
  headerAccepted : Nat
  dataAccepted : Nat
deriving DecidableEq, Repr

namespace PcapWriter

/-- What `create` writes; a failure there ends the program. -/
def header (e : Endian) : List UInt8 :=
  e.u32 0xa1b2c3d4 ++ e.u16 2 ++ e.u16 4 ++ List.replicate 8 0 ++ e.u32 65535 ++ e.u32 1

/-- A clock before the epoch counts as the epoch. -/
def recordHeader (e : Endian) (sinceEpoch : Option Duration) (data : List UInt8) : List UInt8 :=
  let sec := asU32 (sinceEpoch.elim 0 Duration.secs)
  let usec := asU32 (sinceEpoch.elim 0 Duration.nanos / 1000)
  let len := asU32 data.length
  e.u32 sec ++ e.u32 usec ++ e.u32 len ++ e.u32 len

/-- `PcapWriter::write_packet`. -/
def writePacket (e : Endian) (file : List UInt8) (c : PcapCall) : List UInt8 × Bool :=
  let (file', ok) := writeAll file (recordHeader e c.sinceEpoch c.data) c.headerAccepted
  -- the data is not written after a failure of the header
  if ok then writeAll file' c.data c.dataAccepted else (file', false)

/-- The file after some calls. -/
def run (e : Endian) (calls : List PcapCall) : List UInt8 :=
  calls.foldl (fun file c => (writePacket e file c).1) (header e)

end PcapWriter

/-! ## What a call writes -/

namespace PcapCall

/-- The record a call is to write. -/
def record (c : PcapCall) : Pcap.Record :=
  { seconds := asU32 (c.sinceEpoch.elim 0 Duration.secs)
    micros := c.sinceEpoch.elim 0 Duration.nanos / 1000
    included := c.data.length
    original := c.data.length
    data := c.data }

/-- How many bytes of the record the file takes. -/
def accepted (c : PcapCall) : Nat :=
  if 16 ≤ c.headerAccepted then 16 + c.dataAccepted else c.headerAccepted

/-- Both writes go through. -/
def Succeeds (c : PcapCall) : Prop :=
  16 ≤ c.headerAccepted ∧ c.data.length ≤ c.dataAccepted

instance (c : PcapCall) : Decidable c.Succeeds :=
  inferInstanceAs (Decidable (_ ∧ _))

/-- The file ends in the middle of the record. -/
def LeavesPart (c : PcapCall) : Prop :=
  0 < c.accepted ∧ ¬ c.Succeeds

instance (c : PcapCall) : Decidable c.LeavesPart :=
  inferInstanceAs (Decidable (_ ∧ _))

end PcapCall

theorem micros_lt (sinceEpoch : Option Duration) :
    sinceEpoch.elim 0 Duration.nanos / 1000 < 1000000 := by
  cases sinceEpoch with
  | none => decide
  | some d =>
      have hnanos := d.nanos_lt
      simp only [Option.elim_some]
      omega

section

variable {e : Endian} {c : PcapCall}

theorem PcapCall.record_wellFormed (hlen : c.data.length ≤ blockSize) : c.record.WellFormed := by
  have hmicros := micros_lt c.sinceEpoch
  have hblock : blockSize < 4294967296 := by decide
  refine ⟨Nat.mod_lt _ (by decide), ?_, rfl, ?_, ?_⟩
  · simp only [record]
    omega
  · simp only [record]
    omega
  · simp only [record]
    omega

theorem PcapWriter.header_eq : header e = Pcap.fileHeader e.order 2 4 65535 1 := by
  simp only [header, Pcap.fileHeader, Endian.u32, Endian.u16, List.append_assoc]
  rfl

theorem PcapWriter.recordHeader_eq (hlen : c.data.length ≤ blockSize) :
    recordHeader e c.sinceEpoch c.data = c.record.header e.order := by
  have hmicros := micros_lt c.sinceEpoch
  have hblock : blockSize < 4294967296 := by decide
  have husec : asU32 (c.sinceEpoch.elim 0 Duration.nanos / 1000) =
      c.sinceEpoch.elim 0 Duration.nanos / 1000 := Nat.mod_eq_of_lt (by omega)
  have hlen' : asU32 c.data.length = c.data.length := Nat.mod_eq_of_lt (by omega)
  simp only [recordHeader, Pcap.Record.header, PcapCall.record, husec, hlen', Endian.u32,
    List.append_assoc]

/-- A call appends as much of its record as the file takes, and succeeds if
that is all of it. -/
theorem PcapWriter.writePacket_eq (hlen : c.data.length ≤ blockSize) (file : List UInt8) :
    writePacket e file c =
      (file ++ (c.record.bytes e.order).take c.accepted, decide c.Succeeds) := by
  have hheader := recordHeader_eq (e := e) hlen
  have h16 := c.record.length_header e.order
  by_cases h : 16 ≤ c.headerAccepted
  · have htake : (c.record.header e.order).take c.headerAccepted = c.record.header e.order :=
      List.take_of_length_le (by omega)
    have hdata : (c.record.bytes e.order).take (16 + c.dataAccepted) =
        c.record.header e.order ++ c.data.take c.dataAccepted := by
      rw [Pcap.Record.bytes, List.take_append, h16, Nat.add_sub_cancel_left,
        List.take_of_length_le (by omega)]
      rfl
    simp [writePacket, writeAll, hheader, h16, h, htake, PcapCall.accepted, hdata,
      PcapCall.Succeeds]
  · have hpart : (c.record.bytes e.order).take c.headerAccepted =
        (c.record.header e.order).take c.headerAccepted := by
      rw [Pcap.Record.bytes, List.take_append_of_le_length (by omega)]
    simp [writePacket, writeAll, hheader, h16, h, PcapCall.accepted, hpart, PcapCall.Succeeds]

end

/-! ## Runs with failing writes -/

/-- The file is a PCAP file of the packets whose writes went through, in
order, with at most a part of one other record at its end. -/
structure ValidExport (e : Endian) (calls : List PcapCall) : Prop where
  valid : ∃ contents, Pcap.read (PcapWriter.run e calls) = some contents ∧
    contents.major = 2 ∧ contents.minor = 4 ∧ contents.linktype = 1 ∧
    contents.records = (calls.filter fun c => c.Succeeds).map PcapCall.record ∧
    (contents.rest = [] ∨ ∃ c ∈ calls, ∃ k < (c.record.bytes e.order).length,
      contents.rest = (c.record.bytes e.order).take k)

/-- Once the file ends in the middle of a record, it takes no more bytes. -/
def NoResume (calls : List PcapCall) : Prop :=
  calls.Pairwise fun c d => c.LeavesPart → d.headerAccepted = 0

instance (calls : List PcapCall) : Decidable (NoResume calls) :=
  inferInstanceAs (Decidable (List.Pairwise _ _))

section

variable {e : Endian}

/-- What calls append that the file takes nothing of: nothing. -/
theorem foldl_of_nothing {calls : List PcapCall} (hlen : ∀ c ∈ calls, c.data.length ≤ blockSize)
    (h : ∀ c ∈ calls, c.headerAccepted = 0) (file : List UInt8) :
    calls.foldl (fun file c => (PcapWriter.writePacket e file c).1) file = file ∧
      (calls.filter fun c => c.Succeeds) = [] := by
  -- call by call: the file stays as it is
  induction calls with
  | nil => exact ⟨rfl, rfl⟩
  | cons c calls ih =>
      have hzero := h c (by simp)
      have hfail : ¬ c.Succeeds := by
        rintro ⟨hheader, _⟩
        omega
      have hsame : (PcapWriter.writePacket e file c).1 = file := by
        simp [PcapWriter.writePacket_eq (hlen c (by simp)), PcapCall.accepted, hzero]
      rcases ih (fun d hd => hlen d (by simp [hd])) (fun d hd => h d (by simp [hd])) with
        ⟨hfile, hnone⟩
      constructor
      · rw [List.foldl_cons, hsame]
        exact hfile
      · rw [List.filter_cons, if_neg (by simpa using hfail)]
        exact hnone

/-- A call that succeeds appends its whole record. -/
theorem PcapWriter.writePacket_of_succeeds {c : PcapCall} (hlen : c.data.length ≤ blockSize)
    (h : c.Succeeds) (file : List UInt8) :
    (writePacket e file c).1 = file ++ c.record.bytes e.order := by
  have hall : (c.record.bytes e.order).take c.accepted = c.record.bytes e.order := by
    apply List.take_of_length_le
    rw [Pcap.Record.length_bytes, PcapCall.accepted, if_pos h.1]
    exact Nat.add_le_add_left h.2 16
  rw [writePacket_eq hlen, hall]

/-- The run: whole records of the successful calls, then perhaps a part. -/
theorem foldl_of_noResume {calls : List PcapCall} (hlen : ∀ c ∈ calls, c.data.length ≤ blockSize)
    (h : NoResume calls) (file : List UInt8) :
    ∃ rest, calls.foldl (fun file c => (PcapWriter.writePacket e file c).1) file =
        file ++ (((calls.filter fun c => c.Succeeds).map PcapCall.record).flatMap
          (Pcap.Record.bytes e.order) ++ rest) ∧
      (rest = [] ∨ ∃ c ∈ calls, ∃ k < (c.record.bytes e.order).length,
        rest = (c.record.bytes e.order).take k) := by
  induction calls generalizing file with
  | nil => exact ⟨[], by simp, Or.inl rfl⟩
  | cons c calls ih =>
      have hc := hlen c (by simp)
      have hlen' : ∀ d ∈ calls, d.data.length ≤ blockSize := fun d hd => hlen d (by simp [hd])
      rcases List.pairwise_cons.mp h with ⟨hthen, hnext⟩
      rw [List.foldl_cons]
      by_cases hok : c.Succeeds
      · -- the whole record is in the file
        rw [PcapWriter.writePacket_of_succeeds hc hok]
        rcases ih hlen' hnext (file ++ c.record.bytes e.order) with ⟨rest, hfile, hrest⟩
        refine ⟨rest, ?_, ?_⟩
        · rw [hfile]
          simp [hok, List.append_assoc]
        · rcases hrest with hrest | ⟨d, hd, hk⟩
          · exact Or.inl hrest
          · exact Or.inr ⟨d, by simp [hd], hk⟩
      · rw [PcapWriter.writePacket_eq hc]
        by_cases hpart : 0 < c.accepted
        · -- a part is in the file, and nothing will follow it
          rcases foldl_of_nothing (e := e) hlen' (fun d hd => hthen d hd ⟨hpart, hok⟩)
            (file ++ (c.record.bytes e.order).take c.accepted) with ⟨hfile, hnone⟩
          have hshort : c.accepted < (c.record.bytes e.order).length := by
            rw [Pcap.Record.length_bytes, PcapCall.accepted]
            -- the write stopped in the record header, or behind it in the data
            by_cases hheader : 16 ≤ c.headerAccepted
            · have hdata : ¬ c.data.length ≤ c.dataAccepted := fun hd => hok ⟨hheader, hd⟩
              have hrec : c.record.data.length = c.data.length := rfl
              rw [if_pos hheader]
              omega
            · rw [if_neg hheader]
              omega
          refine ⟨(c.record.bytes e.order).take c.accepted, ?_, ?_⟩
          · rw [hfile]
            simp [hok, hnone]
          · exact Or.inr ⟨c, by simp, c.accepted, hshort, rfl⟩
        · have hzero : c.accepted = 0 := by omega
          rcases ih hlen' hnext file with ⟨rest, hfile, hrest⟩
          refine ⟨rest, ?_, ?_⟩
          · simp only [hzero, List.take_zero, List.append_nil, hfile]
            simp [hok]
          · rcases hrest with hrest | ⟨d, hd, hk⟩
            · exact Or.inl hrest
            · exact Or.inr ⟨d, by simp [hd], hk⟩

theorem Endian.order_cases (e : Endian) : e.order = .little ∨ e.order = .big := by
  cases e with
  | little => exact Or.inl rfl
  | big => exact Or.inr rfl

/-- What a run that takes nothing behind a part leaves is a PCAP file. -/
theorem validExport_of_noResume {calls : List PcapCall}
    (hlen : ∀ c ∈ calls, c.data.length ≤ blockSize) (h : NoResume calls) :
    ValidExport e calls := by
  rcases foldl_of_noResume hlen h (PcapWriter.header e) with ⟨rest, hfile, hrest⟩
  have hrun : PcapWriter.run e calls = Pcap.fileHeader e.order 2 4 65535 1 ++
      (((calls.filter fun c => c.Succeeds).map PcapCall.record).flatMap
        (Pcap.Record.bytes e.order) ++ rest) := by
    rw [PcapWriter.run, hfile, PcapWriter.header_eq]
  have hrecords : ∀ r ∈ (calls.filter fun c => c.Succeeds).map PcapCall.record,
      r.WellFormed := by
    intro r hr
    rcases List.mem_map.mp hr with ⟨c, hc, rfl⟩
    exact PcapCall.record_wellFormed (hlen c (List.mem_filter.mp hc).1)
  -- what is left at the end is no record
  have hnone : Pcap.readRecord e.order rest = none := by
    rcases hrest with rfl | ⟨c, hc, k, hk, rfl⟩
    · rfl
    · exact Pcap.readRecord_part (PcapCall.record_wellFormed (hlen c hc)) hk
  have hread := Pcap.read_file e.order_cases
    (⟨by decide, by decide, by decide, by decide⟩ : Pcap.HeaderFits 2 4 65535 1) hrecords hnone
  exact ⟨⟨_, hrun ▸ hread, rfl, rfl, rfl, rfl, hrest⟩⟩

end

/-- In a run where no byte follows a part of a record, the file is valid after
every call. -/
theorem pcap_valid_throughout (e : Endian) (calls : List PcapCall)
    (hlen : ∀ c ∈ calls, c.data.length ≤ blockSize) (h : NoResume calls) :
    ∀ calls', calls' <+: calls → ValidExport e calls' := by
  intro calls' hpre
  apply validExport_of_noResume
  · intro c hc
    exact hlen c (hpre.subset hc)
  · exact h.sublist hpre.sublist

/-- A first packet is written, a second one in part, a third one not at all. -/
theorem pcap_valid_throughout_disk_full :
    NoResume [⟨none, [1, 2], 16, 2⟩, ⟨none, [3, 4], 16, 1⟩, ⟨none, [5], 0, 0⟩] ∧
      ∀ calls', calls' <+: [⟨none, [1, 2], 16, 2⟩, ⟨none, [3, 4], 16, 1⟩, ⟨none, [5], 0, 0⟩] →
        ValidExport .little calls' :=
  ⟨by decide, pcap_valid_throughout .little _ (by decide) (by decide)⟩

/-- The disk has no room for the second byte of a packet and is free again at
the next one: the reader takes the next header for data. -/
theorem pcap_resumed_invalid :
    ¬ ∀ calls : List PcapCall, (∀ c ∈ calls, c.data.length ≤ blockSize) →
      ValidExport .little calls := by
  intro hall
  rcases (hall [⟨none, [1, 2], 16, 1⟩, ⟨none, [5], 16, 1⟩] (by decide)).valid with
    ⟨contents, hread, _, _, _, hrecords, _⟩
  have hbogus : (Pcap.read (PcapWriter.run .little
      [⟨none, [1, 2], 16, 1⟩, ⟨none, [5], 16, 1⟩])).map Pcap.Contents.records =
      some [⟨0, 0, 2, 2, [1, 0]⟩] := by decide
  rw [hread, Option.map_some, hrecords] at hbogus
  revert hbogus
  decide

/-! ## The capture without failures -/

def Call.pcapData : Call → Option (List UInt8)
  | .pcapWrite data => some data
  | _ => none

/-- The writes of a packet, all of them taken. -/
def pcapCalls (e : Packet × List Call) : List PcapCall :=
  (e.2.filterMap Call.pcapData).map fun data =>
    { sinceEpoch := e.1.sinceEpoch
      data := data
      headerAccepted := 16
      dataAccepted := data.length }

/-- The file of a capture with `--export-pcap`. -/
def pcapFile (e : Endian) (out : Outputs) (tracker : Option TcpStreamTracker)
    (packets : List Packet) : List UInt8 :=
  PcapWriter.run e
    ((capture { out with pcapWriter := true } tracker packets).flatMap pcapCalls)

/-- A report writes nothing to the capture file. -/
theorem pcapData_reportCalls (out : Outputs) (r : Report) (g : Run (Option Reporting)) :
    (reportCalls out r g).filterMap Call.pcapData = [] := by
  rcases g with panic | none | g
  · rfl
  · rfl
  · simp only [reportCalls, Reporting.calls, List.filterMap_append]
    cases out.jsonWriter <;> cases out.webServer <;> rfl

/-- Every call of `process_packet` writes its frame, and nothing else. -/
theorem Packet.process_pcapData (out : Outputs) (tracker : Option TcpStreamTracker) (p : Packet) :
    (p.process { out with pcapWriter := true } tracker).trace.filterMap Call.pcapData =
      [p.frame] := by
  rcases p.process_outputs { out with pcapWriter := true } tracker with ⟨rawHex, _, hout⟩
  have hview : (p.process { out with pcapWriter := true } tracker).trace.filterMap Call.pcapData =
      (outputs (p.process { out with pcapWriter := true } tracker)).filterMap Call.pcapData :=
    filterMap_outputs _ fun c => by cases c <;> rfl
  have hdump := outputs_printHexdump_filterMap Call.pcapData (fun _ => rfl) out.showHexdump p.frame
  rw [hview, hout, List.filterMap_append, List.filterMap_append, hdump, pcapData_reportCalls]
  rfl

/-- The call that writes a packet. -/
def Packet.pcapCall (p : Packet) : PcapCall :=
  { sinceEpoch := p.sinceEpoch
    data := p.frame
    headerAccepted := 16
    dataAccepted := p.frame.length }

/-- There is one write for each call of `process_packet`. -/
theorem flatMap_pcapCalls (out : Outputs) (tracker : Option TcpStreamTracker)
    (packets : List Packet) :
    (capture { out with pcapWriter := true } tracker packets).flatMap pcapCalls =
      (capture { out with pcapWriter := true } tracker packets).map fun e => e.1.pcapCall := by
  have hone : ∀ e ∈ capture { out with pcapWriter := true } tracker packets,
      pcapCalls e = [e.1.pcapCall] := by
    intro e he
    have hdata := capture_forall (P := fun p calls => calls.filterMap Call.pcapData = [p.frame])
      (fun tracker p => p.process_pcapData out tracker) tracker packets e he
    rw [pcapCalls, hdata]
    rfl
  rw [List.flatMap_congr hone, ← List.map_eq_flatMap]

/-- When every call succeeds, the file is its header and their records. -/
theorem PcapWriter.run_of_succeeds {e : Endian} {calls : List PcapCall}
    (hlen : ∀ c ∈ calls, c.data.length ≤ blockSize) (h : ∀ c ∈ calls, c.Succeeds) :
    run e calls = Pcap.fileHeader e.order 2 4 65535 1 ++
      (calls.map PcapCall.record).flatMap (Pcap.Record.bytes e.order) := by
  have hfold : ∀ file : List UInt8,
      calls.foldl (fun file c => (writePacket e file c).1) file =
        file ++ (calls.map PcapCall.record).flatMap (Pcap.Record.bytes e.order) := by
    induction calls with
    | nil => simp
    | cons c calls ih =>
        intro file
        have hrest := ih (fun d hd => hlen d (by simp [hd])) fun d hd => h d (by simp [hd])
        rw [List.foldl_cons, writePacket_of_succeeds (hlen c (by simp)) (h c (by simp)), hrest,
          List.map_cons, List.flatMap_cons, List.append_assoc]
  rw [run, hfold, header_eq]

/-- The file of a capture is a PCAP file, version 2.4, of Ethernet frames: the
frames of the calls of `process_packet`, in order, byte for byte. -/
theorem pcap_export_exact (e : Endian) (out : Outputs) (tracker : Option TcpStreamTracker)
    (packets : List Packet) (hlen : ∀ p ∈ packets, p.frame.length ≤ blockSize) :
    ∃ contents, Pcap.read (pcapFile e out tracker packets) = some contents ∧
      contents.major = 2 ∧ contents.minor = 4 ∧ contents.linktype = 1 ∧ contents.rest = [] ∧
      contents.records.map Pcap.Record.data =
        (capture { out with pcapWriter := true } tracker packets).map (fun e => e.1.frame) ∧
      ∀ r ∈ contents.records, r.included = r.data.length ∧ r.original = r.data.length ∧
        r.micros < 1000000 := by
  -- every frame of the run is one of the packets, so it is short enough
  have hcalls : ∀ c ∈ (capture { out with pcapWriter := true } tracker packets).map
      (fun e => e.1.pcapCall), c.data.length ≤ blockSize ∧ c.Succeeds := by
    intro c hc
    rcases List.mem_map.mp hc with ⟨e, he, rfl⟩
    have hp : e.1 ∈ packets :=
      (capture_prefix_packets { out with pcapWriter := true } tracker packets).subset
        (List.mem_map_of_mem he)
    exact ⟨hlen e.1 hp, Nat.le_refl 16, Nat.le_refl _⟩
  have hfile := PcapWriter.run_of_succeeds (e := e) (fun c hc => (hcalls c hc).1)
    fun c hc => (hcalls c hc).2
  have hrecords : ∀ r ∈ ((capture { out with pcapWriter := true } tracker packets).map
      (fun e => e.1.pcapCall)).map PcapCall.record, r.WellFormed := by
    intro r hr
    rcases List.mem_map.mp hr with ⟨c, hc, rfl⟩
    exact PcapCall.record_wellFormed (hcalls c hc).1
  have hend : Pcap.readRecord e.order [] = none := rfl
  have hread := Pcap.read_file e.order_cases
    (⟨by decide, by decide, by decide, by decide⟩ : Pcap.HeaderFits 2 4 65535 1) hrecords hend
  rw [List.append_nil, ← hfile, ← flatMap_pcapCalls] at hread
  refine ⟨_, hread, rfl, rfl, rfl, rfl, ?_, ?_⟩
  · simp only [flatMap_pcapCalls, List.map_map]
    rfl
  · intro r hr
    rcases List.mem_map.mp hr with ⟨c, hc, rfl⟩
    exact ⟨rfl, rfl, micros_lt c.sinceEpoch⟩

/-- Two frames, by a clock before the epoch. -/
theorem pcap_export_exact_echo :
    ∃ contents, Pcap.read (pcapFile .big ⟨true, false, false, false⟩ none echoPackets) =
        some contents ∧
      contents.major = 2 ∧ contents.minor = 4 ∧ contents.linktype = 1 ∧ contents.rest = [] ∧
      contents.records.map Pcap.Record.data = [echoPacket.frame, [171]] ∧
      ∀ r ∈ contents.records, r.included = r.data.length ∧ r.original = r.data.length ∧
        r.micros < 1000000 := by
  have hshort : ∀ p ∈ echoPackets, p.frame.length ≤ blockSize := by decide +kernel
  have hframes : (capture ⟨true, false, false, false⟩ none echoPackets).map (fun e => e.1.frame) =
      [echoPacket.frame, [171]] := by
    decide +kernel
  rcases pcap_export_exact .big ⟨true, false, false, false⟩ none echoPackets hshort with
    ⟨contents, hread, hmajor, hminor, hlinktype, hrest, hdata, hlengths⟩
  exact ⟨contents, hread, hmajor, hminor, hlinktype, hrest, hdata.trans hframes, hlengths⟩

end NetZer

import NetZer.Cli.Reporting

/-! # The capture loop

Both loops of `main` hand one frame after the other to `process_packet`, with
the length of the frame as its size. A panic ends the process, so a run is the
packets processed up to the first panic, each with the calls it caused.
-/

namespace NetZer

open Rust Rust.Traced

/-- A local time of day, to the millisecond; a leap second has number 60. -/
structure LocalTime where
  hour : Nat
  minute : Nat
  second : Nat
  milli : Nat
  hour_lt : hour < 24
  minute_lt : minute < 60
  second_le : second ≤ 60
  milli_lt : milli < 1000
deriving DecidableEq, Repr

def midnight : LocalTime :=
  { hour := 0, minute := 0, second := 0, milli := 0
    hour_lt := Nat.zero_lt_succ 23
    minute_lt := Nat.zero_lt_succ 59
    second_le := Nat.zero_le 60
    milli_lt := Nat.zero_lt_succ 999 }

/-- `format("%H:%M:%S%.3f")`. -/
def LocalTime.display (t : LocalTime) : String :=
  Text.zeroPad 2 t.hour ++ ":" ++ Text.zeroPad 2 t.minute ++ ":" ++ Text.zeroPad 2 t.second ++
    "." ++ Text.zeroPad 3 t.milli

example : (LocalTime.mk 9 5 59 7 (by decide) (by decide) (by decide) (by decide)).display =
    "09:05:59.007" := by decide

theorem LocalTime.display_avoids (t : LocalTime) : Text.Avoids Text.isControl t.display := by
  simp only [LocalTime.display, Text.avoids_append]
  exact ⟨⟨⟨⟨⟨⟨Text.avoids_zeroPad _ _, by decide⟩, Text.avoids_zeroPad _ _⟩, by decide⟩,
    Text.avoids_zeroPad _ _⟩, by decide⟩, Text.avoids_zeroPad _ _⟩

/-- `std::time::Duration`. -/
structure Duration where
  secs : Nat
  nanos : Nat
  secs_lt : secs < 18446744073709551616
  nanos_lt : nanos < 1000000000
deriving DecidableEq, Repr

/-- A frame as a capture path hands it on, and the clock readings made while
it is processed: of the system clock, since the epoch unless it stands before
that, and of the local time. -/
structure Packet where
  frame : List UInt8
  sinceEpoch : Option Duration
  time : LocalTime
deriving DecidableEq, Repr

/-- `process_packet` on a packet. -/
def Packet.process (out : Outputs) (tracker : Option TcpStreamTracker) (p : Packet) :
    Act (Option TcpStreamTracker) :=
  processPacket out p.time.display tracker p.frame p.frame.length

/-- The capture loop: the packets processed, with their calls. -/
def capture (out : Outputs) : Option TcpStreamTracker → List Packet → List (Packet × List Call)
  | _, [] => []
  | tracker, p :: ps =>
      let run := p.process out tracker
      (p, run.trace) ::
        match run.result with
        | .ok tracker' => capture out tracker' ps
        | .error _ => []

/-- What holds of the calls of every packet, whatever the tracker holds, holds
throughout a run. -/
theorem capture_forall {out : Outputs} {P : Packet → List Call → Prop}
    (h : ∀ tracker p, P p (p.process out tracker).trace) (tracker : Option TcpStreamTracker)
    (packets : List Packet) : ∀ e ∈ capture out tracker packets, P e.1 e.2 := by
  induction packets generalizing tracker with
  | nil =>
      intro e he
      cases he
  | cons p ps ih =>
      intro e he
      rcases List.mem_cons.mp he with rfl | he
      · exact h tracker p
      · cases hrun : (p.process out tracker).result with
        | error panic =>
            rw [hrun] at he
            cases he
        | ok tracker' =>
            rw [hrun] at he
            exact ih tracker' e he

/-- The packets are processed in order, from the first. -/
theorem capture_prefix_packets (out : Outputs) (tracker : Option TcpStreamTracker)
    (packets : List Packet) : (capture out tracker packets).map Prod.fst <+: packets := by
  induction packets generalizing tracker with
  | nil => exact List.prefix_rfl
  | cons p ps ih =>
      simp only [capture, List.map_cons]
      rw [List.prefix_cons_inj]
      cases (p.process out tracker).result with
      | error panic => exact List.nil_prefix
      | ok tracker' => exact ih tracker'

/-- The calls of a packet, as far as they leave the program. -/
theorem Packet.process_outputs (out : Outputs) (tracker : Option TcpStreamTracker) (p : Packet) :
    ∃ rawHex, toHexString p.frame = .ok rawHex ∧
      outputs (p.process out tracker) =
        (if out.pcapWriter then [.pcapWrite p.frame] else []) ++
        outputs (printHexdump out.showHexdump p.frame) ++
        reportCalls out ⟨p.time.display, p.frame.length, rawHex⟩ (frameReport p.frame) :=
  processPacket_outputs out p.time.display tracker p.frame p.frame.length

/-! ## The records of a packet -/

/-- What a call writes to the JSON file. -/
def Call.jsonRecord : Call → Option Record
  | .jsonWrite record => some record
  | _ => none

/-- What a call sends to the dashboard. -/
def Call.webRecord : Call → Option Record
  | .broadcast record _ => some record
  | _ => none

/-- The report of a packet, unless its dissection panics. -/
def Packet.reported (p : Packet) : Option Reporting :=
  (frameReport p.frame).toOption.join

theorem toOption_join_eq_some_iff {α : Type} {x : Run (Option α)} {a : α} :
    x.toOption.join = some a ↔ x = .ok (some a) := by
  rcases x with panic | none | a'
  · simp [Except.toOption]
  · simp [Except.toOption]
  · simp [Except.toOption]

theorem Packet.reported_eq_some_iff {p : Packet} {g : Reporting} :
    p.reported = some g ↔ frameReport p.frame = .ok (some g) :=
  toOption_join_eq_some_iff

section

variable (out : Outputs) (tracker : Option TcpStreamTracker) (p : Packet)

theorem outputs_printHexdump_filterMap {γ : Type} (view : Call → Option γ)
    (hview : ∀ dump, view (.printDump dump) = none) (showHexdump : Bool) (frame : List UInt8) :
    (outputs (printHexdump showHexdump frame)).filterMap view = [] := by
  rcases hexdump_returns frame with ⟨dump, hdump⟩
  cases showHexdump with
  | true => simp [outputs, printHexdump, hdump, Call.output, hview]
  | false => rfl

/-- What a view of reports only sees of a packet. -/
theorem Packet.process_filterMap {γ : Type} (view : Call → Option γ)
    (hview : ∀ c : Call, c.output.bind view = view c)
    (hpcap : ∀ data, view (.pcapWrite data) = none)
    (hdump : ∀ dump, view (.printDump dump) = none) :
    ∃ rawHex, toHexString p.frame = .ok rawHex ∧
      (p.process out tracker).trace.filterMap view =
        (reportCalls out ⟨p.time.display, p.frame.length, rawHex⟩
          (frameReport p.frame)).filterMap view := by
  rcases p.process_outputs out tracker with ⟨rawHex, hhex, hout⟩
  refine ⟨rawHex, hhex, ?_⟩
  rw [filterMap_outputs view hview, hout, List.filterMap_append, List.filterMap_append,
    outputs_printHexdump_filterMap view hdump]
  cases out.pcapWriter <;> simp [hpcap]

/-- The JSON file gets one record of every packet that is reported. -/
theorem Packet.process_jsonRecord :
    (p.process out tracker).trace.filterMap Call.jsonRecord =
      if out.jsonWriter then
        (p.reported.map fun g => g.jsonRecord p.time.display p.frame.length).toList
      else [] := by
  rcases p.process_filterMap out tracker Call.jsonRecord (fun c => by cases c <;> rfl)
    (fun _ => rfl) (fun _ => rfl) with ⟨rawHex, _, hview⟩
  rw [hview, reported]
  rcases frameReport p.frame with panic | none | g
  · cases out.jsonWriter <;> rfl
  · cases out.jsonWriter <;> rfl
  · simp only [reportCalls, Reporting.calls, List.filterMap_append]
    cases out.jsonWriter <;> cases out.webServer <;> rfl

/-- So does the dashboard. -/
theorem Packet.process_webRecord :
    (p.process out tracker).trace.filterMap Call.webRecord =
      if out.webServer then
        (p.reported.map fun g => g.webRecord p.time.display p.frame.length).toList
      else [] := by
  rcases p.process_filterMap out tracker Call.webRecord (fun c => by cases c <;> rfl)
    (fun _ => rfl) (fun _ => rfl) with ⟨rawHex, _, hview⟩
  rw [hview, reported]
  rcases frameReport p.frame with panic | none | g
  · cases out.webServer <;> rfl
  · cases out.webServer <;> rfl
  · simp only [reportCalls, Reporting.calls, List.filterMap_append]
    cases out.jsonWriter <;> cases out.webServer <;> rfl

end

/-! ## A short capture -/

/-- From 10.0.0.1 to port 7 of 10.0.0.2, without data. -/
def echoPacket : Packet :=
  { frame := List.replicate 12 0 ++ [0x08, 0x00] ++
      [0x45, 0, 0, 28, 0, 0, 0, 0, 64, 17, 0, 0, 10, 0, 0, 1, 10, 0, 0, 2] ++
      [0xc0, 0x00, 0x00, 0x07, 0, 8, 0, 0]
    sinceEpoch := none
    time := midnight }

/-- The datagram, and a frame too short for any parser. -/
def echoPackets : List Packet :=
  [echoPacket, ⟨[171], none, midnight⟩]

/-- Only the dashboard is on. -/
def webOnly : Outputs :=
  { pcapWriter := false, jsonWriter := false, showHexdump := false, webServer := true }

end NetZer

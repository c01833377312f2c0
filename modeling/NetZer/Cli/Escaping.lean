import NetZer.Cli.JsonExport
import NetZer.Lib.Literals

/-! # `escape_json`

What is escaped is the text of a literal that ends where it should, and a line or
a message made of such literals has the members it was made of.
-/

namespace NetZer

open Rust Text

/-- The character does not stand for itself in a literal. -/
def isEscaped (c : Char) : Bool :=
  Json.escapeQuotes c != [c]

theorem flatMap_escapeQuotes {s : String} (h : Avoids isEscaped s) :
    s.toList.flatMap Json.escapeQuotes = s.toList := by
  have hchar : ∀ c ∈ s.toList, Json.escapeQuotes c = [c] := by
    intro c hc
    simpa [isEscaped] using h c hc
  rw [List.flatMap_congr hchar, List.flatMap_singleton']

/-- The hex text of a frame has nothing but digits. -/
theorem toHexString_avoids {bad : Char → Bool} (hbad : ∀ d < 16, bad d.digitChar = false)
    {frame : List UInt8} {rawHex : String} (h : toHexString frame = .ok rawHex) :
    Avoids bad rawHex := by
  have hslice := slice_ok (φ := Fn) frame (a := 0) (b := min frame.length 256)
    (Nat.zero_le _) (Nat.min_le_left _ _)
  simp only [toHexString, hslice, ok_bind] at h
  rw [← Except.ok.inj h, avoids_join]
  intro s hs
  obtain ⟨b, -, rfl⟩ := List.mem_map.mp hs
  exact avoids_leftpad (by decide) hbad 2 b.toNat

/-- So it stands for itself. -/
theorem toHexString_unescaped {frame : List UInt8} {rawHex : String}
    (h : toHexString frame = .ok rawHex) : Avoids isEscaped rawHex :=
  toHexString_avoids (by decide) h

theorem Record.jsonLine_toList (r : Record) :
    r.jsonLine.toList = Json.writeObject r.members ++ ['\n'] := by
  rw [r.jsonLine_eq, Record.body, String.toList_append, String.toList_ofList]
  rfl

/-- The members of a message: those of the line, and the frame. -/
def Record.webMembers (r : Record) (rawHex : String) : List (String × Json.Field) :=
  r.members ++ [("payload", .text rawHex)]

theorem Record.webMessage_toList (r : Record) {rawHex : String} (h : Avoids isEscaped rawHex) :
    (r.webMessage rawHex).toList = Json.writeObject (r.webMembers rawHex) := by
  unfold Record.webMessage
  simp [Record.webMembers, Record.members, Json.writeObject, Json.writeMember, Json.quoted,
    Json.Field.write, Json.escapeQuotes, escapeJson_toList, flatMap_escapeQuotes h]

/-- A literal of an escaped text is read as that text up to its quotation mark,
and the lines and messages have the members that were put into them. -/
theorem escapeJson_scanned :
    (∀ s r : String,
      Json.scan (escapeJson s ++ "\"" ++ r).toList = some ((escapeJson s).toList, r.toList) ∧
        Json.unescape (escapeJson s).toList = s.toList) ∧
    (∀ r : Record,
      Json.scanObject r.jsonLine.toList = some (r.members.map Json.scannedMember, ['\n'])) ∧
    ∀ (r : Record) (frame : List UInt8), ∃ rawHex, toHexString frame = .ok rawHex ∧
      Json.scanObject (r.webMessage rawHex).toList =
        some ((r.webMembers rawHex).map Json.scannedMember, []) := by
  -- texts first, then the lines of the export, then the messages
  refine ⟨fun s r => ⟨?_, ?_⟩, fun r => ?_, fun r frame => ?_⟩
  · have hquote : (escapeJson s ++ "\"" ++ r).toList =
        s.toList.flatMap Json.escapeQuotes ++ '"' :: r.toList := by
      simp [escapeJson_toList]
    rw [hquote, Json.scan_literal, escapeJson_toList]
  · rw [escapeJson_toList, Json.unescape_literal]
  · rw [r.jsonLine_toList]
    exact Json.scanObject_writeObject (List.cons_ne_nil _ _) _
  · obtain ⟨rawHex, hhex⟩ := toHexString_returns frame
    have hclean := toHexString_unescaped hhex
    have hmembers : r.webMembers rawHex ≠ [] := by simp [Record.webMembers]
    refine ⟨rawHex, hhex, ?_⟩
    rw [r.webMessage_toList hclean, ← Json.scanObject_writeObject hmembers [], List.append_nil]

end NetZer

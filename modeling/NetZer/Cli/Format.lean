import NetZer.Core.Buffer
import NetZer.Lib.Text

/-! # Formatting

The text helpers of `main.rs`, and coloured terminal text as the `colored`
crate takes it: a string with the styles applied to it.
-/

namespace NetZer

open Rust

/-- The styles `main.rs` applies. -/
inductive Style where
  | brightBlack
  | brightRed
  | brightGreen
  | brightYellow
  | brightBlue
  | brightMagenta
  | brightCyan
  | brightWhite
  | bold
deriving DecidableEq, Repr

/-- `colored::ColoredString`. -/
structure ColoredString where
  text : String
  styles : List Style
deriving DecidableEq, Repr

/-- `truncate`: recorded as a call, as its byte arithmetic can panic. -/
def truncate (s : String) (maxChars : Nat) : Run String :=
  calling .truncate do
    match Text.charIndex s maxChars with
    | none => return s
    | some (idx, _) =>
        let n ← sub idx 3
        return (← Text.sliceTo s n) ++ "..."

/-- `escape_json`. -/
def escapeJson (s : String) : String :=
  Text.replace (Text.replace s '\\' "\\\\") '"' "\\\""

/-- `to_hex_string`: at most the first 256 bytes. -/
def toHexString (bytes : List UInt8) : Run String := do
  let limit := min bytes.length 256
  let s ← slice bytes 0 limit
  return String.join (s.1.map fun b => Text.hex 2 b.toNat)

/-- `to_hex_string` returns on every frame. -/
theorem toHexString_returns (bytes : List UInt8) : ∃ s, toHexString bytes = .ok s := by
  have h := slice_ok (φ := Fn) bytes (a := 0) (b := min bytes.length 256)
    (Nat.zero_le _) (Nat.min_le_left _ _)
  exact ⟨_, by simp only [toHexString, h, bind, Except.bind, pure, Except.pure]; rfl⟩

/-- What the records of a packet say. -/
structure Record where
  timestamp : String
  proto : String
  src : String
  dst : String
  info : String
  size : Nat
deriving DecidableEq, Repr

/-- The line `JsonWriter::write_packet` writes. -/
def Record.jsonLine (r : Record) : String :=
  "\x7b\"timestamp\":\"" ++ escapeJson r.timestamp ++ "\",\"proto\":\"" ++ escapeJson r.proto ++
    "\",\"src\":\"" ++ escapeJson r.src ++ "\",\"dst\":\"" ++ escapeJson r.dst ++
    "\",\"info\":\"" ++ escapeJson r.info ++ "\",\"size\":" ++ toString r.size ++ "\x7d\n"

/-- The message the handlers broadcast: a record and the raw frame in hex. -/
def Record.webMessage (r : Record) (rawHex : String) : String :=
  "\x7b\"timestamp\":\"" ++ escapeJson r.timestamp ++ "\",\"proto\":\"" ++ escapeJson r.proto ++
    "\",\"src\":\"" ++ escapeJson r.src ++ "\",\"dst\":\"" ++ escapeJson r.dst ++
    "\",\"info\":\"" ++ escapeJson r.info ++ "\",\"size\":" ++ toString r.size ++
    ",\"payload\":\"" ++ rawHex ++ "\"\x7d"

end NetZer

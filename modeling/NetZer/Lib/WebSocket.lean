import NetZer.Lib.Bytes
import NetZer.Lib.Text

/-! # WebSocket frames

The base framing of RFC 6455 as the receiver of a connection without extensions
reads it. A frame says itself how long it is: in seven bits, or in two or eight
bytes more, whichever is the shortest that will do. A client takes no frame that
is masked.
-/

namespace WebSocket

open Bytes Text

/-- How the length of a payload is coded. -/
inductive LengthForm where
  | seven
  | sixteen
  | sixtyFour
deriving DecidableEq, Repr

/-- The form that takes the fewest bytes. -/
def LengthForm.minimal (len : Nat) : LengthForm :=
  if len ≤ 125 then .seven else if len ≤ 65535 then .sixteen else .sixtyFour

structure Frame where
  fin : Bool
  /-- The three reserved bits. -/
  rsv : Nat
  opcode : Nat
  lengthForm : LengthForm
  maskingKey : Option (List UInt8)
  /-- The payload as it was transmitted, masked or not. -/
  payload : List UInt8
deriving DecidableEq, Repr

/-- The first bytes, if there are so many, and what follows them. -/
def take (n : Nat) (bytes : List UInt8) : Option (List UInt8 × List UInt8) :=
  if n ≤ bytes.length then some (bytes.take n, bytes.drop n) else none

/-- The length of the payload: its form, itself, and what follows. -/
def takeLength (seven : Nat) (bytes : List UInt8) :
    Option (LengthForm × Nat × List UInt8) :=
  if seven = 126 then
    (take 2 bytes).map fun e => (.sixteen, Order.big.value e.1, e.2)
  else if seven = 127 then
    (take 8 bytes).map fun e => (.sixtyFour, Order.big.value e.1, e.2)
  else some (.seven, seven, bytes)

/-- The masking key of a frame that is masked, and what follows. -/
def takeKey (masked : Bool) (bytes : List UInt8) : Option (Option (List UInt8) × List UInt8) :=
  if masked then (take 4 bytes).map fun e => (some e.1, e.2) else some (none, bytes)

/-- A frame at the beginning of the bytes, and what follows it. -/
def decodeFrame : List UInt8 → Option (Frame × List UInt8)
  | first :: second :: bytes => do
      let (lengthForm, len, bytes) ← takeLength (second.toNat % 128) bytes
      let (maskingKey, bytes) ← takeKey (decide (128 ≤ second.toNat)) bytes
      let (payload, bytes) ← take len bytes
      let frame : Frame :=
        { fin := decide (128 ≤ first.toNat)
          rsv := first.toNat / 16 % 8
          opcode := first.toNat % 16
          lengthForm := lengthForm
          maskingKey := maskingKey
          payload := payload }
      return (frame, bytes)
  | _ => none

/-- The opcode of a text frame. -/
def textOpcode : Nat := 1

/-- The opcodes that are defined: continuation, text, binary, close, ping, pong. -/
def opcodes : List Nat := [0, textOpcode, 2, 8, 9, 10]

/-- A client does not fail the connection over this frame: no reserved bit and no
unknown opcode, no mask, the length in its minimal form and with its highest bit
clear, and a control frame neither fragmented nor long. -/
def Frame.accepted (f : Frame) : Bool :=
  f.rsv == 0 && opcodes.contains f.opcode && f.maskingKey.isNone &&
    f.lengthForm == .minimal f.payload.length && decide (f.payload.length < 2 ^ 63) &&
    (decide (f.opcode < 8) || (f.fin && decide (f.payload.length ≤ 125)))

/-- So many frames, as a client reads them, and what follows. -/
def decodeFrames : Nat → List UInt8 → Option (List Frame × List UInt8)
  | 0, bytes => some ([], bytes)
  | n + 1, bytes => do
      let (f, bytes) ← decodeFrame bytes
      if f.accepted then
        let (fs, bytes) ← decodeFrames n bytes
        return (f :: fs, bytes)
      else none

/-- The message of a text frame that is a message by itself. -/
def Frame.message (f : Frame) : Option String :=
  if f.fin && f.opcode == textOpcode then fromUtf8 f.payload else none

/-! ## Reading what was written -/

theorem take_append {front : List UInt8} {n : Nat} (h : front.length = n) (rest : List UInt8) :
    take n (front ++ rest) = some (front, rest) := by
  subst h
  simp [take]

/-- A length in a field of its own. -/
theorem takeLength_sixteen {len : Nat} (h : len < 256 ^ 2) (rest : List UInt8) :
    takeLength 126 (Order.big.bytes 2 len ++ rest) = some (.sixteen, len, rest) := by
  rw [takeLength, if_pos rfl, take_append (Order.big.length_bytes 2 len), Option.map_some,
    Order.big.value_bytes 2 len h]

theorem takeLength_sixtyFour {len : Nat} (h : len < 256 ^ 8) (rest : List UInt8) :
    takeLength 127 (Order.big.bytes 8 len ++ rest) = some (.sixtyFour, len, rest) := by
  rw [takeLength, if_neg (by decide), if_pos rfl, take_append (Order.big.length_bytes 8 len),
    Option.map_some, Order.big.value_bytes 8 len h]

/-- Frames that are read one by one are read one after the other. -/
theorem decodeFrames_flatMap {α : Type} {encode : α → List UInt8} {frame : α → Frame}
    {items : List α} (h : ∀ a ∈ items, (frame a).accepted = true ∧
      ∀ rest, decodeFrame (encode a ++ rest) = some (frame a, rest)) (further : List UInt8) :
    decodeFrames items.length (items.flatMap encode ++ further) =
      some (items.map frame, further) := by
  induction items with
  | nil => rfl
  | cons a items ih =>
      rw [List.forall_mem_cons] at h
      obtain ⟨⟨haccepted, hdecode⟩, hitems⟩ := h
      rw [List.length_cons, List.flatMap_cons, List.append_assoc, decodeFrames, hdecode]
      simp only [Option.bind_eq_bind, Option.bind_some, haccepted, if_true, ih hitems]
      rfl

end WebSocket

import NetZer.Core.Buffer
import NetZer.Lib.Text

/-! # Hex dump

`hexdump`: sixteen bytes a line, an offset, two groups of eight hexadecimal
columns and the printable characters.
-/

namespace NetZer

open Rust

/-- `c.is_ascii_graphic()` on `byte as char`. -/
def isAsciiGraphic (b : UInt8) : Bool :=
  0x21 ≤ b && b ≤ 0x7e

/-- The byte as the ASCII column shows it. -/
def asciiColumn (b : UInt8) : Char :=
  if isAsciiGraphic b || b == 0x20 then Char.ofNat b.toNat else '.'

/-- One line of the dump. -/
def hexdumpLine (offset : Nat) (chunk : List UInt8) : Run String := do
  let columns := chunk.zipIdx.map fun (b, i) =>
    (if i = 8 then " " else "") ++ Text.hex 2 b.toNat ++ " "
  -- a short last line is padded to the width of a full one
  let missing ← sub 16 chunk.length
  let padding := (List.range missing).map fun i =>
    (if chunk.length + i = 8 then " " else "") ++ "   "
  return "  " ++ Text.hex 4 offset ++ "  " ++ String.join columns ++ String.join padding ++ " " ++
    String.ofList (chunk.map asciiColumn) ++ "\n"

/-- The lines of the chunks, the first of them at `offset`. -/
def hexdumpFrom : Nat → List (List UInt8) → Run String
  | _, [] => return ""
  | offset, chunk :: rest => do
      let line ← hexdumpLine offset chunk
      return line ++ (← hexdumpFrom (offset + chunk.length) rest)

def hexdump (data : List UInt8) : Run String :=
  hexdumpFrom 0 (chunks 16 data)

/-- Every chunk has its line. -/
theorem hexdumpFrom_returns (offset : Nat) {cs : List (List UInt8)}
    (h : ∀ c ∈ cs, c.length ≤ 16) : ∃ s, hexdumpFrom offset cs = .ok s := by
  induction cs generalizing offset with
  | nil => exact ⟨"", rfl⟩
  | cons chunk rest ih =>
      obtain ⟨s, hs⟩ := ih (offset + chunk.length) fun c hc => h c (by simp [hc])
      have hsub := sub_ok (φ := Fn) (h chunk (by simp))
      simp only [hexdumpFrom, hexdumpLine, hsub, hs, bind, Except.bind, pure, Except.pure]
      exact ⟨_, rfl⟩

/-- `hexdump` returns on every frame. -/
theorem hexdump_returns (data : List UInt8) : ∃ s, hexdump data = .ok s :=
  hexdumpFrom_returns 0 fun _ hc => length_le_of_mem_chunks hc

end NetZer

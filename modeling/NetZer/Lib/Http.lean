import NetZer.Lib.Lossy

/-! # HTTP messages

The bytes that the parts of an HTTP message are made of, and its header lines.
-/

namespace Http

open Text

def isVisible (b : UInt8) : Bool :=
  0x21 ≤ b && b ≤ 0x7e

def isDigit (b : UInt8) : Bool :=
  0x30 ≤ b && b ≤ 0x39

/-- Visible, and none of `"(),/:;<=>?@[\]` and the braces. -/
def isTokenByte (b : UInt8) : Bool :=
  isVisible b && !([0x22, 0x28, 0x29, 0x2c, 0x2f, 0x3a, 0x3b, 0x3c, 0x3d, 0x3e, 0x3f, 0x40, 0x5b,
    0x5c, 0x5d, 0x7b, 0x7d] : List UInt8).contains b

/-- Visible, a space or a tab, or not ASCII. -/
def isFieldByte (b : UInt8) : Bool :=
  b == 0x09 || (0x20 ≤ b && b != 0x7f)

def isBlank (b : UInt8) : Bool :=
  b == 0x20 || b == 0x09

theorem isVisible_ascii : ∀ b : UInt8, isVisible b = true → b < 0x80 ∧ b ≠ 0x0a ∧ b ≠ 0x20 := by
  intro b h
  obtain ⟨hlo, hhi⟩ := le_of_range h
  refine ⟨UInt8.lt_of_le_of_lt hhi (by decide), ?_, ?_⟩
  · rintro rfl
    exact absurd hlo (by decide)
  · rintro rfl
    exact absurd hlo (by decide)

theorem isDigit_ascii : ∀ b : UInt8, isDigit b = true → b < 0x80 ∧ b ≠ 0x0a := by
  intro b h
  obtain ⟨hlo, hhi⟩ := le_of_range h
  refine ⟨UInt8.lt_of_le_of_lt hhi (by decide), ?_⟩
  rintro rfl
  exact absurd hlo (by decide)

theorem isTokenByte_ascii :
    ∀ b : UInt8, isTokenByte b = true → (b < 0x80 ∧ b ≠ 0x3a) ∧ b ≠ 0x0a := by
  intro b h
  have hvisible := isVisible_ascii b ((Bool.and_eq_true _ _).mp h).1
  refine ⟨⟨hvisible.1, ?_⟩, hvisible.2.1⟩
  rintro rfl
  exact absurd h (by decide)

theorem isFieldByte_ne : ∀ b : UInt8, isFieldByte b = true → b ≠ 0x0a := by
  rintro b h rfl
  exact absurd h (by decide)

theorem isBlank_ascii : ∀ b : UInt8, isBlank b = true →
    (b < 0x80 ∧ b ≠ 0x0a) ∧ Unicode.isWhitespace (Char.ofNat b.toNat) = true := by
  intro b h
  rw [isBlank, Bool.or_eq_true, beq_iff_eq, beq_iff_eq] at h
  rcases h with rfl | rfl <;> decide

/-- A header. -/
structure HeaderField where
  name : List UInt8
  value : List UInt8
  name_ne : name ≠ []
  name_token : ∀ b ∈ name, isTokenByte b = true
  value_field : ∀ b ∈ value, isFieldByte b = true

/-- The header's line, without its ending. -/
def HeaderField.line (f : HeaderField) : List UInt8 :=
  f.name ++ 0x3a :: f.value

def headerLines (fields : List HeaderField) : List UInt8 :=
  fields.flatMap fun f => f.line ++ crlf

theorem HeaderField.newline_not_mem (f : HeaderField) : 0x0a ∉ f.line := by
  intro hmem
  rw [HeaderField.line, List.mem_append, List.mem_cons] at hmem
  rcases hmem with hname | hcolon | hvalue
  · exact (isTokenByte_ascii _ (f.name_token _ hname)).2 rfl
  · exact absurd hcolon (by decide)
  · exact isFieldByte_ne _ (f.value_field _ hvalue) rfl

end Http

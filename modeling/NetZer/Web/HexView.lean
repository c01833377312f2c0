import NetZer.Cli.Format
import NetZer.Core.HexColumns
import NetZer.Lib.Lossy
import NetZer.Web.Dashboard

/-! # The two hex dumps

The dashboard's hex view is built in the browser, from the hexadecimal text of
the frame; the dump of the command line is built from the frame. Without the
tags of the one and the indentation of the other they are the same text.
-/

namespace NetZer

open Rust Text

/-- A text without its span tags; `tag` inside of one. -/
def removeSpans (tag : Bool) : List Char → List Char
  | [] => []
  | c :: cs =>
      if tag then removeSpans (c != '>') cs
      else if "<span".toList.isPrefixOf (c :: cs) || "</span".toList.isPrefixOf (c :: cs) then
        removeSpans true cs
      else c :: removeSpans false cs

/-- A part of an HTML string: its tags are the template's. -/
def spanless : Html.Piece → String
  | .markup s => String.ofList (removeSpans false s.toList)
  | .text s => s
  | .value s => s

/-- An HTML string as text, without its span tags. -/
def withoutSpans (html : Html.Pieces) : String :=
  String.join (html.map spanless)

/-- A line without the two spaces it begins with. -/
def unindentLine (line : List Char) : List Char :=
  if "  ".toList.isPrefixOf line then line.drop 2 else line

/-- Line by line. -/
def unindent (s : String) : String :=
  String.ofList ((splitInclusive '\n' s.toList).flatMap unindentLine)

/-! ## The bytes of a payload -/

/-- A byte as the script has it. -/
def jsByte (b : UInt8) : Option Int :=
  some b.toNat

theorem pairs_append (a b : Nat) (us : List Nat) :
    Dashboard.pairs ([a, b] ++ us) = [a, b] :: Dashboard.pairs us := rfl

/-- The two digits of a byte are read back. -/
theorem parseInt16_hex : ∀ b : UInt8, ∃ x y,
    Js.units (hex 2 b.toNat) = [x, y] ∧ Js.parseInt16 [x, y] = jsByte b := by
  intro b
  have hdigits : ∀ n < 256, (Js.units (hex 2 n)).length = 2 ∧
      Js.parseInt16 (Js.units (hex 2 n)) = some (n : Int) := by
    decide +kernel
  obtain ⟨hlen, hparse⟩ := hdigits b.toNat b.toNat_lt
  obtain ⟨x, y, hunits⟩ := List.length_eq_two.mp hlen
  exact ⟨x, y, hunits, hunits ▸ hparse⟩

/-- So the script has the bytes that were written. -/
theorem payloadBytes_hex (bytes : List UInt8) :
    Dashboard.payloadBytes (String.join (bytes.map fun b => hex 2 b.toNat)) =
      bytes.map jsByte := by
  induction bytes with
  | nil => rfl
  | cons b bytes ih =>
      obtain ⟨x, y, hunits, hparse⟩ := parseInt16_hex b
      have hsplit : Js.units (String.join ((b :: bytes).map fun b => hex 2 b.toNat)) =
          [x, y] ++ Js.units (String.join (bytes.map fun b => hex 2 b.toNat)) := by
        rw [List.map_cons, String.join_cons, Js.units, String.toList_append, List.flatMap_append,
          ← hunits]
        rfl
      rw [Dashboard.payloadBytes, hsplit, pairs_append, List.map_cons, hparse, List.map_cons, ← ih]
      rfl

/-! ## A row -/

theorem padStart_toString16 (n k : Nat) :
    Js.padStart (Js.toString16 (some (n : Int))) k '0' = hex k n := by
  show String.ofList ((String.ofList (Nat.toDigits 16 n)).toList.leftpad k '0') = hex k n
  rw [String.toList_ofList, hex]

/-- The columns of the view are those of the dump. -/
theorem hexColumn_eq (chunk : List UInt8) :
    Dashboard.hexColumn (chunk.map jsByte) = hexColumns chunk := by
  rw [Dashboard.hexColumn, hexColumns]
  congr 1
  apply List.map_congr_left
  intro j _
  rw [List.getElem?_map]
  cases chunk[j]? with
  | none => rfl
  | some b =>
      have hdigits := padStart_toString16 b.toNat 2
      simp only [Option.map_some, jsByte, hdigits]

theorem asciiChar_eq : ∀ b : UInt8, Dashboard.asciiChar (jsByte b) = asciiColumn b :=
  forall_byte (by decide +kernel)

/-- A row of the view without its tags. -/
theorem withoutSpans_hexdumpLine (offset : Nat) (chunk : List UInt8) :
    withoutSpans (Dashboard.hexdumpLine offset (chunk.map jsByte)) =
      dumpRow offset chunk ++ "\n" := by
  have hascii : (chunk.map jsByte).map Dashboard.asciiChar = chunk.map asciiColumn := by
    rw [List.map_map]
    exact List.map_congr_left fun b _ => asciiChar_eq b
  have hoffset : spanless (.markup "<span class=\"hexdump-offset\">") = "" := by decide
  have hbytes : spanless (.markup "<span class=\"hexdump-bytes\">") = "" := by decide
  have htext : spanless (.markup "<span class=\"hexdump-ascii\">") = "" := by decide
  have hend : spanless (.markup "</span>  ") = "  " ∧ spanless (.markup "</span> ") = " " ∧
      spanless (.markup "</span>\n") = "\n" := by decide
  have hplain : ∀ s, spanless (.text s) = s := fun _ => rfl
  simp only [withoutSpans, Dashboard.hexdumpLine, List.map_cons, List.map_nil, hoffset, hbytes,
    htext, hend, hplain, padStart_toString16, hexColumn_eq, hascii, String.join_cons,
    String.join_nil, String.append_assoc, String.empty_append, String.append_empty, dumpRow]

/-! ## All rows -/

theorem withoutSpans_append (html html' : Html.Pieces) :
    withoutSpans (html ++ html') = withoutSpans html ++ withoutSpans html' := by
  rw [withoutSpans, List.map_append, String.join_append, withoutSpans, withoutSpans]

/-- The view without its tags has the rows of the dump. -/
theorem withoutSpans_view (data : List UInt8) :
    withoutSpans (((chunks 16 (data.map jsByte)).zipIdx.map fun e =>
      Dashboard.hexdumpLine (16 * e.2) e.1).flatten) =
      String.join ((dumpRows data).map (· ++ "\n")) := by
  rw [chunks_map (by decide), dumpRows, List.map_map, List.zipIdx_map, List.map_map]
  induction (chunks 16 data).zipIdx with
  | nil => rfl
  | cons e rest ih =>
      rw [List.map_cons, List.flatten_cons, withoutSpans_append, ih, List.map_cons,
        String.join_cons]
      exact congrArg (· ++ _) (withoutSpans_hexdumpLine (16 * e.2) e.1)

/-- The lines of the dump lose their indentation. -/
theorem unindent_rows (data : List UInt8) :
    unindent (String.join ((dumpRows data).map fun row => "  " ++ row ++ "\n")) =
      String.join ((dumpRows data).map (· ++ "\n")) := by
  have hline : ∀ row : String, unindentLine ("  ".toList ++ row.toList ++ ['\n']) =
      (row ++ "\n").toList := by
    intro row
    rw [String.toList_append]
    rfl
  apply String.toList_injective
  rw [unindent, splitInclusive_rows, String.toList_ofList, String.toList_join, List.flatMap_map,
    List.flatMap_map]
  exact List.flatMap_congr fun row _ => by rw [String.toList_append, hline]

/-- The hex view of a frame and the dump of what it shows of the frame are the same
text, but for the tags of the one and the indentation of the other. -/
theorem hexView_eq (frame : List UInt8) (h : frame ≠ []) :
    ∃ rawHex dump, toHexString frame = .ok rawHex ∧
      hexdump (frame.take (min frame.length 256)) = .ok dump ∧
      ∀ packet : PacketMessage, packet.payload = rawHex →
        withoutSpans (Dashboard.generateHexASCII packet) = unindent dump := by
  let shown := frame.take (min frame.length 256)
  have hslice := slice_ok (φ := Fn) frame (a := 0) (b := min frame.length 256)
    (Nat.zero_le _) (Nat.min_le_left _ _)
  refine ⟨String.join (shown.map fun b => hex 2 b.toNat), _, ?_, hexdump_eq shown, ?_⟩
  · rw [toHexString, hslice, ok_bind]
    rfl
  · intro packet hpayload
    -- a frame has a byte, so the payload is not empty
    have hne : packet.payload ≠ "" := by
      obtain ⟨b, bytes, hbytes⟩ := List.exists_cons_of_ne_nil (l := shown) (by simp [shown, h])
      rw [hpayload, hbytes, List.map_cons, String.join_cons]
      intro hempty
      have hchars := congrArg String.toList hempty
      rw [String.toList_append, toList_hex_two b.toNat_lt] at hchars
      cases hchars
    rw [Dashboard.generateHexASCII, if_neg hne, hpayload, payloadBytes_hex, withoutSpans_view,
      unindent_rows]

theorem hexView_eq_three :
    ∃ rawHex dump, toHexString [0x45, 0x00, 0x3c] = .ok rawHex ∧
      hexdump (([0x45, 0x00, 0x3c] : List UInt8).take (min 3 256)) = .ok dump ∧
      ∀ packet : PacketMessage, packet.payload = rawHex →
        withoutSpans (Dashboard.generateHexASCII packet) = unindent dump :=
  hexView_eq [0x45, 0x00, 0x3c] (by decide)

end NetZer

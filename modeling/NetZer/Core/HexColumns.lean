import NetZer.Core.Hexdump
import NetZer.Lib.Lines

/-! # Reading a dump back

The lines of `hexdump`. A full line has its gap behind the eighth byte, a short
one may have it in its padding; the columns are of one width in both, and hold
the bytes: from the dump of any data the data can be read.
-/

namespace NetZer

open Rust Text

/-! ## Lines -/

/-- Sixteen columns, of bytes or of spaces, in two groups. -/
def hexColumns (chunk : List UInt8) : String :=
  String.join ((List.range 16).map fun j =>
    (if j = 8 then " " else "") ++
      match chunk[j]? with
      | some b => hex 2 b.toNat ++ " "
      | none => "   ")

/-- A line behind its indentation, without its end. -/
def dumpRow (offset : Nat) (chunk : List UInt8) : String :=
  hex 4 offset ++ "  " ++ hexColumns chunk ++ " " ++ String.ofList (chunk.map asciiColumn)

/-- The rows of a dump. -/
def dumpRows (data : List UInt8) : List String :=
  (chunks 16 data).zipIdx.map fun e => dumpRow (16 * e.2) e.1

section

variable {chunk : List UInt8}

/-- The columns of the bytes and the padding. -/
theorem hexColumns_eq (h : chunk.length ≤ 16) :
    hexColumns chunk =
      String.join (chunk.zipIdx.map fun (b, i) =>
        (if i = 8 then " " else "") ++ hex 2 b.toNat ++ " ") ++
      String.join ((List.range (16 - chunk.length)).map fun i =>
        (if chunk.length + i = 8 then " " else "") ++ "   ") := by
  -- the columns up to the last byte, and those behind it
  have hcolumns : List.range 16 = List.range chunk.length ++
      (List.range (16 - chunk.length)).map (chunk.length + ·) := by
    rw [← List.range_add, Nat.add_sub_cancel' h]
  rw [hexColumns, hcolumns, List.map_append, String.join_append, List.map_map]
  congr 2
  · apply List.ext_getElem
    · simp
    · intro j hj hj'
      have hlt : j < chunk.length := by simpa using hj
      simp only [List.getElem_map, List.getElem_range, List.getElem_zipIdx,
        List.getElem?_eq_getElem hlt, Nat.zero_add, String.append_assoc]
  · apply List.map_congr_left
    intro i _
    have hnone : chunk[chunk.length + i]? = none :=
      List.getElem?_eq_none (Nat.le_add_right _ _)
    simp only [Function.comp_apply, hnone]

theorem hexdumpLine_eq (h : chunk.length ≤ 16) (offset : Nat) :
    hexdumpLine offset chunk = .ok ("  " ++ dumpRow offset chunk ++ "\n") := by
  rw [hexdumpLine, sub_ok h, ok_bind]
  show Except.ok _ = Except.ok _
  simp only [dumpRow, hexColumns_eq h, String.append_assoc]

/-- However many bytes there are, the columns are 49 characters. -/
theorem length_hexColumns (chunk : List UInt8) : (hexColumns chunk).toList.length = 49 := by
  have hcolumn : ∀ j, ((if j = 8 then " " else "") ++
      match chunk[j]? with
      | some b => hex 2 b.toNat ++ " "
      | none => "   ").toList.length = if j = 8 then 4 else 3 := by
    intro j
    have hwidth : (match chunk[j]? with
        | some b => hex 2 b.toNat ++ " "
        | none => "   ").toList.length = 3 := by
      split
      · next b _ =>
          rw [String.toList_append, List.length_append, toList_hex_two b.toNat_lt]
          rfl
      · rfl
    rw [String.toList_append, List.length_append, hwidth]
    split_ifs <;> rfl
  rw [hexColumns, String.toList_join, List.length_flatMap, List.map_map]
  simp only [Function.comp_def, hcolumn]
  decide

theorem isControl_ofNat {n : Nat} (hlow : 0x20 ≤ n) (hhigh : n ≤ 0x7e) :
    isControl (Char.ofNat n) = false := by
  have hnat : (Char.ofNat n).toNat = n := Unicode.toNat_ofNat_of_lt (by omega)
  simp only [isControl, hnat, Bool.or_eq_false_iff, decide_eq_false_iff_not, beq_eq_false_iff_ne]
  omega

theorem isAsciiGraphic_iff {b : UInt8} :
    isAsciiGraphic b = true ↔ 0x21 ≤ b.toNat ∧ b.toNat ≤ 0x7e := by
  simp [isAsciiGraphic, UInt8.le_iff_toNat_le]

/-- The ASCII column shows no control character. -/
theorem isControl_asciiColumn (b : UInt8) : isControl (asciiColumn b) = false := by
  unfold asciiColumn
  split
  · next h =>
      rcases Bool.or_eq_true _ _ ▸ h with hgraphic | hspace
      · rcases isAsciiGraphic_iff.mp hgraphic with ⟨hlow, hhigh⟩
        exact isControl_ofNat (by omega) hhigh
      · rw [eq_of_beq hspace]
        rfl
  · rfl

theorem dumpRow_avoids (offset : Nat) (chunk : List UInt8) :
    Avoids isControl (dumpRow offset chunk) := by
  have hcolumns : Avoids isControl (hexColumns chunk) := by
    rw [hexColumns, avoids_join, List.forall_mem_map]
    intro j _
    rw [avoids_append]
    constructor
    · split_ifs <;> decide
    · split
      · exact avoids_append.mpr ⟨avoids_hex _ _, by decide⟩
      · decide
  have hascii : Avoids isControl (String.ofList (chunk.map asciiColumn)) := by
    rw [avoids_ofList, List.forall_mem_map]
    exact fun b _ => isControl_asciiColumn b
  simp only [dumpRow, avoids_append]
  exact ⟨⟨⟨⟨avoids_hex _ _, by decide⟩, hcolumns⟩, by decide⟩, hascii⟩

/-- A row is one line. -/
theorem newline_not_mem_dumpRow (offset : Nat) (chunk : List UInt8) :
    '\n' ∉ (dumpRow offset chunk).toList := by
  intro hmem
  exact absurd (dumpRow_avoids offset chunk '\n' hmem) (by decide)

end

/-- The dump from row `k` on. -/
theorem hexdumpFrom_eq (data : List UInt8) (k : Nat) :
    hexdumpFrom (16 * k) (chunks 16 data) =
      .ok (String.join (((chunks 16 data).zipIdx k).map fun e =>
        "  " ++ dumpRow (16 * e.2) e.1 ++ "\n")) := by
  induction data using chunks_induction (by decide : 0 < 16) generalizing k with
  | nil => rfl
  | short xs hne hshort =>
      have hnil : ∀ offset, hexdumpFrom offset [] = .ok "" := fun _ => rfl
      rw [chunks_of_length_le (by decide) hne (Nat.le_of_lt hshort), hexdumpFrom,
        hexdumpLine_eq (Nat.le_of_lt hshort), ok_bind, hnil, ok_bind, List.zipIdx_cons,
        List.zipIdx_nil, List.map_cons, List.map_nil, String.join_cons, String.join_nil]
      rfl
  | append xs ys hxs ih =>
      have hnext : 16 * k + xs.length = 16 * (k + 1) := by omega
      rw [chunks_append (by decide) hxs, hexdumpFrom, hexdumpLine_eq (Nat.le_of_eq hxs), ok_bind,
        hnext, ih, ok_bind, List.zipIdx_cons, List.map_cons, String.join_cons]
      rfl

/-- The dump is its rows. -/
theorem hexdump_eq (data : List UInt8) :
    hexdump data = .ok (String.join ((dumpRows data).map fun row => "  " ++ row ++ "\n")) := by
  rw [hexdump, dumpRows, List.map_map]
  exact hexdumpFrom_eq data 0

theorem length_dumpRows (data : List UInt8) : (dumpRows data).length = (data.length + 15) / 16 := by
  rw [dumpRows, List.length_map, List.length_zipIdx, length_chunks (by decide)]
  rfl

theorem newline_not_mem_indented (data : List UInt8) :
    ∀ line ∈ (dumpRows data).map ("  " ++ ·), '\n' ∉ line.toList := by
  rw [dumpRows, List.map_map, List.forall_mem_map]
  intro e _
  show '\n' ∉ ("  " ++ dumpRow (16 * e.2) e.1).toList
  rw [String.toList_append, List.mem_append, not_or]
  exact ⟨by decide, newline_not_mem_dumpRow _ _⟩

theorem getElem?_dumpRows {data : List UInt8} {i : Nat} {row : String}
    (h : (dumpRows data)[i]? = some row) :
    row = dumpRow (16 * i) ((data.drop (16 * i)).take 16) := by
  have hlt : 16 * i < data.length := by
    have hi := (List.getElem?_eq_some_iff.mp h).1
    rw [length_dumpRows] at hi
    omega
  rw [dumpRows, List.getElem?_map, List.getElem?_zipIdx, getElem?_chunks (by decide) hlt,
    Nat.zero_add] at h
  exact (Option.some.inj h).symm

/-! ## Reading -/

/-- The bytes in some columns: spaces apart, two digits each. -/
def readColumns : List Char → Option (List UInt8)
  | [] => some []
  | c :: cs =>
      if c = ' ' then readColumns cs
      else
        match cs with
        | [] => none
        | d :: cs => do
            let high ← digitValue 16 c
            let low ← digitValue 16 d
            return UInt8.ofNat (16 * high + low) :: (← readColumns cs)

/-- The columns of a line: 49 characters behind the offset. -/
def columnsOf (line : List Char) : List Char :=
  (((line.drop 2).dropWhile (· != ' ')).drop 2).take 49

/-- The bytes in the columns of all lines. -/
def readDump (dump : String) : Option (List UInt8) := do
  return (← (splitInclusive '\n' dump.toList).mapM fun line => readColumns (columnsOf line)).flatten

theorem readColumns_space (cs : List Char) : readColumns (' ' :: cs) = readColumns cs := by
  rw [readColumns.eq_def]
  exact if_pos rfl

theorem digitValue_digitChar :
    ∀ d < 16, digitValue 16 d.digitChar = some d ∧ d.digitChar ≠ ' ' := by
  decide

theorem readColumns_hex (b : UInt8) (cs : List Char) :
    readColumns ((hex 2 b.toNat).toList ++ cs) = (readColumns cs).map (b :: ·) := by
  have hb := b.toNat_lt
  obtain ⟨hhigh, hspace⟩ := digitValue_digitChar (b.toNat / 16) (by omega)
  obtain ⟨hlow, -⟩ := digitValue_digitChar (b.toNat % 16) (by omega)
  have hbyte : UInt8.ofNat (16 * (b.toNat / 16) + b.toNat % 16) = b := by
    rw [Nat.div_add_mod, UInt8.ofNat_toNat]
  rw [toList_hex_two hb, List.cons_append, List.cons_append, List.nil_append, readColumns.eq_def]
  dsimp only
  rw [if_neg hspace, hhigh, hlow]
  simp only [Option.bind_eq_bind, Option.bind_some, hbyte]
  cases readColumns cs <;> rfl

/-- Columns of bytes, from any place on. -/
theorem readColumns_bytes (chunk : List UInt8) (n : Nat) (cs : List Char) :
    readColumns ((String.join ((chunk.zipIdx n).map fun (b, i) =>
      (if i = 8 then " " else "") ++ hex 2 b.toNat ++ " ")).toList ++ cs) =
      (readColumns cs).map (chunk ++ ·) := by
  -- byte by byte; the columns of the rest begin one place further
  induction chunk generalizing n with
  | nil =>
      rw [List.zipIdx_nil, List.map_nil, String.join_nil]
      simp
  | cons b chunk ih =>
      rw [List.zipIdx_cons, List.map_cons, String.join_cons]
      simp only [String.toList_append, List.append_assoc]
      -- the gap before the ninth column is a space more
      have hgap : ∀ cs,
          readColumns ((if n = 8 then " " else "").toList ++ cs) = readColumns cs := by
        intro cs
        split_ifs
        · exact readColumns_space cs
        · rfl
      have hspace : ∀ cs, readColumns (" ".toList ++ cs) = readColumns cs := readColumns_space
      rw [hgap, readColumns_hex, hspace, ih, Option.map_map]
      rfl

theorem readColumns_spaces {cs : List Char} (h : ∀ c ∈ cs, c = ' ') : readColumns cs = some [] := by
  induction cs with
  | nil => rfl
  | cons c cs ih =>
      rw [List.forall_mem_cons] at h
      rw [h.1, readColumns_space, ih h.2]

/-- The columns hold the bytes. -/
theorem readColumns_hexColumns {chunk : List UInt8} (h : chunk.length ≤ 16) :
    readColumns (hexColumns chunk).toList = some chunk := by
  have hpadding : ∀ c ∈ (String.join ((List.range (16 - chunk.length)).map fun i =>
      (if chunk.length + i = 8 then " " else "") ++ "   ")).toList, c = ' ' := by
    rw [String.toList_join]
    simp only [List.mem_flatMap, List.mem_map, forall_exists_index, and_imp]
    rintro c s i - rfl hc
    rw [String.toList_append, List.mem_append] at hc
    rcases hc with hgap | hcolumn
    · split_ifs at hgap
      · exact List.mem_singleton.mp hgap
      · cases hgap
    · simpa using hcolumn
  rw [hexColumns_eq h, String.toList_append, readColumns_bytes chunk 0, readColumns_spaces hpadding,
    Option.map_some, List.append_nil]

/-- They are found behind the offset. -/
theorem columnsOf_dumpRow (offset : Nat) (chunk : List UInt8) (cs : List Char) :
    columnsOf ("  ".toList ++ (dumpRow offset chunk).toList ++ cs) = (hexColumns chunk).toList := by
  have hdigits : ∀ c ∈ (hex 4 offset).toList, (c != ' ') = true := by
    have havoids : Avoids (· == ' ') (hex 4 offset) :=
      avoids_leftpad (by decide) (by decide) 4 offset
    intro c hc
    have hne : (c == ' ') = false := havoids c hc
    rw [bne, hne, Bool.not_false]
  have hrow : "  ".toList ++ (dumpRow offset chunk).toList ++ cs =
      ' ' :: ' ' :: ((hex 4 offset).toList ++ ' ' :: ' ' :: ((hexColumns chunk).toList ++
        (' ' :: chunk.map asciiColumn ++ cs))) := by
    have hone : " ".toList = [' '] := by decide
    have htwo : "  ".toList = [' ', ' '] := by decide
    simp only [dumpRow, String.toList_append, String.toList_ofList, hone, htwo, List.append_assoc,
      List.cons_append, List.nil_append]
  rw [columnsOf, hrow, List.drop_succ_cons, List.drop_succ_cons, List.drop_zero,
    List.dropWhile_append_of_pos hdigits, List.dropWhile_cons_of_neg (by decide),
    List.drop_succ_cons, List.drop_succ_cons, List.drop_zero,
    List.take_left' (length_hexColumns chunk)]

theorem mapM_map_eq_some {α β γ : Type} {f : β → Option γ} {g : α → β} {k : α → γ} {l : List α}
    (h : ∀ a ∈ l, f (g a) = some (k a)) : (l.map g).mapM f = some (l.map k) := by
  induction l with
  | nil => rfl
  | cons a l ih =>
      rw [List.forall_mem_cons] at h
      rw [List.map_cons, List.mapM_cons, h.1, ih h.2]
      rfl

/-- The lines of the dump. -/
theorem splitInclusive_rows (data : List UInt8) :
    splitInclusive '\n'
        (String.join ((dumpRows data).map fun row => "  " ++ row ++ "\n")).toList =
      (dumpRows data).map fun row => ("  " ++ row).toList ++ ['\n'] := by
  have hindented : (dumpRows data).map (fun row => "  " ++ row ++ "\n") =
      ((dumpRows data).map ("  " ++ ·)).map (· ++ "\n") := by
    rw [List.map_map]
    rfl
  rw [hindented, splitInclusive_join (newline_not_mem_indented data), List.map_map]
  rfl

/-- The lines of the dump give the data again. -/
theorem readDump_rows (data : List UInt8) :
    readDump (String.join ((dumpRows data).map fun row => "  " ++ row ++ "\n")) = some data := by
  have hread : ∀ e ∈ (chunks 16 data).zipIdx,
      readColumns (columnsOf (("  " ++ dumpRow (16 * e.2) e.1).toList ++ ['\n'])) = some e.1 := by
    intro e he
    have hlen : e.1.length ≤ 16 :=
      length_le_of_mem_chunks (List.fst_mem_of_mem_zipIdx he)
    rw [String.toList_append, columnsOf_dumpRow, readColumns_hexColumns hlen]
  have hrows : ((dumpRows data).map fun row => ("  " ++ row).toList ++ ['\n']) =
      (chunks 16 data).zipIdx.map fun e => ("  " ++ dumpRow (16 * e.2) e.1).toList ++ ['\n'] := by
    rw [dumpRows, List.map_map]
    rfl
  have hbytes := mapM_map_eq_some (f := fun line => readColumns (columnsOf line))
    (g := fun e : List UInt8 × Nat => ("  " ++ dumpRow (16 * e.2) e.1).toList ++ ['\n'])
    (k := Prod.fst) hread
  rw [List.zipIdx_map_fst] at hbytes
  rw [readDump, splitInclusive_rows, hrows, hbytes]
  show some (chunks 16 data).flatten = some data
  rw [flatten_chunks (by decide)]

/-- A dump has a line for every sixteen bytes begun, each with its offset, columns of
one width and its characters; and the data can be read from it. -/
theorem hexdump_lossless (data : List UInt8) :
    ∃ (lines : List String) (dump : String), hexdump data = .ok dump ∧
      dump = String.join (lines.map (· ++ "\n")) ∧ (∀ line ∈ lines, '\n' ∉ line.toList) ∧
      lines.length = (data.length + 15) / 16 ∧
      (∀ i line, lines[i]? = some line → ∃ columns,
        line = "  " ++ hex 4 (16 * i) ++ "  " ++ columns ++ " " ++
          String.ofList (((data.drop (16 * i)).take 16).map asciiColumn) ∧
        columns.toList.length = 49) ∧
      readDump dump = some data := by
  refine ⟨(dumpRows data).map ("  " ++ ·), _, hexdump_eq data, ?_, ?_, ?_, ?_, readDump_rows data⟩
  · rw [List.map_map]
    rfl
  · exact newline_not_mem_indented data
  · rw [List.length_map, length_dumpRows]
  · -- a line is its row behind two spaces
    intro i line hline
    rw [List.getElem?_map, Option.map_eq_some_iff] at hline
    obtain ⟨row, hrow, rfl⟩ := hline
    refine ⟨_, ?_, length_hexColumns ((data.drop (16 * i)).take 16)⟩
    rw [getElem?_dumpRows hrow, dumpRow]
    simp only [String.append_assoc]

end NetZer

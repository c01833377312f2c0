import NetZer.Lib.Json

/-! # Scanning string literals

A reader that knows two things about a literal: a backslash escapes the character
behind it, and the first quotation mark that is not escaped ends it. Any reader of
JSON agrees with it on where a literal ends. What escapes quotation marks and
backslashes is a literal for it, whatever the text; so it finds the members of a
written object, no more and no less.
-/

namespace Json

/-- The literal as it is written, from behind its opening quotation mark, and what
follows the closing one. -/
def scan : List Char → Option (List Char × List Char)
  | [] => none
  | '"' :: cs => some ([], cs)
  | '\\' :: [] => none
  | '\\' :: e :: cs => (scan cs).map fun p => ('\\' :: e :: p.1, p.2)
  | c :: cs => (scan cs).map fun p => (c :: p.1, p.2)

/-- The text of a literal in which nothing but quotation marks and backslashes is
escaped. -/
def unescape : List Char → List Char
  | [] => []
  | [c] => [c]
  | c :: e :: cs =>
      if c = '\\' ∧ (e = '\\' ∨ e = '"') then e :: unescape cs else c :: unescape (e :: cs)

/-- A value: a literal, by its text, or any other characters. -/
inductive Scanned where
  | literal (text : List Char)
  | bare (text : List Char)
deriving DecidableEq, Repr

def scanValue : List Char → Option (Scanned × List Char)
  | '"' :: cs => (scan cs).map fun p => (.literal (unescape p.1), p.2)
  | cs => some (.bare (cs.takeWhile fun c => c != ',' && c != '}'),
      cs.dropWhile fun c => c != ',' && c != '}')

/-- The members of an object, `fuel` of them at most, up to its closing brace. -/
def scanMembers : Nat → List Char → Option (List (List Char × Scanned) × List Char)
  | fuel + 1, '"' :: cs => do
      let (key, cs) ← scan cs
      match cs with
      | ':' :: cs =>
          let (v, cs) ← scanValue cs
          match cs with
          | ',' :: cs =>
              let (ms, cs) ← scanMembers fuel cs
              return ((unescape key, v) :: ms, cs)
          | '}' :: cs => return ([(unescape key, v)], cs)
          | _ => none
      | _ => none
  | _, _ => none

/-- The members of a flat object, and what follows it. -/
def scanObject : List Char → Option (List (List Char × Scanned) × List Char)
  | '{' :: cs => scanMembers cs.length cs
  | _ => none

/-! ## What was escaped -/

section

variable {s rest : List Char}

theorem scan_escapeQuotes (c : Char) (rest : List Char) :
    scan (escapeQuotes c ++ rest) = (scan rest).map fun p => (escapeQuotes c ++ p.1, p.2) := by
  obtain ⟨rfl, hesc⟩ | ⟨rfl, hesc⟩ | ⟨hback, hquote, hesc⟩ := escapeQuotes_cases c
  · rw [hesc]
    rfl
  · rw [hesc]
    rfl
  · rw [hesc, List.singleton_append, scan]
    · rfl
    · exact hquote
    · intro hc
      exact absurd hc hback
    · intro _ _ hc
      exact absurd hc hback

/-- A text ends where its literal does, whatever backslashes and quotation marks
it has or ends with. -/
theorem scan_literal (s rest : List Char) :
    scan (s.flatMap escapeQuotes ++ '"' :: rest) = some (s.flatMap escapeQuotes, rest) := by
  induction s with
  | nil => rfl
  | cons c s ih =>
      rw [List.flatMap_cons, List.append_assoc, scan_escapeQuotes, ih]
      rfl

theorem unescape_escapeQuotes (c : Char) (rest : List Char) :
    unescape (escapeQuotes c ++ rest) = c :: unescape rest := by
  obtain ⟨rfl, hesc⟩ | ⟨rfl, hesc⟩ | ⟨hback, -, hesc⟩ := escapeQuotes_cases c
  · rw [hesc]
    rfl
  · rw [hesc]
    rfl
  · rw [hesc, List.singleton_append]
    cases rest with
    | nil => rfl
    | cons e rest =>
        have hplain : ¬ (c = '\\' ∧ (e = '\\' ∨ e = '"')) := fun h => hback h.1
        rw [unescape, if_neg hplain]

theorem unescape_literal (s : List Char) : unescape (s.flatMap escapeQuotes) = s := by
  induction s with
  | nil => rfl
  | cons c s ih => rw [List.flatMap_cons, unescape_escapeQuotes, ih]

/-! ## What was written -/

/-- What is found of a member. -/
def Field.scanned : Field → Scanned
  | .text s => .literal s.toList
  | .natural n => .bare (Nat.toDigits 10 n)

def scannedMember (m : String × Field) : List Char × Scanned :=
  (m.1.toList, m.2.scanned)

theorem scanValue_text (s : String) (rest : List Char) :
    scanValue ((Field.text s).write ++ rest) = some ((Field.text s).scanned, rest) := by
  have hscan := scan_literal s.toList rest
  simp only [Field.write, quoted, List.cons_append, List.append_assoc, List.nil_append, scanValue,
    hscan, Option.map_some, unescape_literal, Field.scanned]

theorem scanValue_natural (n : Nat) {c : Char} (hc : c = ',' ∨ c = '}') (rest : List Char) :
    scanValue ((Field.natural n).write ++ c :: rest) =
      some ((Field.natural n).scanned, c :: rest) := by
  have hdigit : ∀ d ∈ Nat.toDigits 10 n, (d != ',' && d != '}') = true := by
    intro d hd
    have hisDigit := Nat.isDigit_of_mem_toDigits (by decide) (by decide) hd
    have hcomma : d ≠ ',' := ne_of_isDigit hisDigit rfl
    have hbrace : d ≠ '}' := ne_of_isDigit hisDigit rfl
    simp [hcomma, hbrace]
  -- the digits are taken up to the comma or the brace
  have hstop : ¬ (c != ',' && c != '}') = true := by
    obtain rfl | rfl := hc
    · decide
    · decide
  have hquote : ∀ cs, Nat.toDigits 10 n ++ c :: rest ≠ '"' :: cs := by
    intro cs h
    obtain ⟨d, ds, hds, hd⟩ := toDigits_eq_cons n
    rw [hds, List.cons_append, List.cons.injEq] at h
    exact ne_of_isDigit hd rfl h.1
  rw [Field.write, scanValue]
  · rw [List.takeWhile_append_of_pos hdigit, List.dropWhile_append_of_pos hdigit,
      List.takeWhile_cons, List.dropWhile_cons, if_neg hstop, if_neg hstop, List.append_nil]
    rfl
  · exact hquote

theorem scanValue_write (f : Field) {c : Char} (hc : c = ',' ∨ c = '}') (rest : List Char) :
    scanValue (f.write ++ c :: rest) = some (f.scanned, c :: rest) := by
  cases f with
  | text s => exact scanValue_text s (c :: rest)
  | natural n => exact scanValue_natural n hc rest

/-- A written member is found as it was. -/
theorem scanMembers_writeMember (fuel : Nat) (m : String × Field) {c : Char}
    (hc : c = ',' ∨ c = '}') (rest : List Char) :
    scanMembers (fuel + 1) (writeMember m ++ c :: rest) =
      if c = ',' then (scanMembers fuel rest).map fun p => (scannedMember m :: p.1, p.2)
      else some ([scannedMember m], rest) := by
  have hkey := scan_literal m.1.toList (':' :: (m.2.write ++ c :: rest))
  have hvalue := scanValue_write m.2 hc rest
  simp only [writeMember, quoted, List.cons_append, List.append_assoc, List.nil_append]
  rw [scanMembers]
  simp only [hkey, hvalue, Option.bind_eq_bind, Option.bind_some, unescape_literal]
  obtain rfl | rfl := hc
  · rw [if_pos rfl]
    cases hmembers : scanMembers fuel rest with
    | none => simp [hmembers]
    | some p => simp [hmembers, scannedMember]
  · rw [if_neg (by decide)]
    rfl

/-- So are all members of an object. -/
theorem scanMembers_write {ms : List (String × Field)} (hms : ms ≠ []) {fuel : Nat}
    (hfuel : ms.length ≤ fuel) (rest : List Char) :
    scanMembers fuel ([','].intercalate (ms.map writeMember) ++ '}' :: rest) =
      some (ms.map scannedMember, rest) := by
  induction ms generalizing fuel with
  | nil => exact absurd rfl hms
  | cons m ms ih =>
      obtain ⟨k, rfl⟩ : ∃ k, fuel = k + 1 :=
        ⟨fuel - 1, by simp only [List.length_cons] at hfuel; omega⟩
      cases ms with
      | nil =>
          rw [List.map_singleton, List.intercalate_singleton,
            scanMembers_writeMember k m (Or.inr rfl), if_neg (by decide), List.map_singleton]
      | cons m' ms =>
          have hrest := ih (List.cons_ne_nil _ _) (Nat.le_of_succ_le_succ hfuel)
          rw [List.map_cons] at hrest
          rw [List.map_cons, List.map_cons, List.intercalate_cons_cons, List.append_assoc,
            List.append_assoc, List.singleton_append, scanMembers_writeMember k m (Or.inl rfl),
            if_pos rfl, hrest]
          rfl

/-- The members found in a written object are those that were written. -/
theorem scanObject_writeObject {ms : List (String × Field)} (hms : ms ≠ []) (rest : List Char) :
    scanObject (writeObject ms ++ rest) = some (ms.map scannedMember, rest) := by
  have hlen := length_le_intercalate ms
  rw [writeObject, List.cons_append, List.append_assoc, List.singleton_append, scanObject]
  refine scanMembers_write hms ?_ rest
  rw [List.length_append]
  omega

end

end Json

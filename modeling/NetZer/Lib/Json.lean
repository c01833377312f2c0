import Mathlib.Data.List.Basic
import Mathlib.Data.String.Basic

/-! # JSON texts

A decoder for the texts of RFC 8259, and a writer of flat objects that escapes
nothing but the quotation mark and the backslash. The grammar asks for more:
the control characters below U+0020 have to be escaped too. What the writer
writes is decoded to what was written exactly if none of them occurs.
-/

namespace Json

/-- A value; a number is its mantissa times a power of ten. -/
inductive Value where
  | null
  | bool (b : Bool)
  | number (mantissa exponent : Int)
  | string (s : String)
  | array (items : List Value)
  | object (members : List (String × Value))
deriving Repr

/-! ## Strings -/

def hexDigit (c : Char) : Option Nat :=
  if c.isDigit then some (c.toNat - '0'.toNat)
  else if 'a' ≤ c ∧ c ≤ 'f' then some (c.toNat - 'a'.toNat + 10)
  else if 'A' ≤ c ∧ c ≤ 'F' then some (c.toNat - 'A'.toNat + 10)
  else none

/-- Four hexadecimal digits. -/
def codeUnit : List Char → Option (Nat × List Char)
  | a :: b :: c :: d :: cs => do
      let hi := (← hexDigit a) * 16 + (← hexDigit b)
      let lo := (← hexDigit c) * 16 + (← hexDigit d)
      return (hi * 256 + lo, cs)
  | _ => none

/-- What follows `\u`: one code unit, or the two of a surrogate pair. -/
def unicodeEscape (cs : List Char) : Option (Char × List Char) := do
  let (hi, cs) ← codeUnit cs
  if 0xd800 ≤ hi ∧ hi < 0xdc00 then
    match cs with
    | '\\' :: 'u' :: cs =>
        let (lo, cs) ← codeUnit cs
        if 0xdc00 ≤ lo ∧ lo < 0xe000 then
          return (Char.ofNat (0x10000 + (hi - 0xd800) * 0x400 + (lo - 0xdc00)), cs)
        else none
    | _ => none
  -- a low surrogate alone is no character
  else if 0xdc00 ≤ hi ∧ hi < 0xe000 then none
  else return (Char.ofNat hi, cs)

/-- The escapes of one letter. -/
def shortEscape (e : Char) : Option Char :=
  if e = '"' ∨ e = '\\' ∨ e = '/' then some e
  else if e = 'b' then some '\x08'
  else if e = 'f' then some '\x0c'
  else if e = 'n' then some '\n'
  else if e = 'r' then some '\r'
  else if e = 't' then some '\t'
  else none

/-- The first character of a string, as it stands there or escaped. -/
def character : List Char → Option (Char × List Char)
  | [] => none
  | c :: cs =>
      if c = '\\' then
        match cs with
        | [] => none
        | e :: cs => if e = 'u' then unicodeEscape cs else (shortEscape e).map (·, cs)
      -- a control character has to be escaped
      else if c.toNat < 0x20 then none
      else some (c, cs)

/-- The characters up to the closing quotation mark, `fuel` of them at most. -/
def characters : Nat → List Char → Option (List Char × List Char)
  | 0, _ => none
  | _ + 1, '"' :: cs => some ([], cs)
  | fuel + 1, cs => do
      let (c, cs) ← character cs
      let (rest, cs) ← characters fuel cs
      return (c :: rest, cs)

/-- A string, after its opening quotation mark. -/
def string (cs : List Char) : Option (String × List Char) :=
  (characters (cs.length + 1) cs).map fun (s, cs) => (String.ofList s, cs)

/-! ## Numbers -/

def digits (cs : List Char) : List Char × List Char :=
  (cs.takeWhile Char.isDigit, cs.dropWhile Char.isDigit)

/-- A sign, if it is the one that is looked for. -/
def sign (s : Char) : List Char → Bool × List Char
  | c :: cs => if c = s then (true, cs) else (false, c :: cs)
  | [] => (false, [])

/-- The digits behind a decimal point, if there is one. -/
def fraction (cs : List Char) : Option (List Char × List Char) :=
  match sign '.' cs with
  | (false, cs) => some ([], cs)
  | (true, cs) => if (digits cs).1 = [] then none else some (digits cs)

def exponent : List Char → Option (Int × List Char)
  | [] => some (0, [])
  | c :: cs =>
      if c = 'e' ∨ c = 'E' then
        let (plus, cs) := sign '+' cs
        let (minus, cs) := if plus then (false, cs) else sign '-' cs
        let (ds, cs) := digits cs
        let n : Int := Nat.ofDigitChars 10 ds 0
        if ds = [] then none else some (if minus then -n else n, cs)
      else some (0, c :: cs)

def number (cs : List Char) : Option (Value × List Char) := do
  let (minus, cs) := sign '-' cs
  let (int, cs) := digits cs
  -- at least one digit, and no zero before another
  if int = [] ∨ (int.head? = some '0' ∧ 1 < int.length) then none
  else
    let (frac, cs) ← fraction cs
    let (exp, cs) ← exponent cs
    let n : Int := Nat.ofDigitChars 10 (int ++ frac) 0
    return (.number (if minus then -n else n) (exp - frac.length), cs)

/-! ## Values -/

def isSpace (c : Char) : Bool :=
  c == ' ' || c == '\t' || c == '\n' || c == '\r'

def skipSpace (cs : List Char) : List Char :=
  cs.dropWhile isSpace

/-- A given word, as a value. -/
def word (w : String) (v : Value) (cs : List Char) : Option (Value × List Char) :=
  if w.toList.isPrefixOf cs then some (v, cs.drop w.length) else none

/-- A value without parts. -/
def scalar : List Char → Option (Value × List Char)
  | '"' :: cs => (string cs).map fun (s, cs) => (.string s, cs)
  | cs =>
      word "true" (.bool true) cs <|> word "false" (.bool false) cs <|> word "null" .null cs <|>
        number cs

mutual

/-- A value and the characters behind it; `fuel` bounds the recursion. -/
def value : Nat → List Char → Option (Value × List Char)
  | 0, _ => none
  | fuel + 1, cs =>
      match skipSpace cs with
      | '{' :: cs =>
          match skipSpace cs with
          | '}' :: cs => some (.object [], cs)
          | cs => (members fuel cs).map fun (ms, cs) => (.object ms, cs)
      | '[' :: cs =>
          match skipSpace cs with
          | ']' :: cs => some (.array [], cs)
          | cs => (items fuel cs).map fun (vs, cs) => (.array vs, cs)
      | cs => scalar cs

/-- The members of an object, up to its closing brace. -/
def members : Nat → List Char → Option (List (String × Value) × List Char)
  | 0, _ => none
  | fuel + 1, cs =>
      match skipSpace cs with
      | '"' :: cs => do
          let (key, cs) ← string cs
          match skipSpace cs with
          | ':' :: cs =>
              let (v, cs) ← value fuel cs
              match skipSpace cs with
              | ',' :: cs =>
                  let (ms, cs) ← members fuel cs
                  return ((key, v) :: ms, cs)
              | '}' :: cs => return ([(key, v)], cs)
              | _ => none
          | _ => none
      | _ => none

/-- The items of an array, up to its closing bracket. -/
def items : Nat → List Char → Option (List Value × List Char)
  | 0, _ => none
  | fuel + 1, cs => do
      let (v, cs) ← value fuel cs
      match skipSpace cs with
      | ',' :: cs =>
          let (vs, cs) ← items fuel cs
          return (v :: vs, cs)
      | ']' :: cs => return ([v], cs)
      | _ => none

end

/-- The value of a text: one value, with white space around it. -/
def decode (text : String) : Option Value := do
  let (v, rest) ← value (text.length + 1) text.toList
  if skipSpace rest = [] then return v else none

example : (decode "[01]").isNone ∧ (decode " [1, \x7b\x7d, \"\\u00e9\"] ").isSome := by
  decide +kernel

/-! ## Writing flat objects -/

/-- The quotation mark and the backslash are escaped, nothing else is. -/
def escapeQuotes (c : Char) : List Char :=
  if c = '\\' then ['\\', '\\'] else if c = '"' then ['\\', '"'] else [c]

def quoted (s : String) : List Char :=
  '"' :: (s.toList.flatMap escapeQuotes ++ ['"'])

/-- What a member holds: a text or a natural number. -/
inductive Field where
  | text (s : String)
  | natural (n : Nat)
deriving DecidableEq, Repr

def Field.write : Field → List Char
  | .text s => quoted s
  | .natural n => Nat.toDigits 10 n

def Field.value : Field → Value
  | .text s => .string s
  | .natural n => .number n 0

def writeMember (m : String × Field) : List Char :=
  quoted m.1 ++ ':' :: m.2.write

def writeObject (ms : List (String × Field)) : List Char :=
  '{' :: ([','].intercalate (ms.map writeMember) ++ ['}'])

/-- The text has no character that a string must escape and `escapeQuotes`
leaves as it is. -/
def plain (s : String) : Bool :=
  s.toList.all fun c => 0x20 ≤ c.toNat

def Field.plain : Field → Bool
  | .text s => Json.plain s
  | .natural _ => true

/-! ## Reading what was written -/

section

variable {cs rest : List Char} {fuel : Nat}

theorem escapeQuotes_cases (c : Char) :
    (c = '\\' ∧ escapeQuotes c = ['\\', '\\']) ∨ (c = '"' ∧ escapeQuotes c = ['\\', '"']) ∨
      (c ≠ '\\' ∧ c ≠ '"' ∧ escapeQuotes c = [c]) := by
  by_cases hback : c = '\\'
  · left
    exact ⟨hback, if_pos hback⟩
  · right
    by_cases hquote : c = '"'
    · left
      exact ⟨hquote, by rw [escapeQuotes, if_neg hback, if_pos hquote]⟩
    · right
      exact ⟨hback, hquote, by rw [escapeQuotes, if_neg hback, if_neg hquote]⟩

/-- A character that is written is read as it was, or not at all. -/
theorem character_escapeQuotes (c : Char) (rest : List Char) :
    character (escapeQuotes c ++ rest) = if 0x20 ≤ c.toNat then some (c, rest) else none := by
  rcases escapeQuotes_cases c with ⟨rfl, hesc⟩ | ⟨rfl, hesc⟩ | ⟨hback, _, hesc⟩
  · rw [hesc]
    rfl
  · rw [hesc]
    rfl
  · simp only [hesc, List.singleton_append, character, if_neg hback]
    split_ifs with hlow hhigh hhigh
    · omega
    · rfl
    · rfl
    · omega

/-- Before the closing quotation mark, one character is read and then the
others. -/
theorem characters_of_ne (h : cs.head? ≠ some '"') :
    characters (fuel + 1) cs = (character cs).bind fun p =>
      (characters fuel p.2).map fun q => (p.1 :: q.1, q.2) := by
  rw [characters]
  · cases character cs with
    | none => rfl
    | some p => cases hrest : characters fuel p.2 <;> simp [hrest]
  · intro cs' hcs
    exact h (by rw [hcs]; rfl)

theorem escapeQuotes_head (c : Char) (rest : List Char) :
    (escapeQuotes c ++ rest).head? ≠ some '"' := by
  rcases escapeQuotes_cases c with ⟨_, hesc⟩ | ⟨_, hesc⟩ | ⟨_, hquote, hesc⟩
  · simp [hesc]
  · simp [hesc]
  · simp [hesc, hquote]

/-- A text in quotation marks is read as it was, or not at all. -/
theorem characters_quoted {s : List Char} (hfuel : s.length < fuel) :
    characters fuel (s.flatMap escapeQuotes ++ '"' :: rest) =
      if s.all (fun c => 0x20 ≤ c.toNat) then some (s, rest) else none := by
  induction s generalizing fuel with
  | nil =>
      cases fuel with
      | zero => cases hfuel
      | succ fuel => rfl
  | cons c s ih =>
      cases fuel with
      | zero => cases hfuel
      | succ fuel =>
          have hrest := ih (Nat.lt_of_succ_lt_succ hfuel)
          rw [List.flatMap_cons, List.append_assoc, characters_of_ne (escapeQuotes_head _ _),
            character_escapeQuotes]
          by_cases hc : 0x20 ≤ c.toNat
          · rw [if_pos hc, Option.bind_some, hrest]
            by_cases hs : s.all (fun c => 0x20 ≤ c.toNat) = true
            · simp only [List.all_cons, hc, hs]
              rfl
            · simp only [List.all_cons, hs]
              simp
          · simp [hc]

theorem string_quoted (s : String) (rest : List Char) :
    string (s.toList.flatMap escapeQuotes ++ '"' :: rest) =
      if plain s then some (s, rest) else none := by
  have hlen : s.toList.length ≤ (s.toList.flatMap escapeQuotes).length := by
    induction s.toList with
    | nil => exact Nat.le_refl _
    | cons c cs ih =>
        have hpos : 0 < (escapeQuotes c).length := by
          rcases escapeQuotes_cases c with ⟨_, hesc⟩ | ⟨_, hesc⟩ | ⟨_, _, hesc⟩ <;> simp [hesc]
        simp only [List.flatMap_cons, List.length_cons, List.length_append]
        omega
  rw [string, characters_quoted (by simp only [List.length_append, List.length_cons]; omega), plain]
  split_ifs with hplain
  · simp
  · rfl

/-- The decimal digits of a positive number do not start with a zero. -/
theorem head_toDigits {n : Nat} (hn : 0 < n) : (Nat.toDigits 10 n).head? ≠ some '0' := by
  induction n using Nat.strongRecOn with
  | ind n ih =>
      rw [Nat.toDigits_eq_if (by decide)]
      split
      · simpa using Nat.ne_of_gt hn
      · have hdiv : 0 < n / 10 := Nat.div_pos (by omega) (by decide)
        have hhead := ih (n / 10) (Nat.div_lt_self hn (by decide)) hdiv
        rwa [List.head?_append_of_ne_nil _ Nat.toDigits_ne_nil]

/-- The characters behind a number end it. -/
def Ends (rest : List Char) : Prop :=
  ∃ c cs, rest = c :: cs ∧ c.isDigit = false ∧ c ≠ '.' ∧ c ≠ 'e' ∧ c ≠ 'E'

theorem digits_toDigits (n : Nat) (hrest : Ends rest) :
    digits (Nat.toDigits 10 n ++ rest) = (Nat.toDigits 10 n, rest) := by
  have hdigit : ∀ c ∈ Nat.toDigits 10 n, c.isDigit = true := fun c hc =>
    Nat.isDigit_of_mem_toDigits (by decide) (by decide) hc
  rcases hrest with ⟨c, cs, rfl, hc, -⟩
  rw [digits, List.takeWhile_append_of_pos hdigit, List.dropWhile_append_of_pos hdigit,
    List.takeWhile_cons_of_neg (by simp [hc]), List.dropWhile_cons_of_neg (by simp [hc]),
    List.append_nil]

theorem ne_of_isDigit {c d : Char} (hc : c.isDigit = true) (hd : d.isDigit = false) : c ≠ d := by
  rintro rfl
  rw [hc] at hd
  cases hd

/-- A decimal number has a first digit. -/
theorem toDigits_eq_cons (n : Nat) : ∃ d ds, Nat.toDigits 10 n = d :: ds ∧ d.isDigit = true := by
  cases hds : Nat.toDigits 10 n with
  | nil => exact absurd hds Nat.toDigits_ne_nil
  | cons d ds =>
      have hmem : d ∈ Nat.toDigits 10 n := by
        rw [hds]
        exact List.mem_cons_self ..
      exact ⟨d, ds, rfl, Nat.isDigit_of_mem_toDigits (by decide) (by decide) hmem⟩

/-- The decimal digits of a number are read as the number. -/
theorem number_toDigits (n : Nat) (hrest : Ends rest) :
    number (Nat.toDigits 10 n ++ rest) = some (.number n 0, rest) := by
  have hsign : sign '-' (Nat.toDigits 10 n ++ rest) = (false, Nat.toDigits 10 n ++ rest) := by
    rcases toDigits_eq_cons n with ⟨d, ds, hds, hd⟩
    rw [hds, List.cons_append, sign, if_neg (ne_of_isDigit hd rfl)]
  have hzero : ¬ (Nat.toDigits 10 n = [] ∨
      ((Nat.toDigits 10 n).head? = some '0' ∧ 1 < (Nat.toDigits 10 n).length)) := by
    rintro (hnil | ⟨hhead, hlen⟩)
    · exact Nat.toDigits_ne_nil hnil
    · rcases Nat.eq_zero_or_pos n with rfl | hn
      · simp at hlen
      · exact head_toDigits hn hhead
  rcases hrest with ⟨c, cs, rfl, hc, hdot, he, hE⟩
  have hdigits := digits_toDigits n ⟨c, cs, rfl, hc, hdot, he, hE⟩
  have hfraction : fraction (c :: cs) = some ([], c :: cs) := by
    simp [fraction, sign, hdot]
  have hexponent : exponent (c :: cs) = some (0, c :: cs) := by
    simp [exponent, he, hE]
  simp only [number, hsign, hdigits, if_neg hzero, hfraction, hexponent, Option.bind_eq_bind,
    Option.bind_some, List.append_nil, Nat.ofDigitChars_ten_toDigits]
  rfl

theorem skipSpace_of_not (c : Char) (cs : List Char) (hc : isSpace c = false) :
    skipSpace (c :: cs) = c :: cs :=
  List.dropWhile_cons_of_neg (by simp [hc])

theorem word_of_ne {w : String} {v : Value} {c d : Char} {ds : List Char}
    (hw : w.toList = d :: ds) (hne : d ≠ c) : word w v (c :: cs) = none := by
  rw [word, hw, List.isPrefixOf_cons_cons, beq_false_of_ne hne, Bool.false_and]
  rfl

/-- Only a brace or a bracket opens a value with parts. -/
theorem value_of_ne {c : Char} (hspace : isSpace c = false) (hbrace : c ≠ '{')
    (hbracket : c ≠ '[') : value (fuel + 1) (c :: cs) = scalar (c :: cs) := by
  rw [value, skipSpace_of_not c cs hspace]
  split
  · next h => exact absurd (List.cons.inj h).1 hbrace
  · next h => exact absurd (List.cons.inj h).1 hbracket
  · rfl

/-- A digit opens a number. -/
theorem scalar_of_digit {c : Char} (hc : c.isDigit = true) :
    scalar (c :: cs) = number (c :: cs) := by
  rw [scalar]
  · rw [word_of_ne (w := "true") rfl (ne_of_isDigit hc rfl).symm,
      word_of_ne (w := "false") rfl (ne_of_isDigit hc rfl).symm,
      word_of_ne (w := "null") rfl (ne_of_isDigit hc rfl).symm]
    rfl
  · intro cs' h
    exact ne_of_isDigit hc rfl (List.cons.inj h).1

/-- What is written as a value is read as it was, or not at all. -/
theorem value_write (f : Field) (hrest : Ends rest) :
    value (fuel + 1) (f.write ++ rest) = if f.plain then some (f.value, rest) else none := by
  cases f with
  | text s =>
      have hstring := string_quoted s rest
      simp only [Field.write, quoted, List.cons_append, List.append_assoc, List.nil_append]
      rw [value_of_ne rfl (by decide) (by decide), scalar, hstring, Field.plain]
      split_ifs
      · rfl
      · rfl
  | natural n =>
      rcases toDigits_eq_cons n with ⟨d, ds, hds, hd⟩
      have hspace : isSpace d = false := by
        simp [isSpace, ne_of_isDigit hd (d := ' ') rfl, ne_of_isDigit hd (d := '\t') rfl,
          ne_of_isDigit hd (d := '\n') rfl, ne_of_isDigit hd (d := '\r') rfl]
      have hnumber := number_toDigits n hrest
      rw [hds, List.cons_append] at hnumber
      rw [Field.write, hds, List.cons_append, value_of_ne hspace (ne_of_isDigit hd rfl)
        (ne_of_isDigit hd rfl), scalar_of_digit hd, hnumber]
      rfl

theorem ends_comma : Ends (',' :: cs) :=
  ⟨',', cs, rfl, rfl, by decide, by decide, by decide⟩

theorem ends_brace : Ends ('}' :: cs) :=
  ⟨'}', cs, rfl, rfl, by decide, by decide, by decide⟩

/-- A member that is written is read as it was, or stops the reader. -/
theorem members_writeMember (m : String × Field) (hrest : Ends rest) :
    members (fuel + 2) (writeMember m ++ rest) =
      if plain m.1 && m.2.plain then
        match skipSpace rest with
        | ',' :: cs => (members (fuel + 1) cs).map fun p => ((m.1, m.2.value) :: p.1, p.2)
        | '}' :: cs => some ([(m.1, m.2.value)], cs)
        | _ => none
      else none := by
  have hkey := string_quoted m.1 (':' :: (m.2.write ++ rest))
  have hvalue : value (fuel + 1) (m.2.write ++ rest) = _ := value_write m.2 hrest
  simp only [writeMember, quoted, List.cons_append, List.append_assoc, List.nil_append]
  rw [members, skipSpace_of_not '"' _ rfl]
  simp only [hkey]
  cases hplain : plain m.1 with
  | false => rfl
  | true =>
      simp only [if_true, Option.bind_eq_bind, Option.bind_some, skipSpace_of_not ':' _ rfl, hvalue]
      cases hfield : m.2.plain with
      | false => rfl
      | true =>
          simp only [if_true, Option.bind_some, Bool.and_true]
          -- a further member, the end of the object, or neither
          split
          · next tail _ => cases members (fuel + 1) tail <;> rfl
          · rfl
          · rfl

/-- The members of an object are read as they were written, or not at all. -/
theorem members_write {ms : List (String × Field)} (hms : ms ≠ [])
    (hfuel : ms.length < fuel) :
    members fuel ([','].intercalate (ms.map writeMember) ++ '}' :: rest) =
      if ms.all (fun m => plain m.1 && m.2.plain) then
        some (ms.map fun m => (m.1, m.2.value), rest)
      else none := by
  induction ms generalizing fuel with
  | nil => exact absurd rfl hms
  | cons m ms ih =>
      have htwo : ∃ k, fuel = k + 2 := ⟨fuel - 2, by simp only [List.length_cons] at hfuel; omega⟩
      rcases htwo with ⟨k, rfl⟩
      cases ms with
      | nil =>
          rw [List.map_singleton, List.intercalate_singleton, members_writeMember m ends_brace,
            skipSpace_of_not '}' _ rfl]
          simp
      | cons m' ms =>
          have hrest := ih (List.cons_ne_nil _ _) (Nat.lt_of_succ_lt_succ hfuel)
          rw [List.map_cons] at hrest
          rw [List.map_cons, List.map_cons, List.intercalate_cons_cons, List.append_assoc,
            List.append_assoc, List.singleton_append, members_writeMember m ends_comma,
            skipSpace_of_not ',' _ rfl, List.all_cons]
          simp only [hrest]
          cases plain m.1 && m.2.plain with
          | false => rfl
          | true =>
              simp only [if_true, Bool.true_and]
              split_ifs
              · rfl
              · rfl

/-- A brace and a quotation mark open an object with members. -/
theorem value_object (cs : List Char) :
    value (fuel + 1) ('{' :: '"' :: cs) =
      (members fuel ('"' :: cs)).map fun p => (.object p.1, p.2) := by
  rw [value, skipSpace_of_not '{' _ rfl]
  simp only [skipSpace_of_not '"' _ rfl]
  rfl

theorem length_le_intercalate (ms : List (String × Field)) :
    ms.length ≤ ([','].intercalate (ms.map writeMember)).length := by
  induction ms with
  | nil => exact Nat.le_refl _
  | cons m ms ih =>
      cases ms with
      | nil =>
          simp only [List.map_singleton, List.intercalate_singleton, writeMember, quoted]
          simp
      | cons m' ms =>
          rw [List.map_cons] at ih
          simp only [List.map_cons, List.intercalate_cons_cons, List.length_append,
            List.length_cons] at ih ⊢
          omega

/-- The members are opened by a quotation mark. -/
theorem intercalate_eq_cons {ms : List (String × Field)} (hms : ms ≠ []) :
    ∃ cs, [','].intercalate (ms.map writeMember) = '"' :: cs := by
  cases ms with
  | nil => exact absurd rfl hms
  | cons m ms =>
      cases ms with
      | nil => exact ⟨_, by rw [List.map_singleton, List.intercalate_singleton]; rfl⟩
      | cons m' ms =>
          rw [List.map_cons, List.map_cons, List.intercalate_cons_cons]
          exact ⟨_, rfl⟩

/-- A written object is decoded to its members, or not at all: exactly if no
text in it has a character that has to be escaped. -/
theorem decode_writeObject {ms : List (String × Field)} (hms : ms ≠ []) {text : String}
    (htext : text.toList = writeObject ms) :
    decode text = if ms.all (fun m => plain m.1 && m.2.plain) then
      some (.object (ms.map fun m => (m.1, m.2.value))) else none := by
  have hlen : text.length = ([','].intercalate (ms.map writeMember)).length + 2 := by
    rw [← String.length_toList, htext, writeObject]
    simp
  have hshort : ms.length < text.length := by
    have := length_le_intercalate ms
    omega
  have hmembers : members text.length ([','].intercalate (ms.map writeMember) ++ ['}']) = _ :=
    members_write hms hshort
  rcases intercalate_eq_cons hms with ⟨cs, hcs⟩
  rw [hcs, List.cons_append] at hmembers
  rw [decode, htext, writeObject, hcs, List.cons_append, value_object, hmembers]
  split_ifs
  · rfl
  · rfl

/-! ## What is written of plain texts -/

theorem mem_quoted {s : String} (hs : plain s = true) : ∀ c ∈ quoted s, 0x20 ≤ c.toNat := by
  have hchars : ∀ c ∈ s.toList, 0x20 ≤ c.toNat := by
    simpa [plain] using hs
  intro c hc
  simp only [quoted, List.mem_cons, List.mem_append, List.mem_flatMap, List.not_mem_nil,
    or_false] at hc
  rcases hc with rfl | ⟨d, hd, hc⟩ | rfl
  · decide
  · have hd' := hchars d hd
    rcases escapeQuotes_cases d with ⟨rfl, hesc⟩ | ⟨rfl, hesc⟩ | ⟨_, _, hesc⟩
    · rw [hesc] at hc
      rcases List.mem_pair.mp hc with rfl | rfl
      · decide
      · decide
    · rw [hesc] at hc
      rcases List.mem_pair.mp hc with rfl | rfl
      · decide
      · decide
    · rw [hesc, List.mem_singleton] at hc
      exact hc ▸ hd'
  · decide

theorem mem_write {f : Field} (hf : f.plain = true) : ∀ c ∈ f.write, 0x20 ≤ c.toNat := by
  cases f with
  | text s => exact mem_quoted hf
  | natural n =>
      intro c hc
      have hdigit := Nat.isDigit_of_mem_toDigits (by decide) (by decide) hc
      rw [Char.isDigit, Bool.and_eq_true] at hdigit
      have hlow : (48 : UInt32) ≤ c.val := of_decide_eq_true hdigit.1
      rw [UInt32.le_iff_toNat_le] at hlow
      exact Nat.le_trans (by decide) hlow

/-- What holds of the separator and of the parts holds of the list of parts. -/
theorem forall_mem_intercalate {p : Char → Prop} {sep : Char} (hsep : p sep) :
    ∀ parts : List (List Char), (∀ l ∈ parts, ∀ c ∈ l, p c) →
      ∀ c ∈ [sep].intercalate parts, p c
  | [], _ => by simp
  | [l], h => by simpa using h
  | l :: l' :: parts, h => by
      obtain ⟨hl, hrest⟩ := List.forall_mem_cons.mp h
      rw [List.intercalate_cons_cons, List.append_assoc, List.forall_mem_append]
      refine ⟨hl, ?_⟩
      rw [List.singleton_append, List.forall_mem_cons]
      exact ⟨hsep, forall_mem_intercalate hsep (l' :: parts) hrest⟩

/-- A written object whose texts are plain has no control character below
U+0020 at all. -/
theorem mem_writeObject {ms : List (String × Field)}
    (hms : ms.all (fun m => plain m.1 && m.2.plain) = true) :
    ∀ c ∈ writeObject ms, 0x20 ≤ c.toNat := by
  have hmember : ∀ m ∈ ms, ∀ c ∈ writeMember m, 0x20 ≤ c.toNat := by
    intro m hm c hc
    have hplain := List.all_eq_true.mp hms m hm
    rw [Bool.and_eq_true] at hplain
    rcases List.mem_append.mp hc with hkey | hrest
    · exact mem_quoted hplain.1 c hkey
    · rcases List.mem_cons.mp hrest with rfl | hvalue
      · decide
      · exact mem_write hplain.2 c hvalue
  have hjoin : ∀ c ∈ [','].intercalate (ms.map writeMember), 0x20 ≤ c.toNat :=
    forall_mem_intercalate (by decide) _ (List.forall_mem_map.mpr hmember)
  intro c hc
  simp only [writeObject, List.mem_cons, List.mem_append, List.not_mem_nil, or_false] at hc
  rcases hc with rfl | hc | rfl
  · decide
  · exact hjoin c hc
  · decide

end

end Json

import Mathlib.Data.String.Basic
import NetZer.Lib.Rust
import NetZer.Lib.Unicode

/-! # Rust strings

The `str` and `format!` operations a text-processing program uses, on Lean
strings: both are sequences of Unicode scalar values stored as UTF-8. Byte
offsets into a string appear where Rust slices by them.
-/

namespace Text

open Unicode

/-! ## Searching and splitting -/

def startsWith (s pat : String) : Bool :=
  pat.toList.isPrefixOf s.toList

/-- A text begins with one of two that go apart. -/
theorem not_startsWith {s pat pat' : String} (h : startsWith s pat = true)
    (hne : pat.toList.isPrefixOf pat'.toList = false)
    (hne' : pat'.toList.isPrefixOf pat.toList = false) : startsWith s pat' = false := by
  rw [← Bool.not_eq_true]
  intro h'
  rw [startsWith, List.isPrefixOf_iff_prefix] at h h'
  rw [← Bool.not_eq_true, List.isPrefixOf_iff_prefix] at hne hne'
  rcases List.prefix_or_prefix_of_prefix h h' with hle | hle
  · exact hne hle
  · exact hne' hle

/-- `str::trim_start`. -/
def trimStart (s : String) : String :=
  String.ofList (s.toList.dropWhile isWhitespace)

/-- `s.split_whitespace().collect()`. -/
def splitWhitespace (s : String) : List String :=
  ((s.toList.splitOnP isWhitespace).filter (fun w => !w.isEmpty)).map String.ofList

/-- At most `n` pieces; the last one keeps its separators. -/
def splitNChars (sep : Char) : Nat → List Char → List (List Char)
  | 0, _ => []
  | 1, cs => [cs]
  | n + 2, cs =>
      match cs.dropWhile (· != sep) with
      | [] => [cs]
      | _ :: rest => cs.takeWhile (· != sep) :: splitNChars sep (n + 1) rest

/-- `s.splitn(n, sep).collect()`. -/
def splitN (n : Nat) (sep : Char) (s : String) : List String :=
  (splitNChars sep n s.toList).map String.ofList

theorem splitNChars_ne_nil (sep : Char) (n : Nat) (cs : List Char) :
    splitNChars sep (n + 1) cs ≠ [] := by
  cases n with
  | zero => exact List.cons_ne_nil _ _
  | succ n =>
      rw [splitNChars]
      split <;> exact List.cons_ne_nil _ _

/-- A piece is split off at the first separator. -/
theorem splitNChars_append {sep : Char} {piece : List Char} (h : sep ∉ piece) (n : Nat)
    (rest : List Char) :
    splitNChars sep (n + 2) (piece ++ sep :: rest) = piece :: splitNChars sep (n + 1) rest := by
  have hpiece : ∀ c ∈ piece, (c != sep) = true := by
    intro c hc
    rw [bne_iff_ne]
    rintro rfl
    exact h hc
  have hdrop : (sep :: rest).dropWhile (· != sep) = sep :: rest :=
    List.dropWhile_cons_of_neg (by simp)
  have htake : (sep :: rest).takeWhile (· != sep) = [] := List.takeWhile_cons_of_neg (by simp)
  rw [splitNChars, List.dropWhile_append_of_pos hpiece, List.takeWhile_append_of_pos hpiece,
    hdrop, htake, List.append_nil]

/-- The pieces make up the text again. -/
theorem intercalate_splitNChars (sep : Char) (n : Nat) (cs : List Char) :
    [sep].intercalate (splitNChars sep (n + 1) cs) = cs := by
  induction n generalizing cs with
  | zero => exact List.intercalate_singleton
  | succ n ih =>
      rw [splitNChars]
      split
      · exact List.intercalate_singleton
      · next c rest hdrop =>
          have hc := List.head?_dropWhile_not (· != sep) cs
          rw [hdrop] at hc
          have hsep : c = sep := by simpa using hc
          rw [hsep] at hdrop
          rw [List.intercalate_cons_of_ne_nil (splitNChars_ne_nil sep n rest), ih,
            List.append_assoc, List.singleton_append, ← hdrop, List.takeWhile_append_dropWhile]

/-- `s.replace(c, by)` for a one-character pattern. -/
def replace (s : String) (c : Char) (by_ : String) : String :=
  String.ofList (s.toList.flatMap fun d => if d = c then by_.toList else [d])

example : splitN 3 ' ' "HTTP/1.1 404 Not Found" = ["HTTP/1.1", "404", "Not Found"] := by decide

/-! ## Formatting -/

/-- `format!("{:<n}", s)`. -/
def padRight (n : Nat) (s : String) : String :=
  s ++ String.ofList (List.replicate (n - s.length) ' ')

/-- `format!("{:0nx}", v)`. -/
def hex (n : Nat) (v : Nat) : String :=
  String.ofList ((Nat.toDigits 16 v).leftpad n '0')

/-- `format!("{:0n}", v)`. -/
def zeroPad (n : Nat) (v : Nat) : String :=
  String.ofList ((Nat.toDigits 10 v).leftpad n '0')

example : hex 2 10 = "0a" := by decide

/-! ## Reading numbers -/

/-- The value of a sequence of decimal digits. -/
def decimal (cs : List Char) : Nat :=
  cs.foldl (fun v c => v * 10 + (c.toNat - '0'.toNat)) 0

/-- `s.parse::<u32>().ok()`: decimal digits, one `+` allowed before them. -/
def parseU32 (s : String) : Option UInt32 :=
  let digits :=
    match s.toList with
    | '+' :: cs => cs
    | cs => cs
  -- a sign alone is no number, and a minus sign is no digit
  if digits.isEmpty || !digits.all Char.isDigit then none
  else if decimal digits < 2 ^ 32 then some (UInt32.ofNat (decimal digits))
  else none

example : parseU32 "1000" = some 1000 ∧ parseU32 "4294967296" = none ∧ parseU32 "-1" = none := by
  decide

/-- The digit to a base that a character is. -/
def digitValue (base : Nat) (c : Char) : Option Nat :=
  (List.range base).find? fun d => d.digitChar == c

/-! ## Byte offsets -/

/-- The number of bytes of the first characters. -/
def byteLen (cs : List Char) : Nat :=
  cs.foldr (fun c n => c.utf8Size + n) 0

/-- The longest prefix that ends at or before byte `n`, when it ends there. -/
def takeBytes : List Char → Nat → Option (List Char)
  | _, 0 => some []
  | [], _ + 1 => none
  | c :: cs, n + 1 =>
      if c.utf8Size ≤ n + 1 then (takeBytes cs (n + 1 - c.utf8Size)).map (c :: ·) else none

/-- `&s[..n]`: panics inside a character and past the end. -/
def sliceTo {φ : Type} (s : String) (n : Nat) : Rust.Eval φ String :=
  match takeBytes s.toList n with
  | some cs => .ok (String.ofList cs)
  | none => .error ⟨.charBoundary, []⟩

theorem takeBytes_prefix_chars {cs ys : List Char} {n : Nat} (h : takeBytes cs n = some ys) :
    ys <+: cs := by
  induction cs, n using takeBytes.induct generalizing ys with
  | case1 cs =>
      rw [takeBytes] at h
      exact Option.some.inj h ▸ List.nil_prefix
  | case2 n =>
      rw [takeBytes] at h
      cases h
  | case3 c cs n hfits ih =>
      rw [takeBytes, if_pos hfits] at h
      rcases Option.map_eq_some_iff.mp h with ⟨zs, hzs, rfl⟩
      exact (List.prefix_cons_inj c).mpr (ih hzs)
  | case4 c cs n hfits =>
      rw [takeBytes, if_neg hfits] at h
      cases h

@[simp] theorem byteLen_append (cs ds : List Char) :
    byteLen (cs ++ ds) = byteLen cs + byteLen ds := by
  induction cs with
  | nil => simp [byteLen]
  | cons c cs ih =>
      have hcons : ∀ l, byteLen (c :: l) = c.utf8Size + byteLen l := fun _ => rfl
      rw [List.cons_append, hcons, hcons, ih, Nat.add_assoc]

/-- Every character takes a byte at least. -/
theorem length_le_byteLen (cs : List Char) : cs.length ≤ byteLen cs := by
  induction cs with
  | nil => exact Nat.le_refl 0
  | cons c cs ih =>
      have hpos := c.utf8Size_pos
      have hcons : byteLen (c :: cs) = c.utf8Size + byteLen cs := rfl
      rw [hcons, List.length_cons]
      omega

/-- Text is as many bytes as characters exactly if it is ASCII. -/
theorem byteLen_eq_length_iff {cs : List Char} :
    byteLen cs = cs.length ↔ ∀ c ∈ cs, c.utf8Size = 1 := by
  induction cs with
  | nil => simp [byteLen]
  | cons c cs ih =>
      have hpos := c.utf8Size_pos
      have hle := length_le_byteLen cs
      have hcons : byteLen (c :: cs) = c.utf8Size + byteLen cs := rfl
      rw [List.forall_mem_cons, ← ih, hcons, List.length_cons]
      omega

/-- A cut succeeds exactly at the end of a prefix. -/
theorem takeBytes_eq_some_iff {cs ys : List Char} {n : Nat} :
    takeBytes cs n = some ys ↔ ys <+: cs ∧ byteLen ys = n := by
  constructor
  · intro h
    refine ⟨takeBytes_prefix_chars h, ?_⟩
    induction cs, n using takeBytes.induct generalizing ys with
    | case1 cs =>
        rw [takeBytes] at h
        exact Option.some.inj h ▸ rfl
    | case2 n =>
        rw [takeBytes] at h
        cases h
    | case3 c cs n hfits ih =>
        rw [takeBytes, if_pos hfits] at h
        obtain ⟨zs, hzs, rfl⟩ := Option.map_eq_some_iff.mp h
        have hcons : byteLen (c :: zs) = c.utf8Size + byteLen zs := rfl
        rw [hcons, ih hzs]
        omega
    | case4 c cs n hfits =>
        rw [takeBytes, if_neg hfits] at h
        cases h
  · rintro ⟨hstarts, rfl⟩
    induction ys generalizing cs with
    | nil =>
        rw [byteLen, List.foldr_nil, takeBytes]
    | cons c ys ih =>
        obtain ⟨rest, rfl⟩ := hstarts
        have hpos := c.utf8Size_pos
        have hlen : byteLen (c :: ys) = (c.utf8Size + byteLen ys - 1) + 1 := by
          have hcons : byteLen (c :: ys) = c.utf8Size + byteLen ys := rfl
          omega
        have hrest : c.utf8Size + byteLen ys - 1 + 1 - c.utf8Size = byteLen ys := by omega
        rw [List.cons_append, hlen, takeBytes, if_pos (by omega), hrest,
          ih (List.prefix_append ys rest)]
        rfl

/-- `s.char_indices().nth(n)`: the byte offset of character `n`, and it. -/
def charIndex (s : String) (n : Nat) : Option (Nat × Char) :=
  s.toList[n]?.map fun c => (byteLen (s.toList.take n), c)

/-! ## Encoding as UTF-8 -/

/-- `s.as_bytes()`. -/
def utf8 (s : String) : List UInt8 :=
  s.toList.flatMap String.utf8EncodeChar

@[simp] theorem utf8_append (s t : String) : utf8 (s ++ t) = utf8 s ++ utf8 t := by
  rw [utf8, String.toList_append, List.flatMap_append, utf8, utf8]

/-- A byte whose top bit is set is no line feed. -/
theorem newline_ne_or {m : UInt8} (hm : m.toNat.testBit 7 = true) (b : UInt8) : 0x0A ≠ b ||| m := by
  intro h
  have hbit := congrArg (fun b : UInt8 => b.toNat.testBit 7) h
  simp only [UInt8.toNat_or, Nat.testBit_or, hm, Bool.or_true] at hbit
  exact absurd hbit (by decide)

/-- Only a line feed is encoded with the byte of a line feed. -/
theorem newline_mem_utf8EncodeChar {c : Char} :
    0x0A ∈ String.utf8EncodeChar c ↔ c = '\n' := by
  constructor
  · intro h
    -- the bytes of a longer sequence have their top bit set
    rcases Char.utf8Size_eq c with hone | htwo | hthree | hfour
    · rw [String.utf8EncodeChar_eq_singleton hone, List.mem_singleton] at h
      have hle := Char.utf8Size_eq_one_iff.mp hone
      have hval : c.val = 10 := by
        have hnat := congrArg UInt8.toNat h
        rw [UInt32.le_iff_toNat_le] at hle
        apply UInt32.toNat_inj.mp
        simp only [UInt32.toNat_toUInt8] at hnat
        change c.val.toNat ≤ 127 at hle
        change 10 = c.val.toNat % 256 at hnat
        change c.val.toNat = 10
        omega
      exact Char.ext hval
    · rw [String.utf8EncodeChar_eq_cons_cons htwo] at h
      simp [newline_ne_or (m := 0xc0) rfl, newline_ne_or (m := 0x80) rfl] at h
    · rw [String.utf8EncodeChar_eq_cons_cons_cons hthree] at h
      simp [newline_ne_or (m := 0xe0) rfl, newline_ne_or (m := 0x80) rfl] at h
    · rw [String.utf8EncodeChar_eq_cons_cons_cons_cons hfour] at h
      simp [newline_ne_or (m := 0xf0) rfl, newline_ne_or (m := 0x80) rfl] at h
  · rintro rfl
    decide

theorem newline_mem_utf8 {s : String} : 0x0A ∈ utf8 s ↔ '\n' ∈ s.toList := by
  simp only [utf8, List.mem_flatMap, newline_mem_utf8EncodeChar]
  constructor
  · rintro ⟨c, hc, rfl⟩
    exact hc
  · intro h
    exact ⟨'\n', h, rfl⟩

/-! ## Lines -/

section

variable {α : Type} [DecidableEq α] {sep : α}

/-- What is ended by separators and holds none is what a split gives. -/
theorem splitOn_terminated {lines : List (List α)} (h : ∀ l ∈ lines, sep ∉ l) :
    (lines.flatMap (· ++ [sep])).splitOn sep = lines ++ [[]] := by
  induction lines with
  | nil => rfl
  | cons l lines ih =>
      rcases List.forall_mem_cons.mp h with ⟨hl, hlines⟩
      rw [List.flatMap_cons, List.append_assoc, List.singleton_append,
        List.splitOn_append_cons_self_of_not_mem hl, ih hlines, List.cons_append]

/-- A split gives one piece more than there are separators. -/
theorem length_splitOn (l : List α) : (l.splitOn sep).length = l.count sep + 1 := by
  induction l with
  | nil => rfl
  | cons a l ih =>
      rw [List.splitOn_cons_eq_if_modifyHead]
      by_cases ha : a = sep
      · simp [ha, ih]
      · simp [ha, ih]

theorem count_terminated (l : List α) (lines : List (List α)) :
    ((l :: lines).flatMap (· ++ [sep])).count sep =
      l.count sep + 1 + (lines.flatMap (· ++ [sep])).count sep := by
  rw [List.flatMap_cons, List.count_append, List.count_append, List.count_singleton_self]

theorem length_le_count (lines : List (List α)) :
    lines.length ≤ (lines.flatMap (· ++ [sep])).count sep := by
  induction lines with
  | nil => exact Nat.zero_le _
  | cons l lines ih =>
      rw [count_terminated, List.length_cons]
      omega

/-- If a split gives a piece for each of these and an empty one, they hold no
separator. -/
theorem not_mem_of_splitOn {lines pieces : List (List α)}
    (h : (lines.flatMap (· ++ [sep])).splitOn sep = pieces ++ [[]])
    (hlen : pieces.length = lines.length) : ∀ l ∈ lines, sep ∉ l := by
  have hcount : (lines.flatMap (· ++ [sep])).count sep = lines.length := by
    have hpieces := congrArg List.length h
    rw [length_splitOn, List.length_append, hlen] at hpieces
    exact Nat.succ.inj hpieces
  clear h hlen
  induction lines with
  | nil => exact List.forall_mem_nil _
  | cons l lines ih =>
      have hrest : lines.length ≤ (lines.flatMap (· ++ [sep])).count sep := length_le_count lines
      rw [count_terminated, List.length_cons] at hcount
      rw [List.forall_mem_cons]
      exact ⟨List.count_eq_zero.mp (by omega), ih (by omega)⟩

end

/-! ## Decoding UTF-8 -/

/-- `std::str::from_utf8(bytes).ok()`. -/
def fromUtf8 (bytes : List UInt8) : Option String :=
  String.fromUTF8? ⟨bytes.toArray⟩

/-- What is encoded is decoded again. -/
theorem fromUtf8_utf8 (s : String) : fromUtf8 (utf8 s) = some s := by
  have hbytes : (⟨(utf8 s).toArray⟩ : ByteArray) = s.toByteArray := by
    rw [← String.utf8Encode_toList]
    exact ByteArray.ext (by rw [List.utf8Encode, List.data_toByteArray, utf8])
  rw [fromUtf8, hbytes, String.fromUTF8?, dif_pos s.isValidUTF8]
  rfl

theorem utf8_inj {s t : String} (h : utf8 s = utf8 t) : s = t := by
  have hs := fromUtf8_utf8 s
  rw [h, fromUtf8_utf8] at hs
  exact (Option.some.inj hs).symm

/-- Only what is encoded is decoded. -/
theorem fromUtf8_eq_some_iff {bytes : List UInt8} {s : String} :
    fromUtf8 bytes = some s ↔ bytes = utf8 s := by
  constructor
  · intro h
    rw [fromUtf8, String.fromUTF8?] at h
    split at h
    · have hbytes : s.toByteArray = ⟨bytes.toArray⟩ := by
        rw [← Option.some.inj h]
        rfl
      rw [← String.utf8Encode_toList, List.utf8Encode] at hbytes
      have hdata := congrArg (fun b => b.data.toList) hbytes
      simp only [List.data_toByteArray, List.toList_toArray] at hdata
      rw [utf8, hdata]
    · cases h
  · rintro rfl
    exact fromUtf8_utf8 s

/-- A continuation byte `10xxxxxx`. -/
def isCont (b : UInt8) : Bool :=
  b &&& 0xc0 == 0x80

/-- The values the second byte of a three- or four-byte sequence may take. -/
def secondOk (lead b : UInt8) : Bool :=
  match lead.toNat with
  | 0xe0 => 0xa0 ≤ b && b ≤ 0xbf
  | 0xed => 0x80 ≤ b && b ≤ 0x9f
  | 0xf0 => 0x90 ≤ b && b ≤ 0xbf
  | 0xf4 => 0x80 ≤ b && b ≤ 0x8f
  | _ => isCont b

/-- The scalar value of a sequence: the payload bits of its lead byte, then
six bits of each continuation byte. -/
def scalar (lead : Nat) (conts : List UInt8) : Char :=
  Char.ofNat (conts.foldl (fun v b => v * 64 + (b &&& 0x3f).toNat) lead)

/-- U+FFFD. -/
def replacement : Char := Char.ofNat 0xfffd

/-- Decode one character at a lead byte, given what follows it: the character
and the number of further bytes it takes. A malformed sequence gives U+FFFD
for its longest prefix that could have been continued. -/
def decodeChar (lead : UInt8) (rest : List UInt8) : Char × Nat :=
  if lead < 0x80 then (Char.ofNat lead.toNat, 0)
  -- two bytes; `0xc0` and `0xc1` would encode ASCII once more
  else if 0xc2 ≤ lead && lead ≤ 0xdf then
    match rest with
    | b1 :: _ =>
        if isCont b1 then (scalar (lead &&& 0x1f).toNat [b1], 1) else (replacement, 0)
    | [] => (replacement, 0)
  -- three bytes
  else if 0xe0 ≤ lead && lead ≤ 0xef then
    match rest with
    | b1 :: rest' =>
        if secondOk lead b1 then
          match rest' with
          | b2 :: _ =>
              if isCont b2 then (scalar (lead &&& 0x0f).toNat [b1, b2], 2) else (replacement, 1)
          | [] => (replacement, 1)
        else (replacement, 0)
    | [] => (replacement, 0)
  -- four bytes
  else if 0xf0 ≤ lead && lead ≤ 0xf4 then
    match rest with
    | b1 :: rest' =>
        if secondOk lead b1 then
          match rest' with
          | b2 :: rest'' =>
              if isCont b2 then
                match rest'' with
                | b3 :: _ =>
                    if isCont b3 then (scalar (lead &&& 0x07).toNat [b1, b2, b3], 3)
                    else (replacement, 2)
                | [] => (replacement, 2)
              else (replacement, 1)
          | [] => (replacement, 1)
        else (replacement, 0)
    | [] => (replacement, 0)
  -- a continuation byte without a lead, or a byte that is never a lead
  else (replacement, 0)

/-- Decode, first skipping bytes that belong to the character before. -/
def decodeLossy : Nat → List UInt8 → List Char
  | _, [] => []
  | n + 1, _ :: rest => decodeLossy n rest
  | 0, b :: rest => (decodeChar b rest).1 :: decodeLossy (decodeChar b rest).2 rest

/-- `String::from_utf8_lossy`. -/
def fromUtf8Lossy (bytes : List UInt8) : String :=
  String.ofList (decodeLossy 0 bytes)

example : fromUtf8Lossy [0x47, 0xc3, 0xa9, 0xff, 0xe2, 0x82, 0x41] =
    String.ofList ['G', 'é', replacement, replacement, 'A'] := by decide

/-! ## The characters of a text -/

/-- `char::is_ascii_control`: the C0 controls and DEL. -/
def isControl (c : Char) : Bool :=
  c.toNat < 0x20 || c.toNat == 0x7f

/-- No character of the text is marked. -/
def Avoids (bad : Char → Bool) (s : String) : Prop :=
  ∀ c ∈ s.toList, bad c = false

instance (bad : Char → Bool) (s : String) : Decidable (Avoids bad s) :=
  List.decidableBAll (fun c => bad c = false) s.toList

section

variable {bad bad' : Char → Bool} {s t : String}

theorem Avoids.mono (h : Avoids bad s) (himp : ∀ c, bad c = false → bad' c = false) :
    Avoids bad' s := by
  intro c hc
  exact himp c (h c hc)

theorem avoids_ofList {cs : List Char} :
    Avoids bad (String.ofList cs) ↔ ∀ c ∈ cs, bad c = false := by
  rw [Avoids, String.toList_ofList]

theorem avoids_of_all {cs : List Char} (h : (cs.all fun c => !bad c) = true) :
    Avoids bad (String.ofList cs) := by
  rw [avoids_ofList]
  simpa using h

@[simp] theorem avoids_append : Avoids bad (s ++ t) ↔ Avoids bad s ∧ Avoids bad t := by
  simp only [Avoids, String.toList_append, List.forall_mem_append]

theorem avoids_join {l : List String} :
    Avoids bad (String.join l) ↔ ∀ s ∈ l, Avoids bad s := by
  simp only [Avoids, String.toList_join, List.mem_flatMap]
  constructor
  · intro h s hs c hc
    exact h c ⟨s, hs, hc⟩
  · rintro h c ⟨s, hs, hc⟩
    exact h s hs c hc

/-- A text put together with a clean separator is as clean as its parts. -/
theorem avoids_intercalate {sep : String} (hsep : Avoids bad sep) (l : List String) :
    Avoids bad (String.intercalate sep l) ↔ ∀ s ∈ l, Avoids bad s := by
  induction l with
  | nil => simp [Avoids]
  | cons s l ih =>
      cases l with
      | nil => simp
      | cons t l =>
          rw [String.intercalate_cons_cons, avoids_append, avoids_append, ih,
            List.forall_mem_cons (l := t :: l)]
          constructor
          · rintro ⟨⟨hs, _⟩, hl⟩
            exact ⟨hs, hl⟩
          · rintro ⟨hs, hl⟩
            exact ⟨⟨hs, hsep⟩, hl⟩

/-- Parts without the separator can be read off the text they make. -/
theorem intercalate_inj {c : Char} {l l' : List String} (hl : l ≠ []) (hl' : l' ≠ [])
    (hc : ∀ s ∈ l, c ∉ s.toList) (hc' : ∀ s ∈ l', c ∉ s.toList)
    (h : (String.singleton c).intercalate l = (String.singleton c).intercalate l') : l = l' := by
  have hsplit : ∀ {l : List String}, l ≠ [] → (∀ s ∈ l, c ∉ s.toList) →
      ((String.singleton c).intercalate l).toList.splitOn c = l.map String.toList := by
    intro l hl hc
    rw [String.toList_intercalate, String.toList_singleton]
    exact List.splitOn_intercalate c (List.forall_mem_map.mpr hc) (by simpa using hl)
  have hmap : l.map String.toList = l'.map String.toList := by
    rw [← hsplit hl hc, ← hsplit hl' hc', h]
  exact List.map_injective_iff.mpr (fun s t => String.toList_injective) hmap

/-- Lowering a text takes no character away from before the letters of ASCII,
and adds none. -/
theorem avoids_toLowercase (hbad : ∀ c, bad c = true → c.toNat < 0x41 ∧ c ≠ Char.ofNat 0) :
    Avoids bad (Unicode.toLowercase s) ↔ Avoids bad s := by
  have hmarked : ∀ t : String, Avoids bad t ↔ ∀ c, bad c = true → c ∉ t.toList := by
    intro t
    simp only [Avoids, ← Bool.not_eq_true]
    exact forall_congr' fun c => imp_not_comm
  rw [hmarked, hmarked]
  refine forall_congr' fun c => imp_congr_right fun hc => ?_
  rw [Unicode.mem_toLowercase_iff (hbad c hc).1 (hbad c hc).2]

theorem avoids_padRight (hspace : bad ' ' = false) (n : Nat) :
    Avoids bad (padRight n s) ↔ Avoids bad s := by
  rw [padRight, avoids_append, avoids_ofList]
  constructor
  · intro h
    exact h.1
  · intro h
    refine ⟨h, ?_⟩
    intro c hc
    rw [List.eq_of_mem_replicate hc]
    exact hspace

theorem avoids_sliceTo {φ : Type} {n : Nat} (h : (sliceTo s n : Rust.Eval φ String) = .ok t)
    (hs : Avoids bad s) : Avoids bad t := by
  unfold sliceTo at h
  split at h
  · next cs hcs =>
      rw [← Except.ok.inj h, avoids_ofList]
      intro c hc
      exact hs c ((takeBytes_prefix_chars hcs).subset hc)
  · cases h

/-! ## Numbers -/

/-- A number can be read off its digits. -/
theorem toString_injective : Function.Injective (toString : Nat → String) := by
  intro m n h
  rw [Nat.toString_eq_ofList_toDigits, Nat.toString_eq_ofList_toDigits, String.ofList_inj] at h
  calc m = Nat.ofDigitChars 10 (Nat.toDigits 10 m) 0 :=
        (Nat.ofDigitChars_toDigits (by decide) (by decide)).symm
    _ = Nat.ofDigitChars 10 (Nat.toDigits 10 n) 0 := by rw [h]
    _ = n := Nat.ofDigitChars_toDigits (by decide) (by decide)

/-- The digits of a number are digits to its base. -/
theorem digit_of_mem_toDigits {b n : Nat} {c : Char} (hb : 1 < b)
    (hc : c ∈ Nat.toDigits b n) : ∃ d < b, c = d.digitChar := by
  induction n using Nat.strongRecOn with
  | ind n ih =>
      rw [Nat.toDigits_eq_if hb] at hc
      split at hc
      · next hlt => exact ⟨n, hlt, List.mem_singleton.mp hc⟩
      -- the last digit, or one of those before it
      · rcases List.mem_append.mp hc with hc | hc
        · exact ih (n / b) (Nat.div_lt_self (by omega) hb) hc
        · exact ⟨n % b, Nat.mod_lt _ (by omega), List.mem_singleton.mp hc⟩

/-- A number, padded with zeros or not, has nothing but digits. -/
theorem avoids_leftpad {b : Nat} (hb : 1 < b) (hbad : ∀ d < b, bad d.digitChar = false)
    (n v : Nat) : Avoids bad (String.ofList ((Nat.toDigits b v).leftpad n '0')) := by
  rw [avoids_ofList, List.leftpad]
  intro c hc
  rcases List.mem_append.mp hc with hc | hc
  · rw [List.eq_of_mem_replicate hc]
    exact hbad 0 (by omega)
  · obtain ⟨d, hd, rfl⟩ := digit_of_mem_toDigits hb hc
    exact hbad d hd

theorem avoids_decimal (hbad : ∀ d < 10, bad d.digitChar = false) (v : Nat) :
    Avoids bad (toString v) := by
  rw [Nat.toString_eq_ofList_toDigits, avoids_ofList]
  intro c hc
  obtain ⟨d, hd, rfl⟩ := digit_of_mem_toDigits (by decide) hc
  exact hbad d hd

/-- A number of at most two hexadecimal digits, with both of them. -/
theorem toList_hex_two {v : Nat} (h : v < 256) :
    (hex 2 v).toList = [(v / 16).digitChar, (v % 16).digitChar] := by
  rw [hex, String.toList_ofList, Nat.toDigits_eq_if (by decide)]
  split_ifs with hone
  · rw [Nat.div_eq_of_lt hone, Nat.mod_eq_of_lt hone]
    rfl
  · rw [Nat.toDigits_of_lt_base (by omega)]
    rfl

theorem digitChar_inj : ∀ d < 16, ∀ d' < 16, d.digitChar = d'.digitChar → d = d' := by
  decide

/-- Two such numbers written together can be read off. -/
theorem hex_two_append_inj {v w v' w' : Nat} (hv : v < 256) (hw : w < 256) (hv' : v' < 256)
    (hw' : w' < 256) (h : hex 2 v ++ hex 2 w = hex 2 v' ++ hex 2 w') : v = v' ∧ w = w' := by
  have hdigits := congrArg String.toList h
  simp only [String.toList_append, toList_hex_two, hv, hw, hv', hw', List.cons_append,
    List.nil_append, List.cons.injEq, and_true] at hdigits
  obtain ⟨h1, h2, h3, h4⟩ := hdigits
  have hlow : ∀ n, n % 16 < 16 := fun n => Nat.mod_lt n (by decide)
  have hhigh : ∀ {n}, n < 256 → n / 16 < 16 := fun hn => by omega
  have hv1 := digitChar_inj _ (hhigh hv) _ (hhigh hv') h1
  have hv2 := digitChar_inj _ (hlow v) _ (hlow v') h2
  have hw1 := digitChar_inj _ (hhigh hw) _ (hhigh hw') h3
  have hw2 := digitChar_inj _ (hlow w) _ (hlow w') h4
  exact ⟨by omega, by omega⟩

/-- No digit is a control character. -/
theorem isControl_digitChar (n : Nat) : isControl n.digitChar = false := by
  have hdigits : ∀ d < 16, isControl d.digitChar = false := by decide
  by_cases hn : n < 16
  · exact hdigits n hn
  · rw [Nat.digitChar_eq_star.mpr (by omega)]
    rfl

theorem avoids_hex (n v : Nat) : Avoids isControl (hex n v) :=
  avoids_leftpad (by decide) (fun d _ => isControl_digitChar d) n v

theorem avoids_zeroPad (n v : Nat) : Avoids isControl (zeroPad n v) :=
  avoids_leftpad (by decide) (fun d _ => isControl_digitChar d) n v

theorem avoids_toString (v : Nat) : Avoids isControl (toString v) :=
  avoids_decimal (fun d _ => isControl_digitChar d) v

end

end Text

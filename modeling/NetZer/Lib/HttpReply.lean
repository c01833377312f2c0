import NetZer.Lib.Http
import NetZer.Lib.WebSocket

/-! # HTTP replies

A reply as the client of a connection reads it: the status line, the header
lines, and a body whose length they tell. What follows the body is left for who
reads on, as a client does that has asked for the switch to WebSocket.
-/

namespace Http

open Text

/-- A header as it is read, without the blanks around its value. -/
structure Field where
  name : List UInt8
  value : List UInt8
deriving DecidableEq, Repr

structure Reply where
  status : Nat
  fields : List Field
  body : List UInt8
deriving DecidableEq, Repr

/-! ## Reading -/

/-- A line, without its ending, and what follows it. -/
def readLine (bytes : List UInt8) : Option (List UInt8 × List UInt8) :=
  match bytes.dropWhile (· != 0x0a) with
  | [] => none
  | _ :: rest =>
      let line := bytes.takeWhile (· != 0x0a)
      if line.getLast? = some 0x0d then some (line.dropLast, rest) else none

def trimBlanks (value : List UInt8) : List UInt8 :=
  (value.dropWhile isBlank).rdropWhile isBlank

def readField (line : List UInt8) : Option Field :=
  match line.dropWhile (· != 0x3a) with
  | [] => none
  | _ :: value =>
      let name := line.takeWhile (· != 0x3a)
      if name ≠ [] ∧ name.all isTokenByte = true ∧ value.all isFieldByte = true then
        some ⟨name, trimBlanks value⟩
      else none

/-- The headers up to the empty line, and what follows that. Every pass takes a
line, so there are fewer than bytes. -/
def readFields : Nat → List UInt8 → Option (List Field × List UInt8)
  | 0, _ => none
  | fuel + 1, bytes => do
      let (line, rest) ← readLine bytes
      if line = [] then return ([], rest)
      else
        let field ← readField line
        let (fields, rest) ← readFields fuel rest
        return (field :: fields, rest)

def readDecimal (bytes : List UInt8) : Option Nat :=
  if bytes ≠ [] ∧ bytes.all isDigit = true then
    some (bytes.foldl (fun n b => 10 * n + (b.toNat - 0x30)) 0)
  else none

/-- The version, three digits, a space and a reason. -/
def readStatus (line : List UInt8) : Option Nat :=
  let version := utf8 "HTTP/1.1 "
  let code := (line.drop version.length).take 3
  match line.drop (version.length + 3) with
  | space :: reason =>
      if line.take version.length = version ∧ space = 0x20 ∧ reason.all isFieldByte = true then
        readDecimal code
      else none
  | [] => none

/-- Names are compared without regard to case. -/
def Field.isNamed (name : String) (f : Field) : Bool :=
  eqIgnoreAsciiCase (asciiText f.name) name

/-- Some replies have no body. Else its length is the one of the header; with no
such header it goes on to the end of the connection. Coded bodies are not read. -/
def bodyLength (status : Nat) (fields : List Field) (left : Nat) : Option Nat :=
  if status < 200 ∨ status = 204 ∨ status = 304 then some 0
  else if fields.any (·.isNamed "transfer-encoding") then none
  else
    match fields.filter (·.isNamed "content-length") with
    | [] => some left
    | [f] => readDecimal f.value
    | _ => none

/-- A reply at the beginning of the bytes, and what follows it. -/
def readReply (bytes : List UInt8) : Option (Reply × List UInt8) := do
  let (line, rest) ← readLine bytes
  let status ← readStatus line
  let (fields, rest) ← readFields rest.length rest
  let n ← bodyLength status fields rest.length
  if n ≤ rest.length then return (⟨status, fields, rest.take n⟩, rest.drop n) else none

/-! ## Switching to WebSocket -/

/-- The value of the first header of that name. -/
def Reply.value? (name : String) (r : Reply) : Option (List UInt8) :=
  (r.fields.find? (·.isNamed name)).map Field.value

/-- What a client checks that has asked for the switch with no extension and no
subprotocol, and that expects this accept value. -/
def Reply.switches (accept : String) (r : Reply) : Bool :=
  r.status == 101 &&
    (r.value? "upgrade").any (fun v => eqIgnoreAsciiCase (asciiText v) "websocket") &&
    (r.value? "connection").any (fun v => eqIgnoreAsciiCase (asciiText v) "upgrade") &&
    r.value? "sec-websocket-accept" == some (utf8 accept) &&
    (r.value? "sec-websocket-extensions").isNone && (r.value? "sec-websocket-protocol").isNone

/-- The first messages behind a reply that switches, and what follows them. -/
def readMessages (accept : String) (n : Nat) (bytes : List UInt8) :
    Option (List String × List UInt8) := do
  let (reply, rest) ← readReply bytes
  if reply.switches accept then
    let (frames, rest) ← WebSocket.decodeFrames n rest
    let messages ← frames.mapM WebSocket.Frame.message
    return (messages, rest)
  else none

/-- What each part reads, one after the other. -/
theorem readMessages_eq {accept : String} {n : Nat} {bytes behind rest : List UInt8}
    {reply : Reply} {frames : List WebSocket.Frame} {messages : List String}
    (hreply : readReply bytes = some (reply, behind)) (hswitches : reply.switches accept = true)
    (hframes : WebSocket.decodeFrames n behind = some (frames, rest))
    (hmessages : frames.mapM WebSocket.Frame.message = some messages) :
    readMessages accept n bytes = some (messages, rest) := by
  simp only [readMessages, hreply, hframes, hmessages, Option.bind_eq_bind, Option.bind_some]
  exact if_pos hswitches

/-! ## Reading what was written -/

/-- What comes before the body. -/
structure Head where
  status : Nat
  reason : List UInt8
  fields : List HeaderField
  status_ge : 100 ≤ status
  status_lt : status < 1000
  reason_field : ∀ b ∈ reason, isFieldByte b = true

def Head.statusLine (h : Head) : List UInt8 :=
  utf8 "HTTP/1.1 " ++ (utf8 (toString h.status) ++ 0x20 :: h.reason)

def Head.bytes (h : Head) : List UInt8 :=
  h.statusLine ++ crlf ++ (headerLines h.fields ++ crlf)

/-- What is read of a header. -/
def HeaderField.field (f : HeaderField) : Field :=
  ⟨f.name, trimBlanks f.value⟩

/-- A header with a space behind its colon. -/
def HeaderField.spaced (name : String) (value : List UInt8)
    (hname : utf8 name ≠ [] ∧ (utf8 name).all isTokenByte = true)
    (hvalue : ∀ b ∈ value, isFieldByte b = true) : HeaderField where
  name := utf8 name
  value := 0x20 :: value
  name_ne := hname.1
  name_token := List.all_eq_true.mp hname.2
  value_field := List.forall_mem_cons.mpr ⟨rfl, hvalue⟩

theorem readLine_append {l : List UInt8} (h : 0x0a ∉ l) (rest : List UInt8) :
    readLine (l ++ crlf ++ rest) = some (l, rest) := by
  have hline : ∀ b ∈ l ++ [0x0d], (b != 0x0a) = true := by
    intro b hb
    rw [bne_iff_ne]
    rintro rfl
    rcases List.mem_append.mp hb with hl | hcr
    · exact h hl
    · exact absurd hcr (by decide)
  have hsplit : l ++ crlf ++ rest = (l ++ [0x0d]) ++ 0x0a :: rest := by
    rw [List.append_assoc, List.append_assoc]
    rfl
  have hend : ((0x0a : UInt8) != 0x0a) = false := rfl
  rw [readLine, hsplit, List.dropWhile_append_of_pos hline, List.takeWhile_append_of_pos hline,
    List.dropWhile_cons, List.takeWhile_cons, hend, if_neg (by decide), if_neg (by decide)]
  simp

theorem readField_line (f : HeaderField) : readField f.line = some f.field := by
  have hname : ∀ b ∈ f.name, (b != 0x3a) = true := by
    intro b hb
    rw [bne_iff_ne]
    exact (isTokenByte_ascii b (f.name_token b hb)).1.2
  have hcolon : ((0x3a : UInt8) != 0x3a) = false := rfl
  rw [readField, HeaderField.line, List.dropWhile_append_of_pos hname,
    List.takeWhile_append_of_pos hname, List.dropWhile_cons, List.takeWhile_cons, hcolon,
    if_neg (by decide), if_neg (by decide), List.append_nil]
  exact if_pos ⟨f.name_ne, List.all_eq_true.mpr f.name_token, List.all_eq_true.mpr f.value_field⟩

theorem isVisible_field (b : UInt8) :
    isVisible b = true → isFieldByte b = true ∧ isBlank b = false :=
  forall_byte (P := fun b => isVisible b = true → isFieldByte b = true ∧ isBlank b = false)
    (by decide +kernel) b

theorem isDigit_visible (b : UInt8) : isDigit b = true → isVisible b = true :=
  forall_byte (P := fun b => isDigit b = true → isVisible b = true) (by decide +kernel) b

theorem trimBlanks_cons {value : List UInt8} (h : ∀ b ∈ value, isBlank b = false) :
    trimBlanks (0x20 :: value) = value := by
  have hfront : value.dropWhile isBlank = value := by
    cases value with
    | nil => rfl
    | cons b bs => rw [List.dropWhile_cons, h b List.mem_cons_self, if_neg (by decide)]
  have hback : value.rdropWhile isBlank = value := by
    rw [List.rdropWhile_eq_self_iff]
    intro hne
    rw [h _ (List.getLast_mem hne)]
    decide
  have hspace : isBlank 0x20 = true := rfl
  rw [trimBlanks, List.dropWhile_cons, hspace, if_pos rfl, hfront, hback]

theorem HeaderField.field_spaced {name : String} {value : List UInt8}
    (hname : utf8 name ≠ [] ∧ (utf8 name).all isTokenByte = true)
    (hvalue : ∀ b ∈ value, isFieldByte b = true) (h : ∀ b ∈ value, isVisible b = true) :
    (HeaderField.spaced name value hname hvalue).field = ⟨utf8 name, value⟩ := by
  show Field.mk _ (trimBlanks (0x20 :: value)) = _
  rw [trimBlanks_cons fun b hb => (isVisible_field b (h b hb)).2]
  rfl

theorem HeaderField.line_ne (f : HeaderField) : f.line ≠ [] := by
  intro hnil
  exact f.name_ne (List.append_eq_nil_iff.mp hnil).1

theorem readFields_headerLines (fields : List HeaderField) (rest : List UInt8) {fuel : Nat}
    (h : fields.length < fuel) :
    readFields fuel (headerLines fields ++ crlf ++ rest) =
      some (fields.map HeaderField.field, rest) := by
  induction fields generalizing fuel with
  | nil =>
      rcases Nat.exists_eq_succ_of_ne_zero (Nat.ne_of_gt h) with ⟨n, rfl⟩
      rw [readFields]
      have hline : readLine (headerLines [] ++ crlf ++ rest) = some ([], rest) :=
        readLine_append (List.not_mem_nil) rest
      rw [hline]
      rfl
  | cons f fs ih =>
      rcases Nat.exists_eq_succ_of_ne_zero (Nat.ne_zero_of_lt h) with ⟨n, rfl⟩
      have hsplit : headerLines (f :: fs) ++ crlf ++ rest =
          f.line ++ crlf ++ (headerLines fs ++ crlf ++ rest) := by
        rw [headerLines, List.flatMap_cons, List.append_assoc, List.append_assoc,
          List.append_assoc (headerLines fs)]
        rfl
      rw [readFields, hsplit, readLine_append f.newline_not_mem]
      show (if f.line = [] then _ else _) = _
      rw [if_neg f.line_ne, readField_line]
      show (readFields n _).bind _ = _
      rw [ih (Nat.lt_of_succ_lt_succ h)]
      rfl

theorem length_le_headerLines (fields : List HeaderField) :
    fields.length ≤ (headerLines fields).length := by
  induction fields with
  | nil => exact Nat.le_refl 0
  | cons f fs ih =>
      have hline : 0 < (f.line ++ crlf).length := by
        rw [List.length_append]
        exact Nat.lt_add_left _ (by decide)
      rw [headerLines, List.flatMap_cons, List.length_append, List.length_cons, Nat.add_comm]
      exact Nat.add_le_add hline ih

/-- A header that is looked up is the first one, or it is among the others. -/
theorem Reply.value?_cons {name : String} {n : List UInt8} {b : Bool}
    (h : eqIgnoreAsciiCase (asciiText n) name = b) (status : Nat) (v : List UInt8)
    (fs : List Field) (body : List UInt8) :
    Reply.value? name ⟨status, ⟨n, v⟩ :: fs, body⟩ =
      if b then some v else Reply.value? name ⟨status, fs, body⟩ := by
  have hb : Field.isNamed name ⟨n, v⟩ = b := h
  cases b <;> simp [Reply.value?, hb]

/-! ## Numbers -/

/-- A text whose characters are all ASCII. -/
theorem utf8_ascii {s : String} (h : ∀ c ∈ s.toList, c.toNat < 0x80) :
    utf8 s = s.toList.map fun c => UInt8.ofNat c.toNat := by
  rw [utf8, List.map_eq_flatMap]
  apply List.flatMap_congr
  intro c hc
  have hle : c.val ≤ 127 := Nat.le_of_lt_succ (h c hc)
  exact String.utf8EncodeChar_eq_singleton (Char.utf8Size_eq_one_iff.mpr hle)

theorem digit_lt {d : Nat} (hd : d < 10) : d.digitChar.toNat < 0x80 := by
  revert d
  decide

theorem utf8_toString (n : Nat) :
    utf8 (toString n) = (Nat.toDigits 10 n).map fun c => UInt8.ofNat c.toNat := by
  have hdigits : ∀ c ∈ (toString n).toList, c.toNat < 0x80 := by
    rw [Nat.toString_eq_ofList_toDigits, String.toList_ofList]
    intro c hc
    rcases digit_of_mem_toDigits (by decide) hc with ⟨d, hd, rfl⟩
    exact digit_lt hd
  rw [utf8_ascii hdigits, Nat.toString_eq_ofList_toDigits, String.toList_ofList]

theorem isDigit_of_mem_toString (n : Nat) : ∀ b ∈ utf8 (toString n), isDigit b = true := by
  have hdigit : ∀ d < 10, isDigit (UInt8.ofNat d.digitChar.toNat) = true := by decide
  rw [utf8_toString, List.forall_mem_map]
  intro c hc
  rcases digit_of_mem_toDigits (by decide) hc with ⟨d, hd, rfl⟩
  exact hdigit d hd

theorem readDecimal_toString (n : Nat) : readDecimal (utf8 (toString n)) = some n := by
  have hne : utf8 (toString n) ≠ [] := by
    rw [utf8_toString, ne_eq, List.map_eq_nil_iff]
    exact Nat.toDigits_ne_nil
  rw [readDecimal, if_pos ⟨hne, List.all_eq_true.mpr (isDigit_of_mem_toString n)⟩, utf8_toString,
    List.foldl_map]
  congr 1
  calc (Nat.toDigits 10 n).foldl (fun m c => 10 * m + ((UInt8.ofNat c.toNat).toNat - 0x30)) 0
      = (Nat.toDigits 10 n).foldl (fun m c => 10 * m + (c.toNat - '0'.toNat)) 0 := by
        apply List.foldl_ext
        intro m c hc
        rcases digit_of_mem_toDigits (by decide) hc with ⟨d, hd, rfl⟩
        rw [UInt8.toNat_ofNat_of_lt' (Nat.lt_trans (digit_lt hd) (by decide))]
        rfl
    _ = Nat.ofDigitChars 10 (Nat.toDigits 10 n) 0 := Nat.ofDigitChars_eq_foldl.symm
    _ = n := Nat.ofDigitChars_ten_toDigits

theorem length_toString {n : Nat} (hge : 100 ≤ n) (hlt : n < 1000) :
    (utf8 (toString n)).length = 3 := by
  rw [utf8_toString, List.length_map]
  have hle : (Nat.toDigits 10 n).length ≤ 3 :=
    (Nat.length_toDigits_le_iff (by decide) (by decide)).mpr hlt
  have hnot : ¬ (Nat.toDigits 10 n).length ≤ 2 := by
    rw [Nat.length_toDigits_le_iff (by decide) (by decide)]
    omega
  omega

/-! ## Replies -/

/-- The length is read from the one header that tells it. -/
theorem bodyLength_contentLength {status : Nat}
    (hstatus : ¬ (status < 200 ∨ status = 204 ∨ status = 304)) (before after : List Field)
    (hothers : ∀ f ∈ before ++ after,
      f.isNamed "transfer-encoding" = false ∧ f.isNamed "content-length" = false)
    (value : List UInt8) (left : Nat) :
    bodyLength status (before ++ ⟨utf8 "Content-Length", value⟩ :: after) left =
      readDecimal value := by
  have hcoded : Field.isNamed "transfer-encoding" ⟨utf8 "Content-Length", value⟩ = false := by
    show eqIgnoreAsciiCase (asciiText (utf8 "Content-Length")) _ = _
    decide
  have hnamed : Field.isNamed "content-length" ⟨utf8 "Content-Length", value⟩ = true := by
    show eqIgnoreAsciiCase (asciiText (utf8 "Content-Length")) _ = _
    decide
  rw [List.forall_mem_append] at hothers
  have hnone : ∀ fs : List Field, (∀ f ∈ fs,
      f.isNamed "transfer-encoding" = false ∧ f.isNamed "content-length" = false) →
      fs.any (·.isNamed "transfer-encoding") = false ∧
        fs.filter (·.isNamed "content-length") = [] := by
    intro fs hfs
    constructor
    · exact List.any_eq_false.mpr fun f hf => by simp [(hfs f hf).1]
    · exact List.filter_eq_nil_iff.mpr fun f hf => by simp [(hfs f hf).2]
  rw [bodyLength, if_neg hstatus, List.any_append, List.any_cons, (hnone _ hothers.1).1, hcoded,
    (hnone _ hothers.2).1, if_neg (by decide), List.filter_append, List.filter_cons, hnamed,
    (hnone _ hothers.1).2, (hnone _ hothers.2).2]
  rfl

namespace Head

variable (h : Head)

theorem readStatus_statusLine : readStatus h.statusLine = some h.status := by
  have hcode := length_toString h.status_ge h.status_lt
  have hdrop : h.statusLine.drop ((utf8 "HTTP/1.1 ").length + 3) = 0x20 :: h.reason := by
    rw [statusLine, ← List.drop_drop, List.drop_left, List.drop_left' hcode]
  have hdigits : (h.statusLine.drop (utf8 "HTTP/1.1 ").length).take 3 =
      utf8 (toString h.status) := by
    rw [statusLine, List.drop_left, List.take_left' hcode]
  have hversion : h.statusLine.take (utf8 "HTTP/1.1 ").length = utf8 "HTTP/1.1 " := by
    rw [statusLine, List.take_left]
  rw [readStatus]
  simp only [hdrop]
  rw [if_pos ⟨hversion, trivial, List.all_eq_true.mpr h.reason_field⟩, hdigits,
    readDecimal_toString]

theorem newline_not_mem_statusLine : 0x0a ∉ h.statusLine := by
  rw [statusLine, List.mem_append, List.mem_append, List.mem_cons]
  rintro (hversion | hstatus | hspace | hreason)
  · exact absurd hversion (by decide)
  · exact (isDigit_ascii _ (isDigit_of_mem_toString _ _ hstatus)).2 rfl
  · exact absurd hspace (by decide)
  · exact isFieldByte_ne _ (h.reason_field _ hreason) rfl

/-- A reply whose head tells the length of its body is read back, and what follows
it is left. -/
theorem readReply_bytes (body rest : List UInt8)
    (hlen : bodyLength h.status (h.fields.map HeaderField.field) (body ++ rest).length =
      some body.length) :
    readReply (h.bytes ++ (body ++ rest)) =
      some (⟨h.status, h.fields.map HeaderField.field, body⟩, rest) := by
  have hsplit : h.bytes ++ (body ++ rest) =
      h.statusLine ++ crlf ++ (headerLines h.fields ++ crlf ++ (body ++ rest)) := by
    rw [bytes, List.append_assoc]
  have hfuel : h.fields.length < (headerLines h.fields ++ crlf ++ (body ++ rest)).length := by
    rw [List.append_assoc, List.length_append]
    have hle := length_le_headerLines h.fields
    have hpos : 0 < (crlf ++ (body ++ rest)).length :=
      List.length_pos_of_ne_nil (List.cons_ne_nil _ _)
    omega
  have hfit : body.length ≤ (body ++ rest).length := by
    rw [List.length_append]
    exact Nat.le_add_right _ _
  rw [readReply, hsplit, readLine_append h.newline_not_mem_statusLine]
  show (readStatus h.statusLine).bind _ = _
  rw [h.readStatus_statusLine]
  show (readFields _ _).bind _ = _
  rw [readFields_headerLines h.fields _ hfuel]
  show (bodyLength _ _ _).bind _ = _
  rw [hlen]
  show (if _ then _ else _) = _
  rw [if_pos hfit, List.take_left, List.drop_left]
  rfl

end Head

end Http

import NetZer.Lib.Http
import NetZer.Web.Handshake

/-! # Requests in segments

The thread of a connection reads once, into a buffer of 2048 bytes, and takes
what it got for the request. A connection may deliver the bytes of a request in
any segments, and the key of an upgrade request may stand anywhere in it: what
the accept value is computed for is the part of the key that was read.
-/

namespace NetZer

open Http Rust Text

/-! ## The first read -/

/-- `stream.read(&mut buf)`: what has arrived, as far as it fits. -/
def readInto (capacity : Nat) : List (List UInt8) → List UInt8
  | [] => []
  | segment :: _ => segment.take capacity

/-- `request`, for the segments in which the bytes arrive. -/
def receivedRequest (segments : List (List UInt8)) : String :=
  fromUtf8Lossy (readInto 2048 segments)

/-! ## Upgrade requests -/

/-- It is the header of the key. -/
def isKeyField (f : HeaderField) : Bool :=
  eqIgnoreAsciiCase (asciiText f.name) keyName

/-- A request to switch to WebSocket at `/ws`, with one key among its headers. -/
structure UpgradeRequest where
  version : List UInt8
  before : List HeaderField
  /-- The name of the key's header, as it is spelled. -/
  name : List UInt8
  leading : List UInt8
  key : List UInt8
  trailing : List UInt8
  after : List HeaderField
  version_visible : ∀ b ∈ version, isVisible b = true
  before_ne : ∀ f ∈ before, isKeyField f = false
  name_token : ∀ b ∈ name, isTokenByte b = true
  name_eq : eqIgnoreAsciiCase (asciiText name) keyName = true
  leading_blank : ∀ b ∈ leading, isBlank b = true
  key_ne : key ≠ []
  key_visible : ∀ b ∈ key, isVisible b = true
  trailing_blank : ∀ b ∈ trailing, isBlank b = true
  after_ne : ∀ f ∈ after, isKeyField f = false

namespace UpgradeRequest

variable (r : UpgradeRequest)

def requestLine : List UInt8 :=
  utf8 "GET /ws " ++ r.version

/-- The line with the key, without its ending. -/
def keyLine : List UInt8 :=
  r.name ++ 0x3a :: (r.leading ++ r.key ++ r.trailing)

/-- What comes before that line. -/
def head : List UInt8 :=
  r.requestLine ++ crlf ++ headerLines r.before

def bytes : List UInt8 :=
  r.head ++ (r.keyLine ++ crlf ++ (headerLines r.after ++ crlf))

/-- Where the key begins. -/
def keyStart : Nat :=
  r.head.length + (r.name.length + 1 + r.leading.length)

/-- Where the key ends. -/
def keyEnd : Nat :=
  r.keyStart + r.key.length

/-- The segments make up the request; a read that returns nothing is the end of a
connection. -/
structure Delivers (segments : List (List UInt8)) : Prop where
  flatten_eq : segments.flatten = r.bytes
  ne_nil : ∀ segment ∈ segments, segment ≠ []

/-- The answer is the handshake, with the accept value for the whole key. -/
structure AnswersWholeKey (segments : List (List UInt8)) : Prop where
  wsKey_eq : wsKey (receivedRequest segments) = .ok (some (asciiText r.key))
  responds : ∃ accept, respondTo (receivedRequest segments) = .ok (.switching accept) ∧
    IsAccept (asciiText r.key) accept

end UpgradeRequest

/-! ## Lines that are not the key's -/

/-- The search goes on behind such a line, if the line has been read. -/
theorem wsKeyLine_skip {l : List UInt8} (hlf : 0x0a ∉ l)
    (hskip : ∀ p, p <+: l ++ [0x0d] →
      startsWith (Unicode.toLowercase (fromUtf8Lossy p)) wsKeyHeader = false)
    (rest : List UInt8) (n : Nat) :
    wsKeyLine (fromUtf8Lossy ((l ++ crlf ++ rest).take n)) =
      if l.length + 2 ≤ n then wsKeyLine (fromUtf8Lossy (rest.take (n - (l.length + 2))))
      else none := by
  rw [wsKeyLine, lines_take hlf]
  split_ifs
  · rw [List.find?_cons_of_neg (Bool.not_eq_true _ ▸ hskip l (List.prefix_append _ _)), wsKeyLine]
  · rfl
  · rw [List.find?_cons_of_neg (Bool.not_eq_true _ ▸ hskip _ (List.take_prefix _ _)),
      List.find?_nil]

/-- ASCII holds no KELVIN SIGN. -/
theorem kelvinSign_not_mem {name : List UInt8} (h : ∀ b ∈ name, b < 0x80) :
    Unicode.kelvinSign ∉ (asciiText name).toList := by
  rw [asciiText, String.toList_ofList, List.mem_map]
  rintro ⟨b, hb, heq⟩
  have hlt : b.toNat < 0x80 := UInt8.lt_iff_toNat_lt.mp (h b hb)
  have hsign : b.toNat = Unicode.kelvinSign.toNat := by rw [← heq, toNat_ofNat_byte]
  have hkelvin : Unicode.kelvinSign.toNat = 0x212a := by decide
  omega

/-- The first bytes of another header's line are not taken for the key's. -/
theorem not_startsWith_field {f : HeaderField} (h : isKeyField f = false) {p : List UInt8}
    (hp : p <+: f.line ++ [0x0d]) :
    startsWith (Unicode.toLowercase (fromUtf8Lossy p)) wsKeyHeader = false := by
  have hname : ∀ b ∈ f.name, b < 0x80 ∧ b ≠ 0x3a := fun b hb =>
    (isTokenByte_ascii b (f.name_token b hb)).1
  have hsplit : splitColon (fromUtf8Lossy p) = none ∨
      ∃ value, splitColon (fromUtf8Lossy p) = some (asciiText f.name, value) := by
    have hnone : ∀ {q : List UInt8}, q <+: f.name → splitColon (fromUtf8Lossy q) = none :=
      fun hq => splitColon_fromUtf8Lossy_name fun b hb => hname b (hq.subset hb)
    rw [HeaderField.line, List.append_assoc, List.cons_append] at hp
    -- the prefix ends within the name, or it has the name and perhaps the colon
    rcases List.prefix_or_prefix_of_prefix hp (List.prefix_append f.name _) with hin | ⟨s, rfl⟩
    · exact .inl (hnone hin)
    · rw [List.prefix_append_right_inj, List.prefix_cons_iff] at hp
      rcases hp with rfl | ⟨value, rfl, _⟩
      · exact .inl (hnone (by simp))
      · exact .inr ⟨_, splitColon_fromUtf8Lossy hname value⟩
  rw [startsWith_toLowercase]
  rcases hsplit with hsplit | ⟨value, hsplit⟩
  · simp only [isKeyHeader, spelledWithKelvin, hsplit, Bool.or_self]
  · have hkelvin := kelvinSign_not_mem fun b hb => (hname b hb).1
    have hname' : eqIgnoreAsciiCase (asciiText f.name) keyName = false := h
    simp [isKeyHeader, spelledWithKelvin, hsplit, hname', hkelvin]

/-- So the search goes on behind other headers, if they have been read. -/
theorem wsKeyLine_headerLines {fields : List HeaderField} (h : ∀ f ∈ fields, isKeyField f = false)
    (rest : List UInt8) (n : Nat) :
    wsKeyLine (fromUtf8Lossy ((headerLines fields ++ rest).take n)) =
      if (headerLines fields).length ≤ n then
        wsKeyLine (fromUtf8Lossy (rest.take (n - (headerLines fields).length)))
      else none := by
  -- header by header; what has been read shrinks by the line
  induction fields generalizing n with
  | nil => simp [headerLines]
  | cons f fields ih =>
      rw [List.forall_mem_cons] at h
      have hbytes : headerLines (f :: fields) = f.line ++ crlf ++ headerLines fields := rfl
      have hlen : (headerLines (f :: fields)).length =
          f.line.length + 2 + (headerLines fields).length := by
        rw [hbytes, List.length_append, List.length_append]
        rfl
      have hskip : ∀ p, p <+: f.line ++ [0x0d] →
          startsWith (Unicode.toLowercase (fromUtf8Lossy p)) wsKeyHeader = false :=
        fun _ => not_startsWith_field h.1
      rw [hlen, hbytes, List.append_assoc, wsKeyLine_skip f.newline_not_mem hskip, ih h.2]
      by_cases hline : f.line.length + 2 ≤ n
      · rw [if_pos hline, Nat.sub_sub]
        exact if_congr (by omega) rfl rfl
      · rw [if_neg hline, if_neg (by omega)]

namespace UpgradeRequest

variable (r : UpgradeRequest)

/-- Nor is the request line taken for the key's. -/
theorem requestLine_not_startsWith {p : List UInt8} (hp : p <+: r.requestLine ++ [0x0d]) :
    startsWith (Unicode.toLowercase (fromUtf8Lossy p)) wsKeyHeader = false := by
  have hline : r.requestLine = 0x47 :: (utf8 "ET /ws " ++ r.version) := by
    rw [requestLine]
    rfl
  rw [hline, List.cons_append, List.prefix_cons_iff] at hp
  rcases hp with rfl | ⟨q, rfl, _⟩
  · decide
  · -- the first letter is a `g`
    have htext : Unicode.toLowercase (fromUtf8Lossy (0x47 :: q)) =
        String.ofList ('g' :: Unicode.lowerFrom ['G'] (decodeLossy 0 q)) := by
      have hdecode : decodeLossy 0 ([0x47] ++ q) = ['G'] ++ decodeLossy 0 q :=
        decodeLossy_ascii (List.all_iff_forall_prop.mp (by decide)) q
      rw [Unicode.toLowercase, fromUtf8Lossy, String.toList_ofList, ← List.singleton_append,
        hdecode]
      rfl
    rw [htext, startsWith, String.toList_ofList]
    rfl

/-- The search gets to the key's line, if what comes before has been read. -/
theorem wsKeyLine_head (rest : List UInt8) (n : Nat) :
    wsKeyLine (fromUtf8Lossy ((r.head ++ rest).take n)) =
      if r.head.length ≤ n then wsKeyLine (fromUtf8Lossy (rest.take (n - r.head.length)))
      else none := by
  have hlf : 0x0a ∉ r.requestLine := by
    intro hmem
    rw [requestLine, List.mem_append] at hmem
    rcases hmem with hstart | hversion
    · exact absurd hstart (by decide)
    · exact (isVisible_ascii _ (r.version_visible _ hversion)).2.1 rfl
  have hlen : r.head.length = r.requestLine.length + 2 + (headerLines r.before).length := by
    rw [head, List.length_append, List.length_append]
    rfl
  rw [hlen, head, List.append_assoc, wsKeyLine_skip hlf fun p => r.requestLine_not_startsWith,
    wsKeyLine_headerLines r.before_ne]
  by_cases hline : r.requestLine.length + 2 ≤ n
  · rw [if_pos hline, Nat.sub_sub]
    exact if_congr (by omega) rfl rfl
  · rw [if_neg hline, if_neg (by omega)]

/-! ## The line with the key -/

theorem name_ascii : ∀ b ∈ r.name, b < 0x80 ∧ b ≠ 0x3a := fun b hb =>
  (isTokenByte_ascii b (r.name_token b hb)).1

/-- Of the value, its first bytes: they are trimmed to what of the key is among
them. -/
theorem trim_value (m : Nat) :
    trim (fromUtf8Lossy ((r.leading ++ r.key ++ r.trailing ++ [0x0d]).take m)) =
      asciiText (r.key.take (m - r.leading.length)) := by
  -- some of the blanks, of the key and of what follows it have been read
  have hsplit : (r.leading ++ r.key ++ r.trailing ++ [0x0d]).take m =
      r.leading.take m ++ r.key.take (m - r.leading.length) ++
        (r.trailing ++ [0x0d]).take (m - (r.leading ++ r.key).length) := by
    rw [List.append_assoc, List.take_append, List.take_append]
  have hend : ∀ b ∈ r.trailing ++ [0x0d],
      b < 0x80 ∧ Unicode.isWhitespace (Char.ofNat b.toNat) = true := by
    intro b hb
    rcases List.mem_append.mp hb with hb | hb
    · have hblank := isBlank_ascii b (r.trailing_blank b hb)
      exact ⟨hblank.1.1, hblank.2⟩
    · rw [List.mem_singleton.mp hb]
      decide
  have hvisible : ∀ b : UInt8, isVisible b = true →
      Unicode.isWhitespace (Char.ofNat b.toNat) = false := by
    intro b hb
    obtain ⟨hlo, hhi⟩ := le_of_range hb
    have hfrom : 0x21 ≤ b.toNat := UInt8.le_iff_toNat_le.mp hlo
    have hto : b.toNat ≤ 0x7e := UInt8.le_iff_toNat_le.mp hhi
    simp only [Unicode.isWhitespace, toNat_ofNat_byte, Bool.or_eq_false_iff,
      Bool.and_eq_false_iff, decide_eq_false_iff_not, beq_eq_false_iff_ne]
    omega
  have hascii : ∀ b ∈ (r.leading ++ r.key ++ r.trailing ++ [0x0d]).take m, b < 0x80 := by
    intro b hb
    have hmem := List.mem_of_mem_take hb
    rw [List.append_assoc, List.mem_append, List.mem_append] at hmem
    rcases hmem with (hb | hb) | hb
    · exact (isBlank_ascii b (r.leading_blank b hb)).1.1
    · exact (isVisible_ascii b (r.key_visible b hb)).1
    · exact (hend b hb).1
  rw [fromUtf8Lossy_ascii hascii, asciiText, hsplit, List.map_append, List.map_append, asciiText]
  -- blanks before and behind, and none at the ends of the key
  apply trim_eq
  · intro c hc
    obtain ⟨b, hb, rfl⟩ := List.mem_map.mp hc
    exact (isBlank_ascii b (r.leading_blank b (List.mem_of_mem_take hb))).2
  · intro c hc
    obtain ⟨b, hb, rfl⟩ := List.mem_map.mp hc
    exact hvisible b (r.key_visible b (List.mem_of_mem_take hb))
  · intro c hc
    obtain ⟨b, hb, rfl⟩ := List.mem_map.mp hc
    exact (hend b (List.mem_of_mem_take hb)).2

/-- The first bytes of the line are a key header as soon as its colon is there. -/
theorem keyLine_take (m : Nat) :
    if r.name.length < m then
      isKeyHeader (fromUtf8Lossy ((r.keyLine ++ [0x0d]).take m)) = true ∧
        headerKey (fromUtf8Lossy ((r.keyLine ++ [0x0d]).take m)) =
          asciiText (r.key.take (m - (r.name.length + 1 + r.leading.length)))
    else
      startsWith (Unicode.toLowercase (fromUtf8Lossy ((r.keyLine ++ [0x0d]).take m)))
        wsKeyHeader = false := by
  have hline : r.keyLine ++ [0x0d] =
      r.name ++ 0x3a :: (r.leading ++ r.key ++ r.trailing ++ [0x0d]) := by
    rw [keyLine, List.append_assoc, List.cons_append]
  rw [hline, List.take_append]
  -- with the colon the name is whole; without it there is no header yet
  split_ifs with hcolon
  · obtain ⟨k, hk⟩ := Nat.exists_eq_add_of_lt hcolon
    have htake : (0x3a :: (r.leading ++ r.key ++ r.trailing ++ [0x0d])).take (m - r.name.length) =
        0x3a :: (r.leading ++ r.key ++ r.trailing ++ [0x0d]).take k := by
      rw [show m - r.name.length = k + 1 by omega, List.take_succ_cons]
    have hsplit := splitColon_fromUtf8Lossy r.name_ascii
      ((r.leading ++ r.key ++ r.trailing ++ [0x0d]).take k)
    rw [List.take_of_length_le (Nat.le_of_lt hcolon), htake]
    constructor
    · rw [isKeyHeader, hsplit]
      exact r.name_eq
    · rw [headerKey, hsplit]
      dsimp only
      rw [r.trim_value]
      congr 2
      omega
  · have hname : (r.name.take m ++ (0x3a :: (r.leading ++ r.key ++ r.trailing ++ [0x0d])).take
        (m - r.name.length)) = r.name.take m := by
      rw [Nat.sub_eq_zero_of_le (Nat.le_of_not_lt hcolon), List.take_zero, List.append_nil]
    have hascii : ∀ b ∈ r.name.take m, b < 0x80 ∧ b ≠ 0x3a := fun b hb =>
      r.name_ascii b (List.mem_of_mem_take hb)
    have hsplit := splitColon_fromUtf8Lossy_name hascii
    rw [hname, startsWith_toLowercase]
    simp only [isKeyHeader, spelledWithKelvin, hsplit, Bool.or_self]

/-- The key of the first bytes of the line and what follows it. -/
theorem wsKey_keyLine (rest : List UInt8) (n : Nat) :
    wsKey (fromUtf8Lossy ((r.keyLine ++ crlf ++ rest).take n)) =
      .ok (if r.name.length < n then
        some (asciiText (r.key.take (n - (r.name.length + 1 + r.leading.length)))) else none) := by
  have hlf : 0x0a ∉ r.keyLine := by
    intro hmem
    rw [keyLine, List.mem_append, List.mem_cons, List.mem_append, List.mem_append] at hmem
    rcases hmem with hname | hcolon | (hleading | hkey) | htrailing
    · exact (isTokenByte_ascii _ (r.name_token _ hname)).2 rfl
    · exact absurd hcolon (by decide)
    · exact (isBlank_ascii _ (r.leading_blank _ hleading)).1.2 rfl
    · exact (isVisible_ascii _ (r.key_visible _ hkey)).2.1 rfl
    · exact (isBlank_ascii _ (r.trailing_blank _ htrailing)).1.2 rfl
  -- what is found, if the first line is that of the first `m` bytes
  have hfirst : ∀ (m : Nat) (request : String) (more : List String),
      lines request = fromUtf8Lossy ((r.keyLine ++ [0x0d]).take m) :: more →
      r.name.length < m →
      wsKey request =
        .ok (some (asciiText (r.key.take (m - (r.name.length + 1 + r.leading.length))))) := by
    intro m request more hlines hm
    have hline := r.keyLine_take m
    rw [if_pos hm] at hline
    have hfind : wsKeyLine request = some (fromUtf8Lossy ((r.keyLine ++ [0x0d]).take m)) := by
      rw [wsKeyLine, hlines]
      apply List.find?_cons_of_pos
      rw [startsWith_toLowercase, hline.1, Bool.true_or]
    rw [wsKey_of_wsKeyLine hfind hline.1, hline.2]
  have hlen : r.keyLine.length =
      r.name.length + 1 + (r.leading.length + r.key.length + r.trailing.length) := by
    rw [keyLine, List.length_append, List.length_cons, List.length_append, List.length_append]
    omega
  have hlines := lines_take hlf rest n
  split_ifs at hlines with hall hzero
  · have htake : (r.keyLine ++ [0x0d]).take r.keyLine.length = r.keyLine := List.take_left
    have hline := hfirst r.keyLine.length (fromUtf8Lossy ((r.keyLine ++ crlf ++ rest).take n)) _
      (by rw [htake]; exact hlines) (by omega)
    rw [hline, if_pos (by omega), List.take_of_length_le (by omega),
      List.take_of_length_le (by omega)]
  · rw [if_neg (by omega)]
    apply wsKey_eq_none
    rw [wsKeyLine, hlines, List.find?_nil]
  · split_ifs with hcolon
    · exact hfirst n _ [] hlines hcolon
    · have hline := r.keyLine_take n
      rw [if_neg hcolon] at hline
      apply wsKey_eq_none
      rw [wsKeyLine, hlines, List.find?_cons_of_neg (Bool.not_eq_true _ ▸ hline), List.find?_nil]

/-- The key of the first bytes of a request: so much of the key as is among them. -/
theorem wsKey_take (n : Nat) :
    wsKey (fromUtf8Lossy (r.bytes.take n)) =
      .ok (if r.head.length + r.name.length < n then
        some (asciiText (r.key.take (n - r.keyStart))) else none) := by
  have hline := r.wsKeyLine_head (r.keyLine ++ crlf ++ (headerLines r.after ++ crlf)) n
  rw [← bytes] at hline
  split_ifs at hline with hhead
  · have hstart : n - r.head.length - (r.name.length + 1 + r.leading.length) = n - r.keyStart :=
      Nat.sub_sub n _ _
    rw [wsKey_congr hline, wsKey_keyLine, hstart]
    exact congrArg Except.ok (if_congr (by omega) rfl rfl)
  · rw [wsKey_eq_none hline, if_neg (by omega)]

/-! ## The answer -/

/-- What is read first is the beginning of the request. -/
theorem Delivers.readInto_eq {segments : List (List UInt8)} (h : r.Delivers segments) :
    readInto 2048 segments = r.bytes.take (readInto 2048 segments).length := by
  rw [← List.prefix_iff_eq_take, ← h.flatten_eq]
  cases segments with
  | nil => exact List.nil_prefix
  | cons segment segments =>
      exact (List.take_prefix 2048 segment).trans (List.prefix_append _ _)

/-- The request begins as one for the handshake once that much has been read. -/
theorem startsWith_take {n : Nat} (h : 8 ≤ n) :
    startsWith (fromUtf8Lossy (r.bytes.take n)) "GET /ws " = true := by
  have hascii : ∀ b ∈ utf8 "GET /ws ", b < 0x80 := List.all_iff_forall_prop.mp (by decide)
  obtain ⟨rest, hrest⟩ : ∃ rest, r.bytes = utf8 "GET /ws " ++ rest := by
    simp only [bytes, head, requestLine, List.append_assoc, List.append_cancel_left_eq]
    exact ⟨_, rfl⟩
  have htext : (utf8 "GET /ws ").map (fun b => Char.ofNat b.toNat) = "GET /ws ".toList := by decide
  have hlen : (utf8 "GET /ws ").length = 8 := by decide
  rw [hrest, List.take_append, List.take_of_length_le (hlen ▸ h), fromUtf8Lossy,
    decodeLossy_ascii hascii, htext, startsWith, List.isPrefixOf_iff_prefix]
  show "GET /ws ".toList <+: (String.ofList _).toList
  rw [String.toList_ofList (l := _ ++ _)]
  exact List.prefix_append _ _

/-- The answer is the one for the whole key exactly if the first read gets to the
end of the key. -/
theorem answersWholeKey_iff (segments : List (List UInt8)) (h : r.Delivers segments) :
    r.AnswersWholeKey segments ↔ r.keyEnd ≤ (readInto 2048 segments).length := by
  have hreceived : receivedRequest segments =
      fromUtf8Lossy (r.bytes.take (readInto 2048 segments).length) := by
    rw [receivedRequest, ← h.readInto_eq]
  have hkey := r.wsKey_take (readInto 2048 segments).length
  rw [← hreceived] at hkey
  have hend : r.keyEnd =
      r.head.length + (r.name.length + 1 + r.leading.length) + r.key.length := rfl
  have hstart : r.keyStart = r.head.length + (r.name.length + 1 + r.leading.length) := rfl
  have hpos : 0 < r.key.length := List.length_pos_iff.mpr r.key_ne
  -- the answer is for as much of the key as the first read has got
  constructor
  · intro hanswers
    have hwhole := Except.ok.inj (hkey.symm.trans hanswers.wsKey_eq)
    split_ifs at hwhole
    have hlen := congrArg (fun s => s.toList.length) (Option.some.inj hwhole)
    simp only [asciiText, String.toList_ofList, List.length_map, List.length_take] at hlen
    omega
  · intro hread
    have hfull : wsKey (receivedRequest segments) = .ok (some (asciiText r.key)) := by
      rw [hkey, if_pos (by omega), List.take_of_length_le (by omega)]
    have hhead : 8 ≤ r.head.length := by
      have hws : (utf8 "GET /ws ").length = 8 := by decide
      rw [head, requestLine, List.length_append, List.length_append, List.length_append, hws]
      omega
    have hws : startsWith (receivedRequest segments) "GET /ws " = true := by
      rw [hreceived]
      exact r.startsWith_take (by omega)
    obtain ⟨accept, haccept, hstandard⟩ := acceptKey_ok (asciiText r.key)
    refine ⟨hfull, accept, ?_, hstandard⟩
    rw [respondTo_ws hws, hfull, ok_bind]
    dsimp only
    rw [haccept]
    rfl

end UpgradeRequest

/-- The header before the key of the sample request. -/
def sampleHost : HeaderField where
  name := utf8 "Host"
  value := utf8 " 127.0.0.1"
  name_ne := by decide
  name_token := List.all_eq_true.mp (by decide)
  value_field := List.all_eq_true.mp (by decide)

def sampleUpgrade : UpgradeRequest where
  version := utf8 "HTTP/1.1"
  before := [sampleHost]
  name := utf8 "Sec-WebSocket-Key"
  leading := utf8 " "
  key := utf8 "dGhlIHNhbXBsZSBub25jZQ=="
  trailing := []
  after := []
  version_visible := List.all_eq_true.mp (by decide)
  before_ne := by decide
  name_token := List.all_eq_true.mp (by decide)
  name_eq := by decide
  leading_blank := List.all_eq_true.mp (by decide)
  key_ne := by decide
  key_visible := List.all_eq_true.mp (by decide)
  trailing_blank := List.all_eq_true.mp (by decide)
  after_ne := by decide

theorem answersWholeKey_iff_sample :
    sampleUpgrade.AnswersWholeKey [sampleUpgrade.bytes] ↔
      sampleUpgrade.keyEnd ≤ (readInto 2048 [sampleUpgrade.bytes]).length :=
  sampleUpgrade.answersWholeKey_iff [sampleUpgrade.bytes]
    { flatten_eq := List.flatten_singleton
      ne_nil := by decide }

/-- The request in two segments, cut inside the key. -/
def cutSegments : List (List UInt8) :=
  [sampleUpgrade.bytes.take 65, sampleUpgrade.bytes.drop 65]

/-- The accept value is the one for the part that is read first. -/
theorem not_answersWholeKey_cut :
    sampleUpgrade.Delivers cutSegments ∧
      wsKey (receivedRequest cutSegments) = .ok (some "dGhlIHNhbXB") ∧
      ¬ ∀ (r : UpgradeRequest) segments, r.Delivers segments → r.AnswersWholeKey segments := by
  have hdelivers : sampleUpgrade.Delivers cutSegments :=
    { flatten_eq := by decide +kernel
      ne_nil := by decide +kernel }
  have hkey : wsKey (receivedRequest cutSegments) = .ok (some "dGhlIHNhbXB") := by decide +kernel
  refine ⟨hdelivers, hkey, ?_⟩
  intro h
  have hwhole := (h sampleUpgrade cutSegments hdelivers).wsKey_eq
  rw [hkey] at hwhole
  exact absurd hwhole (by decide +kernel)

end NetZer

import Mathlib.Data.Bool.AllAny
import NetZer.Lib.Lines
import NetZer.Web.Base64
import NetZer.Web.Server
import NetZer.Web.Sha1

/-! # The answer to a request

What the thread of a connection writes for a request: the dashboard's page, the
WebSocket handshake for the key in the request, or a refusal.

The line with the key is found in lower case and then cut behind the header's
name, at a fixed byte. The name in lower case is ASCII, and so is the line up
to there, unless a `k` was written as a KELVIN SIGN.
-/

namespace NetZer

open Rust Text Unicode

/-! ## The key of a request -/

/-- What the lines are searched for. -/
def wsKeyHeader : String := "sec-websocket-key:"

/-- The line at which the search ends. -/
def wsKeyLine (request : String) : Option String :=
  (lines request).find? fun line => startsWith (toLowercase line) wsKeyHeader

/-- `ws_key`. -/
def wsKey (request : String) : Run (Option String) :=
  match wsKeyLine request with
  | some line => do return some (trim (← Text.sliceFrom line (utf8 wsKeyHeader).length))
  | none => return none

def wsGuid : String := "258EAFA5-E914-47DA-95CA-C5AB0DC85B11"

/-- The accept value for a key. -/
def acceptKey (key : String) : Run String := do
  base64Encode (← sha1 (utf8 (key ++ wsGuid)))

/-! ## Responses -/

inductive Response where
  | page
  | switching (accept : String)
  | badRequest
  | notFound
deriving DecidableEq, Repr

/-- What is written, for the page of the dashboard. -/
def Response.text (html : String) : Response → String
  | .page =>
      "HTTP/1.1 200 OK\r\nContent-Type: text/html\r\nContent-Length: " ++
        toString (utf8 html).length ++ "\r\nConnection: close\r\n\r\n" ++ html
  | .switching accept => switchingProtocols accept
  | .badRequest => "HTTP/1.1 400 Bad Request\r\nContent-Length: 0\r\nConnection: close\r\n\r\n"
  | .notFound => "HTTP/1.1 404 Not Found\r\nContent-Length: 0\r\nConnection: close\r\n\r\n"

def respondTo (request : String) : Run Response :=
  if startsWith request "GET / " || startsWith request "GET /index.html " then return .page
  else if startsWith request "GET /ws " then do
    match ← wsKey request with
    | some key => return .switching (← acceptKey key)
    | none => return .badRequest
  else return .notFound

/-! ## Key headers -/

/-- The header's name. -/
def keyName : String := "sec-websocket-key"

def isKeyHeader (line : String) : Bool :=
  match splitColon line with
  | some (name, _) => eqIgnoreAsciiCase name keyName
  | none => false

/-- The value of a header, trimmed. -/
def headerKey (line : String) : String :=
  match splitColon line with
  | some (_, value) => trim value
  | none => ""

/-- The name is spelled with KELVIN SIGNs. -/
def spelledWithKelvin (line : String) : Bool :=
  match splitColon line with
  | some (name, _) =>
      name.toList.contains kelvinSign && eqIgnoreAsciiCase (replace name kelvinSign "k") keyName
  | none => false

/-- The accept value for the key by the standards: the Base64 of the SHA-1, which
takes messages below `2 ^ 61` bytes. -/
def IsAccept (key accept : String) : Prop :=
  ∃ hashed, sha1 (utf8 (key ++ wsGuid)) = .ok hashed ∧
    ((utf8 (key ++ wsGuid)).length < 2 ^ 61 →
      Bits.ofBytes hashed = Sha1.digest (Bits.ofBytes (utf8 (key ++ wsGuid)))) ∧
    accept = Base64.encode hashed

/-- The answer is for the first key header among the lines, and a refusal if there
is none. -/
structure AnswersFirstKey (request : String) : Prop where
  selects : wsKeyLine request = (lines request).find? isKeyHeader
  wsKey_eq : wsKey request = .ok (((lines request).find? isKeyHeader).map headerKey)
  responds : ∃ response, respondTo request = .ok response ∧
    match (lines request).find? isKeyHeader with
    | some line => ∃ accept, response = .switching accept ∧ IsAccept (headerKey line) accept
    | none => response = .badRequest

/-! ## The line that is found -/

theorem map_lowerToAscii {cs : List Char} (h : kelvinSign ∉ cs) :
    cs.map lowerToAscii = cs.map Char.toLower := by
  apply List.map_congr_left
  intro c hc
  have hne : c ≠ kelvinSign := by
    rintro rfl
    exact h hc
  rw [lowerToAscii, if_neg hne]

theorem toList_replace_kelvin (s : String) :
    (replace s kelvinSign "k").toList.map Char.toLower = s.toList.map lowerToAscii := by
  rw [replace, String.toList_ofList, List.map_flatMap, List.map_eq_flatMap]
  congr 1
  funext c
  by_cases hc : c = kelvinSign
  · rw [if_pos hc, lowerToAscii, if_pos hc]
    rfl
  · rw [if_neg hc, lowerToAscii, if_neg hc]
    rfl

/-- A KELVIN SIGN is no letter of ASCII. -/
theorem isKeyHeader_kelvin {line : String} {header : String × String}
    (h : splitColon line = some header) (hkelvin : kelvinSign ∈ header.1.toList) :
    isKeyHeader line = false := by
  rw [isKeyHeader, h]
  show eqIgnoreAsciiCase header.1 keyName = false
  rw [← Bool.not_eq_true, eqIgnoreAsciiCase, beq_iff_eq]
  intro heq
  have hmem : kelvinSign.toLower ∈ header.1.toList.map Char.toLower := List.mem_map_of_mem hkelvin
  rw [heq] at hmem
  revert hmem
  decide

theorem lowerToAscii_eq_colon (c : Char) : lowerToAscii c = ':' ↔ c = ':' := by
  rw [lowerToAscii]
  split_ifs with hkelvin
  · subst hkelvin
    decide
  · by_cases hletter : c.toNat < 0x41
    · rw [toLower_eq_self hletter]
    · have hlower := le_toLower (Nat.le_of_not_lt hletter)
      have hcolon : ':'.toNat < 0x41 := by decide
      constructor
      · intro h
        rw [h] at hlower
        omega
      · rintro rfl
        exact absurd hcolon hletter

/-- What the search matches: a key header, or one spelled with KELVIN SIGNs. -/
theorem startsWith_toLowercase (line : String) :
    startsWith (toLowercase line) wsKeyHeader = (isKeyHeader line || spelledWithKelvin line) := by
  have hname : wsKeyHeader.toList = keyName.toList ++ [':'] := by decide
  have hplain : ∀ c ∈ keyName.toList ++ [':'], isPlain c = true :=
    List.all_eq_true.mp (by decide)
  rw [Bool.eq_iff_iff, startsWith, List.isPrefixOf_iff_prefix, toLowercase, String.toList_ofList,
    hname, lowerFrom_starts hplain, starts_name_iff lowerToAscii_eq_colon (by decide)]
  -- only a line with a colon has a name
  cases hsplit : splitColon line with
  | none => simp [isKeyHeader, spelledWithKelvin, hsplit]
  | some header =>
      have hkey : isKeyHeader line = eqIgnoreAsciiCase header.1 keyName := by
        rw [isKeyHeader, hsplit]
      have hspelled : spelledWithKelvin line = (header.1.toList.contains kelvinSign &&
          eqIgnoreAsciiCase (replace header.1 kelvinSign "k") keyName) := by
        rw [spelledWithKelvin, hsplit]
      have hlower : keyName.toList.map Char.toLower = keyName.toList := by decide
      have hexists : (∃ h, some header = some h ∧ h.1.toList.map lowerToAscii = keyName.toList) ↔
          header.1.toList.map lowerToAscii = keyName.toList := by
        simp
      rw [hexists]
      -- with a KELVIN SIGN in the name it is no key header; without one the letters decide
      by_cases hkelvin : kelvinSign ∈ header.1.toList
      · rw [isKeyHeader_kelvin hsplit hkelvin, Bool.false_or, hspelled,
          List.contains_iff_mem.mpr hkelvin, Bool.true_and, eqIgnoreAsciiCase, beq_iff_eq,
          toList_replace_kelvin, hlower]
      · have hnot : header.1.toList.contains kelvinSign = false := by
          rw [← Bool.not_eq_true, List.contains_iff_mem]
          exact hkelvin
        rw [hspelled, hnot, Bool.false_and, Bool.or_false, hkey, eqIgnoreAsciiCase, beq_iff_eq,
          hlower, map_lowerToAscii hkelvin]

/-- So the search ends at the first key header exactly if none spelled with
KELVIN SIGNs comes before it. -/
theorem wsKeyLine_eq_iff (request : String) :
    wsKeyLine request = (lines request).find? isKeyHeader ↔
      ∀ line ∈ (lines request).takeWhile (fun line => !isKeyHeader line),
        spelledWithKelvin line = false := by
  simp only [wsKeyLine, startsWith_toLowercase]
  exact find?_or_eq_iff _

/-! ## The key and the answer -/

/-- Behind the name of a key header is its colon. -/
theorem sliceFrom_keyHeader {line : String} (h : isKeyHeader line = true) :
    ∃ value, Text.sliceFrom line (utf8 wsKeyHeader).length = (.ok value : Run String) ∧
      trim value = headerKey line := by
  unfold isKeyHeader at h
  split at h
  · next name value hsplit =>
      have hlower : name.toList.map Char.toLower = keyName.toList := by
        rw [eqIgnoreAsciiCase, beq_iff_eq] at h
        rw [h]
        decide
      -- the letters of the name are ASCII, so characters are counted as bytes
      have hascii : ∀ c ∈ name.toList, c.utf8Size = 1 := by
        intro c hc
        have hmem : c.toLower ∈ keyName.toList := hlower ▸ List.mem_map_of_mem hc
        have hletters : ∀ d ∈ keyName.toList, d.toNat < 0x80 :=
          List.all_iff_forall_prop.mp (by decide)
        have hlt := lt_of_toLower_lt (hletters _ hmem)
        rw [Char.utf8Size_eq_one_iff, UInt32.le_iff_toNat_le]
        exact Nat.le_of_lt_succ hlt
      have hlen : byteLen (name.toList ++ [':']) = (utf8 wsKeyHeader).length := by
        have hcount := congrArg List.length hlower
        rw [List.length_map] at hcount
        rw [byteLen_append, byteLen_eq_length_iff.mpr hascii, hcount]
        decide
      refine ⟨value, ?_, ?_⟩
      · rw [Text.sliceFrom, eq_of_splitColon hsplit, ← hlen, ← List.singleton_append,
          ← List.append_assoc, dropBytes_append]
        dsimp only
        rw [String.ofList_toList]
      · rw [headerKey, hsplit]
  · cases h

/-- At a key header the search takes its value. -/
theorem wsKey_of_wsKeyLine {request line : String} (h : wsKeyLine request = some line)
    (hkey : isKeyHeader line = true) : wsKey request = .ok (some (headerKey line)) := by
  obtain ⟨value, hslice, htrim⟩ := sliceFrom_keyHeader hkey
  rw [wsKey, h]
  dsimp only
  rw [hslice, ok_bind, htrim]
  rfl

theorem wsKey_eq_none {request : String} (h : wsKeyLine request = none) :
    wsKey request = .ok none := by
  rw [wsKey, h]
  rfl

theorem wsKey_congr {request request' : String} (h : wsKeyLine request = wsKeyLine request') :
    wsKey request = wsKey request' := by
  rw [wsKey, wsKey, h]

theorem acceptKey_ok (key : String) :
    ∃ accept, acceptKey key = .ok accept ∧ IsAccept key accept := by
  obtain ⟨hashed, hsha1⟩ := sha1_ok (utf8 (key ++ wsGuid))
  refine ⟨Base64.encode hashed, ?_, hashed, hsha1, ?_, rfl⟩
  · rw [acceptKey, hsha1, ok_bind, base64Encode_eq]
  · intro hlt
    exact sha1_digest hlt hsha1

theorem respondTo_ws {request : String} (h : startsWith request "GET /ws " = true) :
    respondTo request = (do
      match ← wsKey request with
      | some key => return .switching (← acceptKey key)
      | none => return .badRequest) := by
  have hpage : startsWith request "GET / " = false := not_startsWith h (by decide) (by decide)
  have hindex : startsWith request "GET /index.html " = false :=
    not_startsWith h (by decide) (by decide)
  rw [respondTo, hpage, hindex, if_neg (by decide), if_pos h]

/-- A request for the handshake is answered for the first key header, exactly if no
line before it spells the name with KELVIN SIGNs. -/
theorem answersFirstKey_iff (request : String) (h : startsWith request "GET /ws " = true) :
    AnswersFirstKey request ↔
      ∀ line ∈ (lines request).takeWhile (fun line => !isKeyHeader line),
        spelledWithKelvin line = false := by
  -- what is answered depends on the line that the search selects
  constructor
  · intro hanswers
    exact (wsKeyLine_eq_iff request).mp hanswers.selects
  · intro hfirst
    have hselects := (wsKeyLine_eq_iff request).mpr hfirst
    have hkey : wsKey request = .ok (((lines request).find? isKeyHeader).map headerKey) := by
      cases hfind : (lines request).find? isKeyHeader with
      | none => exact wsKey_eq_none (hselects.trans hfind)
      | some line => exact wsKey_of_wsKeyLine (hselects.trans hfind) (List.find?_some hfind)
    refine ⟨hselects, hkey, ?_⟩
    rw [respondTo_ws h, hkey, ok_bind]
    cases (lines request).find? isKeyHeader with
    | none => exact ⟨.badRequest, rfl, rfl⟩
    | some line =>
        obtain ⟨accept, haccept, hstandard⟩ := acceptKey_ok (headerKey line)
        refine ⟨.switching accept, ?_, accept, rfl, hstandard⟩
        rw [Option.map_some]
        dsimp only
        rw [haccept]
        rfl

/-- A line before the key header that is not one. -/
def mixedRequest : String :=
  "GET /ws HTTP/1.1\r\nHost: 127.0.0.1\r\nsec-websocket-KEY: \tdGhlIHNhbXBsZSBub25jZQ==\r\n\r\n"

theorem answersFirstKey_iff_mixed :
    AnswersFirstKey mixedRequest ↔
      ∀ line ∈ (lines mixedRequest).takeWhile (fun line => !isKeyHeader line),
        spelledWithKelvin line = false :=
  answersFirstKey_iff mixedRequest (by decide)

/-- Both letters `k` of the name are KELVIN SIGNs. -/
def kelvinRequest : String :=
  "GET /ws HTTP/1.1\r\nSec-WebSoc\u212Aet-\u212Aey: dGhlIHNhbXBsZSBub25jZQ==\r\n\r\n"

/-- The line is cut inside the second one, which is a panic. -/
theorem not_answersFirstKey_kelvin :
    startsWith kelvinRequest "GET /ws " = true ∧ wsKey kelvinRequest = .error ⟨.charBoundary, []⟩ ∧
      ¬ ∀ request, startsWith request "GET /ws " = true → AnswersFirstKey request := by
  have hws : startsWith kelvinRequest "GET /ws " = true := by decide
  have hpanic : wsKey kelvinRequest = .error ⟨.charBoundary, []⟩ := by decide +kernel
  refine ⟨hws, hpanic, ?_⟩
  intro h
  have hkey := (h kelvinRequest hws).wsKey_eq
  rw [hpanic] at hkey
  cases hkey

end NetZer

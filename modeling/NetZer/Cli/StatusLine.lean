import NetZer.Cli.CapturedText
import NetZer.Lib.Http

/-! # The status of a response

`handle_tcp` splits a response at its first two spaces, and reports what follows
the first one. The pieces are not ended by the line: header and body are
reported along with the status code and the reason, and so is the end of the
status line.
-/

namespace NetZer

open Http Rust Text

/-- An HTTP response: a status line, and then headers and a body, or any part of
them. -/
structure HttpResponse where
  version : List UInt8
  code : List UInt8
  reason : Option (List UInt8)
  lineEnd : List UInt8
  rest : List UInt8
  version_visible : ∀ b ∈ version, isVisible b = true
  code_length : code.length = 3
  code_digit : ∀ b ∈ code, isDigit b = true
  reason_field : ∀ phrase ∈ reason, ∀ b ∈ phrase, isFieldByte b = true
  lineEnd_eq : lineEnd = crlf ∨ lineEnd = [0x0a]

namespace HttpResponse

variable (m : HttpResponse)

/-- The status code, and the reason if there is one. -/
def statusBytes : List UInt8 :=
  match m.reason with
  | some phrase => m.code ++ 0x20 :: phrase
  | none => m.code

def bytes : List UInt8 :=
  utf8 "HTTP/" ++ m.version ++ 0x20 :: (m.statusBytes ++ m.lineEnd ++ m.rest)

/-- The segment is reported as HTTP, with the status code and the reason. -/
def ReportsStatus (srcIp dstIp : String) (segment : List UInt8) : Prop :=
  ∃ g : Reporting, (∀ out r, outputs (handleTcp out r srcIp dstIp segment) = g.calls out r) ∧
    g.protoLog = "HTTP" ∧ g.protoName = "HTTP" ∧ g.infoRaw = fromUtf8Lossy m.statusBytes

/-! ## What is reported -/

/-- The word before the first space, and all that comes behind it. -/
theorem httpText_bytes : ∃ word, ' ' ∉ "HTTP/".toList ++ word ∧ httpText m.bytes = String.ofList
    ("HTTP/".toList ++ word ++ ' ' :: decodeLossy 0 (m.statusBytes ++ m.lineEnd ++ m.rest)) := by
  -- the protocol, the version and the space are ASCII, so they are decoded byte by byte
  have hascii : ∀ b ∈ utf8 "HTTP/" ++ m.version ++ [0x20], b < 0x80 := by
    simp only [List.forall_mem_append]
    exact ⟨⟨List.all_iff_forall_prop.mp (by decide),
      fun b hb => (isVisible_ascii b (m.version_visible b hb)).1⟩,
      List.all_iff_forall_prop.mp (by decide)⟩
  have hprotocol : (utf8 "HTTP/").map (fun b => Char.ofNat b.toNat) = "HTTP/".toList := by decide
  have hdecode := decodeLossy_ascii hascii (m.statusBytes ++ m.lineEnd ++ m.rest)
  rw [List.map_append, List.map_append, hprotocol] at hdecode
  refine ⟨m.version.map fun b => Char.ofNat b.toNat, ?_, ?_⟩
  · -- the version is visible: no space stands before that one
    rw [List.mem_append, List.mem_map, not_or]
    refine ⟨by decide, ?_⟩
    rintro ⟨b, hb, heq⟩
    exact (isVisible_ascii b (m.version_visible b hb)).2.2 (eq_of_ofNat_byte heq)
  · have hbytes : m.bytes = utf8 "HTTP/" ++ m.version ++ [0x20] ++
        (m.statusBytes ++ m.lineEnd ++ m.rest) := by
      rw [bytes, List.append_assoc (_ ++ m.version), List.singleton_append]
    rw [httpText, hbytes, fromUtf8Lossy, hdecode, trimStart, String.toList_ofList,
      List.append_assoc _ _ (decodeLossy _ _)]
    rfl

/-- All of the response behind its first space. -/
theorem httpInfo_bytes : httpInfo m.bytes =
    .ok { infoRaw := fromUtf8Lossy (m.statusBytes ++ m.lineEnd ++ m.rest),
          isTls := false, isHttp := true } := by
  obtain ⟨word, hword, htext⟩ := m.httpText_bytes
  let tail := decodeLossy 0 (m.statusBytes ++ m.lineEnd ++ m.rest)
  -- the text is taken for a response, and for no request
  have hstarts : startsWith (httpText m.bytes) "HTTP/" = true := by
    rw [htext, startsWith, List.isPrefixOf_iff_prefix, List.append_assoc]
    show "HTTP/".toList <+: (String.ofList _).toList
    rw [String.toList_ofList (l := _ ++ _)]
    exact List.prefix_append _ _
  have hmethods : httpMethods.any (startsWith (httpText m.bytes)) = false := by
    rw [List.any_eq_false]
    intro method hmethod
    have hapart : ∀ method ∈ httpMethods, "HTTP/".toList.isPrefixOf method.toList = false ∧
        method.toList.isPrefixOf "HTTP/".toList = false := by decide
    rw [not_startsWith hstarts (hapart method hmethod).1 (hapart method hmethod).2]
    exact Bool.false_ne_true
  -- three pieces at the most: the first is the word, the others are put together again
  have hsplit : splitN 3 ' ' (httpText m.bytes) =
      String.ofList ("HTTP/".toList ++ word) :: (splitNChars ' ' 2 tail).map String.ofList := by
    rw [htext, splitN, String.toList_ofList, splitNChars_append hword]
    rfl
  have hrest : String.intercalate " " ((splitNChars ' ' 2 tail).map String.ofList) =
      String.ofList tail := by
    apply String.toList_injective
    have hid : String.toList ∘ String.ofList = id := funext fun cs => String.toList_ofList
    rw [String.toList_intercalate, List.map_map, hid, List.map_id]
    exact (intercalate_splitNChars ' ' 1 tail).trans String.toList_ofList.symm
  have hlen : 2 ≤ (splitN 3 ' ' (httpText m.bytes)).length := by
    have hpos : 0 < (splitNChars ' ' 2 tail).length :=
      List.length_pos_iff.mpr (splitNChars_ne_nil ' ' 1 tail)
    rw [hsplit, List.length_cons, List.length_map]
    omega
  rw [httpInfo_of_response hmethods hstarts hlen, hsplit, List.drop_one, List.tail_cons, hrest]
  rfl

/-- Which is more than the status, by the end of the line at least. -/
theorem status_ne : fromUtf8Lossy (m.statusBytes ++ m.lineEnd ++ m.rest) ≠
    fromUtf8Lossy m.statusBytes := by
  -- the status holds no line feed, and what follows it begins with the end of the line
  have hstatus : 0x0a ∉ m.statusBytes := by
    intro hmem
    unfold statusBytes at hmem
    split at hmem
    · next phrase hphrase =>
        rw [List.mem_append, List.mem_cons] at hmem
        rcases hmem with hcode | hspace | hreason
        · exact (isDigit_ascii _ (m.code_digit _ hcode)).2 rfl
        · exact absurd hspace (by decide)
        · exact isFieldByte_ne _ (m.reason_field phrase hphrase _ hreason) rfl
    · exact (isDigit_ascii _ (m.code_digit _ hmem)).2 rfl
  have hend : Fresh (m.lineEnd ++ m.rest) ∧
      '\n' ∈ decodeLossy 0 (m.lineEnd ++ m.rest) := by
    have hascii : ∀ b ∈ m.lineEnd, b < 0x80 := by
      rcases m.lineEnd_eq with h | h
      · rw [h]
        exact List.all_iff_forall_prop.mp (by decide)
      · rw [h]
        exact List.all_iff_forall_prop.mp (by decide)
    rw [decodeLossy_ascii hascii]
    rcases m.lineEnd_eq with h | h <;> rw [h]
    · exact ⟨fresh_cons (by decide) _, List.mem_append_left _ (by decide)⟩
    · exact ⟨fresh_cons (by decide) _, List.mem_append_left _ (by decide)⟩
  -- so the two texts differ in the character of the line feed
  intro heq
  have hchars := congrArg String.toList heq
  rw [fromUtf8Lossy, fromUtf8Lossy, String.toList_ofList, String.toList_ofList,
    List.append_assoc, decodeLossy_append hend.1 (Nat.zero_le _)] at hchars
  apply newline_not_mem_decodeLossy hstatus
  rw [← hchars]
  exact List.mem_append_right _ hend.2

/-! ## The report -/

/-- A report can be read off the calls it makes. -/
theorem calls_inj {g g' : Reporting} (h : ∀ out r, g.calls out r = g'.calls out r) :
    g.infoRaw = g'.infoRaw := by
  -- with the JSON log on
  have hcalls : [_, Call.jsonWrite (g.jsonRecord "" 0)] =
      [_, Call.jsonWrite (g'.jsonRecord "" 0)] :=
    h ⟨false, true, false, false⟩ ⟨"", 0, ""⟩
  have hrecord := Call.jsonWrite.inj (List.cons.inj (List.cons.inj hcalls).2).1
  exact congrArg Record.info hrecord

/-- No response is reported with its status alone, to whatever port but 443 it is
sent and whatever follows its status line. -/
theorem not_reportsStatus {segment : List UInt8} {srcPort dstPort : UInt16}
    (h : TcpSegment segment srcPort dstPort m.bytes) (hport : dstPort ≠ 443)
    (srcIp dstIp : String) : ¬ m.ReportsStatus srcIp dstIp segment := by
  rintro ⟨g, hcalls, _, _, hinfo⟩
  let reported : Reporting := TcpInfo.reporting
    { infoRaw := fromUtf8Lossy (m.statusBytes ++ m.lineEnd ++ m.rest), isTls := false,
      isHttp := true } (endpoint srcIp srcPort) (endpoint dstIp dstPort)
  have hreport : tcpReport srcIp dstIp segment = .ok (some reported) := by
    rw [tcpReport_of_segment h, tcpInfo, if_neg hport, m.httpInfo_bytes]
    rfl
  have hraw : reported.infoRaw = g.infoRaw := calls_inj fun out r => by
    rw [← hcalls out r, handleTcp_outputs, hreport, reportCalls]
  exact m.status_ne (hraw.trans hinfo)

end HttpResponse

/-- A response with a header and no body. -/
def okResponse : HttpResponse where
  version := utf8 "1.1"
  code := utf8 "200"
  reason := some (utf8 "OK")
  lineEnd := crlf
  rest := utf8 "Content-Length: 0\r\n\r\n"
  version_visible := List.all_eq_true.mp (by decide)
  code_length := by decide
  code_digit := List.all_eq_true.mp (by decide)
  reason_field := by
    rintro phrase ⟨⟩
    exact List.all_eq_true.mp (by decide)
  lineEnd_eq := .inl rfl

theorem not_reportsStatus_ok :
    ¬ okResponse.ReportsStatus "10.0.0.1" "10.0.0.2" (tcpTo80 ++ okResponse.bytes) := by
  have hsegment : TcpSegment (tcpTo80 ++ okResponse.bytes) 49152 80 okResponse.bytes :=
    ⟨_, rfl, rfl, rfl⟩
  exact okResponse.not_reportsStatus hsegment (by decide) _ _

/-- The JSON line says more than `200 OK`. -/
theorem okResponse_reported :
    (outputs (handleTcp ⟨false, true, false, false⟩ ⟨"12:00:00.000", 97, ""⟩ "10.0.0.1" "10.0.0.2"
      (tcpTo80 ++ okResponse.bytes))).getLast? =
        some (.jsonWrite
          { timestamp := "12:00:00.000", proto := "HTTP", src := "10.0.0.1:49152",
            dst := "10.0.0.2:80", info := "200 OK\r\nContent-Length: 0\r\n\r\n", size := 97 }) ∧
      ¬ ∀ (m : HttpResponse) (segment : List UInt8) (srcPort dstPort : UInt16)
        (srcIp dstIp : String), TcpSegment segment srcPort dstPort m.bytes → dstPort ≠ 443 →
          m.ReportsStatus srcIp dstIp segment := by
  have hrun : (outputs (handleTcp ⟨false, true, false, false⟩ ⟨"12:00:00.000", 97, ""⟩ "10.0.0.1"
      "10.0.0.2" (tcpTo80 ++ okResponse.bytes))).getLast? =
        some (.jsonWrite
          { timestamp := "12:00:00.000", proto := "HTTP", src := "10.0.0.1:49152",
            dst := "10.0.0.2:80", info := "200 OK\r\nContent-Length: 0\r\n\r\n", size := 97 }) := by
    decide +kernel
  refine ⟨hrun, ?_⟩
  intro h
  -- were it reported with its status, the line would be that of the status
  obtain ⟨g, hcalls, _, _, hinfo⟩ := h okResponse (tcpTo80 ++ okResponse.bytes) 49152 80
    "10.0.0.1" "10.0.0.2" ⟨_, rfl, rfl, rfl⟩ (by decide)
  rw [hcalls] at hrun
  have hrecord := Call.jsonWrite.inj (Option.some.inj hrun)
  have hraw : g.infoRaw = "200 OK\r\nContent-Length: 0\r\n\r\n" := congrArg Record.info hrecord
  rw [hinfo] at hraw
  exact absurd hraw (by decide)

end NetZer

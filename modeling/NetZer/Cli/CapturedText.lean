import NetZer.Cli.FrameCases

/-! # What a report quotes from the wire

The host name of a ClientHello, the words of an HTTP message and the name of a
DNS query are reported as they were captured. Everything else a report says is
made of numbers and fixed words, so it has a control character exactly if one
of the quoted texts has.
-/

namespace NetZer

open Rust Text

/-- The payload as the HTTP detection looks at it. -/
def httpText (tcpPayload : List UInt8) : String :=
  Text.trimStart (Text.fromUtf8Lossy tcpPayload)

/-- What is quoted of a TCP payload. -/
inductive TcpQuote (dstPort : UInt16) (payload : List UInt8) (text : String) : Prop where
  /-- The host name of a ClientHello, shortened. -/
  | serverName (tls : TlsClientHello) : dstPort = 443 →
      TlsClientHello.parse payload = .ok (.ok tls) → truncate tls.sni 35 = .ok text →
      TcpQuote dstPort payload text
  /-- Method and target of a request. -/
  | request (method target : String) (rest : List String) : dstPort ≠ 443 →
      httpMethods.any (Text.startsWith (httpText payload)) = true →
      Text.splitWhitespace (httpText payload) = method :: target :: rest →
      text = method ∨ text = target → TcpQuote dstPort payload text
  /-- All that follows the version of a response: status, reason and whatever
  else the payload holds. -/
  | response : dstPort ≠ 443 →
      httpMethods.any (Text.startsWith (httpText payload)) = false →
      Text.startsWith (httpText payload) "HTTP/" = true →
      text ∈ (Text.splitN 3 ' ' (httpText payload)).drop 1 → TcpQuote dstPort payload text

/-- What is quoted of a UDP payload. -/
inductive UdpQuote (srcPort dstPort : UInt16) (payload : List UInt8) (text : String) : Prop where
  /-- The name of the first question, shortened. -/
  | domainName (dns : DnsQuery) : dstPort = 53 ∨ srcPort = 53 →
      DnsQuery.parse payload = .ok (.ok dns) → truncate dns.domainName 30 = .ok text →
      UdpQuote srcPort dstPort payload text

/-- A text of the frame that its report quotes. -/
inductive CapturedText (frame : List UInt8) (text : String) : Prop where
  | tcp {segment payload : List UInt8} {srcPort dstPort : UInt16} :
      CarriesSegment frame 6 segment → TcpSegment segment srcPort dstPort payload →
      TcpQuote dstPort payload text → CapturedText frame text
  | udp {segment payload : List UInt8} {srcPort dstPort : UInt16} :
      CarriesSegment frame 17 segment → UdpSegment segment srcPort dstPort payload →
      UdpQuote srcPort dstPort payload text → CapturedText frame text

/-! ## What is not quoted -/

/-- Marks control characters only. -/
def ControlsOnly (bad : Char → Bool) : Prop :=
  ∀ c, isControl c = false → bad c = false

theorem ControlsOnly.avoids {bad : Char → Bool} (hbad : ControlsOnly bad) {s : String}
    (h : Avoids isControl s) : Avoids bad s :=
  h.mono hbad

theorem ControlsOnly.space {bad : Char → Bool} (hbad : ControlsOnly bad) : Avoids bad " " :=
  hbad.avoids (by decide)

theorem AddressText.avoids {s : String} (h : AddressText s) : Avoids isControl s := by
  have hpairs : ∀ l, ∀ s ∈ hexPairs l, Avoids isControl s := by
    intro l
    induction l using hexPairs.induct with
    | case1 a b rest ih =>
        intro s hs
        rcases List.mem_cons.mp hs with rfl | hs
        · exact avoids_append.mpr ⟨avoids_hex _ _, avoids_hex _ _⟩
        · exact ih s hs
    | case2 l hl =>
        intro s hs
        rw [hexPairs] at hs
        · cases hs
        · exact hl
  -- digits, colons and dots
  cases h with
  | v4 a =>
      rw [Ipv4Address.display, avoids_intercalate (by decide), List.forall_mem_map]
      intro b _
      exact avoids_toString _
  | v6 a =>
      rw [Ipv6Address.display, avoids_intercalate (by decide)]
      exact hpairs _
  | mac a =>
      rw [MacAddress.display, avoids_intercalate (by decide), List.forall_mem_map]
      intro b _
      exact avoids_hex _ _

theorem endpoint_avoids {ip : String} (h : AddressText ip) (port : UInt16) :
    Avoids isControl (endpoint ip port) := by
  rw [endpoint, avoids_append, avoids_append]
  exact ⟨⟨h.avoids, by decide⟩, avoids_toString _⟩

theorem describeIcmp_avoids {icmp : IcmpHeader} {s : String} (h : describeIcmp icmp = .ok s) :
    Avoids isControl s := by
  rcases bind_eq_ok.mp h with ⟨t, _, hs⟩
  split at hs
  · rcases Except.ok.inj hs with rfl
    decide
  · rcases bind_eq_ok.mp hs with ⟨code, _, hs⟩
    rcases Except.ok.inj hs with rfl
    rw [avoids_append, avoids_append]
    exact ⟨⟨by decide, avoids_toString _⟩, by decide⟩
  · rcases Except.ok.inj hs with rfl
    decide
  · rcases Except.ok.inj hs with rfl
    decide
  · rcases Except.ok.inj hs with rfl
    exact avoids_append.mpr ⟨by decide, avoids_toString _⟩

theorem describeIcmpv6_avoids {icmp : IcmpHeader} {s : String}
    (h : describeIcmpv6 icmp = .ok s) : Avoids isControl s := by
  rcases bind_eq_ok.mp h with ⟨t, _, hs⟩
  split at hs <;> rcases Except.ok.inj hs with rfl
  case h_10 => exact avoids_append.mpr ⟨by decide, avoids_toString _⟩
  all_goals decide

theorem describeArp_avoids {arp : ArpPacket} {s : String} (h : describeArp arp = .ok s) :
    Avoids isControl s := by
  have hv4 : ∀ a : Ipv4Address, Avoids isControl a.display := fun a => (AddressText.v4 a).avoids
  have hmac : ∀ a : MacAddress, Avoids isControl a.display := fun a => (AddressText.mac a).avoids
  rcases bind_eq_ok.mp h with ⟨op, _, hs⟩
  split at hs
  · rcases bind_eq_ok.mp hs with ⟨target, _, hs⟩
    rcases bind_eq_ok.mp hs with ⟨sender, _, hs⟩
    rcases Except.ok.inj hs with rfl
    simp only [avoids_append]
    exact ⟨⟨⟨by decide, hv4 _⟩, by decide⟩, hv4 _⟩
  · rcases bind_eq_ok.mp hs with ⟨sender, _, hs⟩
    rcases bind_eq_ok.mp hs with ⟨mac, _, hs⟩
    rcases Except.ok.inj hs with rfl
    simp only [avoids_append]
    exact ⟨⟨hv4 _, by decide⟩, hmac _⟩
  · rcases Except.ok.inj hs with rfl
    exact avoids_append.mpr ⟨by decide, avoids_toString _⟩

/-- A shortened text has the characters of the text, and dots. -/
theorem truncate_avoids {bad : Char → Bool} (hdot : bad '.' = false) {s t : String} {n : Nat}
    (h : truncate s n = .ok t) (hs : Avoids bad s) : Avoids bad t := by
  have hbody := calling_eq_ok.mp h
  split at hbody
  · exact Except.ok.inj hbody ▸ hs
  · rcases bind_eq_ok.mp hbody with ⟨k, _, hslice⟩
    rcases bind_eq_ok.mp hslice with ⟨shown, hshown, ht⟩
    rw [← Except.ok.inj ht, avoids_append]
    refine ⟨avoids_sliceTo hshown hs, ?_⟩
    intro c hc
    have hc' : c ∈ ['.', '.', '.'] := hc
    simp only [List.mem_cons, List.not_mem_nil, or_false, or_self] at hc'
    rw [hc']
    exact hdot

/-- Besides the info a report says nothing that was captured as text. -/
structure Reporting.Plain (g : Reporting) : Prop where
  proto : Avoids isControl g.proto.text
  src : Avoids isControl g.src
  dst : Avoids isControl g.dst
  protoLog : Avoids isControl g.protoLog
  /-- The terminal shows the info as it is, or shortened. -/
  info : ∀ bad, ControlsOnly bad → (Avoids bad g.info.text ↔ Avoids bad g.infoRaw)

theorem padRight_avoids {n : Nat} {s : String} (h : Avoids isControl s) :
    Avoids isControl (padRight n s) :=
  (avoids_padRight rfl n).mpr h

theorem TcpInfo.proto_avoids (i : TcpInfo) : Avoids isControl i.proto := by
  unfold TcpInfo.proto
  split_ifs <;> decide

/-- The report of a frame is plain. -/
theorem frameReport_plain {frame : List UInt8} {g : Reporting}
    (hg : frameReport frame = .ok (some g)) : g.Plain := by
  have hcase := frameReport_case frame
  generalize frameReport frame = x at hcase hg
  -- one case per handler; an ARP report shows its info cut short
  cases hcase with
  | silent => cases hg
  | tcp _ _ hsrc hdst =>
      rcases returned_some hg with ⟨i, _, rfl⟩
      exact ⟨padRight_avoids i.proto_avoids, endpoint_avoids hsrc _, endpoint_avoids hdst _,
        i.proto_avoids, fun bad hbad => avoids_padRight (hbad ' ' rfl) 35⟩
  | udp _ _ hsrc hdst =>
      rcases returned_some hg with ⟨i, _, rfl⟩
      exact ⟨padRight_avoids (by decide), endpoint_avoids hsrc _, endpoint_avoids hdst _,
        (by decide : Avoids isControl "UDP"), fun bad hbad => avoids_padRight (hbad ' ' rfl) 35⟩
  | icmp icmp hsrc hdst =>
      rcases returned_some hg with ⟨infoRaw, _, rfl⟩
      exact ⟨padRight_avoids (by decide), hsrc.avoids, hdst.avoids,
        (by decide : Avoids isControl "ICMP"), fun bad hbad => avoids_padRight (hbad ' ' rfl) 35⟩
  | icmpv6 _ _ _ hsrc hdst =>
      rcases returned_some hg with ⟨infoRaw, _, rfl⟩
      exact ⟨padRight_avoids (by decide), hsrc.avoids, hdst.avoids,
        (by decide : Avoids isControl "ICMPv6"), fun bad hbad => avoids_padRight (hbad ' ' rfl) 35⟩
  | arp arp hsrc hdst =>
      rcases bind_eq_ok.mp hg with ⟨infoRaw, hdescribe, hshown⟩
      rcases returned_some hshown with ⟨shown, htruncate, rfl⟩
      refine ⟨padRight_avoids (by decide), hsrc.avoids, hdst.avoids,
        (by decide : Avoids isControl "ARP"), ?_⟩
      intro bad hbad
      have hraw := describeArp_avoids hdescribe
      have hshort := truncate_avoids rfl htruncate hraw
      exact iff_of_true (hbad.avoids (padRight_avoids hshort)) (hbad.avoids hraw)

/-! ## What is quoted -/

section

variable {bad : Char → Bool} {payload : List UInt8} {srcPort dstPort : UInt16} {text : String}

theorem httpInfo_of_request {method target : String} {rest : List String}
    (hreq : httpMethods.any (Text.startsWith (httpText payload)) = true)
    (hparts : Text.splitWhitespace (httpText payload) = method :: target :: rest) :
    httpInfo payload =
      .ok { infoRaw := method ++ " " ++ target, isTls := false, isHttp := true } := by
  unfold httpText at hreq hparts
  have hlen : 2 ≤ (method :: target :: rest).length := by simp
  simp only [httpInfo, hreq, hparts, hlen, if_true]
  rfl

theorem httpInfo_of_response
    (hreq : httpMethods.any (Text.startsWith (httpText payload)) = false)
    (hresp : Text.startsWith (httpText payload) "HTTP/" = true)
    (hlen : 2 ≤ (Text.splitN 3 ' ' (httpText payload)).length) :
    httpInfo payload =
      .ok { infoRaw := String.intercalate " " ((Text.splitN 3 ' ' (httpText payload)).drop 1),
            isTls := false, isHttp := true } := by
  have hrest := sliceFrom_ok (φ := Fn) (Nat.le_of_succ_le hlen)
  unfold httpText at hreq hresp hlen hrest
  simp only [httpInfo, hreq, hresp, hlen, hrest, if_true, Bool.false_eq_true, ok_bind]
  rfl

/-- An HTTP payload that is reported without a quote. -/
theorem httpInfo_cases (payload : List UInt8) :
    (∃ method target rest, httpMethods.any (Text.startsWith (httpText payload)) = true ∧
      Text.splitWhitespace (httpText payload) = method :: target :: rest) ∨
    (httpMethods.any (Text.startsWith (httpText payload)) = false ∧
      Text.startsWith (httpText payload) "HTTP/" = true ∧
      2 ≤ (Text.splitN 3 ' ' (httpText payload)).length) ∨
    ∃ i, httpInfo payload = .ok i ∧ Avoids isControl i.infoRaw := by
  -- the branches of the handler, in its order; those without a quote report a fixed text
  by_cases hreq : httpMethods.any (Text.startsWith (httpText payload)) = true
  · by_cases hlen : 2 ≤ (Text.splitWhitespace (httpText payload)).length
    · left
      match hparts : Text.splitWhitespace (httpText payload), hlen with
      | method :: target :: rest, _ => exact ⟨method, target, rest, hreq, rfl⟩
    · right
      right
      refine ⟨⟨"[HTTP Request]", false, true⟩, ?_, by decide⟩
      unfold httpText at hreq hlen
      simp only [httpInfo, hreq, hlen, if_true, if_false]
      rfl
  · by_cases hresp : Text.startsWith (httpText payload) "HTTP/" = true
    · by_cases hlen : 2 ≤ (Text.splitN 3 ' ' (httpText payload)).length
      · right
        left
        exact ⟨by simpa using hreq, hresp, hlen⟩
      · right
        right
        refine ⟨⟨"[HTTP Response]", false, true⟩, ?_, by decide⟩
        unfold httpText at hreq hresp hlen
        simp only [httpInfo, hreq, hresp, hlen, if_true, if_false]
        rfl
    · right
      right
      refine ⟨⟨"[ENCRYPTED]", false, false⟩, ?_, by decide⟩
      unfold httpText at hreq hresp
      simp only [httpInfo, hreq, hresp]
      rfl

/-- A payload with a quote is reported, with the quote in the info. -/
theorem TcpQuote.reported (h : TcpQuote dstPort payload text) :
    ∃ i, tcpInfo dstPort payload = .ok i ∧
      ∀ bad, ControlsOnly bad → Avoids bad i.infoRaw → Avoids bad text := by
  -- a server name, a part of a request line, or a piece of a response
  cases h with
  | serverName tls hport hparse htext =>
      refine ⟨⟨text, true, false⟩, ?_, fun _ _ h => h⟩
      simp only [tcpInfo, if_pos hport, tlsInfo, hparse, htext, ok_bind]
      rfl
  | request method target rest hport hreq hparts htext =>
      refine ⟨_, by rw [tcpInfo, if_neg hport, httpInfo_of_request hreq hparts], ?_⟩
      intro bad _ h
      rcases avoids_append.mp h with ⟨hleft, htarget⟩
      rcases htext with rfl | rfl
      · exact (avoids_append.mp hleft).1
      · exact htarget
  | response hport hreq hresp htext =>
      have hpos := List.length_pos_of_mem htext
      rw [List.length_drop] at hpos
      have hinfo := httpInfo_of_response hreq hresp (by omega)
      generalize (Text.splitN 3 ' ' (httpText payload)).drop 1 = parts at htext hinfo
      refine ⟨_, by rw [tcpInfo, if_neg hport, hinfo], ?_⟩
      intro bad hbad h
      exact (avoids_intercalate hbad.space parts).mp h text htext

/-- The info is as clean as what it quotes. -/
theorem tcpInfo_avoids (hbad : ControlsOnly bad) {i : TcpInfo}
    (hi : tcpInfo dstPort payload = .ok i)
    (hquotes : ∀ text, TcpQuote dstPort payload text → Avoids bad text) :
    Avoids bad i.infoRaw := by
  -- port 443 is taken for TLS, everything else for HTTP
  by_cases hport : dstPort = 443
  · rw [tcpInfo, if_pos hport] at hi
    rcases bind_eq_ok.mp hi with ⟨res, hparse, hi⟩
    rcases res with e | tls
    · rcases Except.ok.inj hi with rfl
      exact hbad.avoids (by decide)
    · rcases bind_eq_ok.mp hi with ⟨text, htext, hi⟩
      rcases Except.ok.inj hi with rfl
      exact hquotes text (.serverName tls hport hparse htext)
  · rw [tcpInfo, if_neg hport] at hi
    rcases httpInfo_cases payload with ⟨method, target, rest, hreq, hparts⟩ |
      ⟨hreq, hresp, hlen⟩ | ⟨i', hi', hclean⟩
    · rw [httpInfo_of_request hreq hparts] at hi
      rcases Except.ok.inj hi with rfl
      have hmethod := hquotes method (.request method target rest hport hreq hparts (Or.inl rfl))
      have htarget := hquotes target (.request method target rest hport hreq hparts (Or.inr rfl))
      simp only [avoids_append]
      exact ⟨⟨hmethod, hbad.space⟩, htarget⟩
    · rw [httpInfo_of_response hreq hresp hlen] at hi
      have hparts := fun text htext => hquotes text (.response hport hreq hresp htext)
      generalize (Text.splitN 3 ' ' (httpText payload)).drop 1 = parts at hparts hi
      rcases Except.ok.inj hi with rfl
      exact (avoids_intercalate hbad.space parts).mpr hparts
    · rw [hi'] at hi
      rcases Except.ok.inj hi with rfl
      exact hbad.avoids hclean

theorem UdpQuote.reported (h : UdpQuote srcPort dstPort payload text) :
    ∃ i, udpText srcPort dstPort payload = .ok i ∧
      ∀ bad, Avoids bad i.infoRaw → Avoids bad text := by
  cases h with
  | domainName dns hport hparse htext =>
      refine ⟨⟨"DNS: " ++ text, true⟩, ?_, fun bad h => (avoids_append.mp h).2⟩
      simp only [udpText, if_pos hport, dnsInfo, hparse, htext, ok_bind]
      rfl

theorem udpText_avoids (hbad : ControlsOnly bad) {i : UdpInfo}
    (hi : udpText srcPort dstPort payload = .ok i)
    (hquotes : ∀ text, UdpQuote srcPort dstPort payload text → Avoids bad text) :
    Avoids bad i.infoRaw := by
  by_cases hport : dstPort = 53 ∨ srcPort = 53
  · rw [udpText, if_pos hport] at hi
    rcases bind_eq_ok.mp hi with ⟨res, hparse, hi⟩
    rcases res with e | dns
    · rcases Except.ok.inj hi with rfl
      exact hbad.avoids (by decide)
    · rcases bind_eq_ok.mp hi with ⟨text, htext, hi⟩
      rcases Except.ok.inj hi with rfl
      have hname := hquotes text (.domainName dns hport hparse htext)
      exact avoids_append.mpr ⟨hbad.avoids (by decide), hname⟩
  · rw [udpText, if_neg hport] at hi
    rcases Except.ok.inj hi with rfl
    exact hbad.avoids (by decide)

end

/-! ## The frame -/

/-- A frame with a captured text is reported, and the text is in the info. -/
theorem CapturedText.reported {frame : List UInt8} {text : String} (h : CapturedText frame text) :
    ∃ g, frameReport frame = .ok (some g) ∧
      ∀ bad, ControlsOnly bad → Avoids bad g.infoRaw → Avoids bad text := by
  cases h with
  | @tcp segment payload srcPort dstPort hcarries hseg hquote =>
      rcases hquote.reported with ⟨i, hi, hclean⟩
      rcases frameReport_of_tcp hcarries with ⟨srcIp, dstIp, _, _, hreport⟩
      refine ⟨i.reporting (endpoint srcIp srcPort) (endpoint dstIp dstPort), ?_, hclean⟩
      rw [hreport, tcpReport_of_segment hseg, hi]
      rfl
  | @udp segment payload srcPort dstPort hcarries hseg hquote =>
      rcases hquote.reported with ⟨i, hi, hclean⟩
      rcases frameReport_of_udp hcarries with ⟨srcIp, dstIp, _, _, hreport⟩
      refine ⟨i.reporting (endpoint srcIp srcPort) (endpoint dstIp dstPort), ?_,
        fun bad _ => hclean bad⟩
      rw [hreport, udpReport_of_segment hseg, hi]
      rfl

/-- The info of a report has a marked control character exactly if one of the
texts captured in the frame has. -/
theorem frameReport_info_avoids_iff {frame : List UInt8} {g : Reporting} {bad : Char → Bool}
    (hbad : ControlsOnly bad) (hg : frameReport frame = .ok (some g)) :
    Avoids bad g.infoRaw ↔ ∀ text, CapturedText frame text → Avoids bad text := by
  constructor
  · intro hinfo text htext
    rcases htext.reported with ⟨g', hg', hclean⟩
    rw [hg] at hg'
    rcases Option.some.inj (Except.ok.inj hg') with rfl
    exact hclean bad hbad hinfo
  · intro hquotes
    have hcase := frameReport_case frame
    generalize frameReport frame = x at hcase hg
    -- only TCP and UDP reports quote the frame
    cases hcase with
    | silent => cases hg
    | tcp hcarries hseg _ _ =>
        rcases returned_some hg with ⟨i, hi, rfl⟩
        exact tcpInfo_avoids hbad hi fun text h => hquotes text (.tcp hcarries hseg h)
    | udp hcarries hseg _ _ =>
        rcases returned_some hg with ⟨i, hi, rfl⟩
        exact udpText_avoids hbad hi fun text h => hquotes text (.udp hcarries hseg h)
    | icmp icmp _ _ =>
        rcases returned_some hg with ⟨infoRaw, hi, rfl⟩
        exact hbad.avoids (describeIcmp_avoids hi)
    | icmpv6 _ _ _ _ _ =>
        rcases returned_some hg with ⟨infoRaw, hi, rfl⟩
        exact hbad.avoids (describeIcmpv6_avoids hi)
    | arp arp _ _ =>
        rcases bind_eq_ok.mp hg with ⟨infoRaw, hi, hshown⟩
        rcases returned_some hshown with ⟨shown, _, rfl⟩
        exact hbad.avoids (describeArp_avoids hi)

end NetZer

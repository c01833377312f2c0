import NetZer.Lib.HttpReply
import NetZer.Web.Frames
import NetZer.Web.Liveness
import NetZer.Web.Segments

/-! # What a client reads

The other end of a connection: the answer to a request as an HTTP client reads
it, and, where the answer is the switch to WebSocket, the frames that follow it.
-/

namespace NetZer

open Http Rust Text

/-! ## The responses as HTTP -/

/-- A header of the server: its name, and its value behind a space. -/
abbrev serverHeader (name value : String)
    (hname : utf8 name ≠ [] ∧ (utf8 name).all isTokenByte = true)
    (hvalue : (utf8 value).all isVisible = true) : HeaderField :=
  .spaced name (utf8 value) hname fun b hb =>
    (isVisible_field b (List.all_eq_true.mp hvalue b hb)).1

/-- `Content-Length`. -/
def contentLength (n : Nat) : HeaderField :=
  .spaced "Content-Length" (utf8 (toString n)) (by decide) fun b hb =>
    (isVisible_field b (isDigit_visible b (isDigit_of_mem_toString n b hb))).1

def connectionClose : HeaderField :=
  serverHeader "Connection" "close" (by decide) (by decide)

/-- What comes before the page. -/
def pageHead (n : Nat) : Head where
  status := 200
  reason := utf8 "OK"
  fields := [serverHeader "Content-Type" "text/html" (by decide) (by decide), contentLength n,
    connectionClose]
  status_ge := by decide
  status_lt := by decide
  reason_field := List.all_eq_true.mp (by decide)

/-- The switch to WebSocket. -/
def switchingHead (accept : String) (h : (utf8 accept).all isVisible = true) : Head where
  status := 101
  reason := utf8 "Switching Protocols"
  fields := [serverHeader "Upgrade" "websocket" (by decide) (by decide),
    serverHeader "Connection" "Upgrade" (by decide) (by decide),
    serverHeader "Sec-WebSocket-Accept" accept (by decide) h]
  status_ge := by decide
  status_lt := by decide
  reason_field := List.all_eq_true.mp (by decide)

/-- A refusal. -/
def refusalHead (status : Nat) (reason : List UInt8) (hstatus : 100 ≤ status ∧ status < 1000)
    (hreason : ∀ b ∈ reason, isFieldByte b = true) : Head where
  status := status
  reason := reason
  fields := [contentLength 0, connectionClose]
  status_ge := hstatus.1
  status_lt := hstatus.2
  reason_field := hreason

/-- What a client makes of a response. -/
def Response.reply (html : String) : Response → Reply
  | .page =>
      { status := 200
        fields := [⟨utf8 "Content-Type", utf8 "text/html"⟩,
          ⟨utf8 "Content-Length", utf8 (toString (utf8 html).length)⟩,
          ⟨utf8 "Connection", utf8 "close"⟩]
        body := utf8 html }
  | .switching accept =>
      { status := 101
        fields := [⟨utf8 "Upgrade", utf8 "websocket"⟩, ⟨utf8 "Connection", utf8 "Upgrade"⟩,
          ⟨utf8 "Sec-WebSocket-Accept", utf8 accept⟩]
        body := [] }
  | .badRequest =>
      { status := 400
        fields := [⟨utf8 "Content-Length", utf8 "0"⟩, ⟨utf8 "Connection", utf8 "close"⟩]
        body := [] }
  | .notFound =>
      { status := 404
        fields := [⟨utf8 "Content-Length", utf8 "0"⟩, ⟨utf8 "Connection", utf8 "close"⟩]
        body := [] }

theorem visible_encode (bytes : List UInt8) :
    (utf8 (Base64.encode bytes)).all isVisible = true := by
  have hletter : ∀ v < 64, (Base64.letter v).toNat < 0x80 ∧
      isVisible (UInt8.ofNat (Base64.letter v).toNat) = true := by decide
  have hchar : ∀ c ∈ (Base64.encode bytes).toList, c.toNat < 0x80 ∧
      isVisible (UInt8.ofNat c.toNat) = true := by
    intro c hc
    rcases Base64.mem_encode bytes hc with ⟨v, hv, rfl⟩ | rfl
    · exact hletter v hv
    · decide
  rw [utf8_ascii fun c hc => (hchar c hc).1, List.all_map, List.all_eq_true]
  exact fun c hc => (hchar c hc).2

theorem field_contentLength (n : Nat) :
    (contentLength n).field = ⟨utf8 "Content-Length", utf8 (toString n)⟩ :=
  HeaderField.field_spaced _ _ fun b hb => isDigit_visible b (isDigit_of_mem_toString n b hb)

theorem field_serverHeader {name value : String}
    (hname : utf8 name ≠ [] ∧ (utf8 name).all isTokenByte = true)
    (hvalue : (utf8 value).all isVisible = true) :
    (serverHeader name value hname hvalue).field = ⟨utf8 name, utf8 value⟩ :=
  HeaderField.field_spaced _ _ (List.all_eq_true.mp hvalue)

/-! ## What is written, as HTTP -/

theorem utf8_page (html : String) :
    utf8 (Response.page.text html) = (pageHead (utf8 html).length).bytes ++ utf8 html := by
  have hfront : utf8 "HTTP/1.1 200 OK\r\nContent-Type: text/html\r\nContent-Length: " =
      utf8 "HTTP/1.1 " ++ (utf8 (toString 200) ++ 0x20 :: utf8 "OK") ++ crlf ++
        ((serverHeader "Content-Type" "text/html" (by decide) (by decide)).line ++ crlf ++
          (utf8 "Content-Length" ++ [0x3a, 0x20])) := by decide +kernel
  have hback : utf8 "\r\nConnection: close\r\n\r\n" =
      crlf ++ (connectionClose.line ++ crlf ++ crlf) := by decide +kernel
  have hlength : ∀ n, (contentLength n).line =
      utf8 "Content-Length" ++ ([0x3a, 0x20] ++ utf8 (toString n)) := fun _ => rfl
  show utf8 (_ ++ _ ++ _ ++ _) = _
  rw [utf8_append, utf8_append, utf8_append, hfront, hback]
  simp only [Head.bytes, Head.statusLine, pageHead, headerLines, List.flatMap_cons,
    List.flatMap_nil, hlength, List.append_assoc, List.append_nil]

theorem utf8_switchingProtocols {accept : String} (h : (utf8 accept).all isVisible = true) :
    utf8 (switchingProtocols accept) = (switchingHead accept h).bytes := by
  have hfront : utf8 ("HTTP/1.1 101 Switching Protocols\r\nUpgrade: websocket\r\n" ++
        "Connection: Upgrade\r\nSec-WebSocket-Accept: ") =
      utf8 "HTTP/1.1 " ++ (utf8 (toString 101) ++ 0x20 :: utf8 "Switching Protocols") ++ crlf ++
        ((serverHeader "Upgrade" "websocket" (by decide) (by decide)).line ++ crlf ++
          ((serverHeader "Connection" "Upgrade" (by decide) (by decide)).line ++ crlf ++
            (utf8 "Sec-WebSocket-Accept" ++ [0x3a, 0x20]))) := by decide +kernel
  have hback : utf8 "\r\n\r\n" = crlf ++ crlf := by decide
  have haccept : (serverHeader "Sec-WebSocket-Accept" accept (by decide) h).line =
      utf8 "Sec-WebSocket-Accept" ++ ([0x3a, 0x20] ++ utf8 accept) := rfl
  have hsplit : switchingProtocols accept =
      "HTTP/1.1 101 Switching Protocols\r\nUpgrade: websocket\r\n" ++
        "Connection: Upgrade\r\nSec-WebSocket-Accept: " ++ accept ++ "\r\n\r\n" := rfl
  rw [hsplit, utf8_append, utf8_append, hfront, hback]
  simp only [Head.bytes, Head.statusLine, switchingHead, headerLines, List.flatMap_cons,
    List.flatMap_nil, haccept, List.append_assoc, List.append_nil]

/-! ## What is read -/

theorem readReply_page (html : String) (rest : List UInt8) :
    readReply (utf8 (Response.page.text html) ++ rest) =
      some (Response.page.reply html, rest) := by
  have hfields : (pageHead (utf8 html).length).fields.map HeaderField.field =
      (Response.page.reply html).fields := by
    simp only [pageHead, List.map_cons, List.map_nil, field_serverHeader, field_contentLength,
      connectionClose, Response.reply]
  have hlen : bodyLength 200 (Response.page.reply html).fields (utf8 html ++ rest).length =
      some (utf8 html).length := by
    rw [← readDecimal_toString (utf8 html).length]
    exact bodyLength_contentLength (by decide) [_] [_] (by decide) _ _
  rw [utf8_page, List.append_assoc, Head.readReply_bytes _ _ rest (by rw [hfields]; exact hlen),
    hfields]
  rfl

theorem readReply_switching {accept : String} (h : (utf8 accept).all isVisible = true)
    (html : String) (rest : List UInt8) :
    readReply (utf8 (switchingProtocols accept) ++ rest) =
      some ((Response.switching accept).reply html, rest) := by
  have hfields : (switchingHead accept h).fields.map HeaderField.field =
      ((Response.switching accept).reply html).fields := by
    simp only [switchingHead, List.map_cons, List.map_nil, field_serverHeader, Response.reply]
  rw [utf8_switchingProtocols h]
  have hread := (switchingHead accept h).readReply_bytes [] rest rfl
  rw [List.nil_append, hfields] at hread
  exact hread

theorem readReply_refusal {status : Nat} {reason : List UInt8}
    (hstatus : 100 ≤ status ∧ status < 1000) (hreason : ∀ b ∈ reason, isFieldByte b = true)
    (hbody : ¬ (status < 200 ∨ status = 204 ∨ status = 304)) (rest : List UInt8) :
    readReply ((refusalHead status reason hstatus hreason).bytes ++ rest) =
      some (⟨status, [⟨utf8 "Content-Length", utf8 "0"⟩, ⟨utf8 "Connection", utf8 "close"⟩], []⟩,
        rest) := by
  have hfields : (refusalHead status reason hstatus hreason).fields.map HeaderField.field =
      [⟨utf8 "Content-Length", utf8 (toString 0)⟩, ⟨utf8 "Connection", utf8 "close"⟩] := by
    simp only [refusalHead, List.map_cons, List.map_nil, field_serverHeader, field_contentLength,
      connectionClose]
  have hlen : bodyLength status
      ((refusalHead status reason hstatus hreason).fields.map HeaderField.field)
      ([] ++ rest).length = some 0 := by
    rw [hfields]
    exact (bodyLength_contentLength hbody [] [_] (by decide) _ _).trans (readDecimal_toString 0)
  have hread := (refusalHead status reason hstatus hreason).readReply_bytes [] rest hlen
  rw [List.nil_append, hfields] at hread
  exact hread

theorem visible_of_respondTo {request accept : String}
    (h : respondTo request = .ok (.switching accept)) : (utf8 accept).all isVisible = true := by
  unfold respondTo at h
  split_ifs at h
  · cases h
  · rcases bind_eq_ok.mp h with ⟨key, -, hkey⟩
    cases key with
    | none => cases hkey
    | some key =>
        rcases bind_eq_ok.mp hkey with ⟨accept', haccept, hswitching⟩
        rcases acceptKey_ok key with ⟨encoded, hencoded, hashed, -, -, rfl⟩
        rw [hencoded] at haccept
        cases haccept
        cases hswitching
        exact visible_encode hashed
  · cases h

/-- Every answer of the server is a reply of HTTP with the status and the headers
that are meant. Its body is as long as it says: the page and nothing more, and a
reader is left with what follows. -/
theorem response_read (html : String) {request : String} {response : Response}
    (h : respondTo request = .ok response) (rest : List UInt8) :
    readReply (utf8 (response.text html) ++ rest) = some (response.reply html, rest) := by
  cases response with
  | page => exact readReply_page html rest
  | switching accept => exact readReply_switching (visible_of_respondTo h) html rest
  | badRequest =>
      have htext : utf8 (Response.badRequest.text html) =
          (refusalHead 400 (utf8 "Bad Request") (by decide)
            (List.all_eq_true.mp (by decide))).bytes := by
        show utf8 "HTTP/1.1 400 Bad Request\r\nContent-Length: 0\r\nConnection: close\r\n\r\n" = _
        decide +kernel
      rw [htext]
      exact readReply_refusal _ _ (by decide) rest
  | notFound =>
      have htext : utf8 (Response.notFound.text html) =
          (refusalHead 404 (utf8 "Not Found") (by decide)
            (List.all_eq_true.mp (by decide))).bytes := by
        show utf8 "HTTP/1.1 404 Not Found\r\nContent-Length: 0\r\nConnection: close\r\n\r\n" = _
        decide +kernel
      rw [htext]
      exact readReply_refusal _ _ (by decide) rest

theorem response_read_page :
    readReply (utf8 (Response.page.text "<html>") ++ utf8 "HTTP/1.1") =
      some (Response.page.reply "<html>", utf8 "HTTP/1.1") :=
  response_read "<html>" (rfl : respondTo "GET / HTTP/1.1" = .ok .page) (utf8 "HTTP/1.1")

/-! ## Switching to WebSocket -/

/-- The headers of the switch, looked up by a name that is or is not the one of each. -/
theorem value?_switching (html accept name : String) (b₁ b₂ b₃ : Bool)
    (h₁ : eqIgnoreAsciiCase (asciiText (utf8 "Upgrade")) name = b₁)
    (h₂ : eqIgnoreAsciiCase (asciiText (utf8 "Connection")) name = b₂)
    (h₃ : eqIgnoreAsciiCase (asciiText (utf8 "Sec-WebSocket-Accept")) name = b₃) :
    ((Response.switching accept).reply html).value? name =
      if b₁ then some (utf8 "websocket") else if b₂ then some (utf8 "Upgrade")
      else if b₃ then some (utf8 accept) else none := by
  show Reply.value? name ⟨101, [⟨_, _⟩, ⟨_, _⟩, ⟨_, _⟩], []⟩ = _
  rw [Reply.value?_cons h₁, Reply.value?_cons h₂, Reply.value?_cons h₃]
  rfl

theorem switches_reply (html accept : String) :
    ((Response.switching accept).reply html).switches accept = true := by
  have hstatus : ((Response.switching accept).reply html).status = 101 := rfl
  have hvalue := value?_switching html accept
  have hupgrade := hvalue "upgrade" true false false (by decide) (by decide) (by decide)
  have hconnection := hvalue "connection" false true false (by decide) (by decide) (by decide)
  have haccept := hvalue "sec-websocket-accept" false false true (by decide) (by decide)
    (by decide)
  have hextensions := hvalue "sec-websocket-extensions" false false false (by decide) (by decide)
    (by decide)
  have hprotocol := hvalue "sec-websocket-protocol" false false false (by decide) (by decide)
    (by decide)
  have hwebsocket : eqIgnoreAsciiCase (asciiText (utf8 "websocket")) "websocket" = true := by
    decide
  have hswitch : eqIgnoreAsciiCase (asciiText (utf8 "Upgrade")) "upgrade" = true := by decide
  rw [Reply.switches, hstatus, hupgrade, hconnection, haccept, hextensions, hprotocol]
  simp [hwebsocket, hswitch]

/-- Behind the response a client reads what it has received. -/
theorem Client.Received.readMessages {interface : String} {c : Client} {msgs : List String}
    (h : c.Received interface msgs) (haccept : (utf8 c.accept).all isVisible = true)
    (hlen : ∀ msg ∈ sysInfo interface :: msgs, (utf8 msg).length < 2 ^ 63) :
    Http.readMessages c.accept (msgs.length + 1) c.stream =
      some (sysInfo interface :: msgs, []) := by
  have hstream : c.stream = utf8 (switchingProtocols c.accept) ++
      ((sysInfo interface :: msgs).flatMap encodeWsTextFrame ++ []) := by
    rw [h, opening, List.flatMap_cons, List.append_nil, List.append_assoc]
  have htexts : ∀ l : List String, (l.map textFrame).mapM WebSocket.Frame.message = some l := by
    intro l
    induction l with
    | nil => rfl
    | cons msg l ih =>
        rw [List.map_cons, List.mapM_cons, textFrame_message, ih]
        rfl
  have hreply : readReply c.stream = some ((Response.switching c.accept).reply "", _) :=
    hstream ▸ readReply_switching haccept "" _
  exact readMessages_eq hreply (switches_reply "" c.accept) (decodeFrames_texts hlen [])
    (htexts (sysInfo interface :: msgs))

/-- With the lock free, a client on the list reads everything that it is due. -/
theorem WebServer.Inv.readMessages {interface : String} {server : WebServer}
    (h : server.Inv interface) (hfree : server.broadcaster.lockFree = true) {c : Client}
    (hc : c ∈ server.clients) (haccept : (utf8 c.accept).all isVisible = true)
    (hlen : ∀ msg ∈ sysInfo interface :: server.processed, (utf8 msg).length < 2 ^ 63) :
    Http.readMessages c.accept ((server.processed.drop c.joined).length + 1) c.stream =
      some (sysInfo interface :: server.processed.drop c.joined, []) := by
  refine (h.received hfree c hc).readMessages haccept ?_
  intro msg hmsg
  refine hlen msg ?_
  rcases List.mem_cons.mp hmsg with rfl | hdrop
  · exact List.mem_cons_self
  · exact List.mem_cons_of_mem _ (List.mem_of_mem_drop hdrop)

/-- A key has one accept value. -/
theorem accept_eq {request key accept accept' : String}
    (hws : startsWith request "GET /ws " = true) (hkey : wsKey request = .ok (some key))
    (hresponse : respondTo request = .ok (.switching accept)) (h : IsAccept key accept') :
    accept = accept' := by
  rw [respondTo_ws hws, hkey, ok_bind] at hresponse
  rcases bind_eq_ok.mp hresponse with ⟨encoded, hencoded, hswitching⟩
  cases hswitching
  rcases h with ⟨hashed, hsha1, -, rfl⟩
  rw [acceptKey, hsha1, ok_bind, base64Encode_eq] at hencoded
  exact (Except.ok.inj hencoded).symm

namespace UpgradeRequest

/-- What is read first holds the key. -/
theorem wsKey_receivedRequest (r : UpgradeRequest) {segments : List (List UInt8)}
    (hdelivers : r.Delivers segments) (hread : r.keyEnd ≤ (readInto 2048 segments).length) :
    startsWith (receivedRequest segments) "GET /ws " = true ∧
      wsKey (receivedRequest segments) = .ok (some (asciiText r.key)) := by
  have hreceived : receivedRequest segments =
      fromUtf8Lossy (r.bytes.take (readInto 2048 segments).length) := by
    rw [receivedRequest, ← hdelivers.readInto_eq]
  have hend : r.keyEnd =
      r.head.length + (r.name.length + 1 + r.leading.length) + r.key.length := rfl
  have hstart : r.keyStart = r.head.length + (r.name.length + 1 + r.leading.length) := rfl
  have hhead : 8 ≤ r.head.length := by
    have hws : (utf8 "GET /ws ").length = 8 := by decide
    rw [head, requestLine, List.length_append, List.length_append, List.length_append, hws]
    omega
  rw [hreceived]
  constructor
  · exact r.startsWith_take (by omega)
  · rw [r.wsKey_take, if_pos (by omega), List.take_of_length_le (by omega)]

/-- A request of which the first read gets the key is answered so that its sender opens
the connection: with the server in a state with the lock free, it reads the system
info and then, in order, everything that has been broadcast since it was put on the
list. -/
theorem client_opens (r : UpgradeRequest) {segments : List (List UInt8)}
    (hdelivers : r.Delivers segments) (hread : r.keyEnd ≤ (readInto 2048 segments).length)
    {interface : String} {allowed : ServerEvent → Prop}
    (hinforms : ∀ e, allowed e → e.InformsInFull interface) {server : WebServer}
    (hserver : (webSts interface allowed).Reachable server)
    (hfree : server.broadcaster.lockFree = true) {c : Client} (hc : c ∈ server.clients)
    (hresponse : respondTo (receivedRequest segments) = .ok (.switching c.accept))
    (hlen : ∀ msg ∈ sysInfo interface :: server.processed, (utf8 msg).length < 2 ^ 63)
    {accept : String} (haccept : IsAccept (asciiText r.key) accept) :
    Http.readMessages accept (server.processed.length - c.joined + 1) c.stream =
      some (sysInfo interface :: server.processed.drop c.joined, []) := by
  rcases r.wsKey_receivedRequest hdelivers hread with ⟨hws, hkey⟩
  have heq : c.accept = accept := accept_eq hws hkey hresponse haccept
  have hmessages := (WebServer.inv_of_reachable hinforms hserver).readMessages hfree hc
    (visible_of_respondTo hresponse) hlen
  rwa [List.length_drop, heq] at hmessages

end UpgradeRequest

theorem sampleUpgrade_delivers : sampleUpgrade.Delivers [sampleUpgrade.bytes] where
  flatten_eq := List.flatten_singleton
  ne_nil := by decide

theorem sampleUpgrade_read :
    sampleUpgrade.keyEnd ≤ (readInto 2048 [sampleUpgrade.bytes]).length := by
  decide +kernel

theorem acceptKey_sample : acceptKey (asciiText sampleUpgrade.key) = .ok sampleAccept := by
  decide +kernel

theorem respondTo_sample :
    respondTo (receivedRequest [sampleUpgrade.bytes]) = .ok (.switching sampleAccept) := by
  rcases sampleUpgrade.wsKey_receivedRequest sampleUpgrade_delivers sampleUpgrade_read with
    ⟨hws, hkey⟩
  rw [respondTo_ws hws, hkey, ok_bind]
  show (acceptKey _ >>= _) = _
  rw [acceptKey_sample]
  rfl

/-- The sample request, and a message that comes later. -/
theorem client_opens_sample :
    ∃ (server : WebServer) (c : Client), c ∈ server.clients ∧
      Http.readMessages sampleAccept 2 c.stream = some ([sysInfo "lo", "a"], []) := by
  let full : Outcome := ⟨1000, true⟩
  let events : List ServerEvent := [.respond sampleAccept full, .inform 0 full, .register 0,
    .broadcast "a", .recv, .lock, .deliver full, .release]
  have hall : ∀ e ∈ events, e.InformsInFull "lo" := by decide +kernel
  have hrun : (events.foldlM WebServer.step (WebServer.new "lo")).any (fun s =>
      s.broadcaster.lockFree = true ∧ s.processed = ["a"] ∧
        s.clients.map (fun c => (c.accept, c.joined)) = [(sampleAccept, 0)]) = true := by
    decide +kernel
  rcases (Option.any_eq_true _ _).mp hrun with ⟨server, hs, hend⟩
  rcases of_decide_eq_true hend with ⟨hfree, hmsgs, hclients⟩
  rcases List.map_eq_singleton_iff.mp hclients with ⟨c, hlist, hc⟩
  rcases Prod.mk.inj hc with ⟨haccept, hjoined⟩
  have hmem : c ∈ server.clients := hlist ▸ List.mem_singleton_self c
  have hresponse : respondTo (receivedRequest [sampleUpgrade.bytes]) =
      .ok (.switching c.accept) := by
    rw [haccept]
    exact respondTo_sample
  have hstandard : IsAccept (asciiText sampleUpgrade.key) sampleAccept := by
    rcases acceptKey_ok (asciiText sampleUpgrade.key) with ⟨accept, hkey, hstandard⟩
    rw [acceptKey_sample] at hkey
    rwa [Except.ok.inj hkey]
  have hread := sampleUpgrade.client_opens sampleUpgrade_delivers sampleUpgrade_read
    (fun _ he => he) (Sts.Reachable.events (fun e he _ => hall e he) (.init rfl) hs) hfree hmem
    hresponse (by rw [hmsgs]; decide) hstandard
  rw [hmsgs, hjoined] at hread
  exact ⟨server, c, hmem, hread⟩

end NetZer

import NetZer.Lib.Bytes
import NetZer.Lib.Posix
import NetZer.Lib.Sts
import NetZer.Lib.Text

/-! # The dashboard server

`WebServer`: every connection has a thread of its own, which writes the
WebSocket handshake and then puts the connection on the list of clients. One
broadcaster thread takes the messages from a channel, in order, and writes
each to all clients, with the lock of the list held. A write may fail with any
part of its bytes sent.

The broadcaster takes a client off the list when a write to it fails. The
handshake drops the result of its second write, the system info, and goes on.
-/

namespace NetZer

open Bytes Posix Rust Text

/-! ## What is written -/

/-- `encode_ws_text_frame`. -/
def encodeWsTextFrame (payload : String) : List UInt8 :=
  let len := (utf8 payload).length
  let length :=
    if len ≤ 125 then [UInt8.ofNat len]
    else if len ≤ 65535 then 126 :: Order.big.bytes 2 len
    else 127 :: Order.big.bytes 8 len
  -- FIN = 1, opcode = 1
  0x81 :: (length ++ utf8 payload)

/-- The response to a request for `/ws`, with the accept value for its key. -/
def switchingProtocols (accept : String) : String :=
  "HTTP/1.1 101 Switching Protocols\r\nUpgrade: websocket\r\nConnection: Upgrade\r\n" ++
    "Sec-WebSocket-Accept: " ++ accept ++ "\r\n\r\n"

/-- The first message to a client. -/
def sysInfo (interface : String) : String :=
  "\x7b\"type\":\"system\",\"interface\":\"" ++ interface ++ "\"\x7d"

/-- What a connection does with a `write_all` and the `flush` after it: it
takes so many bytes, and it flushes or fails to. -/
structure Outcome where
  accepted : Nat
  flushed : Bool
deriving DecidableEq, Repr

/-- `stream.write_all(bytes).and_then(|_| stream.flush())`. -/
def writeFlush (stream bytes : List UInt8) (o : Outcome) : List UInt8 × Bool :=
  let (stream, ok) := writeAll stream bytes o.accepted
  (stream, ok && o.flushed)

/-! ## The server -/

/-- A connection whose thread has written the response. -/
structure Handshake where
  accept : String
  stream : List UInt8
  /-- The system info has been written, whatever came of it. -/
  informed : Bool
deriving DecidableEq, Repr

/-- A connection on the list. -/
structure Client where
  accept : String
  stream : List UInt8
  /-- How many messages had been processed when it was put there; the server
  does not keep this. -/
  joined : Nat
deriving DecidableEq, Repr

/-- Where the broadcaster thread is. -/
inductive Broadcaster where
  /-- In `rx.recv()`. -/
  | waiting
  /-- With a message, about to take the lock. -/
  | received (msg : String)
  /-- With the lock: `idx` clients are served, and these are to be removed. -/
  | sending (msg : String) (idx : Nat) (toRemove : List Nat)
  /-- Panicked with the lock held, which poisons it. -/
  | poisoned
deriving DecidableEq, Repr

structure WebServer where
  interface : String
  handshakes : List Handshake
  clients : List Client
  /-- The channel. -/
  queue : List String
  broadcaster : Broadcaster
  /-- The messages processed so far, oldest first; history. -/
  processed : List String
deriving DecidableEq, Repr

/-- `WebServer::new`. -/
def WebServer.new (interface : String) : WebServer :=
  { interface := interface, handshakes := [], clients := [], queue := [],
    broadcaster := .waiting, processed := [] }

/-- The lock of the list can be taken. -/
def Broadcaster.lockFree : Broadcaster → Bool
  | .waiting | .received _ => true
  | .sending .. | .poisoned => false

namespace WebServer

variable (s : WebServer)

/-- A new connection whose request asks for the handshake: its thread writes the
response, and the connection is dropped if that fails. -/
def respond (accept : String) (o : Outcome) : WebServer :=
  let (stream, ok) := writeFlush [] (utf8 (switchingProtocols accept)) o
  if ok then
    { s with handshakes := s.handshakes ++ [⟨accept, stream, false⟩] }
  else s

/-- The thread of a connection writes the system info: `let _ = …`. -/
def inform (i : Nat) (o : Outcome) : Option WebServer :=
  match s.handshakes[i]? with
  | some ⟨accept, stream, false⟩ =>
      let (stream, _) := writeFlush stream (encodeWsTextFrame (sysInfo s.interface)) o
      some { s with handshakes := s.handshakes.set i ⟨accept, stream, true⟩ }
  | _ => none

/-- The thread of a connection takes the lock, puts the connection on the list
and ends. -/
def register (i : Nat) : Option WebServer :=
  match s.handshakes[i]?, s.broadcaster.lockFree with
  | some ⟨accept, stream, true⟩, true =>
      some
        { s with
          handshakes := s.handshakes.eraseIdx i
          clients := s.clients ++ [⟨accept, stream, s.processed.length⟩] }
  | _, _ => none

/-- `WebServer::broadcast`. -/
def broadcast (jsonMsg : String) : WebServer :=
  { s with queue := s.queue ++ [jsonMsg] }

/-- The broadcaster receives a message. -/
def recv : Option WebServer :=
  match s.broadcaster, s.queue with
  | .waiting, msg :: queue => some { s with queue := queue, broadcaster := .received msg }
  | _, _ => none

/-- The broadcaster takes the lock. -/
def lock : Option WebServer :=
  match s.broadcaster with
  | .received msg => some { s with broadcaster := .sending msg 0 [] }
  | _ => none

/-- A pass through the broadcaster's loop over the clients. -/
def deliver (o : Outcome) : Option WebServer :=
  match s.broadcaster with
  | .sending msg idx toRemove =>
      match s.clients[idx]? with
      | some client =>
          let (stream, ok) := writeFlush client.stream (encodeWsTextFrame msg) o
          some
            { s with
              clients := s.clients.set idx { client with stream := stream }
              broadcaster := .sending msg (idx + 1) (if ok then toRemove else toRemove ++ [idx]) }
      | none => none
  | _ => none

/-- Behind that loop: remove the marked clients, the last one first, and give
the lock back. -/
def release : Option WebServer :=
  match s.broadcaster with
  | .sending msg idx toRemove =>
      if idx < s.clients.length then none
      else
        match (toRemove.reverse.foldlM remove s.clients : Eval Empty (List Client)) with
        | .ok clients =>
            some
              { s with
                clients := clients
                broadcaster := .waiting
                processed := s.processed ++ [msg] }
        | .error _ => some { s with broadcaster := .poisoned }
  | _ => none

end WebServer

/-- What can happen next, in any thread, with the outcome of the write. -/
inductive ServerEvent where
  | respond (accept : String) (o : Outcome)
  | inform (i : Nat) (o : Outcome)
  | register (i : Nat)
  | broadcast (jsonMsg : String)
  | recv
  | lock
  | deliver (o : Outcome)
  | release
deriving DecidableEq, Repr

def WebServer.step (s : WebServer) : ServerEvent → Option WebServer
  | .respond accept o => some (s.respond accept o)
  | .inform i o => s.inform i o
  | .register i => s.register i
  | .broadcast jsonMsg => some (s.broadcast jsonMsg)
  | .recv => s.recv
  | .lock => s.lock
  | .deliver o => s.deliver o
  | .release => s.release

/-- The server under events of some kind, in any order. -/
def webSts (interface : String) (allowed : ServerEvent → Prop) : Sts WebServer :=
  .ofEvents (WebServer.new interface) WebServer.step fun _ e => allowed e

/-! ## Whole frames -/

/-- The response and the first message, in full. -/
def opening (interface accept : String) : List UInt8 :=
  utf8 (switchingProtocols accept) ++ encodeWsTextFrame (sysInfo interface)

/-- The client has got its opening and these messages: a whole frame each, once and
in order, and nothing else. -/
def Client.Received (interface : String) (c : Client) (msgs : List String) : Prop :=
  c.stream = opening interface c.accept ++ msgs.flatMap encodeWsTextFrame

instance (interface : String) (c : Client) (msgs : List String) :
    Decidable (c.Received interface msgs) :=
  inferInstanceAs (Decidable (_ = _))

namespace Broadcaster

/-- The clients marked for removal. -/
def toRemove : Broadcaster → List Nat
  | .sending _ _ toRemove => toRemove
  | _ => []

/-- The message of the current pass, for a client that is served already. -/
def sentTo : Broadcaster → Nat → List String
  | .sending msg idx _, i => if i < idx then [msg] else []
  | _, _ => []

end Broadcaster

/-- Every client on the list has received what was processed since it was put
there. In the middle of a pass it has received the message of the pass too if
its turn is over, and a client that failed is marked: it leaves the list
before the lock is free. -/
def WebServer.InSync (s : WebServer) : Prop :=
  ∀ (i : Nat) (c : Client), s.clients[i]? = some c → i ∉ s.broadcaster.toRemove →
    c.Received s.interface (s.processed.drop c.joined ++ s.broadcaster.sentTo i)

/-- Who holds the lock finds nobody marked. -/
theorem WebServer.InSync.listed {s : WebServer} (h : s.InSync)
    (hfree : s.broadcaster.lockFree = true) :
    ∀ c ∈ s.clients, c.Received s.interface (s.processed.drop c.joined) := by
  intro c hc
  rcases List.getElem?_of_mem hc with ⟨i, hi⟩
  have hreceived := h i c hi
  cases hb : s.broadcaster with
  | waiting => simpa [hb, Broadcaster.toRemove, Broadcaster.sentTo] using hreceived
  | received msg => simpa [hb, Broadcaster.toRemove, Broadcaster.sentTo] using hreceived
  | sending msg idx toRemove =>
      rw [hb] at hfree
      cases hfree
  | poisoned =>
      rw [hb] at hfree
      cases hfree

/-! ## The invariant -/

/-- A pass over `n` clients has marked some of those it has served, in order;
and no pass has panicked. -/
def Broadcaster.Orderly (n : Nat) : Broadcaster → Prop
  | .waiting | .received _ => True
  | .sending _ idx toRemove =>
      idx ≤ n ∧ toRemove.Pairwise (· < ·) ∧ ∀ i ∈ toRemove, i < idx
  | .poisoned => False

/-- What holds in every state of a run in which no system info is cut short. -/
structure WebServer.Inv (interface : String) (s : WebServer) : Prop where
  interface_eq : s.interface = interface
  handshakes : ∀ h ∈ s.handshakes, h.stream =
    if h.informed then opening s.interface h.accept else utf8 (switchingProtocols h.accept)
  joined : ∀ c ∈ s.clients, c.joined ≤ s.processed.length
  orderly : s.broadcaster.Orderly s.clients.length
  sync : s.InSync

/-- A write that goes through has sent its bytes. -/
theorem writeFlush_fst_of_snd {stream bytes : List UInt8} {o : Outcome}
    (h : (writeFlush stream bytes o).2 = true) :
    (writeFlush stream bytes o).1 = stream ++ bytes := by
  have hall : bytes.length ≤ o.accepted := by
    simp only [writeFlush, writeAll, Bool.and_eq_true, decide_eq_true_eq] at h
    exact h.1
  simp [writeFlush, writeAll, List.take_of_length_le hall]

/-- A write that takes everything. -/
theorem writeFlush_all (stream bytes : List UInt8) :
    writeFlush stream bytes ⟨bytes.length, true⟩ = (stream ++ bytes, true) := by
  simp [writeFlush, writeAll]

/-- With the lock free it is enough to look at the list. -/
theorem WebServer.inSync_of_listed {s : WebServer} (hfree : s.broadcaster.lockFree = true)
    (h : ∀ c ∈ s.clients, c.Received s.interface (s.processed.drop c.joined)) : s.InSync := by
  intro i c hi _
  have hnone : s.broadcaster.sentTo i = [] := by
    cases hb : s.broadcaster with
    | waiting => rfl
    | received msg => rfl
    | sending msg idx toRemove =>
        rw [hb] at hfree
        cases hfree
    | poisoned => rfl
  rw [hnone, List.append_nil]
  exact h c (List.mem_of_getElem? hi)

/-- More clients do not disturb the pass. -/
theorem Broadcaster.Orderly.mono {b : Broadcaster} {n m : Nat} (h : b.Orderly n) (hnm : n ≤ m) :
    b.Orderly m := by
  cases b with
  | waiting => trivial
  | received msg => trivial
  | sending msg idx toRemove => exact ⟨Nat.le_trans h.1 hnm, h.2⟩
  | poisoned => exact h

/-- One more message. -/
theorem Client.Received.append {interface accept : String} {stream : List UInt8} {joined : Nat}
    {msgs : List String} (h : Client.Received interface ⟨accept, stream, joined⟩ msgs)
    (msg : String) :
    Client.Received interface ⟨accept, stream ++ encodeWsTextFrame msg, joined⟩
      (msgs ++ [msg]) := by
  have hstream : stream = opening interface accept ++ msgs.flatMap encodeWsTextFrame := h
  simp [Client.Received, hstream]

namespace WebServer

variable {interface : String} {s t : WebServer}

theorem inv_new : (WebServer.new interface).Inv interface where
  interface_eq := rfl
  handshakes := by simp [WebServer.new]
  joined := by simp [WebServer.new]
  orderly := trivial
  sync := inSync_of_listed rfl (by simp [WebServer.new])

theorem respond_of_ok {accept : String} {o : Outcome}
    (hok : (writeFlush [] (utf8 (switchingProtocols accept)) o).2 = true) :
    s.respond accept o =
      { s with
        handshakes := s.handshakes ++ [⟨accept, utf8 (switchingProtocols accept), false⟩] } := by
  have hstream := writeFlush_fst_of_snd hok
  simp [WebServer.respond, hok, hstream]

theorem Inv.respond (h : s.Inv interface) (accept : String) (o : Outcome) :
    (s.respond accept o).Inv interface := by
  cases hok : (writeFlush [] (utf8 (switchingProtocols accept)) o).2 with
  | false => simpa [WebServer.respond, hok] using h
  | true =>
      rw [respond_of_ok hok]
      refine { h with handshakes := ?_ }
      intro c hc
      rcases List.mem_append.mp hc with hc | hc
      · exact h.handshakes c hc
      · rw [List.mem_singleton.mp hc]
        simp

/-- A handshake after the system info, as much of it as the connection takes. -/
def informed (interface accept : String) (stream : List UInt8) (o : Outcome) : Handshake :=
  { accept := accept
    stream := stream ++ (encodeWsTextFrame (sysInfo interface)).take o.accepted
    informed := true }

/-- Whatever comes of the system info, the handshake goes on. -/
theorem inform_eq {i : Nat} {accept : String} {stream : List UInt8}
    (hi : s.handshakes[i]? = some ⟨accept, stream, false⟩) (o : Outcome) :
    s.inform i o = some
      { s with handshakes := s.handshakes.set i (informed s.interface accept stream o) } := by
  simp only [WebServer.inform, hi]
  rfl

/-- No other handshake is informed. -/
theorem inform_cases {i : Nat} {o : Outcome} (hstep : s.inform i o = some t) :
    ∃ accept stream, s.handshakes[i]? = some ⟨accept, stream, false⟩ ∧
      t = { s with handshakes := s.handshakes.set i (informed s.interface accept stream o) } := by
  have hinform := hstep
  unfold WebServer.inform at hstep
  split at hstep
  · rename_i accept stream hi
    rw [inform_eq hi] at hinform
    exact ⟨accept, stream, hi, (Option.some.inj hinform).symm⟩
  · cases hstep

/-- The system info in full, behind the response. -/
theorem Inv.inform (h : s.Inv interface) {i : Nat} {o : Outcome}
    (hall : (encodeWsTextFrame (sysInfo interface)).length ≤ o.accepted)
    (hstep : s.inform i o = some t) : t.Inv interface := by
  rcases inform_cases hstep with ⟨accept, stream, hi, rfl⟩
  have hstream : stream = utf8 (switchingProtocols accept) :=
    h.handshakes _ (List.mem_of_getElem? hi)
  have hinfo : (encodeWsTextFrame (sysInfo s.interface)).length ≤ o.accepted :=
    h.interface_eq ▸ hall
  refine { h with handshakes := ?_ }
  intro c hc
  rcases List.mem_or_eq_of_mem_set hc with hc | rfl
  · exact h.handshakes c hc
  · simp [informed, List.take_of_length_le hinfo, hstream, opening]

theorem Inv.register (h : s.Inv interface) {i : Nat} (hstep : s.register i = some t) :
    t.Inv interface := by
  unfold WebServer.register at hstep
  split at hstep
  · rename_i accept stream hi hfree
    cases hstep
    -- the thread has written the response and the system info by now
    have hstream : stream = opening s.interface accept :=
      h.handshakes _ (List.mem_of_getElem? hi)
    refine
      { interface_eq := h.interface_eq
        handshakes := fun c hc => h.handshakes c (List.mem_of_mem_eraseIdx hc)
        joined := ?_
        orderly := h.orderly.mono (by simp)
        sync := inSync_of_listed hfree ?_ }
    · intro c hc
      rcases List.mem_append.mp hc with hc | hc
      · exact h.joined c hc
      · rw [List.mem_singleton.mp hc]
    · -- nothing has been processed since
      intro c hc
      rcases List.mem_append.mp hc with hc | hc
      · exact h.sync.listed hfree c hc
      · rw [List.mem_singleton.mp hc]
        simp [Client.Received, hstream]
  · cases hstep

theorem Inv.broadcast (h : s.Inv interface) (jsonMsg : String) :
    (s.broadcast jsonMsg).Inv interface :=
  { h with }

theorem Inv.recv (h : s.Inv interface) (hstep : s.recv = some t) : t.Inv interface := by
  unfold WebServer.recv at hstep
  split at hstep
  · rename_i msg queue hb _
    cases hstep
    have hfree : s.broadcaster.lockFree = true := by rw [hb]; rfl
    exact
      { interface_eq := h.interface_eq
        handshakes := h.handshakes
        joined := h.joined
        orderly := trivial
        sync := inSync_of_listed rfl (h.sync.listed hfree) }
  · cases hstep

theorem Inv.lock (h : s.Inv interface) (hstep : s.lock = some t) : t.Inv interface := by
  unfold WebServer.lock at hstep
  split at hstep
  · rename_i msg hb
    cases hstep
    have hfree : s.broadcaster.lockFree = true := by rw [hb]; rfl
    refine
      { interface_eq := h.interface_eq
        handshakes := h.handshakes
        joined := h.joined
        orderly := ⟨Nat.zero_le _, .nil, by simp⟩
        sync := ?_ }
    -- nobody's turn is over yet
    intro i c hi _
    simpa [Broadcaster.sentTo] using h.sync.listed hfree c (List.mem_of_getElem? hi)
  · cases hstep

/-- A pass through the loop serves the next client and marks it on a failure. -/
theorem deliver_cases {o : Outcome} (hstep : s.deliver o = some t) :
    ∃ msg idx toRemove client stream ok,
      s.broadcaster = .sending msg idx toRemove ∧ s.clients[idx]? = some client ∧
      (ok = true → stream = client.stream ++ encodeWsTextFrame msg) ∧
      t =
        { s with
          clients := s.clients.set idx { client with stream := stream }
          broadcaster := .sending msg (idx + 1) (if ok then toRemove else toRemove ++ [idx]) } := by
  unfold WebServer.deliver at hstep
  split at hstep
  · rename_i msg idx toRemove hb
    split at hstep
    · rename_i client hclient
      exact ⟨msg, idx, toRemove, client, _, _, hb, hclient, writeFlush_fst_of_snd,
        (Option.some.inj hstep).symm⟩
    · cases hstep
  · cases hstep

theorem Inv.deliver (h : s.Inv interface) {o : Outcome} (hstep : s.deliver o = some t) :
    t.Inv interface := by
  rcases deliver_cases hstep with ⟨msg, idx, toRemove, client, stream, ok, hb, hclient, hfull, rfl⟩
  have hidx : idx < s.clients.length := (List.getElem?_eq_some_iff.mp hclient).1
  have horderly := h.orderly
  rw [hb] at horderly
  rcases horderly with ⟨_, hsorted, hmarked⟩
  refine
    { interface_eq := h.interface_eq
      handshakes := h.handshakes
      joined := ?_
      orderly := ?_
      sync := ?_ }
  · intro c hc
    rcases List.mem_or_eq_of_mem_set hc with hc | rfl
    · exact h.joined c hc
    · exact h.joined client (List.mem_of_getElem? hclient)
  · rw [List.length_set]
    cases ok with
    | true =>
        have hlater : ∀ i ∈ toRemove, i < idx + 1 := fun i hi => Nat.lt_succ_of_lt (hmarked i hi)
        exact ⟨hidx, hsorted, hlater⟩
    -- a client that failed is marked behind all others
    | false =>
        have hsorted' : (toRemove ++ [idx]).Pairwise (· < ·) :=
          List.pairwise_append.mpr ⟨hsorted, by simp, by simpa using hmarked⟩
        refine ⟨hidx, hsorted', ?_⟩
        intro i hi
        rcases List.mem_append.mp hi with hi | hi
        · exact Nat.lt_succ_of_lt (hmarked i hi)
        · rw [List.mem_singleton.mp hi]
          exact Nat.lt_succ_self idx
  · intro i c hi hunmarked
    have hnot : i ∉ toRemove := by
      intro hmem
      apply hunmarked
      cases ok with
      | true => exact hmem
      | false => exact List.mem_append_left _ hmem
    by_cases hturn : i = idx
    · -- its turn: it has the frame in full, or it is marked
      subst hturn
      cases ok with
      | false => exact absurd (List.mem_append_right _ (List.mem_singleton_self i)) hunmarked
      | true =>
          rw [List.getElem?_set_self hidx, Option.some.injEq] at hi
          have hbefore := h.sync i client hclient (by rwa [hb])
          rw [hb] at hbefore
          simp only [Broadcaster.sentTo, Nat.lt_irrefl, if_false, List.append_nil] at hbefore
          rw [← hi, hfull rfl]
          simp only [Broadcaster.sentTo, if_pos (Nat.lt_succ_self i)]
          exact hbefore.append msg
    · -- another client: nothing changes for it
      rw [List.getElem?_set_ne (Ne.symm hturn)] at hi
      have hother := h.sync i c hi (by rwa [hb])
      rw [hb] at hother
      have hiff : i < idx + 1 ↔ i < idx := by omega
      simpa only [Broadcaster.sentTo, hiff] using hother

/-- The removals are in range, and who is left has received the message. -/
theorem Inv.release (h : s.Inv interface) (hstep : s.release = some t) : t.Inv interface := by
  unfold WebServer.release at hstep
  split at hstep
  · rename_i msg idx toRemove hb
    split at hstep
    · cases hstep
    · rename_i hall
      have horderly := h.orderly
      rw [hb] at horderly
      rcases horderly with ⟨hserved, hsorted, hmarked⟩
      -- the marks are positions of clients, so the removals do not panic
      have hinRange : ∀ i ∈ toRemove, i < s.clients.length := fun i hi =>
        Nat.lt_of_lt_of_le (hmarked i hi) hserved
      have hremove : (toRemove.reverse.foldlM remove s.clients : Eval Empty _) =
          .ok (without s.clients toRemove) := foldlM_remove hsorted hinRange
      simp only [hremove, Option.some.injEq] at hstep
      subst hstep
      refine
        { interface_eq := h.interface_eq
          handshakes := h.handshakes
          joined := ?_
          orderly := trivial
          sync := inSync_of_listed rfl ?_ }
      · -- who is left has a place at which it was not marked
        intro c hc
        rcases exists_of_mem_without hc with ⟨i, hi, _⟩
        have := h.joined c (List.mem_of_getElem? hi)
        simp only [List.length_append, List.length_singleton]
        omega
      · intro c hc
        rcases exists_of_mem_without hc with ⟨i, hi, hunmarked⟩
        have hlt : i < s.clients.length := (List.getElem?_eq_some_iff.mp hi).1
        have hreceived := h.sync i c hi (by rwa [hb])
        rw [hb] at hreceived
        simp only [Broadcaster.sentTo, if_pos (show i < idx by omega)] at hreceived
        rwa [List.drop_append_of_le_length (h.joined c (List.mem_of_getElem? hi))]
  · cases hstep

end WebServer

/-! ## Runs -/

/-- The system info of a connection goes out in full. -/
def ServerEvent.InformsInFull (interface : String) : ServerEvent → Prop
  | .inform _ o => (encodeWsTextFrame (sysInfo interface)).length ≤ o.accepted
  | _ => True

instance (interface : String) (e : ServerEvent) : Decidable (e.InformsInFull interface) :=
  match e with
  | .inform _ _ => inferInstanceAs (Decidable (_ ≤ _))
  | .respond .. | .register _ | .broadcast _ | .recv | .lock | .deliver _ | .release =>
      inferInstanceAs (Decidable True)

theorem WebServer.Inv.step {interface : String} {s t : WebServer} (h : s.Inv interface)
    {e : ServerEvent} (he : e.InformsInFull interface) (hstep : s.step e = some t) :
    t.Inv interface := by
  cases e with
  | respond accept o => exact Option.some.inj hstep ▸ h.respond accept o
  | inform i o => exact h.inform he hstep
  | register i => exact h.register hstep
  | broadcast jsonMsg => exact Option.some.inj hstep ▸ h.broadcast jsonMsg
  | recv => exact h.recv hstep
  | lock => exact h.lock hstep
  | deliver o => exact h.deliver hstep
  | release => exact h.release hstep

/-- In every run in which no system info is cut short, every client on the
list is in sync, whatever else fails and in whatever order things happen. -/
theorem web_clients_in_sync (interface : String) (s : WebServer)
    (h : (webSts interface (ServerEvent.InformsInFull interface)).Reachable s) : s.InSync := by
  have hinv : s.Inv interface := by
    refine Sts.Reachable.invariant (WebServer.Inv interface) ?_ ?_ h
    · rintro s rfl
      exact WebServer.inv_new
    · rintro s t hs ⟨e, he, hstep⟩
      exact hs.step he hstep
  exact hinv.sync

/-- The accept value for the key `dGhlIHNhbXBsZSBub25jZQ==`. -/
def sampleAccept : String := "s3pPLMBiTxaQ9kYGzzhZRbK+xOo="

/-- Two clients: the second joins between two messages, and the first gets
only a part of the second message. -/
def twoClients : List ServerEvent :=
  let full : Outcome := ⟨1000, true⟩
  [.respond sampleAccept full, .inform 0 full, .register 0, .broadcast "a", .broadcast "b",
    .recv, .lock, .deliver full, .release, .respond sampleAccept full, .inform 0 full,
    .register 0, .recv, .lock, .deliver ⟨1, true⟩, .deliver full, .release]

theorem web_clients_in_sync_two :
    ∃ s, twoClients.foldlM WebServer.step (WebServer.new "lo") = some s ∧
      s.clients.length = 1 ∧ s.processed = ["a", "b"] ∧ s.InSync := by
  have hall : ∀ e ∈ twoClients, e.InformsInFull "lo" := by decide +kernel
  have hrun : (twoClients.foldlM WebServer.step (WebServer.new "lo")).any (fun s =>
      s.clients.length = 1 ∧ s.processed = ["a", "b"]) = true := by
    decide +kernel
  rcases (Option.any_eq_true _ _).mp hrun with ⟨s, hs, hend⟩
  rcases of_decide_eq_true hend with ⟨hone, hmsgs⟩
  refine ⟨s, hs, hone, hmsgs, web_clients_in_sync "lo" s ?_⟩
  exact Sts.Reachable.events (fun e he _ => hall e he) (.init rfl) hs

section

variable {s : WebServer} {i : Nat} {accept : String} {stream : List UInt8}

theorem WebServer.register_eq (hi : s.handshakes[i]? = some ⟨accept, stream, true⟩)
    (hfree : s.broadcaster.lockFree = true) :
    s.register i = some
      { s with
        handshakes := s.handshakes.eraseIdx i
        clients := s.clients ++ [⟨accept, stream, s.processed.length⟩] } := by
  simp only [WebServer.register, hi, hfree]

/-- After a system info that is cut short the connection is put on the list, as
soon as the lock is free, and is out of sync there. -/
theorem WebServer.not_inSync_of_cut
    (hi : s.handshakes[i]? = some ⟨accept, utf8 (switchingProtocols accept), false⟩)
    (hfree : s.broadcaster.lockFree = true) {o : Outcome}
    (hcut : o.accepted < (encodeWsTextFrame (sysInfo s.interface)).length) :
    ∃ t u, s.inform i o = some t ∧ t.register i = some u ∧ ¬ u.InSync := by
  have hlt : i < s.handshakes.length := (List.getElem?_eq_some_iff.mp hi).1
  refine ⟨_, _, inform_eq hi o, register_eq (List.getElem?_set_self hlt) hfree, ?_⟩
  intro hsync
  have hreceived := hsync.listed hfree _ (List.mem_append_right _ (List.mem_singleton_self _))
  have hwhole : (encodeWsTextFrame (sysInfo s.interface)).take o.accepted =
      encodeWsTextFrame (sysInfo s.interface) := by
    simpa [Client.Received, opening] using hreceived
  have hlen := congrArg List.length hwhole
  rw [List.length_take, Nat.min_eq_left (Nat.le_of_lt hcut)] at hlen
  exact Nat.ne_of_lt hcut hlen

end

/-- A server with one connection, which has taken the response. -/
def responded : WebServer :=
  { WebServer.new "lo" with
    handshakes := [⟨sampleAccept, utf8 (switchingProtocols sampleAccept), false⟩] }

/-- A connection takes one byte of its system info. -/
theorem web_client_out_of_sync :
    ¬ ∀ s : WebServer, (webSts "lo" fun _ => True).Reachable s → s.InSync := by
  intro hall
  have hresponse : (writeFlush [] (utf8 (switchingProtocols sampleAccept)) ⟨1000, true⟩).2 =
      true := by
    decide +kernel
  have hresponded : (WebServer.new "lo").step (.respond sampleAccept ⟨1000, true⟩) =
      some responded :=
    congrArg some (WebServer.respond_of_ok hresponse)
  have hone : responded.handshakes[0]? =
      some ⟨sampleAccept, utf8 (switchingProtocols sampleAccept), false⟩ := rfl
  have hcut : 1 < (encodeWsTextFrame (sysInfo responded.interface)).length := by decide +kernel
  rcases WebServer.not_inSync_of_cut hone rfl (o := ⟨1, true⟩) hcut with
    ⟨t, u, hinform, hregister, hout⟩
  have hreach : (webSts "lo" fun _ => True).Reachable u :=
    .step (.step (.step (.init rfl) ⟨_, trivial, hresponded⟩)
      ⟨.inform 0 ⟨1, true⟩, trivial, hinform⟩) ⟨.register 0, trivial, hregister⟩
  exact hout (hall u hreach)

end NetZer

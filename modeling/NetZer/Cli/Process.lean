import NetZer.Socket.Liveness
import NetZer.Web.Liveness
import NetZer.Web.Statistics

/-! # The whole process

`main` with `--ring-buffer` and `--serve`: the kernel fills the ring, the main
thread walks it and processes a packet in each callback, call by call, and the
threads of the dashboard server run beside it. The three share what the code
lets them share, the bytes of the ring and the channel of messages, and any of
them may take the next step.

Seen from the ring the process is a run of `ringSts`, seen from the server one
of `webSts`, and in between it is a run of the capture loop; so what holds of
the parts holds of the whole.
-/

namespace NetZer

/-! ## The capture loop, packet by packet -/

/-- The tracker after the packets, unless one of them panics. -/
def trackerAfter (out : Outputs) :
    Option TcpStreamTracker → List Packet → Run (Option TcpStreamTracker)
  | tracker, [] => .ok tracker
  | tracker, p :: ps =>
      match (p.process out tracker).result with
      | .ok tracker' => trackerAfter out tracker' ps
      | .error panic => .error panic

section

variable {out : Outputs} {tracker tracker' : Option TcpStreamTracker} {ps : List Packet}

/-- One more packet, after a run that has not panicked. -/
theorem capture_concat (h : trackerAfter out tracker ps = .ok tracker') (p : Packet) :
    capture out tracker (ps ++ [p]) =
        capture out tracker ps ++ [(p, (p.process out tracker').trace)] ∧
      trackerAfter out tracker (ps ++ [p]) = (p.process out tracker').result := by
  induction ps generalizing tracker with
  | nil =>
      cases h
      simp only [List.nil_append, capture, trackerAfter]
      cases (p.process out tracker').result with
      | error panic => exact ⟨rfl, rfl⟩
      | ok next => exact ⟨rfl, rfl⟩
  | cons q qs ih =>
      rw [trackerAfter] at h
      rw [List.cons_append, capture, trackerAfter, capture]
      cases hrun : (q.process out tracker).result with
      | error panic =>
          rw [hrun] at h
          cases h
      | ok next =>
          rw [hrun] at h
          rcases ih h with ⟨hcapture, hafter⟩
          refine ⟨?_, hafter⟩
          simp only [hcapture, List.cons_append]

/-- The packets that come later do not change what has been done. -/
theorem capture_prefix_append (out : Outputs) (tracker : Option TcpStreamTracker)
    (ps qs : List Packet) : capture out tracker ps <+: capture out tracker (ps ++ qs) := by
  induction ps generalizing tracker with
  | nil => exact List.nil_prefix
  | cons p ps ih =>
      rw [List.cons_append, capture, capture, List.prefix_cons_inj]
      cases (p.process out tracker).result with
      | error panic => exact List.nil_prefix
      | ok next => exact ih next

end

theorem webMessages_append (run run' : List (Packet × List Call)) :
    webMessages (run ++ run') = webMessages run ++ webMessages run' :=
  List.flatMap_append

theorem webMessages_mono {run run' : List (Packet × List Call)} (h : run <+: run') :
    webMessages run <+: webMessages run' := by
  rcases h with ⟨rest, rfl⟩
  rw [webMessages_append]
  exact List.prefix_append _ _

/-! ## The threads -/

/-- Where the main thread is. -/
inductive MainThread where
  /-- In `recv_block`, with the tracker as the last packet left it. -/
  | receiving (tracker : Option TcpStreamTracker)
  /-- In the callback: the calls `process_packet` still makes, and how it ends. -/
  | processing (calls : List Call) (result : Run (Option TcpStreamTracker))
  | panicked

/-- The process and the kernel's side of the ring. The last two fields are
history: the packets that have been handed to `process_packet`, and the calls
that have been made for them. -/
structure Process where
  ring : Ring
  main : MainThread
  server : WebServer
  packets : List Packet
  made : List Call

/-- A call of `process_packet`, as far as the server sees it. -/
def Call.onServer (call : Call) (server : WebServer) : WebServer :=
  match call.webMessage with
  | some msg => server.broadcast msg
  | none => server

namespace Process

/-- The next step of the main thread. `pollOk` is what `poll` answers where it
is asked, and the clocks show these times where a packet is processed. -/
def mainStep (e : Endian) (out : Outputs) (pollOk : Bool) (sinceEpoch : Option Duration)
    (time : LocalTime) (s : Process) : Option Process :=
  match s.main with
  | .receiving tracker =>
      let ring := s.ring.recvStep e pollOk
      match s.ring.frameSlice with
      | [] => some { s with ring := ring }
      | slice :: _ =>
          -- the callback, with the slice
          let p : Packet :=
            { frame := bytesAt s.ring.mem slice.addr slice.len
              sinceEpoch := sinceEpoch
              time := time }
          let run := p.process out tracker
          some
            { s with
              ring := ring
              main := .processing run.trace run.result
              packets := s.packets ++ [p] }
  | .processing (call :: calls) result =>
      some
        { s with
          main := .processing calls result
          server := call.onServer s.server
          made := s.made ++ [call] }
  | .processing [] (.ok tracker) => some { s with main := .receiving tracker }
  | .processing [] (.error _) => some { s with main := .panicked }
  | .panicked => none

end Process

/-- A step of the kernel, of the main thread, or of a thread of the server;
only the main thread broadcasts. -/
inductive ProcessStep (e : Endian) (out : Outputs) (allowed : ServerEvent → Prop) :
    Process → Process → Prop where
  | kernel (s : Process) (ring : Ring) :
      KernelStep e s.ring ring → ProcessStep e out allowed s { s with ring := ring }
  | main (s t : Process) (pollOk : Bool) (sinceEpoch : Option Duration) (time : LocalTime) :
      s.mainStep e out pollOk sinceEpoch time = some t → ProcessStep e out allowed s t
  | server (s : Process) (event : ServerEvent) (server : WebServer) :
      event.sent = [] → allowed event → s.server.step event = some server →
      ProcessStep e out allowed s { s with server := server }

/-- The process from the start of the capture loop on. -/
def processSts (e : Endian) (out : Outputs) (interface : String) (allowed : ServerEvent → Prop)
    (tracker : Option TcpStreamTracker) : Sts Process where
  init s := (ringSts e).init s.ring ∧ s.main = .receiving tracker ∧
    s.server = .new interface ∧ s.packets = [] ∧ s.made = []
  next := ProcessStep e out allowed

/-! ## Steps of the main thread -/

theorem Ring.length_frameSlice_le (s : Ring) : s.frameSlice.length ≤ 1 := by
  unfold Ring.frameSlice
  split
  · split_ifs <;> simp
  · simp

/-- What the main thread can do next. -/
inductive MainMove (e : Endian) (out : Outputs) (s : Process) : Process → Prop where
  | recv (tracker : Option TcpStreamTracker) (pollOk : Bool) :
      s.main = .receiving tracker →
      (s.ring.recvStep e pollOk).delivered = s.ring.delivered →
      MainMove e out s { s with ring := s.ring.recvStep e pollOk }
  | frame (tracker : Option TcpStreamTracker) (pollOk : Bool) (p : Packet) :
      s.main = .receiving tracker →
      (s.ring.recvStep e pollOk).delivered = s.ring.delivered ++ [p.frame] →
      MainMove e out s
        { s with
          ring := s.ring.recvStep e pollOk
          main := .processing (p.process out tracker).trace (p.process out tracker).result
          packets := s.packets ++ [p] }
  | call (call : Call) (calls : List Call) (result : Run (Option TcpStreamTracker)) :
      s.main = .processing (call :: calls) result →
      MainMove e out s
        { s with
          main := .processing calls result
          server := call.onServer s.server
          made := s.made ++ [call] }
  | finish (tracker : Option TcpStreamTracker) :
      s.main = .processing [] (.ok tracker) →
      MainMove e out s { s with main := .receiving tracker }
  | panic (p : Rust.Panic Fn) :
      s.main = .processing [] (.error p) → MainMove e out s { s with main := .panicked }

section

variable {e : Endian} {out : Outputs} {interface : String} {allowed : ServerEvent → Prop}
  {tracker : Option TcpStreamTracker} {s t : Process}

theorem mainMove_of_step {pollOk : Bool} {sinceEpoch : Option Duration} {time : LocalTime}
    (h : s.mainStep e out pollOk sinceEpoch time = some t) : MainMove e out s t := by
  unfold Process.mainStep at h
  cases hmain : s.main with
  | receiving tracker =>
      have hdelivered := Ring.delivered_recvStep (e := e) (s := s.ring) pollOk
      have hone := s.ring.length_frameSlice_le
      simp only [hmain] at h
      cases hslice : s.ring.frameSlice with
      | nil =>
          simp only [hslice, Option.some.injEq] at h
          rw [hslice, List.map_nil, List.append_nil] at hdelivered
          rw [← h, ← hmain]
          exact .recv tracker pollOk hmain hdelivered
      | cons slice rest =>
          simp only [hslice, Option.some.injEq] at h
          -- a step passes one slice to the callback at most
          have hrest : rest = [] := by
            rw [hslice, List.length_cons] at hone
            exact List.length_eq_zero_iff.mp (by omega)
          rw [hslice, hrest] at hdelivered
          rw [← h]
          exact .frame tracker pollOk ⟨_, sinceEpoch, time⟩ hmain hdelivered
  | processing calls result =>
      cases calls with
      | cons call calls =>
          simp only [hmain, Option.some.injEq] at h
          rw [← h]
          exact .call call calls result hmain
      | nil =>
          cases result with
          | ok tracker =>
              simp only [hmain, Option.some.injEq] at h
              rw [← h]
              exact .finish tracker hmain
          | error p =>
              simp only [hmain, Option.some.injEq] at h
              rw [← h]
              exact .panic p hmain
  | panicked => simp [hmain] at h

/-! ## The parts -/

/-- The ring sees the kernel and `recv_block` only. -/
theorem processSts_refines_ring :
    Sts.Refinement (processSts e out interface allowed tracker) (ringSts e) (fun _ => True)
      Process.ring := by
  constructor
  · rintro s ⟨hring, _⟩
    exact hring
  · intro s t _ hstep
    cases hstep with
    | kernel ring hkernel => exact Or.inl (Or.inr hkernel)
    | main _ pollOk sinceEpoch time hmain =>
        cases mainMove_of_step hmain with
        | recv _ pollOk => exact Or.inl (Or.inl ⟨pollOk, rfl⟩)
        | frame _ pollOk => exact Or.inl (Or.inl ⟨pollOk, rfl⟩)
        | call | finish | panic => exact Or.inr rfl
    | server => exact Or.inr rfl

/-- What the server may see of the process. -/
def WithBroadcasts (allowed : ServerEvent → Prop) (event : ServerEvent) : Prop :=
  allowed event ∨ event.sent ≠ []

theorem Call.onServer_cases (call : Call) (server : WebServer) :
    (∃ msg, call.webMessage = some msg ∧ call.onServer server = server.broadcast msg) ∨
      call.webMessage = none ∧ call.onServer server = server := by
  unfold Call.onServer
  cases call.webMessage with
  | some msg => exact Or.inl ⟨msg, rfl, rfl⟩
  | none => exact Or.inr ⟨rfl, rfl⟩

/-- The server sees its own threads and what is broadcast. -/
theorem processSts_refines_web :
    Sts.Refinement (processSts e out interface allowed tracker)
      (webSts interface (WithBroadcasts allowed)) (fun _ => True) Process.server := by
  constructor
  · rintro s ⟨_, _, hserver, _⟩
    exact hserver
  · intro s t _ hstep
    cases hstep with
    | kernel => exact Or.inr rfl
    | main _ pollOk sinceEpoch time hmain =>
        cases mainMove_of_step hmain with
        | recv | frame | finish | panic => exact Or.inr rfl
        | call call =>
            rcases call.onServer_cases s.server with ⟨msg, _, hsent⟩ | ⟨_, hsame⟩
            · left
              exact ⟨.broadcast msg, Or.inr (by simp [ServerEvent.sent]), congrArg some hsent.symm⟩
            · exact Or.inr hsame
    | server event server _ hallowed hserver => exact Or.inl ⟨event, Or.inl hallowed, hserver⟩

theorem Process.ring_reachable (h : (processSts e out interface allowed tracker).Reachable s) :
    (ringSts e).Reachable s.ring :=
  processSts_refines_ring.reachable (fun _ => trivial) h

theorem Process.server_reachable (h : (processSts e out interface allowed tracker).Reachable s) :
    (webSts interface (WithBroadcasts allowed)).Reachable s.server :=
  processSts_refines_web.reachable (fun _ => trivial) h

/-! ## The capture loop -/

/-- The calls the main thread still makes for its packet. -/
def MainThread.callsLeft : MainThread → List Call
  | .processing calls _ => calls
  | .receiving _ | .panicked => []

/-- How the run of the capture loop stands. -/
def MainThread.After (result : Run (Option TcpStreamTracker)) : MainThread → Prop
  | .receiving tracker => result = .ok tracker
  | .processing _ result' => result = result'
  | .panicked => ∃ p, result = .error p

/-- The main thread runs the capture loop on the frames of the ring: they are the
packets processed, the calls made are those of the loop but for the ones that are
still to come, and the server has been given the messages among them. -/
structure Process.Inv (out : Outputs) (tracker : Option TcpStreamTracker) (s : Process) :
    Prop where
  frames : s.packets.map Packet.frame = s.ring.delivered
  after : s.main.After (trackerAfter out tracker s.packets)
  made : s.made ++ s.main.callsLeft = (capture out tracker s.packets).flatMap Prod.snd
  broadcasted : s.server.broadcasted = s.made.filterMap Call.webMessage

theorem Process.Inv.mainMove (h : s.Inv out tracker) (hmove : MainMove e out s t) :
    t.Inv out tracker := by
  rcases h with ⟨hframes, hafter, hmade, hsent⟩
  cases hmove with
  | recv tracker' _ hs hdelivered =>
      exact ⟨hframes.trans hdelivered.symm, hafter, hmade, hsent⟩
  | frame tracker' _ p hs hdelivered =>
      rw [hs] at hafter hmade
      rcases capture_concat hafter p with ⟨hcapture, hresult⟩
      refine ⟨?_, hresult, ?_, hsent⟩
      · rw [List.map_append, hframes, hdelivered]
        rfl
      · rw [hcapture, List.flatMap_append, ← hmade]
        simp [MainThread.callsLeft]
  | call call calls result hs =>
      rw [hs] at hafter hmade
      refine ⟨hframes, hafter, ?_, ?_⟩
      · rw [← hmade, List.append_assoc]
        rfl
      · rcases call.onServer_cases s.server with ⟨msg, hmsg, hbroadcast⟩ | ⟨hnone, hsame⟩
        · have hone : (s.server.broadcast msg).broadcasted = s.server.broadcasted ++ [msg] := by
            simp [WebServer.broadcasted, WebServer.broadcast]
          simp [hbroadcast, hone, hsent, hmsg]
        · simp [hsame, hsent, hnone]
  | finish tracker' hs =>
      rw [hs] at hafter hmade
      exact ⟨hframes, hafter, hmade, hsent⟩
  | panic p hs =>
      rw [hs] at hafter hmade
      exact ⟨hframes, ⟨p, hafter⟩, hmade, hsent⟩

theorem Process.inv_of_reachable (h : (processSts e out interface allowed tracker).Reachable s) :
    s.Inv out tracker := by
  induction h with
  | init hinit =>
      rcases hinit with ⟨⟨_, _, _, _, _, _, hdelivered⟩, hmain, hserver, hpackets, hmade⟩
      refine ⟨?_, ?_, ?_, ?_⟩
      · rw [hpackets, hdelivered]
        rfl
      · rw [hmain, hpackets]
        rfl
      · rw [hmain, hpackets, hmade]
        rfl
      · rw [hserver, hmade]
        rfl
  | @step s t hs hnext ih =>
      cases hnext with
      | kernel ring hkernel =>
          -- the kernel does not call back
          refine ⟨ih.frames.trans ?_, ih.after, ih.made, ih.broadcasted⟩
          cases hkernel with
          | fill => rfl
          | retire => rfl
      | main _ pollOk sinceEpoch time hmain => exact ih.mainMove (mainMove_of_step hmain)
      | server event server hquiet _ hserver =>
          have horderly := WebServer.orderly_of_reachable (Process.server_reachable hs)
          have hsame := WebServer.broadcasted_step horderly hserver
          rw [hquiet, List.append_nil] at hsame
          exact ⟨ih.frames, ih.after, ih.made, hsame.trans ih.broadcasted⟩

/-! ## End to end -/

theorem informsInFull_withBroadcasts (h : ∀ event, allowed event → event.InformsInFull interface)
    (event : ServerEvent) (hevent : WithBroadcasts allowed event) :
    event.InformsInFull interface := by
  rcases hevent with hallowed | hsent
  · exact h event hallowed
  · cases event with
    | broadcast jsonMsg => trivial
    | _ => exact absurd rfl hsent

theorem webMessages_eq (run : List (Packet × List Call)) :
    webMessages run = (run.flatMap Prod.snd).filterMap Call.webMessage := by
  rw [webMessages, List.filterMap_flatMap]

theorem Process.Inv.broadcasted_first (h : s.Inv out tracker) :
    s.server.broadcasted <+: webMessages (capture out tracker s.packets) := by
  rw [webMessages_eq, ← h.made, h.broadcasted, List.filterMap_append]
  exact List.prefix_append _ _

/-- The packets are the first frames handed over. -/
theorem Process.frames_first (h : (processSts e out interface allowed tracker).Reachable s) :
    s.packets.map Packet.frame <+: s.ring.retired.flatten := by
  have hchannel : Channel.fifo.Reachable s.ring.channel :=
    (ringSts_refines_fifo e).reachable Ring.inv_of_reachable (Process.ring_reachable h)
  rw [(Process.inv_of_reachable h).frames]
  exact Channel.received_prefix hchannel

/-- The messages processed are the first ones that are broadcast. -/
theorem Process.processed_first (h : (processSts e out interface allowed tracker).Reachable s) :
    s.server.processed <+: webMessages (capture out tracker s.packets) := by
  refine List.IsPrefix.trans ?_ (Process.inv_of_reachable h).broadcasted_first
  unfold WebServer.broadcasted
  rw [List.append_assoc]
  exact List.prefix_append _ _

end

/-- In every interleaving of the kernel, the main thread and the threads of the
server: the packets processed are the first frames handed over; the calls made are
the first ones the capture loop makes for them, and the messages processed the
first ones among these that the loop broadcasts; and unless a
system info is cut short, a client that is not marked for removal has received
its opening and then a piece of these messages without a gap, from the one that
was next when it joined. -/
theorem process_end_to_end {e : Endian} {out : Outputs} {interface : String}
    {allowed : ServerEvent → Prop} {tracker : Option TcpStreamTracker} {s : Process}
    (h : (processSts e out interface allowed tracker).Reachable s) :
    s.packets.map Packet.frame <+: s.ring.retired.flatten ∧
      s.made <+: (capture out tracker s.packets).flatMap Prod.snd ∧
      s.server.processed <+: webMessages (capture out tracker s.packets) ∧
      ((∀ event, allowed event → event.InformsInFull interface) →
        ∀ i c, s.server.clients[i]? = some c → i ∉ s.server.broadcaster.toRemove →
          ∃ k, c.Received interface
            (((webMessages (capture out tracker s.packets)).drop c.joined).take k)) := by
  have hinv := Process.inv_of_reachable h
  have hsent := hinv.broadcasted_first
  refine ⟨Process.frames_first h, ⟨_, hinv.made⟩, Process.processed_first h, ?_⟩
  · intro hinforms i c hi hunmarked
    have hserver : s.server.Inv interface :=
      WebServer.inv_of_reachable (informsInFull_withBroadcasts hinforms)
        (Process.server_reachable h)
    have hreceived := hserver.sync i c hi hunmarked
    have hjoined := hserver.joined c (List.mem_of_getElem? hi)
    have hpiece : s.server.processed.drop c.joined ++ s.server.broadcaster.sentTo i <+:
        (webMessages (capture out tracker s.packets)).drop c.joined := by
      rw [← List.drop_append_of_le_length hjoined]
      exact ((s.server.processed_sentTo_mono i).trans hsent).drop c.joined
    rw [hserver.interface_eq, List.prefix_iff_eq_take.mp hpiece] at hreceived
    exact ⟨_, hreceived⟩

section

variable {e : Endian} {out : Outputs} {interface : String} {allowed : ServerEvent → Prop}
  {tracker : Option TcpStreamTracker}

/-- Before the first callback: nobody is connected yet, and the ring is as it may be. -/
def Process.before (interface : String) (tracker : Option TcpStreamTracker) (ring : Ring) :
    Process :=
  { ring := ring, main := .receiving tracker, server := .new interface, packets := []
    made := [] }

theorem Process.before_reachable {ring : Ring} (h : (ringSts e).Reachable ring)
    (hnone : ring.delivered = []) :
    (processSts e out interface allowed tracker).Reachable
      (Process.before interface tracker ring) := by
  induction h with
  | init hinit => exact .init ⟨hinit, rfl, rfl, rfl, rfl⟩
  | @step r r' _ hnext ih =>
      rcases hnext with ⟨pollOk, rfl⟩ | hkernel
      · have hdelivered := Ring.delivered_recvStep (e := e) (s := r) pollOk
        rw [hnone] at hdelivered
        rcases List.append_eq_nil_iff.mp hdelivered.symm with ⟨hbefore, hslices⟩
        refine (ih hbefore).step (.main _ _ pollOk none midnight ?_)
        simp [Process.mainStep, Process.before, List.map_eq_nil_iff.mp hslices]
      · have hbefore : r.delivered = [] := by
          cases hkernel with
          | fill => exact hnone
          | retire => exact hnone
        exact (ih hbefore).step (.kernel _ _ hkernel)

/-- Who takes the next step. -/
inductive Process.Turn where
  | main
  | server (event : ServerEvent)

/-- Its step, at midnight and with `poll` answering. -/
def Process.turn (e : Endian) (out : Outputs) (s : Process) : Process.Turn → Option Process
  | .main => s.mainStep e out true none midnight
  | .server event =>
      if event.sent = [] then (s.server.step event).map fun server => { s with server := server }
      else none

def Process.Turn.Allowed (allowed : ServerEvent → Prop) : Process.Turn → Prop
  | .main => True
  | .server event => allowed event

instance [DecidablePred allowed] (turn : Process.Turn) : Decidable (turn.Allowed allowed) :=
  match turn with
  | .main => isTrue trivial
  | .server event => inferInstanceAs (Decidable (allowed event))

theorem Process.reachable_turns (h : (processSts e out interface allowed tracker).Reachable s)
    {turns : List Process.Turn} (hallowed : ∀ turn ∈ turns, turn.Allowed allowed)
    (hrun : turns.foldlM (Process.turn e out) s = some t) :
    (processSts e out interface allowed tracker).Reachable t := by
  induction turns generalizing s with
  | nil =>
      cases hrun
      exact h
  | cons turn turns ih =>
      rw [List.forall_mem_cons] at hallowed
      rw [List.foldlM_cons] at hrun
      rcases Option.bind_eq_some_iff.mp hrun with ⟨next, hstep, hrest⟩
      refine ih (h.step ?_) hallowed.2 hrest
      cases turn with
      | main => exact .main s next true none midnight hstep
      | server event =>
          simp only [Process.turn] at hstep
          split_ifs at hstep with hquiet
          rcases Option.map_eq_some_iff.mp hstep with ⟨server, hserver, rfl⟩
          exact .server s event server hquiet hallowed.1 hserver

end

/-! A page connects, and the datagram in the ring is broadcast to it. -/

/-- The datagram, and a frame too short for any parser in the block behind it. -/
def echoRing : Ring :=
  twoBlockRing [echoPacket.frame] [[171]]

theorem echoRing_reachable : (ringSts .little).Reachable echoRing :=
  twoBlockRing_reachable (by decide +kernel) (by decide +kernel)

/-- Only the dashboard is on, and its writes of the system info go through. -/
abbrev echoSts : Sts Process :=
  processSts .little webOnly "lo" (ServerEvent.InformsInFull "lo") none

/-- One page is connected, and nothing has been broadcast. -/
def connectedServer : WebServer :=
  { WebServer.new "lo" with clients := [⟨sampleAccept, opening "lo" sampleAccept, 0⟩] }

/-- Waiting for the packets in the ring. -/
def connectedProcess : Process :=
  { Process.before "lo" none echoRing with server := connectedServer }

theorem connectedProcess_reachable : echoSts.Reachable connectedProcess := by
  let response := Text.utf8 (switchingProtocols sampleAccept)
  let info := encodeWsTextFrame (sysInfo "lo")
  let responded : WebServer :=
    { WebServer.new "lo" with handshakes := [⟨sampleAccept, response, false⟩] }
  let informed : WebServer :=
    { WebServer.new "lo" with handshakes := [⟨sampleAccept, response ++ info, true⟩] }
  have hrespond : (WebServer.new "lo").step (.respond sampleAccept ⟨response.length, true⟩) =
      some responded := by
    simp [WebServer.step, WebServer.respond, response, writeFlush_all, responded, WebServer.new]
  have hinform : responded.step (.inform 0 ⟨info.length, true⟩) = some informed := by
    have hwrite := writeFlush_all response info
    simp [WebServer.step, WebServer.inform, responded, informed, WebServer.new, info, hwrite]
  have hregister : informed.step (.register 0) = some connectedServer := rfl
  have hbefore : echoSts.Reachable (Process.before "lo" none echoRing) :=
    Process.before_reachable echoRing_reachable rfl
  have hresponded := hbefore.step
    (.server _ (.respond sampleAccept ⟨response.length, true⟩) responded rfl trivial hrespond)
  have hinformed := hresponded.step
    (.server _ (.inform 0 ⟨info.length, true⟩) informed rfl (Nat.le_refl _) hinform)
  exact hinformed.step (.server _ (.register 0) connectedServer rfl trivial hregister)

/-- The datagram is captured, and the broadcaster takes its message and the lock. -/
def captureTurns : List Process.Turn :=
  List.replicate 10 .main ++ [.server .recv, .server .lock]

/-- With a message and the lock, before the first client. -/
def Broadcaster.beginsPass : Broadcaster → Bool
  | .sending _ idx toRemove => idx == 0 && toRemove.isEmpty
  | .waiting | .received _ | .poisoned => false

theorem Broadcaster.eq_sending_of_beginsPass {b : Broadcaster} (h : b.beginsPass = true) :
    ∃ msg, b = .sending msg 0 [] := by
  cases b with
  | sending msg idx toRemove =>
      simp only [beginsPass, Bool.and_eq_true, beq_iff_eq, List.isEmpty_iff] at h
      rw [h.1, h.2]
      exact ⟨msg, rfl⟩
  | waiting | received | poisoned => cases h

/-- With one client on the list a pass that writes the whole frame keeps it. -/
theorem WebServer.exists_pass {server : WebServer} {msg : String} {c : Client}
    (hsending : server.broadcaster = .sending msg 0 []) (hclients : server.clients = [c]) :
    ∃ (o : Outcome) (delivered passed : WebServer), server.step (.deliver o) = some delivered ∧
      delivered.step .release = some passed ∧ passed.broadcaster = .waiting ∧
      passed.processed = server.processed ++ [msg] ∧
      passed.clients.map (fun c => (c.accept, c.joined)) = [(c.accept, c.joined)] := by
  have hwrite := writeFlush_all c.stream (encodeWsTextFrame msg)
  have hdeliver : server.step (.deliver ⟨(encodeWsTextFrame msg).length, true⟩) = some
      { server with
        clients := [{ c with stream := c.stream ++ encodeWsTextFrame msg }]
        broadcaster := .sending msg 1 [] } := by
    simp [WebServer.step, WebServer.deliver, hsending, hclients, hwrite]
  exact ⟨_, _, _, hdeliver, rfl, rfl, rfl, rfl⟩

/-- The datagram has been processed, and its message has gone to the client. -/
theorem echoRun :
    ∃ s : Process, echoSts.Reachable s ∧
      s.packets = [echoPacket] ∧ s.main.callsLeft = [] ∧ s.made.length = 2 ∧
      s.server.processed.length = 1 ∧ s.server.broadcaster = .waiting ∧
      s.server.clients.map (fun c => (c.accept, c.joined)) = [(sampleAccept, 0)] := by
  have hrun : (captureTurns.foldlM (Process.turn .little webOnly) connectedProcess).any (fun s =>
        s.packets = [echoPacket] ∧ s.main.callsLeft.length = 0 ∧ s.made.length = 2 ∧
        s.server.processed = [] ∧
        s.server.clients.map (fun c => (c.accept, c.joined)) = [(sampleAccept, 0)] ∧
        s.server.broadcaster.beginsPass = true) = true := by
    decide +kernel
  rcases (Option.any_eq_true _ _).mp hrun with ⟨s, hs, hend⟩
  rcases of_decide_eq_true hend with ⟨hpackets, hback, hmade, hprocessed, hclients, hsending⟩
  have hreachable := Process.reachable_turns connectedProcess_reachable (by decide +kernel) hs
  rcases Broadcaster.eq_sending_of_beginsPass hsending with ⟨msg, hmsg⟩
  rcases List.map_eq_singleton_iff.mp hclients with ⟨c, hlist, hc⟩
  rcases WebServer.exists_pass hmsg hlist with
    ⟨o, delivered, passed, hdeliver, hrelease, hwaiting, hdone, hkept⟩
  have hdelivered := hreachable.step (.server s (.deliver o) delivered rfl trivial hdeliver)
  have hpassed := hdelivered.step (.server _ .release passed rfl trivial hrelease)
  refine ⟨_, hpassed, hpackets, List.length_eq_zero_iff.mp hback, hmade, ?_, hwaiting, ?_⟩
  · rw [hdone, hprocessed]
    rfl
  · rw [hkept, hc]

/-- The message of the datagram has gone to the client, behind its opening. -/
theorem process_end_to_end_echo :
    ∃ (s : Process) (c : Client), echoSts.Reachable s ∧
      s.packets.map Packet.frame = [echoPacket.frame] ∧
      s.packets.map Packet.frame <+: s.ring.retired.flatten ∧ s.made.length = 2 ∧
      s.made <+: (capture webOnly none s.packets).flatMap Prod.snd ∧
      s.server.processed.length = 1 ∧
      s.server.processed <+: webMessages (capture webOnly none s.packets) ∧
      s.server.clients = [c] ∧ ∃ k, c.Received "lo"
        (((webMessages (capture webOnly none s.packets)).drop 0).take k) := by
  rcases echoRun with ⟨s, hs, hpackets, -, hmade, hprocessed, hwaiting, hclients⟩
  rcases List.map_eq_singleton_iff.mp hclients with ⟨c, hlist, hc⟩
  rcases process_end_to_end hs with ⟨hframes, hcalls, hmessages, hreceived⟩
  have hunmarked : 0 ∉ s.server.broadcaster.toRemove := by
    rw [hwaiting]
    exact List.not_mem_nil
  have hclient := hreceived (fun _ he => he) 0 c (by rw [hlist]; rfl) hunmarked
  rw [(Prod.mk.inj hc).2] at hclient
  exact ⟨s, c, hs, by rw [hpackets]; rfl, hframes, hmade, hcalls, hprocessed, hmessages, hlist,
    hclient⟩

end NetZer

import NetZer.Cli.Setup
import NetZer.Lib.Sts
import NetZer.Socket.Open

/-! # Frames that arrive during the set-up

A packet socket queues frames from the moment it is created, of all interfaces
until it is bound to one, and whatever they are until a filter is attached.
What is queued by then stays queued. So the frames that arrive between the
calls of the set-up decide what the capture loop gets to see first.
-/

namespace NetZer

open Bpf Posix Text

/-! ## The set-up of the raw socket -/

/-- `RawSocket::attach_filter_port`, as a call. -/
def RawSocket.attachFilterPort (self : RawSocket) (port : UInt16) : Sys (Except IoError Unit) :=
  .call (.setsockopt self.fd (.attachFilter (portFilter port))) fun
  | .error errno => .ret (.error (.os errno))
  | .ok _ => .ret (.ok ())

/-- `RawSocket::attach_filter_proto`, as a call. -/
def RawSocket.attachFilterProto (self : RawSocket) (proto : String) :
    Sys (Except IoError Unit) :=
  match protoFilter proto with
  | .error e => .ret (.error e)
  | .ok prog =>
    .call (.setsockopt self.fd (.attachFilter prog)) fun
    | .error errno => .ret (.error (.os errno))
    | .ok _ => .ret (.ok ())

/-- `if let Some(port) = args.filter_port`. -/
def callAttachPort (args : Args) (sock : RawSocket) : Sys (Except IoError Unit) :=
  match args.filterPort with
  | none => .ret (.ok ())
  | some port => sock.attachFilterPort port

/-- `if let Some(ref proto) = args.filter_proto`. -/
def callAttachProto (args : Args) (sock : RawSocket) : Sys (Except IoError Unit) :=
  match args.filterProto with
  | none => .ret (.ok ())
  | some proto => sock.attachFilterProto proto

/-- The filters, the port first. -/
def callAttachFilters (args : Args) (sock : RawSocket) : Sys (Except Exit RawSocket) :=
  (callAttachPort args sock).bind fun
  | .error e =>
    .ret (.error { message := "Failed to attach BPF port filter.", details := e, hint := none })
  | .ok () =>
    (callAttachProto args sock).bind fun
    | .error e =>
      .ret
        (.error { message := "Failed to attach BPF protocol filter.", details := e, hint := none })
    | .ok () => .ret (.ok sock)

/-- `main` without `--ring-buffer`, as far as it concerns the socket. -/
def setUpRaw (args : Args) : Sys (Except Exit RawSocket) :=
  (RawSocket.new args.interface).bind fun
  | .error e =>
    .ret
      (.error
        { message := "Failed to open raw socket.", details := e, hint := some (rawSocketHint e) })
  | .ok sock => callAttachFilters args sock

/-! ## The kernel's side -/

/-- A packet socket: its filter, and the interface it is bound to. -/
structure BoundSocket extends PacketSocket where
  bound : Option Nat
deriving DecidableEq, Repr

/-- The socket after a call of the process. -/
def BoundSocket.after (sock : Option BoundSocket) : Syscall → Answer → Option BoundSocket
  | .socket .., .ok _ => some { filter := none, bound := none }
  | .bind _ sll, .ok _ =>
      -- the index 0 stands for all interfaces
      sock.map fun s => { s with bound := if sll.sllIfindex = 0 then none else some sll.sllIfindex }
  | .setsockopt _ (.attachFilter prog), .ok _ => sock.map fun s => { s with filter := some prog }
  | .close _, _ => none
  | _, _ => sock

/-- A frame, with the index of the interface it arrives on. -/
structure Arrival where
  ifindex : Nat
  frame : List UInt8
deriving DecidableEq, Repr

/-- The socket queues the frame. -/
def BoundSocket.Queues (s : BoundSocket) (a : Arrival) : Prop :=
  (∀ ifindex ∈ s.bound, a.ifindex = ifindex) ∧ s.Delivers a.frame

instance (s : BoundSocket) (a : Arrival) : Decidable (s.Queues a) :=
  inferInstanceAs (Decidable ((∀ ifindex ∈ s.bound, _) ∧ ∀ prog ∈ s.filter, Accepts prog a.frame))

/-! ## Runs -/

/-- The process and its socket. -/
structure CaptureState where
  /-- What the set-up still does. -/
  program : Sys (Except Exit RawSocket)
  socket : Option BoundSocket
  /-- The frames that wait in the socket. -/
  queue : List Arrival
  /-- The frames `recv` has returned. -/
  received : List Arrival

inductive CaptureEvent where
  | call
  | arrive (a : Arrival)
  | recv
deriving DecidableEq, Repr

namespace CaptureState

def start (args : Args) : CaptureState :=
  { program := setUpRaw args, socket := none, queue := [], received := [] }

/-- The set-up is over and the capture loop runs. -/
def Capturing (s : CaptureState) : Prop :=
  ∃ sock, s.program = .ret (.ok sock)

/-- The next call of the set-up. -/
def call (k : Kernel) (s : CaptureState) : Option CaptureState :=
  match s.program with
  | .ret _ => none
  | .call c rest =>
      some
        { s with
          program := rest (k.answer c)
          socket := BoundSocket.after s.socket c (k.answer c) }

/-- A frame arrives on some interface of the host. One that finds the queue full
is lost, as if it had not arrived. -/
def arrive (s : CaptureState) (a : Arrival) : CaptureState :=
  match s.socket with
  | none => s
  | some sock => if sock.Queues a then { s with queue := s.queue ++ [a] } else s

/-- `RawSocket::recv` in the capture loop. -/
def recv (s : CaptureState) : Option CaptureState :=
  match s.program, s.queue with
  | .ret (.ok _), a :: queue => some { s with queue := queue, received := s.received ++ [a] }
  | _, _ => none

def step (k : Kernel) (s : CaptureState) : CaptureEvent → Option CaptureState
  | .call => s.call k
  | .arrive a => some (s.arrive a)
  | .recv => s.recv

end CaptureState

/-- The process under events of some kind, in any order. -/
def captureSts (k : Kernel) (args : Args) (allowed : CaptureState → CaptureEvent → Prop) :
    Sts CaptureState :=
  .ofEvents (.start args) (CaptureState.step k) allowed

/-! ## What is asked for -/

/-- The program of the filter that is asked for, if it is a single one. -/
def Args.singleFilter (args : Args) : Option Program :=
  match args.filterPort, args.filterProto with
  | some port, none => some (portFilter port)
  | none, some proto => (protoFilter proto).toOption
  | _, _ => none

/-- The index belongs to the interface the user names. -/
def Args.Names (k : Kernel) (args : Args) (ifindex : Nat) : Prop :=
  (k.ifindex (utf8 args.interface)).toOption.map Subtype.val = some ifindex

instance (k : Kernel) (args : Args) (ifindex : Nat) : Decidable (args.Names k ifindex) :=
  inferInstanceAs (Decidable (_ = _))

/-- A frame the user asks for. -/
structure Args.Wants (k : Kernel) (args : Args) (a : Arrival) : Prop where
  interface : args.Names k a.ifindex
  filter : ∀ prog ∈ args.singleFilter, Accepts prog a.frame

/-- Before the capture loop: until the socket is bound, a frame is one of the
named interface; and until the filter is attached, if a single one is asked
for, a frame of this interface is one the filter accepts. -/
def EarlyWanted (k : Kernel) (args : Args) (s : CaptureState) : CaptureEvent → Prop
  | .arrive a => ¬ s.Capturing → ∀ sock ∈ s.socket,
      (sock.bound = none → args.Names k a.ifindex) ∧
      (sock.filter = none → args.Names k a.ifindex →
        ∀ prog ∈ args.singleFilter, Accepts prog a.frame)
  | _ => True

/-! ## The set-up, call by call -/

/-- At any time in the set-up: the socket is bound to the named interface or to
none, and has no filter but the one that is asked for. -/
def Steady (k : Kernel) (args : Args) (sock : Option BoundSocket) : Prop :=
  ∀ s ∈ sock, (∀ ifindex ∈ s.bound, args.Names k ifindex) ∧
    ∀ prog ∈ s.filter, ∀ prog' ∈ args.singleFilter, prog = prog'

/-- `RawSocket::new` returns a socket that is bound, and has no filter. -/
def OpenedRaw (sock : Option BoundSocket) (result : Except IoError RawSocket) : Prop :=
  ∀ raw, result = .ok raw → ∃ s, sock = some s ∧ s.bound ≠ none ∧ s.filter = none

/-- What the capture loop is entered with. -/
def SetUp (args : Args) (sock : Option BoundSocket) (result : Except Exit RawSocket) : Prop :=
  ∀ raw, result = .ok raw →
    ∃ s, sock = some s ∧ s.bound ≠ none ∧ (args.singleFilter ≠ none → s.filter ≠ none)

section

variable {k : Kernel} {args : Args}

theorem steady_none : Steady k args none := by
  intro s hs
  cases hs

theorem RawSocket.new_through :
    (RawSocket.new args.interface).Through k.answer BoundSocket.after (Steady k args) OpenedRaw
      none := by
  have hfresh : Steady k args (some { filter := none, bound := none }) := by
    rintro s ⟨⟩
    simp
  have hfailed : ∀ (sock : Option BoundSocket) (e : IoError), OpenedRaw sock (.error e) := by
    intro sock e raw h
    cases h
  unfold RawSocket.new
  refine ⟨steady_none, ?_⟩
  -- the calls in the order they are made; what fails leaves a socket without a filter
  cases hsocket : k.socket with
  | error errno =>
      simp [hsocket, BoundSocket.after, Calls.Through, steady_none, hfailed]
  | ok fd =>
      by_cases hnul : 0 ∈ utf8 args.interface
      · simp [hsocket, BoundSocket.after, Calls.Through, cString_of_nul hnul, hfresh, hfailed]
      have hbytes := cString_of_not_nul hnul
      by_cases hlen : (utf8 args.interface).length ≤ 15
      · have hfits : ¬ 16 < (utf8 args.interface).length + 1 := by omega
        have hname := kernelName_ifrName hnul hlen
        cases hindex : k.ifindex (utf8 args.interface) with
        | error errno =>
            simp [hsocket, BoundSocket.after, Calls.Through, hbytes, hfits, hname, hindex,
              Except.map, hfresh, steady_none, hfailed]
        | ok index =>
            have hpos : index.val ≠ 0 := Nat.ne_of_gt index.2
            have hbound : Steady k args (some { filter := none, bound := some index.val }) := by
              rintro s ⟨⟩
              simp [Args.Names, hindex, Except.toOption]
            have hopened (raw : RawSocket) :
                OpenedRaw (some { filter := none, bound := some index.val }) (.ok raw) := by
              intro raw _
              exact ⟨_, rfl, by simp, rfl⟩
            cases hbind : k.bind with
            | some errno =>
                simp [hsocket, BoundSocket.after, Calls.Through, hbytes, hfits, hname, hindex,
                  Except.map, hbind, hfresh, steady_none, hfailed]
            | none =>
                simp [hsocket, BoundSocket.after, Calls.Through, hbytes, hfits, hname, hindex,
                  Except.map, hbind, hpos, sockaddrLl, hfresh, hbound, hopened]
      · have hlong : 16 < (utf8 args.interface).length + 1 := by omega
        simp [hsocket, BoundSocket.after, Calls.Through, hbytes, hlong, hfresh, hfailed]

/-- A socket that is bound, and has a filter if there was something to attach. -/
def Attached (asked : Prop) (sock : Option BoundSocket) (result : Except IoError Unit) : Prop :=
  result = .ok () → ∃ s, sock = some s ∧ s.bound ≠ none ∧ (asked → s.filter ≠ none)

theorem not_attached {asked : Prop} {sock : Option BoundSocket} {e : IoError} :
    Attached asked sock (.error e) := by
  intro h
  cases h

/-- A call that attaches the program asked for, or fails. -/
theorem attach_through {prog : Program} (hprog : ∀ prog' ∈ args.singleFilter, prog = prog')
    {s : BoundSocket} (hsteady : Steady k args (some s)) (hbound : s.bound ≠ none) {asked : Prop}
    (fd : Nat) :
    (Calls.call (Syscall.setsockopt fd (.attachFilter prog)) fun (r : Answer) =>
      match r with
      | .error errno => .ret (.error (.os errno))
      | .ok _ => .ret (.ok ())).Through k.answer BoundSocket.after (Steady k args)
        (Attached asked) (some s) := by
  refine ⟨hsteady, ?_⟩
  -- the socket changes only if the call succeeds
  cases hattach : k.attachFilter prog with
  | some errno =>
      simp [hattach, BoundSocket.after, Calls.Through, hsteady, not_attached]
  | none =>
      have hsteady' : Steady k args (some { s with filter := some prog }) := by
        rintro t ⟨⟩
        refine ⟨(hsteady s rfl).1, ?_⟩
        rintro p ⟨⟩
        exact hprog
      have hattached : Attached asked (some { s with filter := some prog }) (.ok ()) := by
        intro _
        exact ⟨_, rfl, hbound, by simp⟩
      simp [hattach, BoundSocket.after, Calls.Through, hsteady', hattached]

theorem singleFilter_of_port {port : UInt16} (hport : args.filterPort = some port) :
    ∀ prog ∈ args.singleFilter, portFilter port = prog := by
  intro prog hprog
  cases hproto : args.filterProto with
  | none => simpa [Args.singleFilter, hport, hproto] using hprog
  | some proto => simp [Args.singleFilter, hport, hproto] at hprog

theorem singleFilter_of_proto {proto : String} {prog : Program}
    (hproto : args.filterProto = some proto) (hprog : protoFilter proto = .ok prog) :
    ∀ prog' ∈ args.singleFilter, prog = prog' := by
  intro prog' hprog'
  cases hport : args.filterPort with
  | none => simpa [Args.singleFilter, hport, hproto, hprog, Except.toOption] using hprog'
  | some port => simp [Args.singleFilter, hport, hproto] at hprog'

theorem callAttachPort_through (raw : RawSocket) {s : BoundSocket}
    (hsteady : Steady k args (some s)) (hbound : s.bound ≠ none) :
    (callAttachPort args raw).Through k.answer BoundSocket.after (Steady k args)
      (Attached (args.filterPort ≠ none)) (some s) := by
  unfold callAttachPort
  cases hport : args.filterPort with
  | none =>
      refine ⟨hsteady, fun _ => ⟨s, rfl, hbound, ?_⟩⟩
      intro h
      exact absurd rfl h
  | some port => exact attach_through (singleFilter_of_port hport) hsteady hbound raw.fd

theorem callAttachProto_through (raw : RawSocket) {s : BoundSocket}
    (hsteady : Steady k args (some s)) (hbound : s.bound ≠ none)
    (hport : args.filterPort ≠ none → s.filter ≠ none) :
    (callAttachProto args raw).Through k.answer BoundSocket.after (Steady k args)
      (Attached (args.filterPort ≠ none ∨ args.filterProto ≠ none)) (some s) := by
  unfold callAttachProto
  cases hproto : args.filterProto with
  | none =>
      refine ⟨hsteady, fun _ => ⟨s, rfl, hbound, ?_⟩⟩
      rintro (h | h)
      · exact hport h
      · exact absurd rfl h
  | some proto =>
      simp only [RawSocket.attachFilterProto]
      cases hprog : protoFilter proto with
      | error e => exact ⟨hsteady, not_attached⟩
      | ok prog => exact attach_through (singleFilter_of_proto hproto hprog) hsteady hbound raw.fd

theorem singleFilter_asked (h : args.singleFilter ≠ none) :
    args.filterPort ≠ none ∨ args.filterProto ≠ none := by
  by_contra hnone
  rw [not_or, not_not, not_not] at hnone
  exact h (by simp [Args.singleFilter, hnone.1, hnone.2])

/-- The whole set-up is steady, and leads to a socket that is bound and has its
filter. -/
theorem setUpRaw_through :
    (setUpRaw args).Through k.answer BoundSocket.after (Steady k args) (SetUp args) none := by
  have hfailed : ∀ (sock : Option BoundSocket) (e : Exit), SetUp args sock (.error e) := by
    intro sock e raw h
    cases h
  -- each part begins in the state the one before has left
  refine Calls.Through.bind ?_ RawSocket.new_through
  intro sock opened hsteady hopened
  cases opened with
  | error e => exact ⟨hsteady, hfailed _ _⟩
  | ok raw =>
      rcases hopened raw rfl with ⟨s, rfl, hbound, _⟩
      refine Calls.Through.bind ?_ (callAttachPort_through raw hsteady hbound)
      intro sock result hsteady hport
      cases result with
      | error e => exact ⟨hsteady, hfailed _ _⟩
      | ok _ =>
          rcases hport rfl with ⟨s, rfl, hbound, hfilter⟩
          refine Calls.Through.bind ?_ (callAttachProto_through raw hsteady hbound hfilter)
          intro sock result hsteady hproto
          cases result with
          | error e => exact ⟨hsteady, hfailed _ _⟩
          | ok _ =>
              refine ⟨hsteady, fun _ _ => ?_⟩
              rcases hproto rfl with ⟨s, hs, hbound, hfilter⟩
              exact ⟨s, hs, hbound, fun h => hfilter (singleFilter_asked h)⟩

/-! ## The invariant -/

/-- What is still to be done goes well, and everything in the queue or behind it
is wanted. -/
structure CaptureState.Inv (k : Kernel) (args : Args) (s : CaptureState) : Prop where
  through : s.program.Through k.answer BoundSocket.after (Steady k args) (SetUp args) s.socket
  queue : ∀ a ∈ s.queue, args.Wants k a
  received : ∀ a ∈ s.received, args.Wants k a

/-- A frame that gets into the queue is wanted: early ones are by assumption,
later ones because the socket is bound and filtered. -/
theorem wants_of_queues {s : CaptureState} (h : s.Inv k args) {a : Arrival}
    (hallowed : EarlyWanted k args s (.arrive a)) {sock : BoundSocket}
    (hsock : s.socket = some sock) (hqueues : sock.Queues a) : args.Wants k a := by
  rcases h.through.now sock hsock with ⟨hnamed, hasked⟩
  rcases hqueues with ⟨hbound, hdelivers⟩
  -- with the socket in its final state there is nothing to assume
  have hlate : s.Capturing →
      sock.bound ≠ none ∧ (args.singleFilter ≠ none → sock.filter ≠ none) := by
    rintro ⟨raw, hraw⟩
    have hend := h.through
    rw [hraw] at hend
    rcases hend.2 raw rfl with ⟨t, ht, hready⟩
    have heq : sock = t := Option.some.inj (hsock.symm.trans ht)
    exact heq ▸ hready
  have hinterface : args.Names k a.ifindex := by
    cases hb : sock.bound with
    | some ifindex =>
        rw [hbound ifindex hb]
        exact hnamed ifindex hb
    | none =>
        have hearly : ¬ s.Capturing := fun hcap => (hlate hcap).1 hb
        exact (hallowed hearly sock hsock).1 hb
  refine ⟨hinterface, ?_⟩
  intro prog hprog
  cases hf : sock.filter with
  | some prog' =>
      rw [← hasked prog' hf prog hprog]
      exact hdelivers prog' hf
  | none =>
      have hearly : ¬ s.Capturing := by
        intro hcap
        exact (hlate hcap).2 (by rw [hprog]; simp) hf
      exact (hallowed hearly sock hsock).2 hf hinterface prog hprog

theorem CaptureState.Inv.call {s t : CaptureState} (h : s.Inv k args) (hstep : s.call k = some t) :
    t.Inv k args := by
  unfold CaptureState.call at hstep
  split at hstep
  · cases hstep
  · rename_i c rest hprogram
    obtain rfl := Option.some.inj hstep
    have hthrough := h.through
    rw [hprogram] at hthrough
    exact { h with through := hthrough.step }

theorem CaptureState.Inv.arrive {s : CaptureState} (h : s.Inv k args) {a : Arrival}
    (hallowed : EarlyWanted k args s (.arrive a)) : (s.arrive a).Inv k args := by
  unfold CaptureState.arrive
  split
  · exact h
  · rename_i sock hsock
    split
    · rename_i hqueues
      refine { h with queue := ?_ }
      intro b hb
      rcases List.mem_append.mp hb with hb | hb
      · exact h.queue b hb
      · rw [List.mem_singleton.mp hb]
        exact wants_of_queues h hallowed hsock hqueues
    · exact h

theorem CaptureState.Inv.recv {s t : CaptureState} (h : s.Inv k args) (hstep : s.recv = some t) :
    t.Inv k args := by
  unfold CaptureState.recv at hstep
  split at hstep
  · rename_i a queue _ hqueue
    obtain rfl := Option.some.inj hstep
    have hall : ∀ b ∈ a :: queue, args.Wants k b := hqueue ▸ h.queue
    refine { h with queue := fun b hb => hall b (List.mem_cons_of_mem a hb), received := ?_ }
    intro b hb
    rcases List.mem_append.mp hb with hb | hb
    · exact h.received b hb
    · rw [List.mem_singleton.mp hb]
      exact hall a List.mem_cons_self
  · cases hstep

theorem CaptureState.Inv.step {s t : CaptureState} (h : s.Inv k args) {e : CaptureEvent}
    (hallowed : EarlyWanted k args s e) (hstep : s.step k e = some t) : t.Inv k args := by
  cases e with
  | call => exact h.call hstep
  | arrive a => exact Option.some.inj hstep ▸ h.arrive hallowed
  | recv => exact h.recv hstep

end

/-- In every run in which the frames that arrive early are wanted, `recv`
returns nothing else: frames of the named interface, which the filter accepts. -/
theorem recv_wanted (k : Kernel) (args : Args) (s : CaptureState)
    (h : (captureSts k args (EarlyWanted k args)).Reachable s) :
    ∀ a ∈ s.received, args.Wants k a := by
  have hinv : s.Inv k args := by
    refine Sts.Reachable.invariant (CaptureState.Inv k args) ?_ ?_ h
    · rintro s rfl
      exact ⟨setUpRaw_through, by simp [CaptureState.start], by simp [CaptureState.start]⟩
    · rintro s t hs ⟨e, he, hstep⟩
      exact hs.step he hstep
  exact hinv.received

/-- An ARP request on `eth0`, before the socket is bound; ARP is asked for. -/
theorem recv_wanted_arp :
    ∃ s, (captureSts oneInterface (filterArgs none (some "arp") false)
        (EarlyWanted oneInterface (filterArgs none (some "arp") false))).Reachable s ∧
      s.received = [⟨2, arpRequest⟩] ∧
      ∀ a ∈ s.received, (filterArgs none (some "arp") false).Wants oneInterface a := by
  have hrun : ([.call, .arrive ⟨2, arpRequest⟩, .call, .call, .call, .recv].foldlM
      (CaptureState.step oneInterface) (.start (filterArgs none (some "arp") false))).any
      (fun s => s.received = [⟨2, arpRequest⟩]) = true := by
    decide +kernel
  -- the frame came in early, on the named interface, and the filter accepts it
  have hnamed : (filterArgs none (some "arp") false).Names oneInterface 2 := by decide +kernel
  have haccepts : ∀ prog ∈ (filterArgs none (some "arp") false).singleFilter,
      Accepts prog arpRequest := by
    decide +kernel
  rcases (Option.any_eq_true _ _).mp hrun with ⟨s, hs, hreceived⟩
  have hreach : (captureSts oneInterface (filterArgs none (some "arp") false)
      (EarlyWanted oneInterface (filterArgs none (some "arp") false))).Reachable s := by
    refine Sts.Reachable.events ?_ (.init rfl) hs
    intro e he s
    cases e with
    | call => trivial
    | recv => trivial
    | arrive a =>
        have ha : a = ⟨2, arpRequest⟩ := by simpa using he
        intro _ _ _
        rw [ha]
        exact ⟨fun _ => hnamed, fun _ _ => haccepts⟩
  exact ⟨s, hreach, of_decide_eq_true hreceived, recv_wanted _ _ s hreach⟩

/-- A frame arrives on another interface between `socket` and `bind`, and is
returned later. -/
theorem recv_unwanted :
    ¬ ∀ (args : Args) (s : CaptureState),
      (captureSts oneInterface args fun _ _ => True).Reachable s →
        ∀ a ∈ s.received, args.Wants oneInterface a := by
  intro hall
  have hrun : ([.call, .arrive ⟨1, arpRequest⟩, .call, .call, .recv].foldlM
      (CaptureState.step oneInterface) (.start (filterArgs none none false))).any
      (fun s => s.received = [⟨1, arpRequest⟩]) = true := by
    decide +kernel
  rcases (Option.any_eq_true _ _).mp hrun with ⟨s, hs, hreceived⟩
  have hreach :
      (captureSts oneInterface (filterArgs none none false) fun _ _ => True).Reachable s :=
    Sts.Reachable.events (fun _ _ _ => trivial) (.init rfl) hs
  have hwants := hall _ s hreach ⟨1, arpRequest⟩ (by
    rw [of_decide_eq_true hreceived]
    exact List.mem_singleton_self _)
  have hother : ¬ (filterArgs none none false).Names oneInterface 1 := by decide +kernel
  exact hother hwants.interface

end NetZer

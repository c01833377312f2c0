import NetZer.Cli.ProcessPacket
import NetZer.Socket.Filter
import NetZer.Socket.Privileges

/-! # Setting up a capture

`main` up to its capture loop: open a socket for the chosen mode, attach the
filters, create the export files, drop privileges. The filters are attached to
the raw socket only, one after the other, and the kernel keeps the last one;
the status lines report every filter that was asked for as active.
-/

namespace NetZer

open Bpf Bytes Posix

/-- The command line. -/
structure Args where
  interface : String
  filterPort : Option UInt16
  filterProto : Option String
  exportPcap : Option String
  exportJson : Option String
  hexdump : Bool
  followStreams : Bool
  ringBuffer : Bool
  serve : Bool
  port : UInt16
deriving DecidableEq, Repr

/-- What the system answers during the set-up, and what it knows of the
process. -/
structure System where
  /-- `RingSocket::new` or `RawSocket::new` fails. -/
  openSocket : Option IoError
  attachPort : Option Nat
  attachProto : Option Nat
  createPcap : Option IoError
  createJson : Option IoError
  env : SudoEnv
  refusals : Refusals
  credentials : Credentials

/-- `process::exit(1)` after an error message, its details and a hint. -/
structure Exit where
  message : String
  details : IoError
  hint : Option String
deriving DecidableEq, Repr

/-- What `main` enters its capture loop with. -/
structure Running where
  rawSocket : Option PacketSocket
  ringSocket : Option PacketSocket
  outputs : Outputs
  streamTracker : Option TcpStreamTracker
  credentials : Credentials

/-! ## The set-up, step by step -/

/-- The hint for a raw socket that cannot be opened. -/
def rawSocketHint (e : IoError) : String :=
  match e with
  | .os 1 | .os 13 => "Hint: NetZer requires CAP_NET_RAW. Try running with 'sudo'."
  | .os 19 => "Hint: The specified interface does not exist. Check 'ifconfig' or 'ip link'."
  | _ => "Hint: Ensure the interface is up and you have sufficient permissions."

/-- The raw and the ring socket: exactly one of them is opened. -/
def openSockets (args : Args) (sys : System) :
    Except Exit (Option PacketSocket × Option PacketSocket) :=
  if args.ringBuffer then
    match sys.openSocket with
    | none => .ok (none, some .new)
    | some e =>
        .error
          { message := "Failed to open ring socket (TPACKET_V3).", details := e,
            hint := some "Hint: TPACKET_V3 requires a kernel >= 3.2 and CAP_NET_RAW." }
  else
    match sys.openSocket with
    | none => .ok (some .new, none)
    | some e =>
        .error
          { message := "Failed to open raw socket.", details := e, hint := some (rawSocketHint e) }

/-- `if let Some(port) = args.filter_port`. -/
def attachPort (args : Args) (sys : System) (sock : PacketSocket) : Except Exit PacketSocket :=
  match args.filterPort with
  | none => .ok sock
  | some port =>
      match attachFilterPort sock port sys.attachPort with
      | .ok sock => .ok sock
      | .error e =>
          .error { message := "Failed to attach BPF port filter.", details := e, hint := none }

/-- `if let Some(ref proto) = args.filter_proto`. -/
def attachProto (args : Args) (sys : System) (sock : PacketSocket) : Except Exit PacketSocket :=
  match args.filterProto with
  | none => .ok sock
  | some proto =>
      match attachFilterProto sock proto sys.attachProto with
      | .ok sock => .ok sock
      | .error e =>
          .error { message := "Failed to attach BPF protocol filter.", details := e, hint := none }

/-- The filters of the raw socket, the port first. -/
def attachFilters (args : Args) (sys : System) (sock : PacketSocket) :
    Except Exit PacketSocket := do
  attachProto args sys (← attachPort args sys sock)

/-- `if let Some(ref sock) = raw_socket`. -/
def attachToRaw (args : Args) (sys : System) : Option PacketSocket →
    Except Exit (Option PacketSocket)
  | none => .ok none
  | some sock => do return some (← attachFilters args sys sock)

/-- An export file, if one is asked for. -/
def createFile (path : Option String) (failure : Option IoError) (message : String) :
    Except Exit Bool :=
  match path, failure with
  | none, _ => .ok false
  | some _, none => .ok true
  | some _, some e => .error { message := message, details := e, hint := none }

/-- `main` up to its capture loop. -/
def setup (args : Args) (sys : System) : Except Exit Running := do
  let (raw, ring) ← openSockets args sys
  let raw ← attachToRaw args sys raw
  let pcap ← createFile args.exportPcap sys.createPcap "Failed to create PCAP file"
  let json ← createFile args.exportJson sys.createJson "Failed to create JSON file"
  -- after the sockets, the filters and the export files
  let dropped := dropPrivileges sys.env sys.refusals sys.credentials
  match dropped.result with
  | .error e => .error { message := "Failed to drop root privileges.", details := e, hint := none }
  -- the tracker and the outputs are as asked for, whatever the capture mode
  | .ok () =>
      return {
        rawSocket := raw
        ringSocket := ring
        outputs :=
          { pcapWriter := pcap, jsonWriter := json, showHexdump := args.hexdump,
            webServer := args.serve }
        streamTracker := if args.followStreams then some .new else none
        credentials := dropped.credentials }

/-- The frames the capture loop hands to `process_packet`: in ring mode those
of the ring socket, otherwise those of the raw socket. -/
def Running.HandsOver (run : Running) (frame : List UInt8) : Prop :=
  match run.ringSocket, run.rawSocket with
  | some ring, _ => ring.Delivers frame
  | none, some raw => raw.Delivers frame
  | none, none => False

/-! ## The status lines -/

/-- A line `main` prints before the capture loop. -/
inductive StatusLine where
  | system (label value : String)
  /-- `[SECURITY] BPF Kernel Filters Active:` -/
  | filtersActive
  /-- `- Port: …` -/
  | filterPort (port : UInt16)
  /-- `- Protocol: …`, in upper case. -/
  | filterProto (proto : String)
deriving DecidableEq, Repr

def lineIf (b : Bool) (line : StatusLine) : List StatusLine :=
  if b then [line] else []

/-- The filters asked for, port first. -/
def filterLines (args : Args) : List StatusLine :=
  lineIf (args.filterPort.isSome || args.filterProto.isSome) .filtersActive ++
    args.filterPort.toList.map .filterPort ++ args.filterProto.toList.map .filterProto

def statusLines (args : Args) : List StatusLine :=
  lineIf args.ringBuffer (.system "Capture Mode" "TPACKET_V3 Ring Buffer (zero-copy mmap)") ++
  lineIf args.hexdump
    (.system "Hex/ASCII Dump" "Active (printing raw bytes for each packet)") ++
  lineIf args.followStreams
    (.system "Follow Streams" "Active (TCP stream reassembly enabled)") ++
  lineIf args.serve
    (.system "OSINT Dashboard"
      ("Active (http://127.0.0.1:" ++ toString args.port.toNat ++ ")")) ++
  filterLines args ++
  args.exportPcap.toList.map (.system "PCAP Export") ++
  args.exportJson.toList.map (.system "JSON Export")

/-- The filters are reported as active whenever one is asked for, in either
capture mode. -/
theorem filtersActive_mem_statusLines_iff (args : Args) :
    .filtersActive ∈ statusLines args ↔
      args.filterPort.isSome = true ∨ args.filterProto.isSome = true := by
  simp [statusLines, filterLines, lineIf]

/-! ## What the set-up leaves -/

theorem attachPort_ok {args : Args} {sys : System} {sock sock' : PacketSocket}
    (h : attachPort args sys sock = .ok sock') :
    sock'.filter = (args.filterPort.map portFilter).or sock.filter := by
  unfold attachPort at h
  cases hport : args.filterPort with
  | none =>
      simp only [hport, Except.ok.injEq] at h
      simp [h]
  | some port =>
      cases hanswer : sys.attachPort with
      | none =>
          simp only [hport, attachFilterPort, PacketSocket.attach, hanswer, Except.ok.injEq] at h
          simp [← h]
      | some errno =>
          simp [hport, attachFilterPort, PacketSocket.attach, hanswer] at h

theorem attachProto_ok {args : Args} {sys : System} {sock sock' : PacketSocket}
    (h : attachProto args sys sock = .ok sock') :
    (args.filterProto = none ∧ sock' = sock) ∨
      ∃ proto prog, args.filterProto = some proto ∧ protoFilter proto = .ok prog ∧
        sock'.filter = some prog := by
  unfold attachProto at h
  -- no protocol asked for; or it has a program, and the system attaches it
  cases hproto : args.filterProto with
  | none =>
      simp only [hproto, Except.ok.injEq] at h
      exact Or.inl ⟨rfl, h.symm⟩
  | some proto =>
      cases hprog : protoFilter proto with
      | error e => simp [hproto, attachFilterProto, hprog, bind, Except.bind] at h
      | ok prog =>
          cases hanswer : sys.attachProto with
          | some errno =>
              simp [hproto, attachFilterProto, hprog, PacketSocket.attach, hanswer, bind,
                Except.bind] at h
          | none =>
              simp only [hproto, attachFilterProto, hprog, PacketSocket.attach, hanswer, bind,
                Except.bind, Except.ok.injEq] at h
              exact Or.inr ⟨proto, prog, rfl, hprog, by simp [← h]⟩

/-- The last filter that is asked for is the one the raw socket has. -/
theorem attachFilters_ok {args : Args} {sys : System} {sock : PacketSocket}
    (h : attachFilters args sys .new = .ok sock) :
    (args.filterProto = none ∧ sock.filter = args.filterPort.map portFilter) ∨
      ∃ proto prog, args.filterProto = some proto ∧ protoFilter proto = .ok prog ∧
        sock.filter = some prog := by
  rcases Rust.bind_eq_ok.mp h with ⟨sock', hport, hproto⟩
  rcases attachProto_ok hproto with ⟨hnone, rfl⟩ | hlast
  · left
    exact ⟨hnone, by simpa [PacketSocket.new] using attachPort_ok hport⟩
  · exact Or.inr hlast

/-- What `main` enters its capture loop with: the sockets of the chosen mode,
the raw one with its filters, and what `drop_privileges` left. -/
theorem setup_ok {args : Args} {sys : System} {run : Running} (h : setup args sys = .ok run) :
    ((args.ringBuffer = true ∧ run.rawSocket = none ∧ run.ringSocket = some .new) ∨
      (args.ringBuffer = false ∧ run.ringSocket = none ∧
        ∃ sock, attachFilters args sys .new = .ok sock ∧ run.rawSocket = some sock)) ∧
    (dropPrivileges sys.env sys.refusals sys.credentials).result = .ok () ∧
      run.credentials = (dropPrivileges sys.env sys.refusals sys.credentials).credentials := by
  rcases Rust.bind_eq_ok.mp h with ⟨⟨raw, ring⟩, hopen, h⟩
  rcases Rust.bind_eq_ok.mp h with ⟨raw', hattach, h⟩
  rcases Rust.bind_eq_ok.mp h with ⟨pcap, hpcap, h⟩
  rcases Rust.bind_eq_ok.mp h with ⟨json, hjson, h⟩
  cases hdrop : (dropPrivileges sys.env sys.refusals sys.credentials).result with
  | error e => simp [hdrop] at h
  | ok u =>
      simp only [hdrop, pure, Except.pure, Except.ok.injEq] at h
      subst h
      refine ⟨?_, rfl, rfl⟩
      -- the mode decides which socket is opened; a failure does not get to the loop
      cases hring : args.ringBuffer with
      | true =>
          left
          cases hsys : sys.openSocket with
          | some e => simp [openSockets, hring, hsys] at hopen
          | none =>
              simp only [openSockets, hring, hsys, if_true, Except.ok.injEq,
                Prod.mk.injEq] at hopen
              rcases hopen with ⟨rfl, rfl⟩
              simp only [attachToRaw, Except.ok.injEq] at hattach
              exact ⟨rfl, hattach.symm, rfl⟩
      | false =>
          right
          cases hsys : sys.openSocket with
          | some e => simp [openSockets, hring, hsys] at hopen
          | none =>
              simp only [openSockets, hring, hsys, if_false, Except.ok.injEq, Prod.mk.injEq,
                Bool.false_eq_true] at hopen
              rcases hopen with ⟨rfl, rfl⟩
              rcases Rust.bind_eq_ok.mp hattach with ⟨sock, hsock, hraw⟩
              exact ⟨rfl, rfl, sock, hsock, (Except.ok.inj hraw).symm⟩

/-! ## The filters in force -/

/-- The frame is accepted by the program of every filter that is asked for. -/
def Args.Requested (args : Args) (frame : List UInt8) : Prop :=
  (∀ port, args.filterPort = some port → Accepts (portFilter port) frame) ∧
    ∀ proto, args.filterProto = some proto →
      ∃ prog, protoFilter proto = .ok prog ∧ Accepts prog frame

/-- The options under which every filter that is asked for is in force: none
in ring mode; otherwise not a port together with TCP or UDP. -/
def Args.FiltersInForce (args : Args) : Prop :=
  if args.ringBuffer then args.filterPort = none ∧ args.filterProto = none
  else args.filterPort = none ∨ ∀ proto, args.filterProto = some proto →
    Unicode.toLowercase proto ≠ "tcp" ∧ Unicode.toLowercase proto ≠ "udp"

theorem not_accepts_portFilter_nil (port : UInt16) : ¬ Accepts (portFilter port) [] := by
  rw [accepts_portFilter_iff]
  rintro ⟨ety, hety, _⟩
  cases hety

/-- No program accepts the empty frame. -/
theorem not_requested_nil {args : Args}
    (h : args.filterPort ≠ none ∨ args.filterProto ≠ none) : ¬ args.Requested [] := by
  rintro ⟨hport, hproto⟩
  rcases h with hsome | hsome
  · rcases Option.ne_none_iff_exists'.mp hsome with ⟨port, hp⟩
    exact not_accepts_portFilter_nil port (hport port hp)
  · rcases Option.ne_none_iff_exists'.mp hsome with ⟨proto, hp⟩
    rcases hproto proto hp with ⟨prog, hprog, haccepts⟩
    rcases protoFilter_cases hprog with ⟨p, -, rfl⟩
    cases p <;> revert haccepts <;> decide

/-- A packet of the given IP protocol, cut off after its protocol number. -/
def cutPacket (number : UInt8) : List UInt8 :=
  [0, 0, 0, 0, 0, 0, 0, 0, 0, 0, 0, 0, 0x08, 0x00, 0x45, 0, 0, 0, 0, 0, 0, 0, 0, number]

theorem not_accepts_portFilter_cutPacket {number : UInt8} (h : number = 6 ∨ number = 17)
    (port : UInt16) : ¬ Accepts (portFilter port) (cutPacket number) := by
  rw [accepts_portFilter_iff]
  rintro ⟨ety, hety, hother | ⟨p, hp, hproto | ⟨b, hb, hports⟩⟩⟩
  · exact hother (Option.some.inj hety).symm
  · have hnumber : p = number := (Option.some.inj hp).symm
    rcases h with rfl | rfl
    · exact hproto.1 hnumber
    · exact hproto.2 hnumber
  · -- the ports would be behind the end
    have hb45 : b = 0x45 := (Option.some.inj hb).symm
    subst hb45
    rcases hports with hports | hports <;> cases hports

/-- What a protocol program accepts, any port program accepts as well, except
for TCP and UDP. -/
theorem protoFilter_refines_portFilter_iff {proto : String} {prog : Program}
    (h : protoFilter proto = .ok prog) (port : UInt16) :
    (∀ frame, Accepts prog frame → Accepts (portFilter port) frame) ↔
      Unicode.toLowercase proto ≠ "tcp" ∧ Unicode.toLowercase proto ≠ "udp" := by
  rcases protoFilter_cases h with ⟨p, hname, rfl⟩
  rw [hname]
  cases p with
  | tcp =>
      refine iff_of_false (fun hall => ?_) (by decide)
      exact not_accepts_portFilter_cutPacket (Or.inl rfl) port (hall (cutPacket 6) (by decide))
  | udp =>
      refine iff_of_false (fun hall => ?_) (by decide)
      exact not_accepts_portFilter_cutPacket (Or.inr rfl) port (hall (cutPacket 17) (by decide))
  -- over IPv4 the port program lets ICMP through, by its second wrong jump
  | icmp =>
      refine iff_of_true (fun frame haccepts => ?_) (by decide)
      rcases (accepts_ipFilter_iff 1 frame).mp haccepts with ⟨ety, hety, hicmp⟩
      rw [accepts_portFilter_iff]
      refine ⟨ety, hety, hicmp.imp_right fun hp => ⟨1, hp, Or.inl (by decide)⟩⟩
  -- the port program lets any other EtherType through, by its first one
  | arp =>
      refine iff_of_true (fun frame haccepts => ?_) (by decide)
      rw [accepts_portFilter_iff]
      exact ⟨0x0806, (accepts_arpFilter_iff frame).mp haccepts, Or.inl (by decide)⟩

/-- Once `main` has reached its capture loop, every frame that is handed to
`process_packet` is accepted by every filter that was asked for, if and only if
the options are among those that keep the filters in force. -/
theorem filters_inForce_iff {args : Args} {sys : System} {run : Running}
    (h : setup args sys = .ok run) :
    (∀ frame, run.HandsOver frame → args.Requested frame) ↔ args.FiltersInForce := by
  rcases setup_ok h with ⟨hsockets, -⟩
  rcases hsockets with ⟨hring, hraw, hnew⟩ | ⟨hring, hnone, sock, hattach, hraw⟩
  · -- the ring socket has no filter
    have hall : ∀ frame, run.HandsOver frame := by
      intro frame
      simp [Running.HandsOver, hnew, PacketSocket.Delivers, PacketSocket.new]
    simp only [Args.FiltersInForce, hring, if_true]
    constructor
    · intro hreq
      by_contra hno
      exact not_requested_nil (by tauto) (hreq [] (hall []))
    · rintro ⟨hport, hproto⟩ frame _
      simp [Args.Requested, hport, hproto]
  · have hhands : ∀ frame, run.HandsOver frame ↔ ∀ prog, sock.filter = some prog →
        Accepts prog frame := by
      intro frame
      simp [Running.HandsOver, hnone, hraw, PacketSocket.Delivers]
    simp only [Args.FiltersInForce, hring, Bool.false_eq_true, if_false, hhands]
    rcases attachFilters_ok hattach with ⟨hproto, hfilter⟩ | ⟨proto, prog, hproto, hprog, hfilter⟩
    · -- a port filter at most
      refine iff_of_true (fun frame hdelivers => ⟨fun port hport => ?_, ?_⟩) (Or.inr ?_)
      · exact hdelivers _ (by simp [hfilter, hport])
      · simp [hproto]
      · simp [hproto]
    · -- the protocol filter has replaced any port filter
      have hreq : ∀ frame, args.Requested frame ↔
          (∀ port, args.filterPort = some port → Accepts (portFilter port) frame) ∧
            Accepts prog frame := by
        intro frame
        simp [Args.Requested, hproto, hprog]
      simp only [hfilter, Option.some.injEq, forall_eq', hreq, hproto]
      cases hport : args.filterPort with
      | none => simp
      | some port =>
          have hiff := protoFilter_refines_portFilter_iff hprog port
          simp only [Option.some.injEq, forall_eq', reduceCtorEq, false_or, ← hiff]
          exact forall_congr' fun frame => ⟨fun hand haccepts => (hand haccepts).1,
            fun himp haccepts => ⟨himp haccepts, haccepts⟩⟩

/-- The command line `--interface eth0` with the given filters and mode. -/
def filterArgs (port : Option UInt16) (proto : Option String) (ring : Bool) : Args :=
  { interface := "eth0", filterPort := port, filterProto := proto, exportPcap := none,
    exportJson := none, hexdump := false, followStreams := false, ringBuffer := ring,
    serve := false, port := 7070 }

/-- Every system call succeeds; `sudo` by user 1000. -/
def sudoSystem : System :=
  { openSocket := none, attachPort := none, attachProto := none, createPcap := none,
    createJson := none, env := ⟨some "1000", some "1000"⟩, refusals := ⟨none, none⟩,
    credentials := ⟨0, 0, 0, 0, 0, 0, [0]⟩ }

/-- A single port filter in recv mode is in force. -/
theorem filters_inForce_iff_port :
    ∃ run, setup (filterArgs (some 443) none false) sudoSystem = .ok run ∧
      ∀ frame, run.HandsOver frame → (filterArgs (some 443) none false).Requested frame := by
  refine ⟨_, rfl, (@filters_inForce_iff _ sudoSystem _ rfl).mpr (Or.inr ?_)⟩
  intro proto hproto
  cases hproto

/-- With `--ring-buffer --filter-port 443` a packet is handed over that the
port program rejects, and the filters are reported as active. -/
theorem ring_ignores_filter :
    ∃ run, setup (filterArgs (some 443) none true) sudoSystem = .ok run ∧
      run.HandsOver (cutPacket 17) ∧
      ¬ (filterArgs (some 443) none true).Requested (cutPacket 17) ∧
      .filtersActive ∈ statusLines (filterArgs (some 443) none true) := by
  refine ⟨_, rfl, ?_, fun hreq => ?_, (filtersActive_mem_statusLines_iff _).mpr (Or.inl rfl)⟩
  · intro prog hprog
    cases hprog
  · exact not_accepts_portFilter_cutPacket (Or.inr rfl) 443 (hreq.1 443 rfl)

end NetZer

import NetZer.Lib.Calls
import NetZer.Lib.Posix
import NetZer.Lib.Text
import NetZer.Socket.Filter
import NetZer.Socket.Ring

/-! # Opening the sockets

`RawSocket::new` and `RingSocket::new`, call by call. Each of them opens an
`AF_PACKET` socket, looks up the index of the interface and binds the socket to
it; the ring socket maps its ring in between. The raw one returns early for a
name it cannot ask about, without closing what it has opened. The ring one cuts
such a name, and does not look at the result of the lookup.
-/

namespace NetZer

open Posix Text

/-! ## System calls -/

/-- `TpacketReq3`. -/
structure TpacketReq3 where
  tpBlockSize : Nat
  tpBlockNr : Nat
  tpFrameSize : Nat
  tpFrameNr : Nat
  tpRetireBlkTov : Nat
  tpSizeofPriv : Nat
  tpFeatureReqWord : Nat
deriving DecidableEq, Repr

/-- The options set with `setsockopt`. -/
inductive SockOpt where
  | attachFilter (prog : Bpf.Program)
  | packetVersion (version : Nat)
  | packetRxRing (req : TpacketReq3)
deriving DecidableEq, Repr

/-- `libc::sockaddr_ll`, as far as it is not zero. -/
structure SockaddrLl where
  sllFamily : Nat
  sllProtocol : Nat
  sllIfindex : Nat
deriving DecidableEq, Repr

inductive Syscall where
  | socket (domain type protocol : Nat)
  | setsockopt (fd : Nat) (option : SockOpt)
  /-- `SIOCGIFINDEX`, with the 16 bytes of `ifr_name`. -/
  | ioctl (fd : Nat) (ifrName : List UInt8)
  | bind (fd : Nat) (sll : SockaddrLl)
  | mmap (fd length : Nat)
  | munmap (addr length : Nat)
  | close (fd : Nat)
deriving DecidableEq, Repr

/-- An `errno`, or a result that is not negative. -/
abbrev Answer := Except Nat Nat

/-- The answer of a call without a result. -/
@[simp] def answered (failure : Option Nat) : Answer :=
  match failure with
  | some errno => .error errno
  | none => .ok 0

/-- The interface name the kernel reads from `ifr_name`: it ends at the first
NUL, and the last byte counts as one. -/
def kernelName (ifrName : List UInt8) : List UInt8 :=
  (ifrName.take 15).takeWhile (· ≠ 0)

/-- How the kernel answers each of the calls. -/
structure Kernel where
  socket : Answer
  attachFilter : Bpf.Program → Option Nat
  packetVersion : Option Nat
  packetRxRing : Option Nat
  mmap : Answer
  /-- The indices of the interfaces by name; none is 0. -/
  ifindex : List UInt8 → Except Nat { index : Nat // 0 < index }
  bind : Option Nat

@[simp] def Kernel.answer (k : Kernel) : Syscall → Answer
  | .socket .. => k.socket
  | .setsockopt _ (.attachFilter prog) => answered (k.attachFilter prog)
  | .setsockopt _ (.packetVersion _) => answered k.packetVersion
  | .setsockopt _ (.packetRxRing _) => answered k.packetRxRing
  | .ioctl _ ifrName => (k.ifindex (kernelName ifrName)).map Subtype.val
  | .bind .. => answered k.bind
  | .mmap .. => k.mmap
  | .munmap .. | .close _ => .ok 0

/-- A part of the program that makes system calls. -/
abbrev Sys := Calls Syscall Answer

/-! ## The constructors -/

/-- `CString::new(s)?`, as bytes with the NUL. -/
def cString (s : String) : Except IoError (List UInt8) :=
  if 0 ∈ utf8 s then .error (.custom .invalidInput "data provided contains a nul byte")
  else .ok (utf8 s ++ [0])

/-- `ifr_name`: zeroed, then filled with these bytes as far as they fit. -/
def ifrName (nameBytes : List UInt8) : List UInt8 :=
  nameBytes.take 16 ++ List.replicate (16 - nameBytes.length) 0

/-- `libc::socket(libc::AF_PACKET, libc::SOCK_RAW, 0x0300)`. -/
@[simp] def packetSocketCall : Syscall :=
  .socket 17 3 0x0300

/-- The address of an interface: `AF_PACKET`, `ETH_P_ALL`. -/
def sockaddrLl (ifindex : Nat) : SockaddrLl :=
  { sllFamily := 17, sllProtocol := 0x0300, sllIfindex := ifindex }

structure RawSocket where
  fd : Nat
deriving DecidableEq, Repr

/-- `RawSocket::new`. -/
def RawSocket.new (interfaceName : String) : Sys (Except IoError RawSocket) :=
  .call packetSocketCall fun
  | .error errno => .ret (.error (.os errno))
  | .ok fd =>
    match cString interfaceName with
    -- the `?` returns with the descriptor open, and so does the check
    | .error e => .ret (.error e)
    | .ok nameBytes =>
      if nameBytes.length > 16 then
        .ret (.error (.custom .invalidInput "Interface name too long"))
      else
        .call (.ioctl fd (ifrName nameBytes)) fun
        | .error errno => .call (.close fd) fun _ => .ret (.error (.os errno))
        | .ok ifindex =>
          .call (.bind fd (sockaddrLl ifindex)) fun
          | .error errno => .call (.close fd) fun _ => .ret (.error (.os errno))
          | .ok _ => .ret (.ok { fd := fd })

structure RingSocket where
  fd : Nat
  ringPtr : Nat
  ringSize : Nat
  currentBlock : Nat
deriving DecidableEq, Repr

def tpacketV3 : Nat := 2

/-- `FRAME_SIZE`: `1 << 11`. -/
def frameSize : Nat := 2048

/-- The geometry of the ring. -/
def req3 : TpacketReq3 :=
  { tpBlockSize := blockSize
    tpBlockNr := blockNr
    tpFrameSize := frameSize
    tpFrameNr := blockSize / frameSize * blockNr
    tpRetireBlkTov := 10
    tpSizeofPriv := 0
    tpFeatureReqWord := 0 }

/-- The end of `RingSocket::new`: look up the interface and bind to it. -/
def RingSocket.bindTo (interfaceName : String) (fd ringPtr : Nat) :
    Sys (Except IoError RingSocket) :=
  let ringSize := blockSize * blockNr
  match cString interfaceName with
  -- with the descriptor and the mapping open
  | .error e => .ret (.error e)
  | .ok nameBytes =>
    .call (.ioctl fd (ifrName nameBytes)) fun looked =>
      -- not checked: after a failure `ifr_ifru` is still 0
      let ifindex := match looked with
        | .ok ifindex => ifindex
        | .error _ => 0
      .call (.bind fd (sockaddrLl ifindex)) fun
      | .error errno =>
        .call (.munmap ringPtr ringSize) fun _ =>
        .call (.close fd) fun _ => .ret (.error (.os errno))
      | .ok _ =>
        .ret (.ok { fd := fd, ringPtr := ringPtr, ringSize := ringSize, currentBlock := 0 })

/-- `RingSocket::new`. -/
def RingSocket.new (interfaceName : String) : Sys (Except IoError RingSocket) :=
  .call packetSocketCall fun
  | .error errno => .ret (.error (.os errno))
  | .ok fd =>
    .call (.setsockopt fd (.packetVersion tpacketV3)) fun
    | .error errno => .call (.close fd) fun _ => .ret (.error (.os errno))
    | .ok _ =>
      .call (.setsockopt fd (.packetRxRing req3)) fun
      | .error errno => .call (.close fd) fun _ => .ret (.error (.os errno))
      | .ok _ =>
        .call (.mmap fd (blockSize * blockNr)) fun
        | .error errno => .call (.close fd) fun _ => .ret (.error (.os errno))
        | .ok ringPtr => RingSocket.bindTo interfaceName fd ringPtr

/-! ## What is open -/

/-- What a call can open. -/
inductive Resource where
  | descriptor (fd : Nat)
  | mapping (addr length : Nat)
deriving DecidableEq, Repr

/-- What is open after a call. -/
@[simp] def Resource.after (held : List Resource) : Syscall × Answer → List Resource
  | (.socket .., .ok fd) => .descriptor fd :: held
  | (.mmap _ length, .ok addr) => .mapping addr length :: held
  | (.munmap addr length, _) => held.erase (.mapping addr length)
  | (.close fd, _) => held.erase (.descriptor fd)
  | _ => held

/-- What some calls have opened and not closed. -/
def heldAfter (calls : List (Syscall × Answer)) : List Resource :=
  calls.foldl Resource.after []

/-- A constructor has done its job: the descriptor it returns is open and
bound to the index, not 0, that `SIOCGIFINDEX` answered for exactly this name;
or it has failed, and nothing it opened is open. -/
def OpenedFor (interfaceName : String) (calls : List (Syscall × Answer)) :
    Except IoError Nat → Prop
  | .ok fd =>
      .descriptor fd ∈ heldAfter calls ∧
      ∃ request index, (.ioctl fd request, .ok index) ∈ calls ∧
        kernelName request = utf8 interfaceName ∧ index ≠ 0 ∧
        (.bind fd (sockaddrLl index), .ok 0) ∈ calls
  | .error _ => heldAfter calls = []

@[simp] theorem openedFor_ok {interfaceName : String} {calls : List (Syscall × Answer)} {fd : Nat} :
    OpenedFor interfaceName calls (.ok fd) ↔ .descriptor fd ∈ heldAfter calls ∧
      ∃ request index, (.ioctl fd request, .ok index) ∈ calls ∧
        kernelName request = utf8 interfaceName ∧ index ≠ 0 ∧
        (.bind fd (sockaddrLl index), .ok 0) ∈ calls := Iff.rfl

@[simp] theorem openedFor_error {interfaceName : String} {calls : List (Syscall × Answer)}
    {e : IoError} : OpenedFor interfaceName calls (.error e) ↔ heldAfter calls = [] := Iff.rfl

/-- A run of `RawSocket::new` has done its job. -/
def RawSocket.Opens (k : Kernel) (interfaceName : String) : Prop :=
  let (calls, result) := (RawSocket.new interfaceName).run k.answer
  OpenedFor interfaceName calls (result.map RawSocket.fd)

/-- A run of `RingSocket::new` has done its job. -/
def RingSocket.Opens (k : Kernel) (interfaceName : String) : Prop :=
  let (calls, result) := (RingSocket.new interfaceName).run k.answer
  OpenedFor interfaceName calls (result.map RingSocket.fd)

/-! ## When they do it -/

/-- A name the kernel can be asked about: it fits into `ifr_name` with its NUL,
and has no other one. -/
def Askable (interfaceName : String) : Prop :=
  0 ∉ utf8 interfaceName ∧ (utf8 interfaceName).length ≤ 15

instance (interfaceName : String) : Decidable (Askable interfaceName) :=
  inferInstanceAs (Decidable (_ ∧ _))

section

variable {name : List UInt8}

theorem length_kernelName_le (request : List UInt8) : (kernelName request).length ≤ 15 := by
  have htake := (List.takeWhile_prefix (p := (· ≠ 0)) (l := request.take 15)).length_le
  rw [List.length_take] at htake
  exact Nat.le_trans htake (Nat.min_le_left _ _)

/-- The kernel reads a name that fits as it is. -/
theorem kernelName_ifrName (hnul : 0 ∉ name) (hlen : name.length ≤ 15) :
    kernelName (ifrName (name ++ [0])) = name := by
  have hne : ∀ b ∈ name, decide (b ≠ 0) = true := by
    intro b hb
    have : b ≠ 0 := fun h => hnul (h ▸ hb)
    simpa using this
  have hzero : ∀ n, (List.replicate n (0 : UInt8)).takeWhile (fun b => decide (b ≠ 0)) = [] := by
    intro n
    cases n with
    | zero => rfl
    | succ n => rfl
  have hfill : ifrName (name ++ [0]) = name ++ List.replicate (16 - name.length) 0 := by
    have htake : (name ++ [0]).take 16 = name ++ [0] := List.take_of_length_le (by simp; omega)
    have hrest : 16 - name.length = 16 - (name ++ [0]).length + 1 := by simp; omega
    rw [ifrName, htake, hrest, List.replicate_succ, List.append_assoc, List.singleton_append]
  rw [kernelName, hfill, List.take_append, List.take_of_length_le hlen, List.take_replicate,
    List.takeWhile_append_of_pos hne, hzero, List.append_nil]

end

theorem cString_of_nul {s : String} (h : 0 ∈ utf8 s) :
    cString s = .error (.custom .invalidInput "data provided contains a nul byte") :=
  if_pos h

theorem cString_of_not_nul {s : String} (h : 0 ∉ utf8 s) : cString s = .ok (utf8 s ++ [0]) :=
  if_neg h

/-- The raw socket: unless no socket is opened at all, the name has to be one
that can be asked about. -/
theorem RawSocket.opens_iff (k : Kernel) (interfaceName : String) :
    RawSocket.Opens k interfaceName ↔
      (∃ errno, k.socket = .error errno) ∨ Askable interfaceName := by
  unfold RawSocket.Opens RawSocket.new Askable
  cases hsocket : k.socket with
  | error errno => simp [hsocket, heldAfter, Except.map]
  | ok fd =>
      by_cases hnul : 0 ∈ utf8 interfaceName
      · -- the early return of `?`
        simp [hsocket, heldAfter, Except.map, cString_of_nul hnul, hnul]
      have hbytes := cString_of_not_nul hnul
      by_cases hlen : (utf8 interfaceName).length ≤ 15
      · have hfits : ¬ 16 < (utf8 interfaceName).length + 1 := by omega
        have hname := kernelName_ifrName hnul hlen
        cases hindex : k.ifindex (utf8 interfaceName) with
        | error errno =>
            simp [hsocket, heldAfter, Except.map, hbytes, hfits, hname, hindex, hnul, hlen]
        | ok index =>
            have hpos : index.val ≠ 0 := Nat.ne_of_gt index.2
            cases hbind : k.bind with
            | some errno =>
                simp [hsocket, heldAfter, Except.map, hbytes, hfits, hname, hindex, hbind, hnul,
                  hlen]
            | none =>
                simp [hsocket, heldAfter, Except.map, hbytes, hfits, hname, hindex, hbind, hnul,
                  hlen, hpos]
      · -- the early return of the check
        have hlong : 16 < (utf8 interfaceName).length + 1 := by omega
        simp [hsocket, heldAfter, Except.map, hbytes, hlong, hlen]

/-- With the ring mapped: the name has no NUL, and the binding fails, or the
name can be asked about and is found. -/
theorem RingSocket.opens_of_mapped_iff {k : Kernel} {fd ringPtr : Nat} (interfaceName : String)
    (hsocket : k.socket = .ok fd) (hversion : k.packetVersion = none)
    (hring : k.packetRxRing = none) (hmmap : k.mmap = .ok ringPtr) :
    RingSocket.Opens k interfaceName ↔
      0 ∉ utf8 interfaceName ∧ (k.bind ≠ none ∨
        (utf8 interfaceName).length ≤ 15 ∧
          ∃ index, k.ifindex (utf8 interfaceName) = .ok index) := by
  unfold RingSocket.Opens RingSocket.new RingSocket.bindTo
  by_cases hnul : 0 ∈ utf8 interfaceName
  · -- the early return of `?`
    simp [hsocket, heldAfter, Except.map, hversion, hring, hmmap, cString_of_nul hnul, hnul]
  have hbytes := cString_of_not_nul hnul
  cases hbind : k.bind with
  | some errno =>
      simp [hsocket, heldAfter, Except.map, hversion, hring, hmmap, hbytes, hbind, hnul]
  | none =>
      by_cases hlen : (utf8 interfaceName).length ≤ 15
      · have hname := kernelName_ifrName hnul hlen
        cases hindex : k.ifindex (utf8 interfaceName) with
        | error errno =>
            -- bound to the index 0
            simp [hsocket, heldAfter, Except.map, hversion, hring, hmmap, hbytes, hbind, hname,
              hindex]
        | ok index =>
            have hpos : index.val ≠ 0 := Nat.ne_of_gt index.2
            simp [hsocket, heldAfter, Except.map, hversion, hring, hmmap, hbytes, hbind, hname,
              hindex, hnul, hlen, hpos]
      · -- another name is asked about
        have hother : kernelName (ifrName (utf8 interfaceName ++ [0])) ≠ utf8 interfaceName := by
          intro heq
          have hle := length_kernelName_le (ifrName (utf8 interfaceName ++ [0]))
          rw [heq] at hle
          exact hlen hle
        simp [hsocket, heldAfter, Except.map, hversion, hring, hmmap, hbytes, hbind, hlen, hother]

/-- The ring socket: one of the calls up to the mapping fails, or the rest is as
it should be. -/
theorem RingSocket.opens_iff (k : Kernel) (interfaceName : String) :
    RingSocket.Opens k interfaceName ↔
      (∃ errno, k.socket = .error errno) ∨ k.packetVersion ≠ none ∨ k.packetRxRing ≠ none ∨
        (∃ errno, k.mmap = .error errno) ∨
        (0 ∉ utf8 interfaceName ∧ (k.bind ≠ none ∨
          (utf8 interfaceName).length ≤ 15 ∧
            ∃ index, k.ifindex (utf8 interfaceName) = .ok index)) := by
  rcases hsocket : k.socket with errno | fd
  · simp [RingSocket.Opens, RingSocket.new, heldAfter, Except.map, hsocket]
  rcases hversion : k.packetVersion with _ | errno
  · rcases hring : k.packetRxRing with _ | errno
    · rcases hmmap : k.mmap with errno | ringPtr
      · simp [RingSocket.Opens, RingSocket.new, heldAfter, Except.map, hsocket, hversion, hring,
          hmmap]
      · rw [RingSocket.opens_of_mapped_iff interfaceName hsocket hversion hring hmmap]
        simp
    · simp [RingSocket.Opens, RingSocket.new, heldAfter, Except.map, hsocket, hversion, hring]
  · simp [RingSocket.Opens, RingSocket.new, heldAfter, Except.map, hsocket, hversion]

/-- Exactly when each of the two has done its job. -/
theorem constructors_open_iff (k : Kernel) (interfaceName : String) :
    (RawSocket.Opens k interfaceName ↔
      (∃ errno, k.socket = .error errno) ∨ Askable interfaceName) ∧
    (RingSocket.Opens k interfaceName ↔
      (∃ errno, k.socket = .error errno) ∨ k.packetVersion ≠ none ∨ k.packetRxRing ≠ none ∨
        (∃ errno, k.mmap = .error errno) ∨
        (0 ∉ utf8 interfaceName ∧ (k.bind ≠ none ∨
          (utf8 interfaceName).length ≤ 15 ∧
            ∃ index, k.ifindex (utf8 interfaceName) = .ok index))) :=
  ⟨RawSocket.opens_iff k interfaceName, RingSocket.opens_iff k interfaceName⟩

/-- A host with one interface, where all other calls succeed. -/
def oneInterface : Kernel :=
  { socket := .ok 3
    attachFilter := fun _ => none
    packetVersion := none
    packetRxRing := none
    mmap := .ok 4096
    ifindex := fun name => if name = utf8 "eth0" then .ok ⟨2, Nat.zero_lt_succ 1⟩ else .error 19
    bind := none }

/-- The raw socket leaves its descriptor open over a long name; the ring socket
is bound to all interfaces for want of the one that is named. -/
theorem constructors_open_badly :
    ¬ RawSocket.Opens oneInterface "enp0s31f6-backup" ∧
      ¬ RingSocket.Opens oneInterface "eth1" ∧
      (.bind 3 (sockaddrLl 0), .ok 0) ∈ ((RingSocket.new "eth1").run oneInterface.answer).1 := by
  have hlong : ¬ Askable "enp0s31f6-backup" := by decide +kernel
  have hmissing : oneInterface.ifindex (utf8 "eth1") = .error 19 := by decide +kernel
  refine ⟨?_, ?_, by decide +kernel⟩
  · rw [RawSocket.opens_iff]
    simp [oneInterface, hlong]
  · rw [RingSocket.opens_iff, hmissing]
    simp [oneInterface]

end NetZer

import NetZer.Lib.Bpf
import NetZer.Lib.Posix
import NetZer.Lib.Unicode

/-! # Kernel packet filters

The classic BPF programs that `RawSocket::attach_filter_port` and
`RawSocket::attach_filter_proto` assemble by hand, and what each of them
accepts. A jump offset counts from the next instruction; in the port program
and in the three IP protocol programs the jumps taken by a frame of another
EtherType, and in the port program also by another IP protocol, land on the
accepting return and not on the rejecting one after it.
-/

namespace NetZer

open Bpf Bytes Posix

/-! ## The sockets -/

/-- The kernel's side of an `AF_PACKET` socket: the filter attached to it. -/
structure PacketSocket where
  filter : Option Program
deriving DecidableEq, Repr

/-- A fresh socket has no filter. -/
def PacketSocket.new : PacketSocket := ⟨none⟩

/-- What the socket queues: every frame, or what its filter accepts. -/
def PacketSocket.Delivers (s : PacketSocket) (frame : List UInt8) : Prop :=
  ∀ prog, s.filter = some prog → Accepts prog frame

/-- `setsockopt(SO_ATTACH_FILTER)` with the kernel's answer: an `errno`, or
success, and then the program replaces the one attached before. -/
def PacketSocket.attach (s : PacketSocket) (prog : Program) (answer : Option Nat) :
    Except IoError PacketSocket :=
  match answer with
  | some errno => .error (.os errno)
  | none => .ok { s with filter := some prog }

/-! ## The programs -/

/-- The `filter` vector of `attach_filter_port`. -/
def portFilter (port : UInt16) : Program := [
  { code := 0x28, jt := 0, jf := 8, k := 12 },
  -- another EtherType goes on at 2 + 8, the accepting return
  { code := 0x15, jt := 0, jf := 8, k := 0x0800 },
  { code := 0x30, jt := 0, jf := 0, k := 23 },
  { code := 0x15, jt := 1, jf := 0, k := 6 },
  -- neither TCP nor UDP: 5 + 5, the accepting return again
  { code := 0x15, jt := 0, jf := 5, k := 17 },
  { code := 0xb1, jt := 0, jf := 0, k := 14 },
  { code := 0x48, jt := 0, jf := 0, k := 14 },
  { code := 0x15, jt := 2, jf := 0, k := port.toUInt32 },
  { code := 0x48, jt := 0, jf := 0, k := 16 },
  { code := 0x15, jt := 0, jf := 1, k := port.toUInt32 },
  { code := 0x06, jt := 0, jf := 0, k := 65535 },
  { code := 0x06, jt := 0, jf := 0, k := 0 }]

/-- The vectors of `attach_filter_proto` for the protocols over IPv4, which
differ in the protocol number alone. -/
def ipFilter (number : UInt32) : Program := [
  { code := 0x28, jt := 0, jf := 3, k := 12 },
  -- 2 + 2 is the accepting return
  { code := 0x15, jt := 0, jf := 2, k := 0x0800 },
  { code := 0x30, jt := 0, jf := 0, k := 23 },
  { code := 0x15, jt := 0, jf := 1, k := number },
  { code := 0x06, jt := 0, jf := 0, k := 65535 },
  { code := 0x06, jt := 0, jf := 0, k := 0 }]

/-- The vector of `attach_filter_proto` for `"arp"`. -/
def arpFilter : Program := [
  { code := 0x28, jt := 0, jf := 1, k := 12 },
  { code := 0x15, jt := 0, jf := 1, k := 0x0806 },
  { code := 0x06, jt := 0, jf := 0, k := 65535 },
  { code := 0x06, jt := 0, jf := 0, k := 0 }]

/-- The `filter` vector of `attach_filter_proto`. -/
def protoFilter (proto : String) : Except IoError Program :=
  match Unicode.toLowercase proto with
  | "tcp" => .ok (ipFilter 6)
  | "udp" => .ok (ipFilter 17)
  | "icmp" => .ok (ipFilter 1)
  | "arp" => .ok arpFilter
  | _ => .error (.custom .invalidInput "Unsupported protocol for BPF")

/-- `RawSocket::attach_filter_port`. -/
def attachFilterPort (s : PacketSocket) (port : UInt16) (answer : Option Nat) :
    Except IoError PacketSocket :=
  s.attach (portFilter port) answer

/-- `RawSocket::attach_filter_proto`. -/
def attachFilterProto (s : PacketSocket) (proto : String) (answer : Option Nat) :
    Except IoError PacketSocket := do
  s.attach (← protoFilter proto) answer

/-! ## What the programs accept -/

/-- The IPv4 header length in words, in the low half of its first byte. -/
def ihl (b : UInt8) : Nat := (b &&& 0x0f).toNat

/-- The source or the destination port, behind an IPv4 header of any length,
is `port`. -/
def PortsMatch (port : UInt16) (frame : List UInt8) : Prop :=
  ∃ b, frame[14]? = some b ∧
    (half frame (14 + 4 * ihl b) = some port ∨ half frame (16 + 4 * ihl b) = some port)

/-- The last seven instructions of the port program, entered with any
registers: load the header length, then compare both ports. -/
theorem acceptsFrom_ports_iff (port : UInt16) (frame : List UInt8) (r : Regs) :
    AcceptsFrom frame ((portFilter port).drop 5) 0 r ↔ PortsMatch port frame := by
  have h14 (b : UInt8) : (4 * (b &&& 15).toUInt32 + 14).toNat = 14 + 4 * ihl b :=
    msh_add_toNat b 14 (by decide)
  have h16 (b : UInt8) : (4 * (b &&& 15).toUInt32 + 16).toNat = 16 + 4 * ihl b :=
    msh_add_toNat b 16 (by decide)
  simp only [portFilter, List.drop_succ_cons, List.drop_zero, acceptsFrom_ldxMsh,
    acceptsFrom_ldInd_half, acceptsFrom_jeqK, acceptsFrom_retK, acceptsFrom_skip,
    UInt8.reduceToNat, UInt32.reduceToNat, h14, h16, UInt16.toUInt32_inj]
  apply exists_congr
  intro b
  apply and_congr_right
  intro _
  constructor
  · rintro ⟨src, hsrc, h⟩
    by_cases heq : src = port
    · exact Or.inl (heq ▸ hsrc)
    · right
      simpa [heq] using h
  · rintro (hsrc | hdst)
    · exact ⟨port, hsrc, by simp⟩
    · -- the destination port is there, so the source port before it is too
      have hlen := half_of_some hdst
      have hsrc := @half_lt frame (14 + 4 * ihl b) (by omega)
      exact ⟨_, hsrc, by simp [hdst]⟩

/-- The port program: the ports decide for TCP and UDP over IPv4; every other
frame that is long enough to show what it is gets accepted. -/
theorem accepts_portFilter_iff (port : UInt16) (frame : List UInt8) :
    Accepts (portFilter port) frame ↔
      ∃ ety, half frame 12 = some ety ∧ (ety ≠ 0x0800 ∨
        ∃ p, frame[23]? = some p ∧ (p ≠ 6 ∧ p ≠ 17 ∨ PortsMatch port frame)) := by
  have hports := acceptsFrom_ports_iff port frame
  simp only [portFilter, List.drop_succ_cons, List.drop_zero] at hports
  -- the first five instructions, down to the comparison of the ports
  simp only [Accepts, portFilter, Regs.init, acceptsFrom_ldAbs_half, acceptsFrom_ldAbs_byte,
    acceptsFrom_jeqK, acceptsFrom_retK, acceptsFrom_skip, UInt8.reduceToNat,
    UInt32.reduceToNat, hports]
  have hety (v : UInt16) : v.toUInt32 = 2048 ↔ v = 2048 := UInt16.toUInt32_inj (b := 2048)
  have htcp (v : UInt8) : v.toUInt32 = 6 ↔ v = 6 := UInt8.toUInt32_inj (b := 6)
  have hudp (v : UInt8) : v.toUInt32 = 17 ↔ v = 17 := UInt8.toUInt32_inj (b := 17)
  simp only [hety, htcp, hudp]
  apply exists_congr
  intro ety
  apply and_congr_right
  intro _
  by_cases h4 : ety = 2048
  · simp only [h4, if_true, ne_eq, not_true_eq_false, false_or]
    apply exists_congr
    intro p
    apply and_congr_right
    intro _
    by_cases h6 : p = 6
    · simp [h6]
    · by_cases h17 : p = 17
      · simp [h17]
      · simp [h6, h17]
  · simp [h4]

/-- An IP protocol program: its protocol number over IPv4, or any other
EtherType. -/
theorem accepts_ipFilter_iff (number : UInt8) (frame : List UInt8) :
    Accepts (ipFilter number.toUInt32) frame ↔
      ∃ ety, half frame 12 = some ety ∧ (ety ≠ 0x0800 ∨ frame[23]? = some number) := by
  have hety (v : UInt16) : v.toUInt32 = 2048 ↔ v = 2048 := UInt16.toUInt32_inj (b := 2048)
  simp only [Accepts, ipFilter, Regs.init, acceptsFrom_ldAbs_half, acceptsFrom_ldAbs_byte,
    acceptsFrom_jeqK, acceptsFrom_retK, acceptsFrom_skip, UInt8.reduceToNat,
    UInt32.reduceToNat, hety, UInt8.toUInt32_inj]
  apply exists_congr
  intro ety
  apply and_congr_right
  intro _
  by_cases h4 : ety = 2048
  · simp [h4]
  · simp [h4]

/-- The ARP program: the EtherType decides. -/
theorem accepts_arpFilter_iff (frame : List UInt8) :
    Accepts arpFilter frame ↔ half frame 12 = some 0x0806 := by
  have hety (v : UInt16) : v.toUInt32 = 2054 ↔ v = 2054 := UInt16.toUInt32_inj (b := 2054)
  simp [Accepts, arpFilter, Regs.init, hety]

/-! ## The port filter against its purpose -/

/-- What a port filter is for: TCP or UDP over IPv4 with the port on one of
its sides. -/
def MatchesPort (port : UInt16) (frame : List UInt8) : Prop :=
  half frame 12 = some 0x0800 ∧ (frame[23]? = some 6 ∨ frame[23]? = some 17) ∧
    PortsMatch port frame

/-- The jumps for another EtherType and another IP protocol are not taken: the
frame ends before the byte they test, or passes both tests. -/
def PortTestsPassed (frame : List UInt8) : Prop :=
  frame.length < 14 ∨ half frame 12 = some 0x0800 ∧
    (frame.length < 24 ∨ frame[23]? = some 6 ∨ frame[23]? = some 17)

/-- A broadcast ARP request. -/
def arpRequest : List UInt8 :=
  [0xff, 0xff, 0xff, 0xff, 0xff, 0xff, 0x00, 0x11, 0x22, 0x33, 0x44, 0x55, 0x08, 0x06,
    0x00, 0x01, 0x08, 0x00, 0x06, 0x04, 0x00, 0x01, 0x00, 0x11, 0x22, 0x33, 0x44, 0x55,
    0x0a, 0x00, 0x00, 0x01, 0x00, 0x00, 0x00, 0x00, 0x00, 0x00, 0x0a, 0x00, 0x00, 0x02]

theorem not_short_of_etherType {frame : List UInt8} {ety : UInt16}
    (h : half frame 12 = some ety) : ¬ frame.length < 14 := by
  have := half_of_some h
  omega

/-- The port filter lets through only what matches, exactly on the frames on
which neither of the two misplaced jumps is taken. -/
theorem portFilter_sound_iff (port : UInt16) (frame : List UInt8) :
    (Accepts (portFilter port) frame → MatchesPort port frame) ↔ PortTestsPassed frame := by
  rw [accepts_portFilter_iff]
  unfold MatchesPort PortTestsPassed
  cases hety : half frame 12 with
  | none =>
      have hlen : frame.length < 14 := half_eq_none_iff.mp hety
      simp [hlen]
  | some ety =>
      have hlen : ¬ frame.length < 14 := not_short_of_etherType hety
      by_cases h4 : ety = 0x0800
      · subst h4
        cases hproto : frame[23]? with
        | none =>
            have hshort : frame.length < 24 := by
              have := List.getElem?_eq_none_iff.mp hproto
              omega
            simp [hshort]
        | some p =>
            have hlong : ¬ frame.length < 24 := by
              have := (List.getElem?_eq_some_iff.mp hproto).1
              omega
            by_cases h6 : p = 6
            · simp [h6]
            · by_cases h17 : p = 17
              · simp [h17]
              · simp [h6, h17, hlen, hlong]
      · simp [h4, hlen]

/-- An ARP request passes the filter for port 443. -/
theorem portFilter_accepts_arp :
    ¬ ∀ (port : UInt16) (frame : List UInt8),
      Accepts (portFilter port) frame → MatchesPort port frame := by
  intro h
  have hm := (h 443 arpRequest (by decide)).1
  revert hm
  decide

/-! ## The protocol filters against their purpose -/

/-- The protocols `--filter-proto` supports. -/
inductive FilterProto where
  | tcp
  | udp
  | icmp
  | arp
deriving DecidableEq, Repr

namespace FilterProto

def name : FilterProto → String
  | tcp => "tcp"
  | udp => "udp"
  | icmp => "icmp"
  | arp => "arp"

/-- What a protocol filter is for. -/
def Matches (p : FilterProto) (frame : List UInt8) : Prop :=
  match p with
  | tcp => half frame 12 = some 0x0800 ∧ frame[23]? = some 6
  | udp => half frame 12 = some 0x0800 ∧ frame[23]? = some 17
  | icmp => half frame 12 = some 0x0800 ∧ frame[23]? = some 1
  | arp => half frame 12 = some 0x0806

def program : FilterProto → Program
  | tcp => ipFilter 6
  | udp => ipFilter 17
  | icmp => ipFilter 1
  | arp => arpFilter

end FilterProto

/-- `proto` is the lower-case name `name`, in any letter case. -/
def SameLetters (proto name : String) : Prop :=
  proto.toList.map Char.toLower = name.toList

instance (proto name : String) : Decidable (SameLetters proto name) :=
  inferInstanceAs (Decidable (_ = _))

/-- Every spelling of a supported name gets that protocol's program. -/
theorem protoFilter_of_sameLetters {proto : String} {p : FilterProto}
    (h : SameLetters proto p.name) : protoFilter proto = .ok p.program := by
  have hall : p.name.toList.all (fun c => c.toNat < 0x80) = true := by
    cases p <;> rfl
  have hascii : ∀ c ∈ p.name.toList, c.toNat < 0x80 := by
    simpa using hall
  unfold protoFilter
  rw [Unicode.toLowercase_eq_of_map_toLower h hascii]
  cases p <;> rfl

/-- Every program `attach_filter_proto` has is that of a supported protocol. -/
theorem protoFilter_cases {proto : String} {prog : Program} (h : protoFilter proto = .ok prog) :
    ∃ p : FilterProto, Unicode.toLowercase proto = p.name ∧ prog = p.program := by
  unfold protoFilter at h
  split at h
  · exact ⟨.tcp, by assumption, (Except.ok.inj h).symm⟩
  · exact ⟨.udp, by assumption, (Except.ok.inj h).symm⟩
  · exact ⟨.icmp, by assumption, (Except.ok.inj h).symm⟩
  · exact ⟨.arp, by assumption, (Except.ok.inj h).symm⟩
  · cases h

/-- The one test every protocol program makes first does not misfire: the
program is ARP's, the frame ends before its EtherType, or it carries IPv4. -/
def EtherTypeTestPassed (p : FilterProto) (frame : List UInt8) : Prop :=
  p = .arp ∨ frame.length < 14 ∨ half frame 12 = some 0x0800

/-- An IP protocol program is right exactly on IPv4 frames and on frames too
short to have an EtherType. -/
theorem ipFilter_exact_iff (number : UInt8) (frame : List UInt8) :
    (Accepts (ipFilter number.toUInt32) frame ↔
        half frame 12 = some 0x0800 ∧ frame[23]? = some number) ↔
      frame.length < 14 ∨ half frame 12 = some 0x0800 := by
  rw [accepts_ipFilter_iff]
  cases hety : half frame 12 with
  | none =>
      have hlen : frame.length < 14 := half_eq_none_iff.mp hety
      simp [hlen]
  | some ety =>
      have hlen : ¬ frame.length < 14 := not_short_of_etherType hety
      by_cases h4 : ety = 0x0800
      · simp [h4]
      · simp [h4, hlen]

/-- A protocol filter accepts exactly its protocol, for every spelling of its
name, exactly when the EtherType test does not misfire. -/
theorem protoFilter_exact_iff (p : FilterProto) (proto : String)
    (h : SameLetters proto p.name) :
    ∃ prog, protoFilter proto = .ok prog ∧ ∀ frame,
      ((Accepts prog frame ↔ p.Matches frame) ↔ EtherTypeTestPassed p frame) := by
  refine ⟨p.program, protoFilter_of_sameLetters h, ?_⟩
  intro frame
  cases p with
  | tcp =>
      simpa [EtherTypeTestPassed, FilterProto.program, FilterProto.Matches]
        using ipFilter_exact_iff 6 frame
  | udp =>
      simpa [EtherTypeTestPassed, FilterProto.program, FilterProto.Matches]
        using ipFilter_exact_iff 17 frame
  | icmp =>
      simpa [EtherTypeTestPassed, FilterProto.program, FilterProto.Matches]
        using ipFilter_exact_iff 1 frame
  | arp => simp [EtherTypeTestPassed, FilterProto.program, FilterProto.Matches,
      accepts_arpFilter_iff]

theorem protoFilter_exact_iff_Tcp :
    SameLetters "Tcp" FilterProto.tcp.name ∧
      ∃ prog, protoFilter "Tcp" = .ok prog ∧ ∀ frame,
        ((Accepts prog frame ↔ FilterProto.tcp.Matches frame) ↔
          EtherTypeTestPassed .tcp frame) :=
  ⟨by decide, protoFilter_exact_iff .tcp "Tcp" (by decide)⟩

/-- An ARP request passes the filter for TCP. -/
theorem protoFilter_tcp_accepts_arp :
    ¬ ∀ (p : FilterProto) (proto : String), SameLetters proto p.name →
      ∀ prog, protoFilter proto = .ok prog →
        ∀ frame, (Accepts prog frame ↔ p.Matches frame) := by
  intro h
  have hm := (h .tcp "tcp" (by decide) (ipFilter 6) (by decide) arpRequest).mp (by decide)
  revert hm
  unfold FilterProto.Matches
  decide

end NetZer

import NetZer.Cli.Format
import NetZer.Core.Dns
import NetZer.Core.Hexdump
import NetZer.Core.Layers
import NetZer.Core.TcpStream
import NetZer.Core.Tls
import NetZer.Lib.Trace

/-! # Processing a packet

`process_packet` and its handlers. What a packet causes is a trace of calls:
what is printed, written and broadcast, what is fed to the stream tracker, and
which payload is handed to the HTTP, TLS and DNS detection. Write and send
errors are ignored by the source, so an output is only on or off here.
-/

namespace NetZer

open Rust Rust.Traced

/-- The outputs `process_packet` is given. -/
structure Outputs where
  pcapWriter : Bool
  jsonWriter : Bool
  showHexdump : Bool
  webServer : Bool
deriving DecidableEq, Repr

/-- What `process_packet` does, call by call. -/
inductive Call where
  /-- `PcapWriter::write_packet`. -/
  | pcapWrite (data : List UInt8)
  | printDump (dump : ColoredString)
  /-- `TcpStreamTracker::feed`. -/
  | feed (call : FeedCall)
  /-- The data of a flush, between its two rules. -/
  | printStream (lines : List ColoredString)
  /-- `TlsClientHello::parse`. -/
  | tlsParse (payload : List UInt8)
  /-- The HTTP detection of `handle_tcp`. -/
  | httpDetect (payload : List UInt8)
  /-- `DnsQuery::parse`. -/
  | dnsParse (payload : List UInt8)
  | printPacketLine (timeStr : String) (proto : ColoredString) (src dst : String)
      (info : ColoredString) (size : Nat)
  /-- `JsonWriter::write_packet`: the line is `Record.jsonLine`. -/
  | jsonWrite (record : Record)
  /-- `WebServer::broadcast`: the message is `Record.webMessage`. -/
  | broadcast (record : Record) (rawHex : String)
deriving DecidableEq, Repr

/-- Evaluation with its calls. -/
abbrev Act := Traced Call Fn

/-- What the handlers get besides the addresses and the payload. -/
structure Report where
  timeStr : String
  size : Nat
  rawHex : String
deriving DecidableEq, Repr

/-! ## Reporting -/

/-- The end of every handler: the terminal line, then the JSON line and the
broadcast where they are on. The two may name the protocol differently. -/
def report (out : Outputs) (r : Report) (proto info : ColoredString)
    (src dst infoRaw protoLog protoName : String) : Act Unit := do
  let record : Record :=
    { timestamp := r.timeStr, proto := protoLog, src := src, dst := dst, info := infoRaw,
      size := r.size }
  emit (.printPacketLine r.timeStr proto src dst info r.size)
  emitIf out.jsonWriter (.jsonWrite record)
  emitIf out.webServer (.broadcast { record with proto := protoName } r.rawHex)

/-- `format!("{}:{}", ip, port)`. -/
def endpoint (ip : String) (port : UInt16) : String :=
  ip ++ ":" ++ toString port.toNat

/-! ## TCP -/

/-- What `handle_tcp` makes of a payload. -/
structure TcpInfo where
  infoRaw : String
  isTls : Bool
  isHttp : Bool
deriving DecidableEq, Repr

namespace TcpInfo

def proto (i : TcpInfo) : String :=
  if i.isTls then "TLS" else if i.isHttp then "HTTP" else "TCP"

def protoColored (i : TcpInfo) : ColoredString :=
  { text := Text.padRight 5 i.proto
    styles :=
      if i.isTls then [.brightMagenta, .bold]
      else if i.isHttp then [.brightGreen, .bold]
      else [.brightCyan, .bold] }

def infoColored (i : TcpInfo) : ColoredString :=
  { text := Text.padRight 35 i.infoRaw
    styles :=
      if i.infoRaw = "[ENCRYPTED]" then [.brightBlack]
      else if i.isHttp then [.brightGreen]
      else [.brightMagenta, .bold] }

end TcpInfo

/-- Port 443: the host name of a ClientHello. -/
def tlsInfo (tcpPayload : List UInt8) : Run TcpInfo := do
  match ← TlsClientHello.parse tcpPayload with
  | .ok tls => return { infoRaw := ← truncate tls.sni 35, isTls := true, isHttp := false }
  -- any other record of the connection: its content is encrypted
  | .error _ => return { infoRaw := "[ENCRYPTED]", isTls := false, isHttp := false }

/-- The method tokens of an HTTP request. -/
def httpMethods : List String :=
  ["GET ", "POST ", "PUT ", "DELETE ", "PATCH ", "OPTIONS ", "HEAD "]

/-- Any other port: method and target of a request, status and reason of a
response. -/
def httpInfo (tcpPayload : List UInt8) : Run TcpInfo := do
  let trimmed := Text.trimStart (Text.fromUtf8Lossy tcpPayload)
  -- leading white space is allowed before a request or a status line
  if httpMethods.any (Text.startsWith trimmed) then
    let parts := Text.splitWhitespace trimmed
    if 2 ≤ parts.length then
      let method ← index parts 0
      let target ← index parts 1
      return { infoRaw := method ++ " " ++ target, isTls := false, isHttp := true }
    else
      return { infoRaw := "[HTTP Request]", isTls := false, isHttp := true }
  else if Text.startsWith trimmed "HTTP/" then
    let parts := Text.splitN 3 ' ' trimmed
    if 2 ≤ parts.length then
      let rest ← sliceFrom parts 1
      return { infoRaw := String.intercalate " " rest, isTls := false, isHttp := true }
    else
      return { infoRaw := "[HTTP Response]", isTls := false, isHttp := true }
  else
    return { infoRaw := "[ENCRYPTED]", isTls := false, isHttp := false }

/-- The detection a destination port selects, as a call. -/
def tcpDetection (dstPort : UInt16) (tcpPayload : List UInt8) : Call :=
  if dstPort = 443 then .tlsParse tcpPayload else .httpDetect tcpPayload

def tcpInfo (dstPort : UInt16) (tcpPayload : List UInt8) : Run TcpInfo :=
  if dstPort = 443 then tlsInfo tcpPayload else httpInfo tcpPayload

def handleTcp (out : Outputs) (r : Report) (srcIp dstIp : String) (payload : List UInt8) :
    Act Unit := do
  match ← TcpHeader.parse payload with
  | .error _ => return
  | .ok (tcpHeader, tcpPayload) =>
      let srcPort ← tcpHeader.sourcePort
      let dstPort ← tcpHeader.destinationPort
      emit (tcpDetection dstPort tcpPayload)
      -- a panic of the detection leaves the call in the trace
      let i ← tcpInfo dstPort tcpPayload
      report out r i.protoColored i.infoColored (endpoint srcIp srcPort) (endpoint dstIp dstPort)
        i.infoRaw i.proto i.proto

/-! ## UDP -/

/-- What `handle_udp` makes of a payload. -/
structure UdpInfo where
  infoRaw : String
  isDns : Bool
deriving DecidableEq, Repr

/-- Port 53 on either side: the name of the query. -/
def dnsInfo (udpPayload : List UInt8) : Run UdpInfo := do
  match ← DnsQuery.parse udpPayload with
  | .ok dns => return { infoRaw := "DNS: " ++ (← truncate dns.domainName 30), isDns := true }
  | .error _ => return { infoRaw := "DNS", isDns := true }

def udpInfo (srcPort dstPort : UInt16) (udpPayload : List UInt8) : Act UdpInfo :=
  if dstPort = 53 ∨ srcPort = 53 then do
    emit (.dnsParse udpPayload)
    dnsInfo udpPayload
  else
    return { infoRaw := "-", isDns := false }

def UdpInfo.infoColored (i : UdpInfo) : ColoredString :=
  { text := Text.padRight 35 i.infoRaw
    styles := if i.isDns then [.brightYellow, .bold] else [.brightBlack] }

def handleUdp (out : Outputs) (r : Report) (srcIp dstIp : String) (payload : List UInt8) :
    Act Unit := do
  match ← UdpHeader.parse payload with
  | .error _ => return
  | .ok (udpHeader, udpPayload) =>
      let srcPort ← udpHeader.sourcePort
      let dstPort ← udpHeader.destinationPort
      let i ← udpInfo srcPort dstPort udpPayload
      report out r { text := Text.padRight 5 "UDP", styles := [.brightBlue, .bold] } i.infoColored
        (endpoint srcIp srcPort) (endpoint dstIp dstPort) i.infoRaw "UDP"
        (if i.isDns then "DNS" else "UDP")

/-! ## ICMP -/

/-- `handle_icmp` and `handle_icmpv6`: the texts for the message types, and
the names of the protocol on the terminal, in the JSON line and in the
broadcast. -/
def handleIcmpWith (describe : IcmpHeader → Run String) (proto protoLog protoName : String)
    (out : Outputs) (r : Report) (srcIp dstIp : String) (payload : List UInt8) : Act Unit := do
  match ← IcmpHeader.parse payload with
  | .error _ => return
  | .ok (icmpHeader, _) =>
      let infoRaw ← describe icmpHeader
      report out r { text := Text.padRight 5 proto, styles := [.brightRed, .bold] }
        { text := Text.padRight 35 infoRaw, styles := [.brightRed] } srcIp dstIp infoRaw
        protoLog protoName

def describeIcmp (icmpHeader : IcmpHeader) : Run String := do
  match (← icmpHeader.icmpType).toNat with
  | 0 => return "Echo Reply (0)"
  | 3 => return "Dest Unreachable (" ++ toString (← icmpHeader.code).toNat ++ ")"
  | 8 => return "Echo Request (8)"
  | 11 => return "Time Exceeded"
  | t => return "Type " ++ toString t

def handleIcmp : Outputs → Report → String → String → List UInt8 → Act Unit :=
  handleIcmpWith describeIcmp "ICMP" "ICMP" "ICMP"

def describeIcmpv6 (icmpHeader : IcmpHeader) : Run String := do
  match (← icmpHeader.icmpType).toNat with
  | 1 => return "Dest Unreachable"
  | 2 => return "Packet Too Big"
  | 3 => return "Time Exceeded"
  | 128 => return "Echo Request (Ping)"
  | 129 => return "Echo Reply (Ping)"
  | 133 => return "Router Solicitation"
  | 134 => return "Router Advertisement"
  | 135 => return "Neighbor Solicitation"
  | 136 => return "Neighbor Advertisement"
  | t => return "Type " ++ toString t

def handleIcmpv6 : Outputs → Report → String → String → List UInt8 → Act Unit :=
  handleIcmpWith describeIcmpv6 "ICMP6" "ICMPv6" "ICMP6"

/-! ## ARP -/

def describeArp (arp : ArpPacket) : Run String := do
  match (← arp.opcode).toNat with
  | 1 => return "Who has " ++ (← arp.targetIp).display ++ "? Tell " ++ (← arp.senderIp).display
  | 2 => return (← arp.senderIp).display ++ " is at " ++ (← arp.senderMac).display
  | op => return "Opcode " ++ toString op

def handleArp (out : Outputs) (r : Report) (payload : List UInt8) : Act Unit := do
  match ← ArpPacket.parse payload with
  | .error _ => return
  | .ok arp =>
      let infoRaw ← describeArp arp
      let src := (← arp.senderMac).display
      let dst := (← arp.targetMac).display
      -- only the terminal line is shortened
      let shown ← truncate infoRaw 35
      report out r { text := Text.padRight 5 "ARP", styles := [.brightYellow, .bold] }
        { text := Text.padRight 35 shown, styles := [.brightYellow] } src dst infoRaw "ARP" "ARP"

/-! ## The packet -/

/-- A byte of a flushed buffer as it is printed. -/
def printable (b : UInt8) : Char :=
  if isAsciiGraphic b || b == 0x20 || b == 0x0A || b == 0x0D then Char.ofNat b.toNat else '.'

/-- The rule above a flushed buffer. -/
def streamHeader : String :=
  " ─── Stream Reassembly ─────────────────────────────────────────────────────────────────" ++
    "───────────────────────────"

/-- The rule below it. -/
def streamFooter : String :=
  " ───────────────────────────────────────────────────────────────────────────────────────" ++
    "───────────────────────────"

/-- The lines of a flush. -/
def streamDump (data : List UInt8) : List ColoredString :=
  [{ text := streamHeader, styles := [.brightBlue] },
   { text := String.ofList (data.map printable), styles := [.brightWhite] },
   { text := streamFooter, styles := [.brightBlue] }]

def printFlush : Option (StreamKey × List UInt8) → Act Unit
  | some (_, data) => emit (.printStream (streamDump data))
  | none => return

/-- Feed the tracker, if there is one, and print what it flushes. -/
def feedTracker (tracker : Option TcpStreamTracker) (call : FeedCall) :
    Act (Option TcpStreamTracker) := do
  match tracker with
  | none => return none
  | some t =>
      emit (.feed call)
      printFlush (t.feed call).2
      return some (t.feed call).1

/-- A segment of an IPv4 packet: the tracker is fed before `handle_tcp` parses
the segment once more. -/
def followTcp (out : Outputs) (r : Report) (tracker : Option TcpStreamTracker)
    (srcIp dstIp : String) (ipPayload : List UInt8) : Act (Option TcpStreamTracker) := do
  match ← TcpHeader.parse ipPayload with
  | .ok (tcpHeader, tcpPayload) =>
      let srcPort ← tcpHeader.sourcePort
      let dstPort ← tcpHeader.destinationPort
      -- the flush is printed before the line of the packet that caused it
      let tracker' ← feedTracker tracker
        { srcIp := srcIp, srcPort := srcPort, dstIp := dstIp, dstPort := dstPort,
          payload := tcpPayload }
      handleTcp out r srcIp dstIp ipPayload
      return tracker'
  | .error _ =>
      handleTcp out r srcIp dstIp ipPayload
      return tracker

/-- `match ipv4_header.protocol()`. -/
def dispatchIpv4 (out : Outputs) (r : Report) (tracker : Option TcpStreamTracker)
    (srcIp dstIp : String) (protocol : UInt8) (ipPayload : List UInt8) :
    Act (Option TcpStreamTracker) := do
  if protocol = 6 then
    followTcp out r tracker srcIp dstIp ipPayload
  else if protocol = 17 then
    handleUdp out r srcIp dstIp ipPayload
    return tracker
  else if protocol = 1 then
    handleIcmp out r srcIp dstIp ipPayload
    return tracker
  else
    return tracker

/-- The IPv4 arm: only here is the tracker fed. -/
def processIpv4 (out : Outputs) (r : Report) (tracker : Option TcpStreamTracker)
    (payload : List UInt8) : Act (Option TcpStreamTracker) := do
  match ← Ipv4Header.parse payload with
  | .error _ => return tracker
  | .ok (ipv4Header, ipPayload) =>
      let srcIp := (← ipv4Header.source).display
      let dstIp := (← ipv4Header.destination).display
      dispatchIpv4 out r tracker srcIp dstIp (← ipv4Header.protocol) ipPayload

/-- `match ipv6_header.next_header()`. -/
def dispatchIpv6 (out : Outputs) (r : Report) (srcIp dstIp : String) (nextHeader : UInt8)
    (ipPayload : List UInt8) : Act Unit :=
  if nextHeader = 6 then handleTcp out r srcIp dstIp ipPayload
  else if nextHeader = 17 then handleUdp out r srcIp dstIp ipPayload
  else if nextHeader = 58 then handleIcmpv6 out r srcIp dstIp ipPayload
  else return

/-- The IPv6 arm. -/
def processIpv6 (out : Outputs) (r : Report) (payload : List UInt8) : Act Unit := do
  match ← Ipv6Header.parse payload with
  | .error _ => return
  | .ok (ipv6Header, ipPayload) =>
      let srcIp := (← ipv6Header.source).display
      let dstIp := (← ipv6Header.destination).display
      dispatchIpv6 out r srcIp dstIp (← ipv6Header.nextHeader) ipPayload

/-- The dump comes before the analysis, so that unparsable frames show. -/
def printHexdump (showHexdump : Bool) (packetData : List UInt8) : Act Unit :=
  if showHexdump then do
    let dump ← hexdump packetData
    emit (.printDump { text := dump, styles := [.brightBlack] })
  else
    return

/-- `process_packet`: the tracker afterwards. `timeStr` is the local time at
which the packet is dissected. -/
def processPacket (out : Outputs) (timeStr : String) (tracker : Option TcpStreamTracker)
    (packetData : List UInt8) (size : Nat) : Act (Option TcpStreamTracker) := do
  emitIf out.pcapWriter (.pcapWrite packetData)
  printHexdump out.showHexdump packetData
  match ← EthernetFrame.parse packetData with
  | .error _ => return tracker
  | .ok (ethFrame, payload) =>
      let rawHex ← toHexString packetData
      let r : Report := { timeStr := timeStr, size := size, rawHex := rawHex }
      -- the handlers get the size and the bytes of the frame, not of the datagram
      match ← ethFrame.ethertype with
      | .ipv4 => processIpv4 out r tracker payload
      | .ipv6 =>
          processIpv6 out r payload
          return tracker
      | .arp =>
          handleArp out r payload
          return tracker
      | .other _ => return tracker

end NetZer

import NetZer.Cli.Datagram
import NetZer.Cli.Escaping
import NetZer.Web.Dashboard

/-! # The statistics of the dashboard

A packet that is reported reaches the page as a message, and the page takes the
address and the domain out of the texts of the message again. It finds the ones
the packet has where the destination is an IPv4 address and the domain that of a
DNS query, if the texts are what they seem: the tables then count exactly the
packets of each.
-/

namespace NetZer

open Rust Text

/-! ## Messages -/

/-- What a call sends to the dashboard. -/
def Call.webMessage : Call → Option String
  | .broadcast record rawHex => some (record.webMessage rawHex)
  | _ => none

/-- The messages a run broadcasts. -/
def webMessages (run : List (Packet × List Call)) : List String :=
  run.flatMap fun e => e.2.filterMap Call.webMessage

/-- A property of an object; the last of equal keys counts. -/
def property (members : List (String × Json.Value)) (key : String) : Option Json.Value :=
  members.reverse.lookup key

/-- A property that is a text. -/
def textProperty (members : List (String × Json.Value)) (key : String) : Option String :=
  match property members key with
  | some (.string s) => some s
  | _ => none

/-- A property that is a natural number. -/
def naturalProperty (members : List (String × Json.Value)) (key : String) : Option Nat :=
  match property members key with
  | some (.number (.ofNat n) 0) => some n
  | _ => none

/-- `socket.onmessage`: the packet that is queued, if the message is JSON and
not of type `system`. Objects that are no packets are left out. -/
def onMessage (data : String) : Option PacketMessage :=
  match Json.decode data with
  | some (.object members) =>
      if textProperty members "type" = some "system" then none
      else do
        return {
          timestamp := ← textProperty members "timestamp"
          proto := ← textProperty members "proto"
          src := ← textProperty members "src"
          dst := ← textProperty members "dst"
          info := ← textProperty members "info"
          size := ← naturalProperty members "size"
          payload := ← textProperty members "payload" }
  | _ => none

/-- The packets a page has queued that has received the messages of a run. -/
def queued (run : List (Packet × List Call)) : List PacketMessage :=
  (webMessages run).filterMap onMessage

theorem queued_cons (e : Packet × List Call) (es : List (Packet × List Call)) :
    queued (e :: es) = (e.2.filterMap Call.webMessage).filterMap onMessage ++ queued es := by
  simp [queued, webMessages]

/-- The message of a record. -/
def Record.message (r : Record) (rawHex : String) : PacketMessage :=
  { timestamp := r.timestamp, proto := r.proto, src := r.src, dst := r.dst, info := r.info,
    size := r.size, payload := rawHex }

/-- The message of a plain record is received as it was sent. -/
theorem Record.onMessage_webMessage {r : Record} {rawHex : String} (hr : r.plain = true)
    (hhex : Avoids isEscaped rawHex) (hplain : Json.plain rawHex = true) :
    onMessage (r.webMessage rawHex) = some (r.message rawHex) := by
  have hmembers : r.webMembers rawHex ≠ [] := by simp [Record.webMembers]
  have hall : (r.webMembers rawHex).all (fun m => Json.plain m.1 && m.2.plain) = true := by
    rw [Record.webMembers, List.all_append, Bool.and_eq_true]
    refine ⟨hr, ?_⟩
    have hkey : Json.plain "payload" = true := by decide
    simp [Json.Field.plain, hkey, hplain]
  rw [onMessage, Json.decode_writeObject hmembers (r.webMessage_toList hhex), if_pos hall]
  simp [Record.webMembers, Record.members, Record.message, textProperty, naturalProperty, property,
    List.lookup_cons, Json.Field.value]
  rfl

/-! ## The packets that are queued -/

/-- The broadcast names the protocol by one of the page's names. -/
theorem frameReport_protoName {frame : List UInt8} {g : Reporting}
    (hg : frameReport frame = .ok (some g)) : Avoids isControl g.protoName := by
  have hcase := frameReport_case frame
  generalize frameReport frame = x at hcase hg
  -- one case per handler: each reports a name of its own
  cases hcase with
  | silent => cases hg
  | tcp _ _ _ _ =>
      obtain ⟨i, -, rfl⟩ := returned_some hg
      exact i.proto_avoids
  | udp _ _ _ _ =>
      obtain ⟨i, -, rfl⟩ := returned_some hg
      have hname : ∀ isDns : Bool, Avoids isControl (if isDns then "DNS" else "UDP") := by decide
      exact hname i.isDns
  | icmp icmp _ _ =>
      obtain ⟨infoRaw, -, rfl⟩ := returned_some hg
      exact (by decide : Avoids isControl "ICMP")
  | icmpv6 _ _ _ _ _ =>
      obtain ⟨infoRaw, -, rfl⟩ := returned_some hg
      exact (by decide : Avoids isControl "ICMP6")
  | arp arp _ _ =>
      obtain ⟨infoRaw, -, hshown⟩ := bind_eq_ok.mp hg
      obtain ⟨shown, -, rfl⟩ := returned_some hshown
      exact (by decide : Avoids isControl "ARP")

/-- A record is plain if its info is. -/
theorem Packet.webRecord_plain {p : Packet} {g : Reporting} (hg : p.reported = some g)
    (hinfo : Avoids isC0 g.infoRaw) :
    (g.webRecord p.time.display p.frame.length).plain = true := by
  rw [reported_eq_some_iff] at hg
  have hplain := frameReport_plain hg
  have hkeys : ∀ key ∈ ["timestamp", "proto", "src", "dst", "info", "size"],
      Json.plain key = true := by decide
  simp only [List.forall_mem_cons] at hkeys
  simp only [Record.plain, Record.members, Reporting.webRecord, List.all_cons, List.all_nil,
    Json.Field.plain, plain_of_avoids p.time.display_avoids,
    plain_of_avoids (frameReport_protoName hg), plain_of_avoids hplain.src,
    plain_of_avoids hplain.dst, plain_iff_avoids.mpr hinfo, hkeys, Bool.and_true]

/-- What is broadcast of a packet that is reported. -/
theorem Packet.process_webMessage (out : Outputs) (tracker : Option TcpStreamTracker)
    (p : Packet) :
    ∃ rawHex, toHexString p.frame = .ok rawHex ∧
      (p.process { out with webServer := true } tracker).trace.filterMap Call.webMessage =
        (p.reported.map fun g =>
          (g.webRecord p.time.display p.frame.length).webMessage rawHex).toList := by
  obtain ⟨rawHex, hhex, hview⟩ := p.process_filterMap { out with webServer := true } tracker
    Call.webMessage (fun c => by cases c <;> rfl) (fun _ => rfl) (fun _ => rfl)
  refine ⟨rawHex, hhex, ?_⟩
  rw [hview, reported]
  obtain panic | none | g := frameReport p.frame
  · rfl
  · rfl
  · simp only [reportCalls, Reporting.calls, List.filterMap_append]
    cases out.jsonWriter <;> rfl

/-! ## The tables -/

namespace Dashboard

/-- The tables count the packets that were queued, up to those that still are. -/
def Consumed (browser : Browser) (received : List PacketMessage) (d : Dashboard) : Prop :=
  ∃ consumed, received = consumed ++ d.packetQueue ∧
    d.ipStats = (consumed.map fun m => dstIpOnly m.dst).foldl
      (Js.Table.bump browser.nativeText) .empty ∧
    d.domainStats = (consumed.filterMap fun m => domainOf m.info).foldl
      (Js.Table.bump browser.nativeText) .empty

/-- The packet an event queues. -/
def Event.received : Event → Option PacketMessage
  | .message m => some m
  | _ => none

section

variable {browser : Browser} {received : List PacketMessage} {d : Dashboard}

theorem foldl_countPacket (browser : Browser) (ms : List PacketMessage) (d : Dashboard) :
    (ms.foldl (countPacket browser) d).packetQueue = d.packetQueue ∧
      (ms.foldl (countPacket browser) d).ipStats =
        (ms.map fun m => dstIpOnly m.dst).foldl (Js.Table.bump browser.nativeText) d.ipStats ∧
      (ms.foldl (countPacket browser) d).domainStats =
        (ms.filterMap fun m => domainOf m.info).foldl
          (Js.Table.bump browser.nativeText) d.domainStats := by
  induction ms generalizing d with
  | nil => exact ⟨rfl, rfl, rfl⟩
  | cons m ms ih =>
      obtain ⟨hqueue, hips, hdomains⟩ := ih (countPacket browser d m)
      refine ⟨hqueue, hips, ?_⟩
      rw [List.foldl_cons, hdomains, List.filterMap_cons]
      cases hdom : domainOf m.info with
      | none => simp [countPacket, hdom]
      | some dom => simp [countPacket, hdom]

/-- Showing the list changes neither the queue nor the tables. -/
theorem refreshList_tables (d : Dashboard) :
    (refreshList d).1.packetQueue = d.packetQueue ∧ (refreshList d).1.ipStats = d.ipStats ∧
      (refreshList d).1.domainStats = d.domainStats := by
  unfold refreshList
  split <;> exact ⟨rfl, rfl, rfl⟩

theorem Consumed.refresh (h : Consumed browser received d) :
    Consumed browser received (refreshList d).1 := by
  obtain ⟨hqueue, hips, hdomains⟩ := refreshList_tables d
  obtain ⟨consumed, hreceived, hip, hdomain⟩ := h
  exact ⟨consumed, by rw [hqueue, hreceived], by rw [hips, hip], by rw [hdomains, hdomain]⟩

theorem Consumed.consume (h : Consumed browser received d) :
    Consumed browser received (consumeQueue browser d).1 := by
  rw [consumeQueue]
  split
  · exact h
  · -- all of the queue is counted
    obtain ⟨consumed, hreceived, hip, hdomain⟩ := h
    obtain ⟨hqueue, hips, hdomains⟩ :=
      foldl_countPacket browser d.packetQueue { d with packetQueue := [] }
    apply Consumed.refresh
    refine ⟨received, ?_, ?_, ?_⟩
    · show received = received ++ (d.packetQueue.foldl (countPacket browser) _).packetQueue
      rw [hqueue, List.append_nil]
    · show (d.packetQueue.foldl (countPacket browser) _).ipStats = _
      rw [hips, hip, hreceived, List.map_append, List.foldl_append]
    · show (d.packetQueue.foldl (countPacket browser) _).domainStats = _
      rw [hdomains, hdomain, hreceived, List.filterMap_append, List.foldl_append]

theorem Consumed.step (h : Consumed browser received d) (e : Event) :
    Consumed browser (received ++ e.received.toList) (d.step browser e).1 := by
  cases e with
  -- what is received is queued first
  | message m =>
      obtain ⟨consumed, hreceived, hip, hdomain⟩ := h
      refine ⟨consumed, ?_, hip, hdomain⟩
      show received ++ [m] = consumed ++ (d.packetQueue ++ [m])
      rw [hreceived, List.append_assoc]
  -- a tick takes it over from the queue
  | tick =>
      show Consumed browser (received ++ []) (d.consumeQueue browser).1
      rw [List.append_nil]
      exact h.consume
  | setFilter filter =>
      show Consumed browser (received ++ []) (refreshList _).1
      rw [List.append_nil]
      exact Consumed.refresh h
  | handleSearch value =>
      show Consumed browser (received ++ []) (refreshList _).1
      rw [List.append_nil]
      exact Consumed.refresh h
  | nextPage =>
      show Consumed browser (received ++ []) _
      rw [List.append_nil, Dashboard.step]
      split
      · exact Consumed.refresh h
      · exact h
  | prevPage =>
      show Consumed browser (received ++ []) _
      rw [List.append_nil, Dashboard.step]
      split
      · exact Consumed.refresh h
      · exact h
  | click row =>
      show Consumed browser (received ++ []) _
      rw [List.append_nil, Dashboard.step]
      split
      · exact h
      · exact h

theorem Consumed.run (h : Consumed browser received d) (events : List Event) :
    Consumed browser (received ++ events.filterMap Event.received) (d.run browser events).1 := by
  induction events generalizing received d with
  | nil =>
      rw [List.filterMap_nil, List.append_nil]
      exact h
  | cons e es ih =>
      have hevents : received ++ (e :: es).filterMap Event.received =
          received ++ e.received.toList ++ es.filterMap Event.received := by
        rw [List.filterMap_cons, List.append_assoc]
        cases e.received <;> rfl
      rw [hevents]
      exact ih (h.step e)

/-- When the queue is empty the tables count all packets that were queued. -/
theorem run_tables {events : List Event}
    (hdrained : (initial.run browser events).1.packetQueue = []) :
    (initial.run browser events).1.ipStats =
        ((events.filterMap Event.received).map fun m => dstIpOnly m.dst).foldl
          (Js.Table.bump browser.nativeText) .empty ∧
      (initial.run browser events).1.domainStats =
        ((events.filterMap Event.received).filterMap fun m => domainOf m.info).foldl
          (Js.Table.bump browser.nativeText) .empty := by
  have hinitial : Consumed browser [] initial := ⟨[], rfl, rfl, rfl⟩
  obtain ⟨consumed, hreceived, hip, hdomain⟩ := hinitial.run events
  rw [hdrained, List.append_nil, List.nil_append] at hreceived
  rw [hreceived]
  exact ⟨hip, hdomain⟩

end

/-! ## What a packet is counted for -/

theorem dstIpOnly_eq (dst : String) :
    dstIpOnly dst = String.ofList (dst.toList.takeWhile (· != ':')) :=
  Js.head_split dst

theorem colon_not_mem_dstIpOnly (dst : String) : ':' ∉ (dstIpOnly dst).toList := by
  rw [dstIpOnly_eq, String.toList_ofList]
  intro hmem
  exact absurd (List.mem_takeWhile_imp hmem) (by decide)

/-- An IPv4 address is taken out of the text as it is, with and without a port. -/
theorem dstIpOnly_v4 {a : Ipv4Address} {dst : String} (h : Endpoint a.display dst) :
    dstIpOnly dst = a.display := by
  have hno : ∀ c ∈ a.display.toList, (c != ':') = true := by
    intro c hc
    rw [bne_iff_ne]
    rintro rfl
    exact a.colon_not_mem_display hc
  rw [dstIpOnly_eq]
  cases h with
  | bare => rw [List.takeWhile_eq_self_iff.mpr hno, String.ofList_toList]
  | port port =>
      have hsplit : (endpoint a.display port).toList =
          a.display.toList ++ ':' :: (toString port.toNat).toList := by
        simp [endpoint]
      rw [hsplit, List.takeWhile_append_of_pos hno]
      simp

end Dashboard

/-- A reported packet whose texts mean to the dashboard what they mean to the
handler: the destination has no colon, and the info is the name of a DNS query
behind its prefix or has neither prefix. -/
structure Packet.Countable (p : Packet) (g : Reporting) : Prop where
  address : ∀ a, p.destination ≠ some (.v6 a)
  tls : p.tlsDomain = none
  /-- JSON leaves no such character unescaped. -/
  plain : Avoids isC0 g.infoRaw
  sni : Js.includes g.infoRaw "SNI:" = false
  dns : ∀ dom, p.dnsDomain = some dom → Js.trim dom = dom ∧ Js.isInherited dom = false
  other : p.dnsDomain = none → Js.startsWith g.infoRaw "DNS: " = false

section

variable {p : Packet} {g : Reporting}

/-- The dashboard finds the address the packet is sent to. -/
theorem Packet.Countable.address_iff (h : p.Countable g) (hg : p.reported = some g)
    (a : NetAddress) : Dashboard.dstIpOnly g.dst = a.display ↔ p.destination = some a := by
  have hcolon := Dashboard.colon_not_mem_dstIpOnly g.dst
  obtain ⟨b, hdst, hendpoint⟩ | ⟨hnone, mac, hmac⟩ := reported_dst hg
  · cases b with
    | v6 b => exact absurd hdst (h.address b)
    | v4 b =>
        rw [hdst, Dashboard.dstIpOnly_v4 hendpoint, Option.some.injEq]
        cases a with
        | v4 a =>
            rw [NetAddress.v4.injEq]
            exact Ipv4Address.display_injective.eq_iff
        -- a text without a colon is no IPv6 address
        | v6 a =>
            refine iff_of_false (fun heq => ?_) (fun heq => nomatch heq)
            rw [Dashboard.dstIpOnly_v4 hendpoint, heq] at hcolon
            exact hcolon a.colon_mem_display
  · -- a hardware address has no dot, and its first part no colon
    rw [hnone]
    refine iff_of_false (fun heq => ?_) (fun heq => nomatch heq)
    cases a with
    | v4 a =>
        have hdot := a.dot_mem_display
        have hpart : Dashboard.dstIpOnly g.dst = a.display := heq
        rw [← hpart, hmac, Dashboard.dstIpOnly_eq, String.toList_ofList] at hdot
        exact mac.dot_not_mem_display ((List.takeWhile_subset _) hdot)
    | v6 a =>
        rw [heq] at hcolon
        exact hcolon a.colon_mem_display

/-- It finds the domain the packet carries. -/
theorem Packet.Countable.domainOf_eq (h : p.Countable g) (hg : p.reported = some g) :
    Dashboard.domainOf g.infoRaw = p.domain := by
  rw [Packet.domain, h.tls, Option.none_or]
  unfold Dashboard.domainOf
  rw [if_neg (by simp [h.sni])]
  cases hdom : p.dnsDomain with
  | none => rw [if_neg (by simp [h.other hdom])]
  | some dom =>
      have hinfo := reported_dns hg hdom
      have hstarts : g.infoRaw ≠ "" ∧ Js.startsWith g.infoRaw "DNS: " = true := by
        rw [hinfo]
        exact ⟨by simp, Js.startsWith_append "DNS: " dom⟩
      have hname : Js.substring g.infoRaw 5 = dom := by
        rw [hinfo]
        exact Js.substring_append "DNS: " dom
      rw [if_pos hstarts, hname, (h.dns dom hdom).1]

end

/-! ## The packets of a run -/

/-- The calls are those of a packet with the dashboard on. -/
def Broadcasts (p : Packet) (calls : List Call) : Prop :=
  ∃ rawHex, toHexString p.frame = .ok rawHex ∧
    calls.filterMap Call.webMessage =
      (p.reported.map fun g =>
        (g.webRecord p.time.display p.frame.length).webMessage rawHex).toList

theorem capture_broadcasts (out : Outputs) (tracker : Option TcpStreamTracker)
    (packets : List Packet) :
    ∀ e ∈ capture { out with webServer := true } tracker packets, Broadcasts e.1 e.2 :=
  capture_forall (P := Broadcasts) (fun tracker p => p.process_webMessage out tracker) tracker
    packets

/-- A packet is queued if it is reported. -/
theorem Broadcasts.queued {p : Packet} {calls : List Call} (h : Broadcasts p calls)
    (hplain : ∀ g, p.reported = some g → Avoids isC0 g.infoRaw) :
    ∃ rawHex, (calls.filterMap Call.webMessage).filterMap onMessage =
      (p.reported.map fun g =>
        (g.webRecord p.time.display p.frame.length).message rawHex).toList := by
  obtain ⟨rawHex, hhex, hmessage⟩ := h
  refine ⟨rawHex, ?_⟩
  rw [hmessage]
  cases hg : p.reported with
  | none => rfl
  | some g =>
      have hreceived := Record.onMessage_webMessage (p.webRecord_plain hg (hplain g hg))
        (toHexString_unescaped hhex) (plain_iff_avoids.mpr (toHexString_avoids (by decide) hhex))
      simp [hreceived]

/-- The queued packets with a key are the packets that are reported and have
what the key stands for. -/
theorem count_queued {received : List (Packet × List Call)} {key : PacketMessage → Option String}
    {k : String} {wanted : Packet → Bool} (hrun : ∀ e ∈ received, Broadcasts e.1 e.2)
    (hplain : ∀ e ∈ received, ∀ g, e.1.reported = some g → Avoids isC0 g.infoRaw)
    (hkey : ∀ e ∈ received, ∀ g, e.1.reported = some g → ∀ timeStr size rawHex,
      key ((g.webRecord timeStr size).message rawHex) = some k ↔ wanted e.1 = true) :
    ((queued received).filterMap key).count k =
      (received.map Prod.fst).countP fun p => p.reported.isSome && wanted p := by
  -- packet by packet: each queues one message at most
  induction received with
  | nil => rfl
  | cons e es ih =>
      rw [List.forall_mem_cons] at hrun hplain hkey
      obtain ⟨rawHex, hqueued⟩ := hrun.1.queued hplain.1
      rw [queued_cons, List.filterMap_append, List.count_append, ih hrun.2 hplain.2 hkey.2, hqueued,
        List.map_cons, List.countP_cons, Nat.add_comm]
      congr 1
      cases hg : e.1.reported with
      | none => simp
      | some g =>
          have hiff := hkey.1 g hg e.1.time.display e.1.frame.length rawHex
          cases hk : key ((g.webRecord e.1.time.display e.1.frame.length).message rawHex) with
          | none =>
              have hno : wanted e.1 = false := by simpa [hk] using hiff
              simp [hk, hno]
          | some k' =>
              rw [hk, Option.some.injEq] at hiff
              simp [hk, List.count_singleton, hiff]

/-- No more packets are queued than received. -/
theorem length_queued_le {received : List (Packet × List Call)}
    (hrun : ∀ e ∈ received, Broadcasts e.1 e.2) : (queued received).length ≤ received.length := by
  induction received with
  | nil => exact Nat.le_refl 0
  | cons e es ih =>
      rw [List.forall_mem_cons] at hrun
      obtain ⟨⟨rawHex, -, hmessage⟩, hrest⟩ := hrun
      have hone : ((e.2.filterMap Call.webMessage).filterMap onMessage).length ≤ 1 := by
        refine Nat.le_trans (List.length_filterMap_le _ _) ?_
        rw [hmessage]
        exact Option.length_toList_le
      rw [queued_cons, List.length_append, List.length_cons]
      have hes := ih hrest
      omega

/-! ## The counts -/

/-- The packets that are reported to go to an address. -/
def sentTo (packets : List Packet) (a : NetAddress) : Nat :=
  packets.countP fun p => p.reported.isSome && decide (p.destination = some a)

/-- The packets that are reported with a domain. -/
def carrying (packets : List Packet) (dom : String) : Nat :=
  packets.countP fun p => p.reported.isSome && decide (p.domain = some dom)

/-- The tables have for every address and every domain how many of the packets
are of it. -/
structure Dashboard.Counts (d : Dashboard) (packets : List Packet) : Prop where
  addresses : ∀ a : NetAddress, d.ipStats.get? a.display = Js.Table.tally (sentTo packets a)
  domains : ∀ dom, d.domainStats.get? dom = Js.Table.tally (carrying packets dom)

/-- A page has received what was broadcast of these packets of a run, whatever
else happened on it, and its queue is drained. -/
structure Session (browser : Browser) (run received : List (Packet × List Call))
    (events : List Dashboard.Event) : Prop where
  broadcast : received.Sublist run
  queued : events.filterMap Dashboard.Event.received = queued received
  drained : (Dashboard.initial.run browser events).1.packetQueue = []

theorem NetAddress.display_not_inherited (a : NetAddress) : Js.isInherited a.display = false := by
  have hkeys : ∀ key, Js.isInherited key = true → '.' ∉ key.toList ∧ ':' ∉ key.toList := by
    intro key hkey
    have hall : ∀ key ∈ "__proto__" :: Js.objectMethods, '.' ∉ key.toList ∧ ':' ∉ key.toList := by
      decide
    apply hall
    simpa [Js.isInherited, or_comm] using hkey
  rw [← Bool.not_eq_true]
  intro hinherited
  have hmarks := hkeys _ hinherited
  cases a with
  | v4 a => exact hmarks.1 a.dot_mem_display
  | v6 a => exact hmarks.2 a.colon_mem_display

theorem Dashboard.run_append (browser : Browser) (d : Dashboard)
    (es fs : List Dashboard.Event) :
    (d.run browser (es ++ fs)).1 = ((d.run browser es).1.run browser fs).1 := by
  induction es generalizing d with
  | nil => rfl
  | cons e es ih => exact ih (d.step browser e).1

theorem Dashboard.consumeQueue_drained (browser : Browser) (d : Dashboard) :
    (d.consumeQueue browser).1.packetQueue = [] := by
  rw [consumeQueue]
  split
  · next hempty => exact hempty
  · exact (refreshList_tables _).1.trans (foldl_countPacket browser _ _).1

/-- All that is broadcast is received and then consumed. -/
def sessionEvents (run : List (Packet × List Call)) : List Dashboard.Event :=
  (queued run).map Dashboard.Event.message ++ [.tick]

theorem session_whole (browser : Browser) (run : List (Packet × List Call)) :
    Session browser run run (sessionEvents run) := by
  refine ⟨List.Sublist.refl run, ?_, ?_⟩
  · rw [sessionEvents, List.filterMap_append, List.filterMap_map]
    exact (List.append_nil _).trans List.filterMap_some
  · rw [sessionEvents, Dashboard.run_append]
    exact Dashboard.consumeQueue_drained browser _

/-- A run with a single packet, and the dashboard on. -/
def singleRun (p : Packet) : List (Packet × List Call) :=
  capture ⟨false, false, false, true⟩ none [p]

theorem singleRun_packets (p : Packet) : (singleRun p).map Prod.fst = [p] := by
  rw [singleRun, capture, List.map_cons]
  cases (p.process ⟨false, false, false, true⟩ none).result <;> rfl

theorem length_singleRun (p : Packet) : (singleRun p).length = 1 := by
  rw [← List.length_map Prod.fst, singleRun_packets, List.length_singleton]

theorem singleRun_broadcasts (p : Packet) : ∀ e ∈ singleRun p, Broadcasts e.1 e.2 :=
  capture_broadcasts ⟨false, false, false, false⟩ none [p]

/-- In every run the drained tables are right if each packet received is
countable, as long as the numbers of the page are exact. -/
theorem session_counts (out : Outputs) (tracker : Option TcpStreamTracker) (packets : List Packet)
    (browser : Browser) (received : List (Packet × List Call)) (events : List Dashboard.Event)
    (hsession : Session browser (capture { out with webServer := true } tracker packets) received
      events)
    (hcountable : ∀ e ∈ received, ∀ g, e.1.reported = some g → e.1.Countable g)
    (hlen : received.length ≤ Js.maxCount) :
    (Dashboard.initial.run browser events).1.Counts (received.map Prod.fst) := by
  have hrun : ∀ e ∈ received, Broadcasts e.1 e.2 := fun e he =>
    capture_broadcasts out tracker packets e (hsession.broadcast.subset he)
  have hplain : ∀ e ∈ received, ∀ g, e.1.reported = some g → Avoids isC0 g.infoRaw :=
    fun e he g hg => (hcountable e he g hg).plain
  have hqueued := Nat.le_trans (length_queued_le hrun) hlen
  obtain ⟨hips, hdomains⟩ := Dashboard.run_tables hsession.drained
  rw [hsession.queued] at hips hdomains
  constructor
  · intro a
    have hcount : ((queued received).map fun m => Dashboard.dstIpOnly m.dst).count a.display =
        sentTo (received.map Prod.fst) a := by
      rw [← List.filterMap_eq_map]
      refine count_queued hrun hplain fun e he g hg timeStr size rawHex => ?_
      rw [decide_eq_true_iff, ← (hcountable e he g hg).address_iff hg a]
      exact Option.some_inj
    rw [hips, Js.Table.get?_count (fun _ => a.display_not_inherited) (by rwa [List.length_map]),
      hcount]
  · intro dom
    have hcount : ((queued received).filterMap fun m => Dashboard.domainOf m.info).count dom =
        carrying (received.map Prod.fst) dom := by
      refine count_queued hrun hplain fun e he g hg timeStr size rawHex => ?_
      rw [decide_eq_true_iff, ← (hcountable e he g hg).domainOf_eq hg]
      rfl
    have hkey : dom ∈ (queued received).filterMap (fun m => Dashboard.domainOf m.info) →
        Js.isInherited dom = false := by
      -- a domain that is counted is one of a packet received
      intro hmem
      have hpos : 0 < carrying (received.map Prod.fst) dom := by
        rw [← hcount]
        exact List.count_pos_iff.mpr hmem
      obtain ⟨p, hp, hcarries⟩ := List.countP_pos_iff.mp hpos
      obtain ⟨e, he, rfl⟩ := List.mem_map.mp hp
      rw [Bool.and_eq_true, Option.isSome_iff_exists, decide_eq_true_iff] at hcarries
      obtain ⟨⟨g, hg⟩, hdomain⟩ := hcarries
      have hcountable := hcountable e he g hg
      rw [Packet.domain, hcountable.tls, Option.none_or] at hdomain
      exact (hcountable.dns dom hdomain).2
    have hfew : ((queued received).filterMap fun m => Dashboard.domainOf m.info).length ≤
        Js.maxCount := Nat.le_trans (List.length_filterMap_le _ _) hqueued
    rw [hdomains, Js.Table.get?_count hkey hfew, hcount]

/-- A query for `a.com` from 10.0.0.1 to 10.0.0.2. -/
def queryPacket : Packet :=
  { frame := List.replicate 12 0 ++ [0x08, 0x00] ++
      [0x45, 0, 0, 51, 0, 0, 0, 0, 64, 17, 0, 0, 10, 0, 0, 1, 10, 0, 0, 2] ++
      [0xc0, 0x00, 0, 53, 0, 31, 0, 0] ++
      [0, 1, 1, 0, 0, 1, 0, 0, 0, 0, 0, 0, 1, 97, 3, 99, 111, 109, 0, 0, 1, 0, 1]
    sinceEpoch := none
    time := midnight }

theorem queryPacket_dnsDomain : queryPacket.dnsDomain = some "a.com" := by
  decide +kernel

theorem queryPacket_countable {g : Reporting} (hg : queryPacket.reported = some g) :
    queryPacket.Countable g := by
  have hinfo : g.infoRaw = "DNS: " ++ "a.com" := Packet.reported_dns hg queryPacket_dnsDomain
  have hdst : queryPacket.destination = some (.v4 ⟨#v[10, 0, 0, 2]⟩) := by decide +kernel
  constructor
  · intro a ha
    rw [hdst] at ha
    cases ha
  · decide +kernel
  · rw [hinfo]
    decide
  · rw [hinfo]
    decide
  · intro dom hdom
    rw [queryPacket_dnsDomain, Option.some.injEq] at hdom
    rw [← hdom]
    decide
  · intro hnone
    rw [queryPacket_dnsDomain] at hnone
    cases hnone

theorem session_counts_query :
    (Dashboard.initial.run plainBrowser (sessionEvents (singleRun queryPacket))).1.Counts
      [queryPacket] := by
  rw [← singleRun_packets queryPacket]
  have hcountable : ∀ e ∈ singleRun queryPacket, ∀ g, e.1.reported = some g → e.1.Countable g := by
    intro e he g hg
    have hmem : e.1 ∈ (singleRun queryPacket).map Prod.fst := List.mem_map_of_mem he
    rw [singleRun_packets, List.mem_singleton] at hmem
    rw [hmem] at hg ⊢
    exact queryPacket_countable hg
  have hlen : (singleRun queryPacket).length ≤ Js.maxCount := by
    rw [length_singleRun]
    decide
  exact session_counts ⟨false, false, false, false⟩ none [queryPacket] _ _ _
    (session_whole _ _) hcountable hlen

/-- A UDP datagram to 2001:db8::1. -/
def ipv6Packet : Packet :=
  { frame := List.replicate 12 0 ++ [0x86, 0xdd] ++
      [0x60, 0, 0, 0, 0, 8, 17, 64] ++ List.replicate 16 0 ++
      [0x20, 0x01, 0x0d, 0xb8, 0, 0, 0, 0, 0, 0, 0, 0, 0, 0, 0, 1] ++
      [0xc0, 0x00, 0x00, 0x07, 0, 8, 0, 0]
    sinceEpoch := none
    time := midnight }

/-- It is counted, but not under its address. -/
theorem session_miscounts_ipv6 :
    ¬ ∀ (out : Outputs) (tracker : Option TcpStreamTracker) (packets : List Packet)
      (browser : Browser) (received : List (Packet × List Call)) (events : List Dashboard.Event),
      Session browser (capture { out with webServer := true } tracker packets) received events →
        (Dashboard.initial.run browser events).1.Counts (received.map Prod.fst) := by
  intro hall
  have hsession := session_whole plainBrowser (singleRun ipv6Packet)
  have hcounts := hall ⟨false, false, false, false⟩ none [ipv6Packet] _ _ _ hsession
  rw [singleRun_packets] at hcounts
  let a : NetAddress := .v6 ⟨#v[0x20, 0x01, 0x0d, 0xb8, 0, 0, 0, 0, 0, 0, 0, 0, 0, 0, 0, 1]⟩
  have hsent : sentTo [ipv6Packet] a = 1 := by
    decide +kernel
  -- no key of the table has a colon
  have habsent : a.display ∉
      (queued (singleRun ipv6Packet)).map fun m => Dashboard.dstIpOnly m.dst := by
    intro hmem
    obtain ⟨m, -, hm⟩ := List.mem_map.mp hmem
    have hcolon := Dashboard.colon_not_mem_dstIpOnly m.dst
    rw [hm] at hcolon
    exact hcolon (Ipv6Address.colon_mem_display _)
  have hlen : ((queued (singleRun ipv6Packet)).map fun m => Dashboard.dstIpOnly m.dst).length ≤
      Js.maxCount := by
    have hle := length_queued_le (singleRun_broadcasts ipv6Packet)
    rw [length_singleRun] at hle
    rw [List.length_map]
    exact Nat.le_trans hle (by decide)
  have hone := hcounts.addresses a
  rw [(Dashboard.run_tables hsession.drained).1, hsession.queued,
    Js.Table.get?_count (fun hmem => absurd hmem habsent) hlen, List.count_eq_zero.mpr habsent,
    hsent] at hone
  cases hone

end NetZer

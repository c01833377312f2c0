import NetZer.Cli.Process
import NetZer.Web.Cards
import NetZer.Web.Responses

/-! # From the ring to the page

What a browser makes of its connection: it reads the messages behind the
response, and each is an event of the page. The packets that the page has are
then packets of the ring.
-/

namespace NetZer

open Rust Text

/-! ## Messages as events -/

namespace Page

/-- `socket.onmessage`: what a message is to the page. -/
def Event.ofData (data : String) : Option Event :=
  match Json.decode data with
  | some (.object members) =>
      if textProperty members "type" = some "system" then
        some (.system (textProperty members "interface"))
      else (onMessage data).map fun pkt => .dashboard (.message pkt)
  | _ => none

/-- It comes from the connection's messages. -/
def Event.isData : Event → Bool
  | .system _ => true
  | .dashboard (.message _) => true
  | _ => false

/-- The packet an event brings. -/
def Event.packet (e : Event) : Option PacketMessage :=
  e.onDashboard.bind Dashboard.Event.received

theorem Event.packet_of_not_data {e : Event} (h : e.isData = false) : e.packet = none := by
  cases e with
  | dashboard e =>
      cases e with
      | message pkt => cases h
      | _ => rfl
  | _ => rfl

theorem packet_ofData (data : String) : (Event.ofData data).bind Event.packet = onMessage data := by
  unfold Event.ofData
  cases hdecode : Json.decode data with
  | none => simp [onMessage, hdecode]
  | some value =>
      cases value with
      | object members =>
          by_cases hsystem : textProperty members "type" = some "system"
          · simp [onMessage, hdecode, hsystem, Event.packet, Event.onDashboard]
          · simp only [if_neg hsystem]
            cases onMessage data <;> rfl
      | _ => simp [onMessage, hdecode]

/-- The packets of a page whose events of the connection are these messages. -/
theorem received_of_data {events : List Event} {messages : List String}
    (h : events.filter Event.isData = messages.filterMap Event.ofData) :
    (events.filterMap Event.onDashboard).filterMap Dashboard.Event.received =
      messages.filterMap onMessage := by
  have hdata : events.filterMap Event.packet =
      (events.filter Event.isData).filterMap Event.packet := by
    rw [List.filterMap_filter]
    refine List.filterMap_congr fun e _ => ?_
    split_ifs with he
    · rfl
    · exact Event.packet_of_not_data (Bool.not_eq_true _ ▸ he)
  rw [List.filterMap_filterMap]
  show events.filterMap Event.packet = _
  rw [hdata, h, List.filterMap_filterMap]
  exact congrArg (fun f => messages.filterMap f) (funext packet_ofData)

end Page

/-! ## The messages of packets -/

/-- The message a packet is broadcast in. -/
def Packet.message (p : Packet) : Option PacketMessage :=
  match p.reported, toHexString p.frame with
  | some g, .ok rawHex => some ((g.webRecord p.time.display p.frame.length).message rawHex)
  | _, _ => none

/-- No report on it has a control character in its info. -/
def Packet.plainInfo (p : Packet) : Prop :=
  ∀ g, p.reported = some g → Avoids isC0 g.infoRaw

theorem Broadcasts.map_onMessage {p : Packet} {calls : List Call} (h : Broadcasts p calls)
    (hplain : p.plainInfo) :
    (calls.filterMap Call.webMessage).map onMessage = p.message.toList.map some := by
  rcases h with ⟨rawHex, hhex, hmessage⟩
  rw [hmessage, Packet.message, hhex]
  cases hg : p.reported with
  | none => rfl
  | some g =>
      have hreceived := Record.onMessage_webMessage (p.webRecord_plain hg (hplain g hg))
        (toHexString_unescaped hhex) (plain_iff_avoids.mpr (toHexString_avoids (by decide) hhex))
      simp [hreceived]

theorem map_onMessage_webMessages {run : List (Packet × List Call)}
    (hrun : ∀ e ∈ run, Broadcasts e.1 e.2) (hplain : ∀ e ∈ run, e.1.plainInfo) :
    (webMessages run).map onMessage =
      ((run.map Prod.fst).filterMap Packet.message).map some := by
  induction run with
  | nil => rfl
  | cons e es ih =>
      rw [List.forall_mem_cons] at hrun hplain
      have hsplit : webMessages (e :: es) = e.2.filterMap Call.webMessage ++ webMessages es :=
        List.flatMap_cons
      rw [hsplit, List.map_append, hrun.1.map_onMessage hplain.1, ih hrun.2 hplain.2, List.map_cons,
        List.filterMap_cons]
      cases e.1.message <;> rfl

/-- A list that is mapped to these values. -/
theorem filterMap_of_map {α β : Type*} {f : α → Option β} {l : List α} {m : List β}
    (h : l.map f = m.map some) : l.filterMap f = m := by
  calc l.filterMap f = (l.map f).filterMap id := by rw [List.filterMap_map, Function.id_comp]
    _ = m := by rw [h, List.filterMap_map, Function.id_comp, List.filterMap_some]

/-- The messages that have been processed are those of the first packets. -/
theorem Process.map_onMessage_processed {e : Endian} {out : Outputs} {interface : String}
    {allowed : ServerEvent → Prop} {tracker : Option TcpStreamTracker} {s : Process}
    (h : (processSts e { out with webServer := true } interface allowed tracker).Reachable s)
    (hplain : ∀ p ∈ s.packets, p.plainInfo) :
    s.server.processed.map onMessage =
      ((s.packets.filterMap Packet.message).take s.server.processed.length).map some := by
  let run := capture { out with webServer := true } tracker s.packets
  have hprocessed : s.server.processed <+: webMessages run := Process.processed_first h
  have hpackets : run.map Prod.fst <+: s.packets :=
    capture_prefix_packets { out with webServer := true } tracker s.packets
  have hmessages : (webMessages run).map onMessage =
      ((run.map Prod.fst).filterMap Packet.message).map some :=
    map_onMessage_webMessages (capture_broadcasts out tracker s.packets)
      fun e he => hplain e.1 (hpackets.subset (List.mem_map_of_mem he))
  have hlen : s.server.processed.length ≤ ((run.map Prod.fst).filterMap Packet.message).length := by
    have heq := congrArg List.length hmessages
    rw [List.length_map, List.length_map] at heq
    rw [← heq]
    exact hprocessed.length_le
  have hshown : (run.map Prod.fst).filterMap Packet.message <+:
      s.packets.filterMap Packet.message := hpackets.filterMap Packet.message
  calc s.server.processed.map onMessage
      = ((webMessages run).take s.server.processed.length).map onMessage := by
        rw [← List.prefix_iff_eq_take.mp hprocessed]
    _ = (((run.map Prod.fst).filterMap Packet.message).take
          s.server.processed.length).map some := by
        rw [List.map_take, hmessages, List.map_take]
    _ = ((s.packets.filterMap Packet.message).take s.server.processed.length).map some := by
        rcases hshown with ⟨rest, hrest⟩
        rw [← hrest, List.take_append_of_le_length hlen]

/-! ## The system info -/

theorem ofData_sysInfo {interface : String} (hescaped : Avoids isEscaped interface)
    (hplain : Json.plain interface = true) :
    Page.Event.ofData (sysInfo interface) = some (.system (some interface)) := by
  let members : List (String × Json.Field) :=
    [("type", .text "system"), ("interface", .text interface)]
  have htext : (sysInfo interface).toList = Json.writeObject members := by
    unfold sysInfo
    simp [members, Json.writeObject, Json.writeMember, Json.quoted, Json.Field.write,
      Json.escapeQuotes, flatMap_escapeQuotes hescaped]
  have hall : members.all (fun m => Json.plain m.1 && m.2.plain) = true := by
    have htype : Json.plain "type" = true := by decide
    have hsystem : Json.plain "system" = true := by decide
    have hinterface : Json.plain "interface" = true := by decide
    simp [members, Json.Field.plain, htype, hsystem, hinterface, hplain]
  have hdecode : Json.decode (sysInfo interface) =
      some (.object [("type", .string "system"), ("interface", .string interface)]) := by
    rw [Json.decode_writeObject (List.cons_ne_nil _ _) htext, if_pos hall]
    rfl
  rw [Page.Event.ofData, hdecode]
  rfl

/-! ## What the page shows -/

/-- The page has been brought the messages of these packets: the first of them are
consumed, and the newest 2000 of these are kept, the newest first; the rest, not yet
consumed, is its queue. -/
def Dashboard.Has (d : Dashboard) (messages : List PacketMessage) : Prop :=
  ∃ consumed, messages = consumed ++ d.packetQueue ∧ d.packets = consumed.reverse.take 2000

/-- In every interleaving of the kernel, the main thread, the threads of the server,
the connection, the timers of the page and its user: with the lock free, a client
whose connection was not cut short reads the opening and its messages, and a page with
these messages has the packets that have been processed since the client was put on the
list, of the frames of the ring, each once and in order; and no row is anything else. -/
theorem page_shows_capture {e : Endian} {out : Outputs} {interface : String}
    {allowed : ServerEvent → Prop} {tracker : Option TcpStreamTracker} {s : Process}
    (h : (processSts e { out with webServer := true } interface allowed tracker).Reachable s)
    (hinforms : ∀ event, allowed event → event.InformsInFull interface)
    (hfree : s.server.broadcaster.lockFree = true)
    (hinterface : Avoids isEscaped interface ∧ Json.plain interface = true)
    (hplain : ∀ p ∈ s.packets, p.plainInfo)
    {c : Client} (hc : c ∈ s.server.clients) {request : String}
    (hresponse : respondTo request = .ok (.switching c.accept))
    (hlen : ∀ msg ∈ sysInfo interface :: s.server.processed, (utf8 msg).length < 2 ^ 63) :
    s.packets.map Packet.frame <+: s.ring.retired.flatten ∧
      ∃ messages, Http.readMessages c.accept messages.length c.stream = some (messages, []) ∧
        ∀ (browser : PageBrowser) (events : List Page.Event),
          events.filter Page.Event.isData = messages.filterMap Page.Event.ofData →
          let page := Page.initial.run browser events
          page.dashboard.Has (((s.packets.filterMap Packet.message).take
            s.server.processed.length).drop c.joined) ∧
          ∀ pkt ∈ page.dashboard.rows, ∃ p ∈ s.packets, p.message = some pkt := by
  have hserver : s.server.Inv interface :=
    WebServer.inv_of_reachable (informsInFull_withBroadcasts hinforms) (Process.server_reachable h)
  refine ⟨Process.frames_first h, sysInfo interface :: s.server.processed.drop c.joined,
    hserver.readMessages hfree hc (visible_of_respondTo hresponse) hlen, ?_⟩
  intro browser events hevents page
  -- the system info is no packet, and every other message is one
  have hsystem : onMessage (sysInfo interface) = none := by
    rw [← Page.packet_ofData, ofData_sysInfo hinterface.1 hinterface.2]
    rfl
  have hpackets : (s.server.processed.drop c.joined).filterMap onMessage =
      ((s.packets.filterMap Packet.message).take s.server.processed.length).drop c.joined := by
    apply filterMap_of_map
    rw [List.map_drop, Process.map_onMessage_processed h hplain, List.map_drop]
  have hbrought := Page.received_of_data hevents
  rw [List.filterMap_cons_none hsystem, hpackets] at hbrought
  have hlists : Dashboard.Lists (events.filterMap Page.Event.onDashboard) page.dashboard := by
    show Dashboard.Lists _ (Page.initial.run browser events).dashboard
    rw [Page.run_dashboard]
    exact Dashboard.lists_initial.run _
  refine ⟨?_, ?_⟩
  · rcases hlists.packets with ⟨consumed, hconsumed, hkept⟩
    exact ⟨consumed, hbrought.symm.trans hconsumed, hkept⟩
  · intro pkt hpkt
    have hmem := Page.mem_received_of_row hlists hpkt
    rw [hbrought] at hmem
    exact List.mem_filterMap.mp (List.mem_of_mem_take (List.mem_of_mem_drop hmem))

/-! ## Shown -/

/-- The connection's messages, and then the timer of the batch consumer. -/
def Page.broughtThenShown (messages : List String) : List Page.Event :=
  messages.filterMap Page.Event.ofData ++ [.dashboard .tick]

theorem Page.isData_of_ofData {data : String} {e : Page.Event}
    (h : Page.Event.ofData data = some e) : e.isData = true := by
  unfold Page.Event.ofData at h
  split at h
  · split_ifs at h with hsystem
    · cases h
      rfl
    · rcases Option.map_eq_some_iff.mp h with ⟨pkt, _, rfl⟩
      rfl
  · cases h

theorem Page.filter_broughtThenShown (messages : List String) :
    (Page.broughtThenShown messages).filter Page.Event.isData =
      messages.filterMap Page.Event.ofData := by
  have hall : ∀ e ∈ messages.filterMap Page.Event.ofData, e.isData = true := by
    intro e he
    rcases List.mem_filterMap.mp he with ⟨data, _, hof⟩
    exact Page.isData_of_ofData hof
  rw [Page.broughtThenShown, List.filter_append, List.filter_eq_self.mpr hall]
  exact List.append_nil _

/-- Nothing is chosen on the way. -/
theorem Page.choice_broughtThenShown {messages : List String} {e : Dashboard.Event}
    (he : e ∈ (Page.broughtThenShown messages).filterMap Page.Event.onDashboard) :
    e.chosenFilter = none ∧ e.chosenSearch = none := by
  rcases List.mem_filterMap.mp he with ⟨event, hevent, hon⟩
  rcases List.mem_append.mp hevent with hbrought | htick
  · rcases List.mem_filterMap.mp hbrought with ⟨data, _, hof⟩
    have hdata := Page.isData_of_ofData hof
    cases event with
    | dashboard e' =>
        cases hon
        cases e with
        | message pkt => exact ⟨rfl, rfl⟩
        | _ => cases hdata
    | _ => cases hon
  · rw [List.mem_singleton.mp htick] at hon
    cases hon
    exact ⟨rfl, rfl⟩

/-- Without a filter and a search every packet passes. -/
theorem Dashboard.Lists.filtered_eq {events : List Dashboard.Event} {d : Dashboard}
    (h : Dashboard.Lists events d)
    (hnone : ∀ e ∈ events, e.chosenFilter = none ∧ e.chosenSearch = none) :
    d.filtered = d.packets := by
  have hfilters : events.filterMap Dashboard.Event.chosenFilter = [] :=
    List.filterMap_eq_nil_iff.mpr fun e he => (hnone e he).1
  have hsearches : events.filterMap Dashboard.Event.chosenSearch = [] :=
    List.filterMap_eq_nil_iff.mpr fun e he => (hnone e he).2
  have hfilter : d.activeFilter = "all" := by
    rw [h.activeFilter, Dashboard.lastOf, hfilters]
    rfl
  have hsearch : d.searchQuery = "" := by
    rw [h.searchQuery, Dashboard.lastOf, hsearches]
    rfl
  simp [Dashboard.filtered, hfilter, hsearch, Dashboard.passesFilter]

/-- A page with a single packet is shown whole. -/
theorem Dashboard.UpToDate.rows_single {d : Dashboard} (h : Dashboard.UpToDate d)
    {pkt : PacketMessage} (hone : d.filtered = [pkt]) : d.rows = [pkt] := by
  have hcount : Pages.count Dashboard.itemsPerPage [pkt] = 1 := by
    simp [Pages.count, Dashboard.itemsPerPage]
  have hle := h.le (by simp [hone])
  rw [hone, hcount] at hle
  rw [h.rows, hone, Nat.le_antisymm hle h.one_le]
  rfl

/-- A page that has a single packet shows it. -/
theorem Page.rows_broughtThenShown {browser : PageBrowser} {messages : List String}
    {pkt : PacketMessage}
    (h : (Page.initial.run browser (Page.broughtThenShown messages)).dashboard.Has [pkt]) :
    (Page.initial.run browser (Page.broughtThenShown messages)).dashboard.rows = [pkt] := by
  let events := (Page.broughtThenShown messages).filterMap Page.Event.onDashboard
  have hdashboard : (Page.initial.run browser (Page.broughtThenShown messages)).dashboard =
      (Dashboard.initial.run browser.toBrowser events).1 := Page.run_dashboard ..
  have hlists : Dashboard.Lists events (Dashboard.initial.run browser.toBrowser events).1 :=
    Dashboard.lists_initial.run events
  rw [hdashboard] at h ⊢
  rcases h with ⟨consumed, hconsumed, hpackets⟩
  have hqueue : (Dashboard.initial.run browser.toBrowser events).1.packetQueue = [] := by
    have hsplit : events =
        (messages.filterMap Page.Event.ofData).filterMap Page.Event.onDashboard ++ [.tick] :=
      List.filterMap_append
    rw [hsplit, Dashboard.run_append]
    exact Dashboard.consumeQueue_drained ..
  rw [hqueue, List.append_nil] at hconsumed
  rw [← hconsumed] at hpackets
  exact hlists.upToDate.rows_single
    ((hlists.filtered_eq fun e he => Page.choice_broughtThenShown he).trans hpackets)

/-- The row of the datagram. -/
def echoMessage : PacketMessage :=
  { timestamp := "00:00:00.000"
    proto := "UDP"
    src := "10.0.0.1:49152"
    dst := "10.0.0.2:7"
    info := "-"
    size := 42
    payload := "00000000000000000000000008004500001c00000000401100000a0000010a000002" ++
      "c000000700080000" }

theorem echoPacket_message : echoPacket.message = some echoMessage := by
  decide +kernel

theorem echoPacket_plainInfo : echoPacket.plainInfo := by
  have hplain : (echoPacket.reported.all fun g => decide (Avoids isC0 g.infoRaw)) = true := by
    decide +kernel
  intro g hg
  rw [hg] at hplain
  exact of_decide_eq_true hplain

/-- The datagram is captured, and the page that was connected shows it. -/
theorem page_shows_capture_echo :
    ∃ (s : Process) (c : Client) (messages : List String), echoSts.Reachable s ∧
      s.packets.map Packet.frame = [echoPacket.frame] ∧
      s.packets.map Packet.frame <+: s.ring.retired.flatten ∧ s.server.clients = [c] ∧
      Http.readMessages c.accept messages.length c.stream = some (messages, []) ∧
      ∀ browser : PageBrowser,
        let page := Page.initial.run browser (Page.broughtThenShown messages)
        page.dashboard.Has [echoMessage] ∧ page.dashboard.rows = [echoMessage] := by
  rcases echoRun with ⟨s, hs, hpackets, -, -, hprocessed, hwaiting, hclients⟩
  rcases List.map_eq_singleton_iff.mp hclients with ⟨c, hlist, hc⟩
  rcases Prod.mk.inj hc with ⟨haccept, hjoined⟩
  have hmem : c ∈ s.server.clients := hlist ▸ List.mem_singleton_self c
  have hfree : s.server.broadcaster.lockFree = true := by
    rw [hwaiting]
    rfl
  have hplain : ∀ p ∈ s.packets, p.plainInfo := by
    intro p hp
    rw [hpackets] at hp
    rw [List.mem_singleton.mp hp]
    exact echoPacket_plainInfo
  have hresponse : respondTo (receivedRequest [sampleUpgrade.bytes]) =
      .ok (.switching c.accept) := by
    rw [haccept]
    exact respondTo_sample
  have hshort : ∀ msg ∈ sysInfo "lo" ::
      webMessages (capture webOnly none [echoPacket]),
        (utf8 msg).length < 2 ^ 63 := by
    decide +kernel
  have hlen : ∀ msg ∈ sysInfo "lo" :: s.server.processed, (utf8 msg).length < 2 ^ 63 := by
    have hfirst := Process.processed_first hs
    rw [hpackets] at hfirst
    intro msg hmsg
    exact hshort msg (List.cons_subset_cons _ hfirst.subset hmsg)
  rcases @page_shows_capture .little webOnly "lo" _ none _ hs (fun _ he => he) hfree
    ⟨by decide, by decide⟩ hplain c hmem _ hresponse hlen with ⟨hframes, messages, hread, hpage⟩
  have hbrought : ((s.packets.filterMap Packet.message).take s.server.processed.length).drop
      c.joined = [echoMessage] := by
    rw [hpackets, hprocessed, hjoined, List.filterMap_cons_some echoPacket_message]
    rfl
  refine ⟨s, c, messages, hs, by rw [hpackets]; rfl, hframes, hlist, hread, ?_⟩
  intro browser page
  have hhas := (hpage browser _ (Page.filter_broughtThenShown messages)).1
  rw [hbrought] at hhas
  exact ⟨hhas, Page.rows_broughtThenShown hhas⟩

end NetZer

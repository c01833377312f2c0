import NetZer.Lib.Top
import NetZer.Web.Markup
import NetZer.Web.Page

/-! # The cards and the list of the page

What the cards say of the packets that were consumed: the address and the domain
that occur most often, and the traffic. And what the list says of itself: the
positions of its rows below it, the number of its page, and the row of the packet
that is inspected.
-/

namespace NetZer

namespace Page

variable {browser : PageBrowser} {p : Page}

/-! ## The most frequent key -/

/-- A top entry as the cards show it. -/
def topPair (top : Option (String × Js.Count)) : String × Nat :=
  match top with
  | some e => (e.1, e.2.toNat)
  | none => ("-", 0)

theorem exceeds_eq (c : Js.Count) (best : Nat) : exceeds c best = decide (best < c.toNat) := by
  cases c with
  | number n => rfl
  | text s => exact (decide_eq_false (Nat.not_lt_zero best)).symm

/-- The loop over the table is a pass for the first of the greatest counts. -/
theorem topOf_eq (t : Js.Table) :
    topOf t = topPair (Top.best (fun e => e.2.toNat) t.forIn) := by
  have hpass : ∀ (l : List (String × Js.Count)) (top : Option (String × Js.Count)),
      l.foldl (fun top e => if exceeds e.2 top.2 then (e.1, e.2.toNat) else top) (topPair top) =
        topPair (l.foldl (Top.keep fun e => e.2.toNat) top) := by
    intro l
    induction l with
    | nil => exact fun top => rfl
    | cons e l ih =>
        intro top
        have hscore : (topPair top).2 = Top.scoreOf (fun e => e.2.toNat) top := by
          cases top <;> rfl
        rw [List.foldl_cons, List.foldl_cons, ← ih, exceeds_eq, hscore, Top.keep]
        by_cases hlt : Top.scoreOf (fun e : String × Js.Count => e.2.toNat) top < e.2.toNat
        · simp only [hlt, decide_true, if_true]
          rfl
        · simp only [hlt, decide_false, Bool.false_eq_true, if_false]
  exact hpass t.forIn none

/-- The key that occurs most often, and how often; a dash if there is none. -/
def IsTop (keys : List String) (top : String × Nat) : Prop :=
  keys = [] ∧ top = ("-", 0) ∨
    0 < top.2 ∧ top.2 = keys.count top.1 ∧ ∀ k, keys.count k ≤ top.2

theorem isTop_topOf {nativeText : String → String} {keys : List String}
    (hkeys : ∀ k ∈ keys, Js.isInherited k = false) (hlen : keys.length ≤ Js.maxCount) :
    IsTop keys (topOf (keys.foldl (Js.Table.bump nativeText) .empty)) := by
  let t := keys.foldl (Js.Table.bump nativeText) .empty
  have hentry : ∀ e ∈ t.forIn, 0 < keys.count e.1 ∧ e.2 = .number (keys.count e.1) := fun e he =>
    Js.Table.mem_entries_count hkeys hlen (Js.Table.mem_forIn.mp he)
  -- a key that occurs has an entry
  have hthere : ∀ k ∈ keys, (k, Js.Count.number (keys.count k)) ∈ t.forIn := by
    intro k hk
    apply Js.Table.mem_forIn.mpr
    apply Js.Table.mem_of_get?
    rw [Js.Table.get?_count (fun _ => hkeys k hk) hlen, Js.Table.tally,
      if_neg (List.count_pos_iff.mpr hk).ne']
  have hseen : Top.Seen (fun e : String × Js.Count => e.2.toNat) t.forIn _ := Top.seen_best t.forIn
  rw [topOf_eq]
  cases hbest : Top.best (fun e : String × Js.Count => e.2.toNat) t.forIn with
  | none =>
      rw [hbest] at hseen
      left
      refine ⟨List.eq_nil_iff_forall_not_mem.mpr fun k hk => ?_, rfl⟩
      have hzero : keys.count k = 0 := hseen _ (hthere k hk)
      exact List.count_eq_zero.mp hzero hk
  | some e =>
      rw [hbest] at hseen
      obtain ⟨hpos, hmax⟩ := hseen
      have hcount : e.2.toNat = keys.count e.1 := by
        rw [(hentry e hmax.mem).2]
        rfl
      right
      refine ⟨hpos, hcount, fun k => ?_⟩
      by_cases hk : k ∈ keys
      · exact hmax.le (hthere k hk)
      · rw [List.count_eq_zero.mpr hk]
        exact Nat.zero_le _

/-! ## The totals -/

/-- The part of the page that only the batch consumer writes. -/
@[ext] structure Totals where
  totalBytes : Nat
  kpiTopIp : String
  kpiTopIpCount : String
  kpiTopDomain : String
  kpiTopDomainCount : String
  kpiTraffic : String
  kpiTrafficCount : String
deriving DecidableEq

def totals (self : Page) : Totals :=
  { totalBytes := self.totalBytes
    kpiTopIp := self.kpiTopIp
    kpiTopIpCount := self.kpiTopIpCount
    kpiTopDomain := self.kpiTopDomain
    kpiTopDomainCount := self.kpiTopDomainCount
    kpiTraffic := self.kpiTraffic
    kpiTrafficCount := self.kpiTrafficCount }

/-- What the cards say of a number of bytes, two top entries and a number of packets. -/
def Totals.of (browser : PageBrowser) (totalBytes : Nat) (topIp topDom : String × Nat)
    (count : Nat) : Totals :=
  { totalBytes := totalBytes
    kpiTopIp := topIp.1
    kpiTopIpCount := browser.localeText topIp.2 ++ " pkts"
    kpiTopDomain := topDom.1
    kpiTopDomainCount := browser.localeText topDom.2 ++ " pkts"
    kpiTraffic := formattedTraffic browser totalBytes
    kpiTrafficCount := browser.localeText count ++ " packets" }

/-- The bytes of some packets, added up one after the other. -/
def bytesOf (browser : PageBrowser) (ms : List PacketMessage) : Nat :=
  ms.foldl (fun n pkt => browser.add n pkt.size) 0

/-- What the page has made of the packets that were consumed. -/
structure Books (browser : PageBrowser) (received : List PacketMessage) (p : Page) : Prop where
  books : ∃ consumed, received = consumed ++ p.dashboard.packetQueue ∧
    p.totalBytes = bytesOf browser consumed ∧
    p.totals = if consumed = [] then initial.totals else
      Totals.of browser p.totalBytes (topOf p.dashboard.ipStats) (topOf p.dashboard.domainStats)
        p.dashboard.packets.length

section

variable {received : List PacketMessage}

theorem showList_totals (self : Page) : self.showList.totals = self.totals := by
  rw [showList_eq]
  rfl

theorem onDashboard_totals (browser : PageBrowser) (self : Page) {e : Dashboard.Event}
    (he : e ≠ .tick) : (self.onDashboard browser e).totals = self.totals := by
  rcases onDashboard_cases browser self e with
    ⟨pkt, -, heq⟩ | ⟨htick, -⟩ | heq | ⟨-, heq⟩ | ⟨row, pkt, -, -, heq⟩
  · rw [heq]
    rfl
  · exact absurd htick he
  · rw [heq]
    exact showList_totals _
  · rw [heq]
  · rw [heq]
    rfl

/-- Nor do these events touch the packets that were consumed. -/
theorem step_consumed (browser : Browser) (d : Dashboard) {e : Dashboard.Event}
    (he : e ≠ .tick) :
    (d.step browser e).1.packetQueue = d.packetQueue ++ e.received.toList ∧
      (d.step browser e).1.packets = d.packets ∧ (d.step browser e).1.ipStats = d.ipStats ∧
      (d.step browser e).1.domainStats = d.domainStats := by
  have hshown : ∀ d' : Dashboard, (d'.refreshList).1.packetQueue = d'.packetQueue ∧
      (d'.refreshList).1.packets = d'.packets ∧ (d'.refreshList).1.ipStats = d'.ipStats ∧
      (d'.refreshList).1.domainStats = d'.domainStats := by
    intro d'
    rw [Dashboard.refreshList_eq]
    exact ⟨rfl, rfl, rfl, rfl⟩
  cases e with
  | message m => exact ⟨rfl, rfl, rfl, rfl⟩
  | tick => exact absurd rfl he
  | setFilter filter =>
      simp only [Dashboard.Event.received, Option.toList_none, List.append_nil]
      exact hshown _
  | handleSearch value =>
      simp only [Dashboard.Event.received, Option.toList_none, List.append_nil]
      exact hshown _
  | nextPage =>
      simp only [Dashboard.Event.received, Option.toList_none, List.append_nil]
      rw [Dashboard.step_nextPage]
      split_ifs
      · exact hshown _
      · exact ⟨rfl, rfl, rfl, rfl⟩
  | prevPage =>
      simp only [Dashboard.Event.received, Option.toList_none, List.append_nil]
      rw [Dashboard.step_prevPage]
      split_ifs
      · exact hshown _
      · exact ⟨rfl, rfl, rfl, rfl⟩
  | click row =>
      simp only [Dashboard.Event.received, Option.toList_none, List.append_nil]
      rw [Dashboard.step_click]
      exact ⟨rfl, rfl, rfl, rfl⟩

theorem onSecond_totals (browser : PageBrowser) (self : Page) :
    (self.onSecond browser).totals = self.totals ∧
      (self.onSecond browser).dashboard = self.dashboard := by
  unfold onSecond
  split_ifs <;> exact ⟨rfl, rfl⟩

/-- A page whose totals and tables stay, while packets may be received. -/
theorem Books.frame (h : Books browser received p) {p' : Page} {more : List PacketMessage}
    (htotals : p'.totals = p.totals)
    (hqueue : p'.dashboard.packetQueue = p.dashboard.packetQueue ++ more)
    (hpackets : p'.dashboard.packets = p.dashboard.packets)
    (hips : p'.dashboard.ipStats = p.dashboard.ipStats)
    (hdoms : p'.dashboard.domainStats = p.dashboard.domainStats) :
    Books browser (received ++ more) p' := by
  obtain ⟨consumed, hreceived, hbytes, hcards⟩ := h.books
  have hsame : p'.totalBytes = p.totalBytes := congrArg Totals.totalBytes htotals
  refine ⟨consumed, ?_, hsame.trans hbytes, ?_⟩
  · rw [hqueue, hreceived, List.append_assoc]
  · rw [htotals, hcards, hsame, hpackets, hips, hdoms]

/-- The batch consumer does its books. -/
theorem Books.tick (h : Books browser received p) : Books browser received (p.onTick browser) := by
  unfold onTick
  split_ifs with hempty
  · exact h
  · obtain ⟨consumed, hreceived, hbytes, -⟩ := h.books
    refine ⟨consumed ++ p.dashboard.packetQueue, ?_, ?_, ?_⟩
    · have hdrained : (p.dashboard.step browser.toBrowser .tick).1.packetQueue = [] :=
        Dashboard.consumeQueue_drained browser.toBrowser p.dashboard
      rw [showList_eq]
      show received = (consumed ++ p.dashboard.packetQueue) ++
        (p.dashboard.step browser.toBrowser .tick).1.packetQueue
      rw [hdrained, List.append_nil, hreceived]
    · rw [showList_eq]
      show p.dashboard.packetQueue.foldl _ p.totalBytes = _
      rw [hbytes, bytesOf, bytesOf, List.foldl_append]
    · rw [if_neg (List.append_ne_nil_of_right_ne_nil _ hempty), showList_totals, showList_eq]
      rfl

theorem Books.step (h : Books browser received p) (e : Event) :
    Books browser (received ++ (e.onDashboard.bind Dashboard.Event.received).toList)
      (p.step browser e) := by
  cases e with
  | dashboard e =>
      by_cases he : e = .tick
      · subst he
        have htick := h.tick
        rw [← List.append_nil received] at htick
        exact htick
      · have hdashboard := onDashboard_dashboard browser p e
        obtain ⟨hqueue, hpackets, hips, hdoms⟩ := step_consumed browser.toBrowser p.dashboard he
        rw [← hdashboard] at hqueue hpackets hips hdoms
        exact h.frame (onDashboard_totals browser p he) hqueue hpackets hips hdoms
  | second =>
      obtain ⟨htotals, hdashboard⟩ := onSecond_totals browser p
      show Books browser (received ++ []) (p.onSecond browser)
      refine h.frame htotals ?_ ?_ ?_ ?_
      · rw [hdashboard, List.append_nil]
      · rw [hdashboard]
      · rw [hdashboard]
      · rw [hdashboard]
  | onopen => exact h.frame rfl (List.append_nil _).symm rfl rfl rfl
  | onclose => exact h.frame rfl (List.append_nil _).symm rfl rfl rfl
  | system interface => exact h.frame rfl (List.append_nil _).symm rfl rfl rfl

theorem books_initial (browser : PageBrowser) : Books browser [] initial :=
  ⟨[], rfl, rfl, rfl⟩

/-- The packets a run of the page receives. -/
def receivedIn (events : List Event) : List PacketMessage :=
  events.filterMap fun e => e.onDashboard.bind Dashboard.Event.received

theorem Books.run (h : Books browser received p) (events : List Event) :
    Books browser (received ++ receivedIn events) (p.run browser events) := by
  induction events generalizing received p with
  | nil =>
      rw [receivedIn, List.filterMap_nil, List.append_nil]
      exact h
  | cons e es ih =>
      have hsplit : received ++ receivedIn (e :: es) =
          received ++ (e.onDashboard.bind Dashboard.Event.received).toList ++ receivedIn es := by
        rw [receivedIn, List.filterMap_cons, List.append_assoc]
        cases e.onDashboard.bind Dashboard.Event.received <;> rfl
      rw [hsplit]
      exact ih (h.step e)

/-- Sums that stay exact are the sums. -/
theorem bytesOf_eq {ms : List PacketMessage} (h : (ms.map PacketMessage.size).sum ≤ Js.maxCount) :
    bytesOf browser ms = (ms.map PacketMessage.size).sum := by
  have hfold : ∀ n, n + (ms.map PacketMessage.size).sum ≤ Js.maxCount →
      ms.foldl (fun n pkt => browser.add n pkt.size) n =
        n + (ms.map PacketMessage.size).sum := by
    clear h
    induction ms with
    | nil => exact fun n _ => rfl
    | cons m ms ih =>
        intro n hn
        rw [List.map_cons, List.sum_cons] at hn ⊢
        rw [List.foldl_cons, browser.add_exact n m.size (by omega), ih _ (by omega)]
        omega
  rw [bytesOf, hfold 0 (by omega), Nat.zero_add]

/-- A packet the page can count: nothing it is counted under is a name that every
object has. -/
def Plain (m : PacketMessage) : Prop :=
  Js.isInherited (Dashboard.dstIpOnly m.dst) = false ∧
    ∀ dom, Dashboard.domainOf m.info = some dom → Js.isInherited dom = false

instance (m : PacketMessage) : Decidable (Plain m) :=
  decidable_of_iff (Js.isInherited (Dashboard.dstIpOnly m.dst) = false ∧
    ∀ dom ∈ Dashboard.domainOf m.info, Js.isInherited dom = false) Iff.rfl

end

/-- The text below the list. -/
def footerOf (d : Dashboard) : String :=
  if d.filteredPackets = [] then "Showing 0 to 0 of 0 entries"
  else
    let start := (d.currentPage - 1) * Dashboard.itemsPerPage
    "Showing " ++ toString (start + 1) ++ " to " ++ toString (start + d.rows.length) ++ " of " ++
      toString d.filteredPackets.length ++ " entries"

/-- What stands around the list is about the rows that are in it. -/
structure Coherent (p : Page) : Prop where
  marks_length : p.selectedRows.length = p.dashboard.rows.length
  /-- A marked row has the time and the source of the packet that is inspected. -/
  marked : ∀ i : Nat, p.selectedRows[i]? = some true →
    ∃ pkt, p.dashboard.rows[i]? = some pkt ∧ isSelected p.selectedPacket pkt = true
  /-- The packet that is inspected is marked, if it is in the list. -/
  inspected : ∀ pkt ∈ p.dashboard.rows, p.selectedPacket = some pkt →
    ∃ i : Nat, p.dashboard.rows[i]? = some pkt ∧ p.selectedRows[i]? = some true
  footer : p.footerCount = footerOf p.dashboard
  pageNumber : p.dashboard.filteredPackets ≠ [] → p.pageNumBtn = toString p.dashboard.currentPage

theorem isSelected_self (pkt : PacketMessage) : isSelected (some pkt) pkt = true := by
  simp [isSelected]

section

/-- What `refreshList` leaves is coherent. -/
theorem showList_coherent {self : Page} (h : Dashboard.UpToDate self.dashboard) :
    Coherent self.showList := by
  by_cases hempty : self.dashboard.filteredPackets.length = 0
  · have hnil : self.dashboard.filteredPackets = [] := List.length_eq_zero_iff.mp hempty
    have hrows : self.dashboard.rows = [] := by
      rw [h.rows, ← h.filteredPackets, hnil, Pages.page_nil]
    rw [show self.showList = _ from if_pos hempty]
    refine ⟨?_, ?_, ?_, ?_, fun hne => absurd hnil hne⟩
    · exact (congrArg List.length hrows).symm
    · intro i hi
      cases hi
    · intro pkt hpkt
      rw [hrows] at hpkt
      cases hpkt
    · exact (if_pos hnil).symm
  · have hne : self.dashboard.filteredPackets ≠ [] := fun hnil => hempty (by rw [hnil]; rfl)
    rw [show self.showList = _ from if_neg hempty]
    refine ⟨List.length_map _, ?_, ?_, ?_, fun _ => rfl⟩
    · intro i hi
      rw [List.getElem?_map, Option.map_eq_some_iff] at hi
      exact hi
    · intro pkt hpkt hselected
      obtain ⟨i, hi⟩ := List.getElem?_of_mem hpkt
      refine ⟨i, hi, ?_⟩
      rw [List.getElem?_map, hi, Option.map_some, hselected, isSelected_self]
    · -- the last row is the last of its page, or the last of all
      have hfiltered : self.dashboard.filtered ≠ [] := h.filteredPackets ▸ hne
      have hpage := h.le hfiltered
      have hone := h.one_le
      have hstart : (self.dashboard.currentPage - 1) * Dashboard.itemsPerPage <
          self.dashboard.filteredPackets.length := by
        rw [h.filteredPackets]
        exact (Pages.lt_count_iff Dashboard.itemsPerPage_pos).mp (by omega)
      have hlength : self.dashboard.rows.length = min Dashboard.itemsPerPage
          (self.dashboard.filteredPackets.length -
            (self.dashboard.currentPage - 1) * Dashboard.itemsPerPage) := by
        rw [h.rows, Pages.page, List.length_take, List.length_drop, h.filteredPackets]
      have hend : min ((self.dashboard.currentPage - 1) * Dashboard.itemsPerPage +
          Dashboard.itemsPerPage) self.dashboard.filteredPackets.length =
          (self.dashboard.currentPage - 1) * Dashboard.itemsPerPage +
            self.dashboard.rows.length := by omega
      simp only [footerOf, if_neg hne, hend]

/-- A page on which list, marks and texts stay. -/
theorem Coherent.frame (h : Coherent p) {p' : Page}
    (hrows : p'.dashboard.rows = p.dashboard.rows)
    (hfiltered : p'.dashboard.filteredPackets = p.dashboard.filteredPackets)
    (hpage : p'.dashboard.currentPage = p.dashboard.currentPage)
    (hmarks : p'.selectedRows = p.selectedRows) (hselected : p'.selectedPacket = p.selectedPacket)
    (hfooter : p'.footerCount = p.footerCount) (hnumber : p'.pageNumBtn = p.pageNumBtn) :
    Coherent p' := by
  constructor
  · rw [hmarks, hrows]
    exact h.marks_length
  · rw [hmarks, hrows, hselected]
    exact h.marked
  · rw [hmarks, hrows, hselected]
    exact h.inspected
  · rw [hfooter, h.footer, footerOf, footerOf, hrows, hfiltered, hpage]
  · rw [hfiltered, hnumber, hpage]
    exact h.pageNumber

/-- The mark moves to the row that is clicked. -/
theorem Coherent.click (h : Coherent p) {row : Nat} {pkt : PacketMessage}
    (hrow : p.dashboard.rows[row]? = some pkt) : Coherent (p.inspectPacket row pkt) := by
  have hlt : row < p.dashboard.rows.length := (List.getElem?_eq_some_iff.mp hrow).1
  have hmark : ∀ i : Nat,
      ((List.replicate p.dashboard.rows.length false).set row true)[i]? = some true ↔
        i = row := by
    intro i
    rw [List.getElem?_set]
    by_cases hi : row = i
    · simp [hi ▸ hlt, hi]
    · rw [if_neg hi]
      constructor
      · intro hfalse
        have := List.eq_of_mem_replicate (List.mem_of_getElem? hfalse)
        cases this
      · exact fun heq => absurd heq.symm hi
  constructor
  · simp [inspectPacket]
  · intro i hi
    rw [(hmark i).mp hi]
    exact ⟨pkt, hrow, isSelected_self pkt⟩
  · intro pkt' _ hselected
    cases hselected
    exact ⟨row, hrow, (hmark row).mpr rfl⟩
  · exact h.footer
  · exact h.pageNumber

theorem onSecond_coherent (h : Coherent p) : Coherent (p.onSecond browser) := by
  unfold onSecond
  cases p.isConnected with
  | true => exact h.frame rfl rfl rfl rfl rfl rfl rfl
  | false => exact h.frame rfl rfl rfl rfl rfl rfl rfl

theorem Coherent.onDashboard (h : Coherent p) {past : List Dashboard.Event}
    (hlist : Dashboard.Lists past p.dashboard) (e : Dashboard.Event) :
    Coherent (p.onDashboard browser e) := by
  have hnext : Dashboard.UpToDate (p.dashboard.step browser.toBrowser e).1 :=
    (hlist.step e).upToDate
  rcases onDashboard_cases browser p e with
    ⟨pkt, -, heq⟩ | ⟨rfl, heq⟩ | heq | ⟨-, heq⟩ | ⟨row, pkt, -, hrow, heq⟩
  · rw [heq]
    exact h.frame rfl rfl rfl rfl rfl rfl rfl
  · rw [heq]
    unfold onTick
    split_ifs
    · exact h
    · exact showList_coherent hnext
  · rw [heq]
    exact showList_coherent hnext
  · rw [heq]
    exact h
  · rw [heq]
    exact h.click hrow

/-- A packet in the list was received. -/
theorem mem_received_of_row {past : List Dashboard.Event} {d : Dashboard}
    (h : Dashboard.Lists past d) {pkt : PacketMessage} (hpkt : pkt ∈ d.rows) :
    pkt ∈ past.filterMap Dashboard.Event.received := by
  obtain ⟨consumed, hreceived, hpackets⟩ := h.packets
  have hfiltered : pkt ∈ d.filtered := by
    rw [h.upToDate.rows] at hpkt
    exact List.mem_of_mem_drop (List.mem_of_mem_take hpkt)
  have hmem : pkt ∈ d.packets := Dashboard.mem_packets_of_filtered hfiltered
  rw [hreceived]
  rw [hpackets] at hmem
  exact List.mem_append_left _ (List.mem_reverse.mp (List.mem_of_mem_take hmem))

/-- The page after these events, as far as its list goes. -/
structure ListOk (past : List Event) (p : Page) : Prop where
  lists : Dashboard.Lists (past.filterMap Event.onDashboard) p.dashboard
  coherent : Coherent p
  received : ∀ pkt, p.selectedPacket = some pkt → pkt ∈ receivedIn past

theorem showList_selectedPacket (self : Page) :
    self.showList.selectedPacket = self.selectedPacket := by
  rw [showList_eq]

/-- Only a click changes what is inspected, to the packet of the row. -/
theorem step_selectedPacket (browser : PageBrowser) (self : Page) (e : Event) :
    (self.step browser e).selectedPacket = self.selectedPacket ∨
      ∃ pkt ∈ self.dashboard.rows, (self.step browser e).selectedPacket = some pkt := by
  cases e with
  | onopen => exact Or.inl rfl
  | onclose => exact Or.inl rfl
  | system interface => exact Or.inl rfl
  | second =>
      left
      show (self.onSecond browser).selectedPacket = _
      unfold onSecond
      cases self.isConnected <;> rfl
  | dashboard e =>
      simp only [step]
      rcases onDashboard_cases browser self e with
        ⟨pkt, -, heq⟩ | ⟨-, heq⟩ | heq | ⟨-, heq⟩ | ⟨row, pkt, -, hrow, heq⟩
      · left
        rw [heq]
        rfl
      · left
        rw [heq]
        unfold onTick
        split_ifs
        · rfl
        · exact showList_selectedPacket _
      · left
        rw [heq]
        exact showList_selectedPacket _
      · left
        rw [heq]
      · right
        rw [heq]
        exact ⟨pkt, List.mem_of_getElem? hrow, rfl⟩

theorem ListOk.step {past : List Event} (h : ListOk past p) (e : Event) :
    ListOk (past ++ [e]) (p.step browser e) := by
  refine ⟨?_, ?_, ?_⟩
  · have hsplit : (past ++ [e]).filterMap Event.onDashboard =
        past.filterMap Event.onDashboard ++ e.onDashboard.toList := by
      rw [List.filterMap_append, List.filterMap_cons]
      cases e.onDashboard <;> rfl
    rw [hsplit, step_dashboard]
    exact h.lists.run _
  · cases e with
    | onopen => exact h.coherent.frame rfl rfl rfl rfl rfl rfl rfl
    | onclose => exact h.coherent.frame rfl rfl rfl rfl rfl rfl rfl
    | system interface => exact h.coherent.frame rfl rfl rfl rfl rfl rfl rfl
    | second => exact onSecond_coherent h.coherent
    | dashboard e => exact h.coherent.onDashboard h.lists e
  · intro pkt hpkt
    have hpast : pkt ∈ receivedIn past := by
      rcases step_selectedPacket browser p e with hsame | ⟨pkt', hrow, hclicked⟩
      · exact h.received pkt (hsame ▸ hpkt)
      · obtain rfl : pkt' = pkt := Option.some.inj (hclicked.symm.trans hpkt)
        have hmem := mem_received_of_row h.lists hrow
        rwa [List.filterMap_filterMap] at hmem
    rw [receivedIn, List.filterMap_append]
    exact List.mem_append_left _ hpast

end

end Page

end NetZer

import Mathlib.Algebra.GroupWithZero.Nat
import NetZer.Web.Paging

/-! # The page

The whole state of the dashboard's script around its tables and its list: the
connection, the counters of the current second, the rates of the last seconds,
the cards with the totals, and the packet that is inspected. The connection, the
timers and the user act in any order; a part of the page that one of them does not
write stays as it is.
-/

namespace NetZer

/-- What else is left to the browser: sums beyond the numbers it has exactly, and
quotients with some decimals. -/
structure PageBrowser extends Browser where
  add : Nat → Nat → Nat
  add_exact : ∀ a b, a + b ≤ Js.maxCount → add a b = a + b
  /-- `(n / unit).toFixed(digits)`. -/
  fixedText : Nat → Nat → Nat → String

structure Page where
  dashboard : Dashboard
  isConnected : Bool
  /-- Class and text of the badge. -/
  statusBadge : String × String
  activeInterface : String
  packetsThisSecond : Nat
  uptimeSeconds : Nat
  uptimeCounter : String
  headerRate : String
  kpiRate : String
  sparklineData : List Nat
  chartData : List Nat
  totalBytes : Nat
  kpiTopIp : String
  kpiTopIpCount : String
  kpiTopDomain : String
  kpiTopDomainCount : String
  kpiTraffic : String
  kpiTrafficCount : String
  selectedPacket : Option PacketMessage
  /-- The rows with the class `selected`. -/
  selectedRows : List Bool
  footerCount : String
  pageNumBtn : String

namespace Page

/-- The page after `window.onload`, which pushes a zero into the chart of zeros. -/
def initial : Page :=
  { dashboard := .initial
    isConnected := false
    statusBadge := ("status-badge", "CONNECTED")
    activeInterface := "-"
    packetsThisSecond := 0
    uptimeSeconds := 0
    uptimeCounter := "00:00:00"
    headerRate := "0 pkt/s"
    kpiRate := "0<span>pkt/s</span>"
    sparklineData := List.replicate 15 0
    chartData := Slide.slide (List.replicate 12 0) 0
    totalBytes := 0
    kpiTopIp := "-"
    kpiTopIpCount := "0 pkts"
    kpiTopDomain := "-"
    kpiTopDomainCount := "0 pkts"
    kpiTraffic := "0 B"
    kpiTrafficCount := "0 packets"
    selectedPacket := none
    selectedRows := []
    footerCount := "Showing 0 to 0 of 0 entries"
    pageNumBtn := "1" }

/-- `n++`. -/
def increment (n : Nat) : Nat :=
  if n < Js.maxCount then n + 1 else n

/-! ## The connection -/

def onopen (self : Page) : Page :=
  { self with isConnected := true, statusBadge := ("status-badge", "CONNECTED") }

/-- A message of type `system`, with its property `interface`. -/
def onSystem (self : Page) (interface : Option String) : Page :=
  { self with
    activeInterface :=
      match interface with
      | some name => if name = "" then "unknown" else name
      | none => "unknown" }

def onPacket (browser : PageBrowser) (self : Page) (pkt : PacketMessage) : Page :=
  { self with
    dashboard := (self.dashboard.step browser.toBrowser (.message pkt)).1
    packetsThisSecond := increment self.packetsThisSecond }

def onclose (self : Page) : Page :=
  { self with isConnected := false, statusBadge := ("status-badge offline", "Disconnected") }

/-! ## The timer of the seconds -/

def twoDigits (n : Nat) : String :=
  Js.padStart (toString n) 2 '0'

def uptimeText (seconds : Nat) : String :=
  twoDigits (seconds / 3600) ++ ":" ++ twoDigits (seconds % 3600 / 60) ++ ":" ++
    twoDigits (seconds % 60)

def updateSparkline (self : Page) (newRate : Nat) : Page :=
  { self with sparklineData := Slide.slide self.sparklineData newRate }

def updateChart (self : Page) (newRate : Nat) : Page :=
  { self with chartData := Slide.slide self.chartData newRate }

def onSecond (browser : PageBrowser) (self : Page) : Page :=
  let counted :=
    if self.isConnected then
      let rate := self.packetsThisSecond
      let uptimeSeconds := increment self.uptimeSeconds
      ({ self with
          uptimeSeconds := uptimeSeconds
          uptimeCounter := uptimeText uptimeSeconds
          headerRate := browser.localeText rate ++ " pkt/s"
          kpiRate := browser.localeText rate ++ "<span>pkt/s</span>" }.updateSparkline
        rate).updateChart rate
    else
      -- a flat line while disconnected
      ({ self with
          headerRate := "0 pkt/s"
          kpiRate := "0<span>pkt/s</span>"
          activeInterface := "-" }.updateSparkline 0).updateChart 0
  { counted with packetsThisSecond := 0 }

/-! ## The cards -/

/-- `count > best`: a text is no number. -/
def exceeds : Js.Count → Nat → Bool
  | .number n, best => decide (best < n)
  | .text _, _ => false

/-- The first of the most frequent keys. -/
def topOf (t : Js.Table) : String × Nat :=
  t.forIn.foldl (fun top e => if exceeds e.2 top.2 then (e.1, e.2.toNat) else top) ("-", 0)

def formattedTraffic (browser : PageBrowser) (totalBytes : Nat) : String :=
  if 1048576 ≤ totalBytes then browser.fixedText totalBytes 1048576 2 ++ " MB"
  else if 1024 ≤ totalBytes then browser.fixedText totalBytes 1024 1 ++ " KB"
  else toString totalBytes ++ " B"

def updateKPIs (browser : PageBrowser) (self : Page) : Page :=
  let topIp := topOf self.dashboard.ipStats
  let topDom := topOf self.dashboard.domainStats
  { self with
    kpiTopIp := topIp.1
    kpiTopIpCount := browser.localeText topIp.2 ++ " pkts"
    kpiTopDomain := topDom.1
    kpiTopDomainCount := browser.localeText topDom.2 ++ " pkts"
    kpiTraffic := formattedTraffic browser self.totalBytes
    kpiTrafficCount := browser.localeText self.dashboard.packets.length ++ " packets" }

/-! ## The list -/

/-- The row of a packet is marked when the list is made. -/
def isSelected (selectedPacket : Option PacketMessage) (pkt : PacketMessage) : Bool :=
  selectedPacket.any fun s => s.timestamp == pkt.timestamp && s.src == pkt.src

/-- The rest of `refreshList`: the marks of the rows, and the texts below them. -/
def showList (self : Page) : Page :=
  let d := self.dashboard
  let totalItems := d.filteredPackets.length
  if totalItems = 0 then
    { self with selectedRows := [], footerCount := "Showing 0 to 0 of 0 entries" }
  else
    let startIndex := (d.currentPage - 1) * Dashboard.itemsPerPage
    let endIndex := min (startIndex + Dashboard.itemsPerPage) totalItems
    { self with
      selectedRows := d.rows.map (isSelected self.selectedPacket)
      footerCount := "Showing " ++ toString (startIndex + 1) ++ " to " ++ toString endIndex ++
        " of " ++ toString totalItems ++ " entries"
      pageNumBtn := toString d.currentPage }

/-- The list is made anew. -/
def refresh (browser : PageBrowser) (self : Page) (e : Dashboard.Event) : Page :=
  { self with dashboard := (self.dashboard.step browser.toBrowser e).1 }.showList

/-- The batch consumer. -/
def onTick (browser : PageBrowser) (self : Page) : Page :=
  if self.dashboard.packetQueue = [] then self
  else
    let totalBytes := self.dashboard.packetQueue.foldl (fun n pkt => browser.add n pkt.size)
      self.totalBytes
    let consumed : Page := { self with
      totalBytes := totalBytes
      dashboard := (self.dashboard.step browser.toBrowser .tick).1 }
    (consumed.updateKPIs browser).showList

/-- `inspectPacket`: the mark moves to the row that was clicked. -/
def inspectPacket (self : Page) (row : Nat) (pkt : PacketMessage) : Page :=
  { self with
    selectedPacket := some pkt
    selectedRows := (List.replicate self.dashboard.rows.length false).set row true }

/-- What the user and the batch timer do. -/
def onDashboard (browser : PageBrowser) (self : Page) : Dashboard.Event → Page
  | .message pkt => self.onPacket browser pkt
  | .tick => self.onTick browser
  | .setFilter filter => self.refresh browser (.setFilter filter)
  | .handleSearch value => self.refresh browser (.handleSearch value)
  | .nextPage =>
      if self.dashboard.currentPage <
          Pages.count Dashboard.itemsPerPage self.dashboard.filteredPackets then
        self.refresh browser .nextPage
      else self
  | .prevPage =>
      if 1 < self.dashboard.currentPage then self.refresh browser .prevPage else self
  | .click row =>
      match self.dashboard.rows[row]? with
      | some pkt => self.inspectPacket row pkt
      | none => self

/-! ## What happens -/

inductive Event where
  | onopen
  | system (interface : Option String)
  | onclose
  /-- The timer of the seconds. -/
  | second
  /-- A packet, the batch timer, or the user. -/
  | dashboard (e : Dashboard.Event)
deriving DecidableEq, Repr

def step (browser : PageBrowser) (self : Page) : Event → Page
  | .onopen => self.onopen
  | .system interface => self.onSystem interface
  | .onclose => self.onclose
  | .second => self.onSecond browser
  | .dashboard e => self.onDashboard browser e

def run (browser : PageBrowser) (self : Page) (events : List Event) : Page :=
  events.foldl (step browser) self

/-! ## The parts of the page -/

section

variable {browser : PageBrowser} {p : Page}

/-- The list's marks and texts are all that `showList` writes. -/
theorem showList_eq (self : Page) :
    self.showList = { self with
      selectedRows := self.showList.selectedRows
      footerCount := self.showList.footerCount
      pageNumBtn := self.showList.pageNumBtn } := by
  by_cases hempty : self.dashboard.filteredPackets.length = 0
  · rw [show self.showList = _ from if_pos hempty]
  · rw [show self.showList = _ from if_neg hempty]

/-- The event of the dashboard that is in it. -/
def Event.onDashboard : Event → Option Dashboard.Event
  | .dashboard e => some e
  | _ => none

/-- All that one of these events can do: a packet is received, the batch consumer runs,
the list is made anew, nothing happens, or a row is clicked. -/
theorem onDashboard_cases (browser : PageBrowser) (self : Page) (e : Dashboard.Event) :
    (∃ pkt, e = .message pkt ∧ self.onDashboard browser e = self.onPacket browser pkt) ∨
      (e = .tick ∧ self.onDashboard browser e = self.onTick browser) ∨
      self.onDashboard browser e = self.refresh browser e ∨
      ((self.dashboard.step browser.toBrowser e).1 = self.dashboard ∧
        self.onDashboard browser e = self) ∨
      ∃ row pkt, e = .click row ∧ self.dashboard.rows[row]? = some pkt ∧
        self.onDashboard browser e = self.inspectPacket row pkt := by
  cases e with
  | message pkt => exact Or.inl ⟨pkt, rfl, rfl⟩
  | tick => exact Or.inr (Or.inl ⟨rfl, rfl⟩)
  | setFilter filter => exact Or.inr (Or.inr (Or.inl rfl))
  | handleSearch value => exact Or.inr (Or.inr (Or.inl rfl))
  | nextPage =>
      right; right
      rw [Dashboard.step_nextPage]
      by_cases hnext : self.dashboard.currentPage <
          Pages.count Dashboard.itemsPerPage self.dashboard.filteredPackets
      · left
        exact if_pos hnext
      · right; left
        exact ⟨if_neg hnext, if_neg hnext⟩
  | prevPage =>
      right; right
      rw [Dashboard.step_prevPage]
      by_cases hback : 1 < self.dashboard.currentPage
      · left
        exact if_pos hback
      · right; left
        exact ⟨if_neg hback, if_neg hback⟩
  | click row =>
      right; right; right
      simp only [onDashboard]
      cases hrow : self.dashboard.rows[row]? with
      | none =>
          left
          exact ⟨Dashboard.step_click browser.toBrowser self.dashboard row, rfl⟩
      | some pkt =>
          right
          exact ⟨row, pkt, rfl, hrow, rfl⟩

/-- The dashboard of the page takes its own steps. -/
theorem onDashboard_dashboard (browser : PageBrowser) (self : Page) (e : Dashboard.Event) :
    (self.onDashboard browser e).dashboard =
      (self.dashboard.step browser.toBrowser e).1 := by
  rcases onDashboard_cases browser self e with
    ⟨pkt, rfl, heq⟩ | ⟨rfl, heq⟩ | heq | ⟨hsame, heq⟩ | ⟨row, pkt, rfl, -, heq⟩
  · rw [heq]
    rfl
  · rw [heq]
    show (self.onTick browser).dashboard = (self.dashboard.consumeQueue browser.toBrowser).1
    unfold onTick
    split_ifs with hempty
    · rw [Dashboard.consumeQueue, if_pos hempty]
    · rw [showList_eq]
      rfl
  · rw [heq, refresh, showList_eq]
  · rw [heq, hsame]
  · rw [heq, Dashboard.step_click]
    rfl

theorem step_dashboard (browser : PageBrowser) (self : Page) (e : Event) :
    (self.step browser e).dashboard =
      (self.dashboard.run browser.toBrowser e.onDashboard.toList).1 := by
  cases e with
  | dashboard e => exact onDashboard_dashboard browser self e
  | second =>
      show (self.onSecond browser).dashboard = _
      unfold onSecond
      split_ifs <;> rfl
  | onopen => rfl
  | system interface => rfl
  | onclose => rfl

/-- Whatever else happens on the page, its dashboard runs as it does alone. -/
theorem run_dashboard (browser : PageBrowser) (self : Page) (events : List Event) :
    (self.run browser events).dashboard =
      (self.dashboard.run browser.toBrowser (events.filterMap Event.onDashboard)).1 := by
  induction events generalizing self with
  | nil => rfl
  | cons e es ih =>
      have hsplit : (e :: es).filterMap Event.onDashboard =
          e.onDashboard.toList ++ es.filterMap Event.onDashboard := by
        rw [List.filterMap_cons]
        cases e.onDashboard <;> rfl
      rw [hsplit, Dashboard.run_append, ← step_dashboard]
      exact ih (self.step browser e)

end

/-! ## The seconds -/

/-- The part of the page that the connection and the timer of the seconds write. -/
@[ext] structure Clock where
  isConnected : Bool
  packetsThisSecond : Nat
  uptimeSeconds : Nat
  uptimeCounter : String
  headerRate : String
  kpiRate : String
  sparklineData : List Nat
  chartData : List Nat
deriving DecidableEq

def clock (self : Page) : Clock :=
  { isConnected := self.isConnected
    packetsThisSecond := self.packetsThisSecond
    uptimeSeconds := self.uptimeSeconds
    uptimeCounter := self.uptimeCounter
    headerRate := self.headerRate
    kpiRate := self.kpiRate
    sparklineData := self.sparklineData
    chartData := self.chartData }

/-- Of a history that has the last event first: the connection is open. -/
def connected : List Event → Bool
  | [] => false
  | .onopen :: _ => true
  | .onclose :: _ => false
  | _ :: past => connected past

/-- The packets that have come since the last second was over. -/
def packetsSince : List Event → Nat
  | [] => 0
  | .second :: _ => 0
  | .dashboard (.message _) :: past => packetsSince past + 1
  | _ :: past => packetsSince past

/-- The packets of each second that is over, the first one first; `none` if the
connection was closed at its end. -/
def seconds : List Event → List (Option Nat)
  | [] => []
  | .second :: past =>
      seconds past ++
        [if connected past then some (min (packetsSince past) Js.maxCount) else none]
  | _ :: past => seconds past

/-- The rates, with zero for a second without a connection. -/
def rates (past : List Event) : List Nat :=
  (seconds past).map fun second => second.getD 0

/-- How the rate of the last second is written. -/
def rateText (browser : PageBrowser) (unit : String) (past : List Event) : String :=
  match (seconds past).getLast? with
  | some (some rate) => browser.localeText rate ++ unit
  | _ => "0" ++ unit

/-- What a history makes of this part. -/
def Clock.after (browser : PageBrowser) (past : List Event) : Clock :=
  let uptime := min ((seconds past).countP Option.isSome) Js.maxCount
  { isConnected := connected past
    packetsThisSecond := min (packetsSince past) Js.maxCount
    uptimeSeconds := uptime
    uptimeCounter := uptimeText uptime
    headerRate := rateText browser " pkt/s" past
    kpiRate := rateText browser "<span>pkt/s</span>" past
    sparklineData := Slide.last 15 (List.replicate 15 0 ++ rates past)
    chartData := Slide.last 12 (List.replicate 12 0 ++ rates past) }

theorem increment_min (n : Nat) :
    increment (min n Js.maxCount) = min (n + 1) Js.maxCount := by
  unfold increment
  split_ifs <;> omega

section

variable {browser : PageBrowser} {p : Page} {past : List Event}

theorem showList_clock (self : Page) : self.showList.clock = self.clock := by
  rw [showList_eq]
  rfl

/-- Of what the user and the batch timer do, nothing but a packet is counted. -/
theorem onDashboard_clock (browser : PageBrowser) (self : Page) {e : Dashboard.Event}
    (he : e.received = none) : (self.onDashboard browser e).clock = self.clock := by
  rcases onDashboard_cases browser self e with
    ⟨pkt, rfl, -⟩ | ⟨-, heq⟩ | heq | ⟨-, heq⟩ | ⟨row, pkt, -, -, heq⟩
  · cases he
  · rw [heq]
    unfold onTick
    split_ifs
    · rfl
    · exact showList_clock _
  · rw [heq]
    exact showList_clock _
  · rw [heq]
  · rw [heq]
    rfl

/-- A second that is over enters the windows. -/
theorem slide_rates {n r : Nat} (hn : 0 < n) (past : List Event) :
    Slide.slide (Slide.last n (List.replicate n 0 ++ rates past)) r =
      Slide.last n (List.replicate n 0 ++ (rates past ++ [r])) := by
  rw [← List.append_assoc]
  apply Slide.slide_last hn
  rw [List.length_append, List.length_replicate]
  exact Nat.le_add_right n _

/-- The second that is over, at its end. -/
def lastSecond (past : List Event) : Option Nat :=
  if connected past then some (min (packetsSince past) Js.maxCount) else none

theorem rates_second (past : List Event) :
    rates (.second :: past) = rates past ++ [(lastSecond past).getD 0] := by
  rw [rates, seconds, List.map_append]
  rfl

theorem rateText_second (browser : PageBrowser) (unit : String) (past : List Event) :
    rateText browser unit (.second :: past) =
      match lastSecond past with
      | some rate => browser.localeText rate ++ unit
      | none => "0" ++ unit := by
  rw [rateText, seconds, List.getLast?_concat]
  unfold lastSecond
  split_ifs <;> rfl

theorem onSecond_clock (h : p.clock = Clock.after browser past) :
    (p.onSecond browser).clock = Clock.after browser (.second :: past) := by
  simp only [clock, Clock.after, Clock.mk.injEq] at h
  obtain ⟨hconnected, hpackets, huptime, hcounter, -, -, hsparkline, hchart⟩ := h
  have hlast : lastSecond past = if p.isConnected then some p.packetsThisSecond else none := by
    rw [lastSecond, hconnected, hpackets]
  have hcount : (seconds (.second :: past)).countP Option.isSome =
      (seconds past).countP Option.isSome + if p.isConnected then 1 else 0 := by
    rw [seconds, List.countP_append, hconnected]
    cases connected past <;> rfl
  rw [Clock.after, rates_second, rateText_second, rateText_second, hcount,
    ← slide_rates (Nat.succ_pos 14), ← slide_rates (Nat.succ_pos 11), ← hsparkline, ← hchart, hlast]
  unfold onSecond
  cases hopen : p.isConnected with
  | true =>
      rw [if_pos rfl, if_pos rfl, if_pos rfl, ← increment_min, ← huptime]
      exact Clock.ext (hopen.symm ▸ hconnected) (Nat.zero_min _).symm rfl rfl rfl rfl rfl rfl
  | false =>
      rw [if_neg Bool.false_ne_true, if_neg Bool.false_ne_true, if_neg Bool.false_ne_true,
        Nat.add_zero, ← huptime]
      exact Clock.ext (hopen.symm ▸ hconnected) (Nat.zero_min _).symm rfl (huptime ▸ hcounter) rfl
        rfl rfl rfl

theorem step_clock (h : p.clock = Clock.after browser past) (e : Event) :
    (p.step browser e).clock = Clock.after browser (e :: past) := by
  cases e with
  | onopen => exact congrArg (fun c : Clock => { c with isConnected := true }) h
  | onclose => exact congrArg (fun c : Clock => { c with isConnected := false }) h
  | system interface => exact h
  | second => exact onSecond_clock h
  | dashboard e =>
      cases e with
      | message pkt =>
          refine (congrArg (fun c : Clock =>
            { c with packetsThisSecond := increment c.packetsThisSecond }) h).trans ?_
          exact Clock.ext rfl (increment_min _) rfl rfl rfl rfl rfl rfl
      | tick => exact (onDashboard_clock browser p rfl).trans h
      | setFilter filter => exact (onDashboard_clock browser p rfl).trans h
      | handleSearch value => exact (onDashboard_clock browser p rfl).trans h
      | nextPage => exact (onDashboard_clock browser p rfl).trans h
      | prevPage => exact (onDashboard_clock browser p rfl).trans h
      | click row => exact (onDashboard_clock browser p rfl).trans h

theorem run_clock (browser : PageBrowser) (events : List Event) :
    (initial.run browser events).clock = Clock.after browser events.reverse := by
  induction events using List.reverseRecOn with
  | nil =>
      have huptime : "00:00:00" = uptimeText (min 0 Js.maxCount) := by decide
      have hrate : "0<span>pkt/s</span>" = "0" ++ "<span>pkt/s</span>" := by decide
      exact Clock.ext rfl rfl rfl huptime rfl hrate rfl rfl
  | append_singleton es e ih =>
      rw [run, List.foldl_append, List.reverse_append]
      exact step_clock ih e

/-- The packets that have come at all. -/
def packetsIn (events : List Event) : Nat :=
  ((events.filterMap Event.onDashboard).filterMap Dashboard.Event.received).length

/-- The packets of the seconds at whose end the connection was closed. -/
def missed : List Event → Nat
  | [] => 0
  | .second :: past => missed past + if connected past then 0 else packetsSince past
  | _ :: past => missed past

theorem packetsIn_cons (e : Event) (past : List Event) :
    packetsIn (e :: past) = packetsIn past +
      (e.onDashboard.bind Dashboard.Event.received).toList.length := by
  unfold packetsIn
  cases e with
  | dashboard e => cases e <;> rfl
  | _ => rfl

/-- Every packet is in a rate, or in the second that is not over, or was missed. -/
theorem sum_rates (h : packetsIn past ≤ Js.maxCount) :
    (rates past).sum + missed past + packetsSince past = packetsIn past := by
  induction past with
  | nil => rfl
  | cons e past ih =>
      rw [packetsIn_cons] at h ⊢
      have hpast := ih (by omega)
      cases e with
      | second =>
          have hle : packetsSince past ≤ Js.maxCount := by omega
          rw [rates_second, List.sum_append, List.sum_singleton, lastSecond, missed, packetsSince]
          cases connected past with
          | true =>
              rw [if_pos rfl, if_pos rfl, Option.getD_some, min_eq_left hle]
              simp only [Event.onDashboard, Option.bind_none, Option.toList_none, List.length_nil]
              omega
          | false =>
              rw [if_neg Bool.false_ne_true, if_neg Bool.false_ne_true, Option.getD_none]
              simp only [Event.onDashboard, Option.bind_none, Option.toList_none, List.length_nil]
              omega
      | dashboard e =>
          cases e with
          | message pkt =>
              show (rates past).sum + missed past + (packetsSince past + 1) = _
              rw [← Nat.add_assoc, hpast]
              rfl
          | _ => exact hpast
      | _ => exact hpast

/-- In any run of the page, whatever else happens on it: the rate that is shown
is the number of packets in the last second that was over, or zero if the
connection was closed then; the sparkline shows the rates of the last 15 seconds
and the chart its last 12; the uptime is the number of seconds with a connection;
and every packet is counted in one rate, unless its second is not over or ended
without a connection. -/
theorem page_clock (browser : PageBrowser) (events : List Event) :
    (initial.run browser events).clock = Clock.after browser events.reverse ∧
      (initial.run browser events).chartData =
        Slide.last 12 (initial.run browser events).sparklineData ∧
      (packetsIn events.reverse ≤ Js.maxCount →
        (rates events.reverse).sum + missed events.reverse + packetsSince events.reverse =
          packetsIn events.reverse) := by
  have hclock := run_clock browser events
  refine ⟨hclock, ?_, sum_rates⟩
  have hsparkline : (initial.run browser events).sparklineData = _ :=
    congrArg Clock.sparklineData hclock
  have hchart : (initial.run browser events).chartData = _ := congrArg Clock.chartData hclock
  have hsplit : List.replicate 15 0 ++ rates events.reverse =
      List.replicate 3 0 ++ (List.replicate 12 0 ++ rates events.reverse) := rfl
  have hlong : 12 ≤ (List.replicate 12 0 ++ rates events.reverse).length := by
    rw [List.length_append, List.length_replicate]
    exact Nat.le_add_right 12 _
  rw [hchart, hsparkline]
  simp only [Clock.after]
  rw [Slide.last_last (by decide), hsplit, Slide.last_append (List.replicate 3 0) hlong]

/-- A browser that adds exactly and writes whole quotients. -/
def plainPageBrowser : PageBrowser :=
  { plainBrowser with
    add := fun a b => a + b
    add_exact := fun _ _ _ => rfl
    fixedText := fun n unit _ => toString (n / unit) }

/-- A second with two packets, and one in which the connection is lost. -/
theorem page_clock_lost :
    (rates [.second, .onclose, .dashboard (.message ⟨"", "UDP", "a", "b", "-", 60, ""⟩), .second,
        .dashboard (.message ⟨"", "UDP", "a", "b", "-", 60, ""⟩),
        .dashboard (.message ⟨"", "ARP", "b", "a", "-", 42, ""⟩), .onopen]).sum + 1 + 0 = 3 :=
  (page_clock plainPageBrowser
    [.onopen, .dashboard (.message ⟨"", "ARP", "b", "a", "-", 42, ""⟩),
      .dashboard (.message ⟨"", "UDP", "a", "b", "-", 60, ""⟩), .second,
      .dashboard (.message ⟨"", "UDP", "a", "b", "-", 60, ""⟩), .onclose, .second]).2.2 (by decide)

end

end Page

end NetZer

import NetZer.Lib.Html
import NetZer.Lib.Js
import NetZer.Lib.Rust
import NetZer.Lib.Unicode

/-! # The dashboard

The script of the dashboard page: messages are queued as they come, and ten
times a second the queue is taken over into the list of packets and the tables
of addresses and domains. The list and the tables are shown by assigning HTML
strings; what is assigned is the output of a step. Rows can be filtered,
searched, paged through and clicked on.
-/

namespace NetZer

open Html (Piece Pieces isMarkupInValue)
open Text (Avoids)

/-- A packet as a message describes it. -/
structure PacketMessage where
  timestamp : String
  proto : String
  src : String
  dst : String
  info : String
  size : Nat
  payload : String
deriving DecidableEq, Repr

/-- A row of the list of top targets. -/
structure Target where
  name : String
  count : Js.Count
deriving DecidableEq, Repr

/-- What is left to the browser: how numbers are written for a locale and
quotients of them as decimals, the source text of its methods, and the order of
a sort whose comparisons contradict each other. -/
structure Browser where
  localeText : Nat → String
  localeText_clean : ∀ n, Avoids Html.isMarkupInValue (localeText n)
  percentText : Js.Count → Js.Count → String
  percentText_clean : ∀ a b, Avoids Html.isMarkupInValue (percentText a b)
  nativeText : String → String
  nativeText_clean : ∀ key ∈ Js.objectMethods, Avoids Html.isMarkupInValue (nativeText key)
  /-- `targets.sort((a, b) => b.count - a.count)`. -/
  sort : List Target → List Target
  sort_perm : ∀ targets, (sort targets).Perm targets
  sort_numbers : ∀ targets, (∀ t ∈ targets, t.count.isNumber = true) →
    sort targets = targets.mergeSort fun a b => decide (b.count.toNat ≤ a.count.toNat)

theorem isMarkupInValue_digitChar : ∀ d < 10, isMarkupInValue d.digitChar = false := by
  decide

theorem hundred_avoids : Avoids isMarkupInValue "100" := by
  decide

theorem nativeText_avoids : ∀ key ∈ Js.objectMethods,
    Avoids isMarkupInValue ("function " ++ key ++ "() \x7b [native code] \x7d") := by
  intro key hkey
  rw [Text.avoids_append, Text.avoids_append]
  have hmethods : ∀ key ∈ Js.objectMethods, Avoids isMarkupInValue key := by decide
  exact ⟨⟨by decide, hmethods key hkey⟩, by decide⟩

/-- A browser that writes plain digits, every bar in full and no source text
behind the names of its methods. -/
def plainBrowser : Browser where
  localeText := toString
  localeText_clean := fun n => Text.avoids_decimal isMarkupInValue_digitChar n
  percentText := fun _ _ => "100"
  percentText_clean := fun _ _ => hundred_avoids
  nativeText := fun key => "function " ++ key ++ "() \x7b [native code] \x7d"
  nativeText_clean := nativeText_avoids
  sort := fun targets => targets.mergeSort fun a b => decide (b.count.toNat ≤ a.count.toNat)
  sort_perm := fun targets => List.mergeSort_perm targets _
  sort_numbers := fun _ _ => rfl

structure Dashboard where
  packetQueue : List PacketMessage
  packets : List PacketMessage
  filteredPackets : List PacketMessage
  /-- The packets of the rows that are shown. -/
  rows : List PacketMessage
  activeFilter : String
  searchQuery : String
  ipStats : Js.Table
  domainStats : Js.Table
  currentPage : Nat

namespace Dashboard

/-- The page after loading. -/
def initial : Dashboard :=
  { packetQueue := []
    packets := []
    filteredPackets := []
    rows := []
    activeFilter := "all"
    searchQuery := ""
    ipStats := .empty
    domainStats := .empty
    currentPage := 1 }

/-! ## The tables -/

/-- The domain a packet is counted for, if it is. -/
def domainOf (info : String) : Option String :=
  if info ≠ "" ∧ Js.includes info "SNI:" then
    some (Js.trim ((Js.split info "SNI:").getD 1 ""))
  else if info ≠ "" ∧ Js.startsWith info "DNS: " then
    some (Js.trim (Js.substring info 5))
  else none

/-- The key a destination is counted under. -/
def dstIpOnly (dst : String) : String :=
  (Js.split dst ":").getD 0 ""

/-- What the batch consumer does with a packet of the queue. -/
def countPacket (browser : Browser) (self : Dashboard) (pkt : PacketMessage) : Dashboard :=
  { self with
    ipStats := self.ipStats.bump browser.nativeText (dstIpOnly pkt.dst)
    domainStats :=
      match domainOf pkt.info with
      | some dom => self.domainStats.bump browser.nativeText dom
      | none => self.domainStats
    packets := pkt :: self.packets }

/-! ## The list of packets -/

def itemsPerPage : Nat := 35

/-- The packet passes the filter button. -/
def passesFilter (activeFilter : String) (pkt : PacketMessage) : Bool :=
  if activeFilter = "all" then true
  else if activeFilter = "tls" then pkt.proto == "TLS"
  else if activeFilter = "dns" then pkt.proto == "DNS"
  else if activeFilter = "http" then pkt.proto == "HTTP"
  else Unicode.toLowercase pkt.proto == activeFilter

/-- The packet has the searched text in a column. -/
def matchesSearch (searchQuery : String) (pkt : PacketMessage) : Bool :=
  [pkt.src, pkt.dst, pkt.proto, pkt.info].any fun column =>
    Js.includes (Unicode.toLowercase column) searchQuery

/-- The words an info of an HTTP request begins with. -/
def httpWords : List String :=
  ["GET", "POST", "PUT", "DELETE", "PATCH", "OPTIONS", "HEAD"]

/-- The info column. -/
def infoFormatted (pkt : PacketMessage) : Pieces :=
  if Js.includes pkt.info "SNI:" then
    let parts := Js.split pkt.info "SNI:"
    [.text (parts.getD 0 ""), .markup "SNI: <span class=\"highlight\">",
      .text (parts.getD 1 ""), .markup "</span>"]
  else if Js.startsWith pkt.info "DNS: " then
    [.markup "DNS Query: <span class=\"highlight\">", .text (Js.substring pkt.info 5),
      .markup "</span>"]
  else if pkt.proto = "HTTP" then
    let words := Js.split pkt.info " "
    if 2 ≤ words.length ∧ words.getD 0 "" ∈ httpWords then
      [.markup "<span style=\"color: var(--primary); font-weight: 700;\">",
        .text (words.getD 0 ""),
        .markup "</span> <span style=\"color: #ffffff; font-weight: 500;\">",
        .text (" ".intercalate (words.drop 1)), .markup "</span>"]
    else if ["1", "2", "3", "4", "5"].any (Js.startsWith pkt.info) then
      -- a status code
      [.markup "<span style=\"color: var(--success); font-weight: 700;\">HTTP ", .text pkt.info,
        .markup "</span>"]
    else
      [.markup "<span style=\"color: var(--success); font-weight: 700;\">", .text pkt.info,
        .markup "</span>"]
  else [.text pkt.info]

/-- `tr.innerHTML`, line by line. -/
def rowHtml (pkt : PacketMessage) : Pieces :=
  [.markup "\n                    <td class=\"time-col\">", .text pkt.timestamp,
    .markup "</td>",
    .markup "\n                    <td><span class=\"badge badge-",
    .value (Unicode.toLowercase pkt.proto), .markup "\">", .text pkt.proto,
    .markup "</span></td>",
    .markup "\n                    <td class=\"ip-col\">", .text pkt.src, .markup "</td>",
    .markup "\n                    <td class=\"ip-col\">", .text pkt.dst, .markup "</td>",
    .markup "\n                    <td class=\"info-col\">"] ++
  infoFormatted pkt ++
  [.markup "</td>",
    .markup "\n                    <td class=\"size-col\">", .text (toString pkt.size),
    .markup " B</td>",
    .markup "\n                "]

/-- The packets that pass the filter and the search. -/
def filtered (self : Dashboard) : List PacketMessage :=
  let passed := self.packets.filter (passesFilter self.activeFilter)
  if self.searchQuery ≠ "" then passed.filter (matchesSearch self.searchQuery) else passed

/-- The dashboard after the list is filtered and its page shown, and what is
assigned to the HTML of the table and its rows. -/
def refreshList (self : Dashboard) : Dashboard × List Pieces :=
  if self.filtered = [] then
    ({ self with filteredPackets := [], rows := [] },
      [[.markup ""], [.markup "<tr class=\"empty-row\"><td colspan=\"6\">",
        .markup "No matching packets found.</td></tr>"]])
  else
    let totalPages := max 1 ((self.filtered.length + itemsPerPage - 1) / itemsPerPage)
    let currentPage := min self.currentPage totalPages
    let visibleSlice := (self.filtered.drop ((currentPage - 1) * itemsPerPage)).take itemsPerPage
    ({ self with
        filteredPackets := self.filtered, currentPage := currentPage, rows := visibleSlice },
      [.markup ""] :: visibleSlice.map rowHtml)

/-! ## The list of targets -/

/-- How a count is written. -/
def countText (browser : Browser) : Js.Count → String
  | .number n => browser.localeText n
  | .text s => s

/-- `item.innerHTML`, line by line. -/
def targetHtml (browser : Browser) (maxCount : Js.Count) (t : Target) : Pieces :=
  [.markup "\n                    <div class=\"target-meta\">",
    .markup "\n                        <span class=\"target-name\">", .text t.name,
    .markup "</span>",
    .markup "\n                        <span class=\"target-count\">",
    .text (countText browser t.count), .markup " pkts</span>",
    .markup "\n                    </div>",
    .markup "\n                    <div class=\"progress-track\">",
    .markup "\n                        <div class=\"progress-bar\" style=\"width: ",
    .value (browser.percentText t.count maxCount), .markup "%\"></div>",
    .markup "\n                    </div>",
    .markup "\n                "]

def updateTopTargetsList (browser : Browser) (self : Dashboard) : List Pieces :=
  let targets := (self.domainStats.forIn ++ self.ipStats.forIn).map fun e => Target.mk e.1 e.2
  match (browser.sort targets).take 5 with
  | [] =>
      [[.markup ""], [.markup "<div class=\"placeholder-text\">No target data gathered yet.</div>"]]
  | t :: ts => [.markup ""] :: (t :: ts).map (targetHtml browser t.count)

/-! ## The payload of a packet -/

/-- Two units at a time. -/
def pairs : List Nat → List (List Nat)
  | a :: b :: us => [a, b] :: pairs us
  | [a] => [[a]]
  | [] => []

/-- The bytes of a payload in hex; `none` for what is no number. -/
def payloadBytes (payload : String) : List (Option Int) :=
  (pairs (Js.units payload)).map Js.parseInt16

def hexColumn (chunk : List (Option Int)) : String :=
  String.join ((List.range 16).map fun j =>
    (if j = 8 then " " else "") ++
      match chunk[j]? with
      | some b => Js.padStart (Js.toString16 b) 2 '0' ++ " "
      | none => "   ")

/-- The character of a byte. -/
def asciiChar : Option Int → Char
  | some b => if 32 ≤ b ∧ b ≤ 126 then Char.ofNat b.toNat else '.'
  | none => '.'

def hexdumpLine (offset : Nat) (chunk : List (Option Int)) : Pieces :=
  [.markup "<span class=\"hexdump-offset\">",
    .text (Js.padStart (Js.toString16 (some offset)) 4 '0'), .markup "</span>  ",
    .markup "<span class=\"hexdump-bytes\">", .text (hexColumn chunk), .markup "</span> ",
    .markup "<span class=\"hexdump-ascii\">", .text (String.ofList (chunk.map asciiChar)),
    .markup "</span>\n"]

def generateHexASCII (packet : PacketMessage) : Pieces :=
  if packet.payload = "" then
    [.markup "<div class=\"placeholder-text\">No payload data available</div>"]
  else
    ((Rust.chunks 16 (payloadBytes packet.payload)).zipIdx.map fun e =>
      hexdumpLine (16 * e.2) e.1).flatten

/-! ## What happens on the page -/

inductive Event where
  /-- A message with a packet. -/
  | message (pkt : PacketMessage)
  /-- The timer of the batch consumer. -/
  | tick
  | setFilter (filter : String)
  /-- The text of the search field. -/
  | handleSearch (value : String)
  | nextPage
  | prevPage
  /-- A click on a row. -/
  | click (row : Nat)
deriving DecidableEq, Repr

/-- The batch consumer. -/
def consumeQueue (browser : Browser) (self : Dashboard) : Dashboard × List Pieces :=
  if self.packetQueue = [] then (self, [])
  else
    let counted := self.packetQueue.foldl (countPacket browser) { self with packetQueue := [] }
    let counted := { counted with packets := counted.packets.take 2000 }
    let shown := counted.refreshList
    (shown.1, counted.updateTopTargetsList browser ++ shown.2)

def step (browser : Browser) (self : Dashboard) : Event → Dashboard × List Pieces
  | .message pkt => ({ self with packetQueue := self.packetQueue ++ [pkt] }, [])
  | .tick => self.consumeQueue browser
  | .setFilter filter => { self with activeFilter := filter, currentPage := 1 }.refreshList
  | .handleSearch value =>
      { self with searchQuery := Unicode.toLowercase value, currentPage := 1 }.refreshList
  | .nextPage =>
      if self.currentPage < (self.filteredPackets.length + itemsPerPage - 1) / itemsPerPage then
        { self with currentPage := self.currentPage + 1 }.refreshList
      else (self, [])
  | .prevPage =>
      if 1 < self.currentPage then
        { self with currentPage := self.currentPage - 1 }.refreshList
      else (self, [])
  | .click row =>
      match self.rows[row]? with
      | some pkt => (self, [generateHexASCII pkt])
      | none => (self, [])

/-- A run of the page: the dashboard, and all that was assigned. -/
def run (browser : Browser) (self : Dashboard) : List Event → Dashboard × List Pieces
  | [] => (self, [])
  | e :: es =>
      let next := self.step browser e
      let rest := next.1.run browser es
      (rest.1, next.2 ++ rest.2)

end Dashboard

end NetZer

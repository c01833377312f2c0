import NetZer.Lib.Pages
import NetZer.Web.Statistics

/-! # The list of packets

What the list of the dashboard shows after any run of the page: the newest 2000
of the packets consumed, the newest first, reduced to those that pass the filter
and the search, and of these one page. The buttons below the list turn the pages;
while nothing is consumed and the choice stays, they lead to every packet, on one
page each.
-/

namespace NetZer

open Pages (Turn)

namespace Dashboard

variable {browser : Browser} {d : Dashboard}

/-! ## One page of the list -/

/-- The page that is shown, of those there are. -/
def clampedPage (d : Dashboard) : Nat :=
  if d.filtered = [] then d.currentPage
  else min d.currentPage (Pages.count itemsPerPage d.filtered)

theorem itemsPerPage_pos : 0 < itemsPerPage := Nat.succ_pos 34

/-- What `refreshList` does to the dashboard. -/
theorem refreshList_eq (d : Dashboard) :
    (refreshList d).1 = { d with
      filteredPackets := d.filtered
      rows := Pages.page itemsPerPage d.filtered d.clampedPage
      currentPage := d.clampedPage } := by
  unfold refreshList clampedPage
  by_cases hempty : d.filtered = []
  · rw [if_pos hempty, if_pos hempty, hempty, Pages.page_nil]
  · have hpages : max 1 (Pages.count itemsPerPage d.filtered) =
        Pages.count itemsPerPage d.filtered :=
      max_eq_right ((Pages.count_pos_iff itemsPerPage_pos).mpr hempty)
    rw [if_neg hempty, if_neg hempty, ← hpages]
    rfl

/-- The list is up to date: what is shown is a page of the packets that pass, and
it is one that there is, unless none passes. -/
structure UpToDate (d : Dashboard) : Prop where
  filteredPackets : d.filteredPackets = d.filtered
  rows : d.rows = Pages.page itemsPerPage d.filtered d.currentPage
  one_le : 1 ≤ d.currentPage
  le : d.filtered ≠ [] → d.currentPage ≤ Pages.count itemsPerPage d.filtered

theorem upToDate_refreshList (h : 1 ≤ d.currentPage) : UpToDate (refreshList d).1 := by
  rw [refreshList_eq]
  refine ⟨rfl, rfl, ?_, ?_⟩
  · show 1 ≤ d.clampedPage
    unfold clampedPage
    split_ifs with hempty
    · exact h
    · exact le_min h ((Pages.count_pos_iff itemsPerPage_pos).mpr hempty)
  · intro hne
    have hsome : d.filtered ≠ [] := hne
    show d.clampedPage ≤ Pages.count itemsPerPage d.filtered
    unfold clampedPage
    rw [if_neg hsome]
    exact min_le_right _ _

/-! ## The buttons -/

theorem step_nextPage (browser : Browser) (d : Dashboard) :
    (d.step browser .nextPage).1 =
      if d.currentPage < Pages.count itemsPerPage d.filteredPackets then
        (refreshList { d with currentPage := d.currentPage + 1 }).1
      else d :=
  apply_ite Prod.fst _ _ _

theorem step_prevPage (browser : Browser) (d : Dashboard) :
    (d.step browser .prevPage).1 =
      if 1 < d.currentPage then (refreshList { d with currentPage := d.currentPage - 1 }).1
      else d :=
  apply_ite Prod.fst _ _ _

/-- A click on a row only shows its packet. -/
theorem step_click (browser : Browser) (d : Dashboard) (row : Nat) :
    (d.step browser (.click row)).1 = d := by
  simp only [step]
  cases d.rows[row]? <;> rfl

/-! ## What is listed -/

/-- The filter an event sets. -/
def Event.chosenFilter : Event → Option String
  | .setFilter filter => some filter
  | _ => none

/-- The search an event sets. -/
def Event.chosenSearch : Event → Option String
  | .handleSearch value => some (Unicode.toLowercase value)
  | _ => none

/-- The last choice of a run. -/
def lastOf (choice : Event → Option String) (before : String) (events : List Event) : String :=
  (events.filterMap choice).getLast?.getD before

/-- What the list of a page that has had these events is made from: of the packets
received the oldest are consumed, and the newest 2000 of these are kept. -/
structure Gathers (events : List Event) (d : Dashboard) : Prop where
  packets : ∃ consumed, events.filterMap Event.received = consumed ++ d.packetQueue ∧
    d.packets = consumed.reverse.take 2000
  activeFilter : d.activeFilter = lastOf Event.chosenFilter "all" events
  searchQuery : d.searchQuery = lastOf Event.chosenSearch "" events

/-- It is, and the list is up to date. -/
structure Lists (events : List Event) (d : Dashboard) : Prop extends Gathers events d where
  upToDate : UpToDate d

theorem lists_initial : Lists [] initial where
  packets := ⟨[], rfl, rfl⟩
  activeFilter := rfl
  searchQuery := rfl
  upToDate := ⟨rfl, rfl, Nat.le_refl 1, fun hne => absurd rfl hne⟩

section

variable {events : List Event}

theorem Gathers.refresh (h : Gathers events d) (hpage : 1 ≤ d.currentPage) :
    Lists events (refreshList d).1 := by
  refine ⟨?_, upToDate_refreshList hpage⟩
  rw [refreshList_eq]
  exact ⟨h.packets, h.activeFilter, h.searchQuery⟩

theorem lastOf_concat (choice : Event → Option String) (before : String) (events : List Event)
    (e : Event) :
    lastOf choice before (events ++ [e]) = (choice e).getD (lastOf choice before events) := by
  unfold lastOf
  rw [List.filterMap_append]
  cases h : choice e with
  | none => simp [h]
  | some s => simp [h]

theorem received_concat (events : List Event) (e : Event) :
    (events ++ [e]).filterMap Event.received =
      events.filterMap Event.received ++ e.received.toList := by
  rw [List.filterMap_append, List.filterMap_cons]
  cases e.received <;> rfl

/-- An event that brings no packet and makes no choice. -/
theorem Gathers.quiet (h : Gathers events d) {e : Event} (hreceived : e.received = none)
    (hfilter : e.chosenFilter = none) (hsearch : e.chosenSearch = none) :
    Gathers (events ++ [e]) d where
  packets := by
    obtain ⟨consumed, hconsumed, hpackets⟩ := h.packets
    refine ⟨consumed, ?_, hpackets⟩
    rw [received_concat, hconsumed, hreceived]
    exact List.append_nil _
  activeFilter := by
    rw [lastOf_concat, hfilter]
    exact h.activeFilter
  searchQuery := by
    rw [lastOf_concat, hsearch]
    exact h.searchQuery

/-- The batch consumer puts the queue in front, the last message first. -/
theorem foldl_countPacket_eq (browser : Browser) (ms : List PacketMessage) (d : Dashboard) :
    ms.foldl (countPacket browser) d =
      { d with
        packets := ms.reverse ++ d.packets
        ipStats := (ms.foldl (countPacket browser) d).ipStats
        domainStats := (ms.foldl (countPacket browser) d).domainStats } := by
  induction ms generalizing d with
  | nil => rfl
  | cons m ms ih =>
      rw [List.foldl_cons, ih]
      simp [countPacket]

/-- The newest of what is there and what comes in front of it. -/
theorem take_append_take {α : Type} (n : Nat) (l r : List α) :
    (l ++ r.take n).take n = (l ++ r).take n := by
  rw [List.take_append, List.take_append, List.take_take]
  congr 2
  omega

theorem Lists.consume (h : Lists events d) : Lists events (consumeQueue browser d).1 := by
  unfold consumeQueue
  split_ifs with hempty
  · exact h
  · obtain ⟨consumed, hreceived, hpackets⟩ := h.packets
    refine Gathers.refresh ?_ ?_
    · rw [foldl_countPacket_eq]
      refine ⟨⟨consumed ++ d.packetQueue, ?_, ?_⟩, h.activeFilter, h.searchQuery⟩
      · rw [hreceived, List.append_nil]
      · show (d.packetQueue.reverse ++ d.packets).take 2000 = _
        rw [List.reverse_append, hpackets, take_append_take]
    · rw [foldl_countPacket_eq]
      exact h.upToDate.one_le

/-- One event. -/
theorem Lists.step (h : Lists events d) (e : Event) :
    Lists (events ++ [e]) (d.step browser e).1 := by
  cases e with
  | message m =>
      obtain ⟨consumed, hreceived, hpackets⟩ := h.packets
      refine ⟨⟨⟨consumed, ?_, hpackets⟩, ?_, ?_⟩, ?_⟩
      · rw [received_concat, hreceived, List.append_assoc]
        rfl
      · rw [lastOf_concat]
        exact h.activeFilter
      · rw [lastOf_concat]
        exact h.searchQuery
      · exact ⟨h.upToDate.filteredPackets, h.upToDate.rows, h.upToDate.one_le, h.upToDate.le⟩
  | tick => exact Lists.consume ⟨h.toGathers.quiet rfl rfl rfl, h.upToDate⟩
  | setFilter filter =>
      refine Gathers.refresh ⟨?_, ?_, ?_⟩ (Nat.le_refl 1)
      · rw [received_concat]
        simpa [Event.received] using h.packets
      · rw [lastOf_concat]
        rfl
      · rw [lastOf_concat]
        exact h.searchQuery
  | handleSearch value =>
      refine Gathers.refresh ⟨?_, ?_, ?_⟩ (Nat.le_refl 1)
      · rw [received_concat]
        simpa [Event.received] using h.packets
      · rw [lastOf_concat]
        exact h.activeFilter
      · rw [lastOf_concat]
        rfl
  | nextPage =>
      have hquiet := h.toGathers.quiet (e := .nextPage) rfl rfl rfl
      rw [step_nextPage]
      split_ifs
      · exact Gathers.refresh ⟨hquiet.packets, hquiet.activeFilter, hquiet.searchQuery⟩
          (Nat.succ_pos _)
      · exact ⟨hquiet, h.upToDate⟩
  | prevPage =>
      have hquiet := h.toGathers.quiet (e := .prevPage) rfl rfl rfl
      rw [step_prevPage]
      split_ifs with hback
      · exact Gathers.refresh ⟨hquiet.packets, hquiet.activeFilter, hquiet.searchQuery⟩
          (Nat.le_sub_one_of_lt hback)
      · exact ⟨hquiet, h.upToDate⟩
  | click row =>
      rw [step_click]
      exact ⟨h.toGathers.quiet rfl rfl rfl, h.upToDate⟩

theorem Lists.run (h : Lists events d) (more : List Event) :
    Lists (events ++ more) (d.run browser more).1 := by
  induction more generalizing events d with
  | nil =>
      rw [List.append_nil]
      exact h
  | cons e es ih =>
      rw [List.append_cons]
      exact ih (h.step e)

end

/-- After any run the list shows one page of the packets that pass: of those
consumed, the newest 2000, the newest first, by the filter and the search chosen
last. It shows none only if none passes. -/
theorem run_lists (browser : Browser) (events : List Event) :
    Lists events (initial.run browser events).1 ∧
      ((initial.run browser events).1.rows = [] ↔
        (initial.run browser events).1.filtered = []) := by
  have hlists : Lists events (initial.run browser events).1 := lists_initial.run events
  refine ⟨hlists, ?_⟩
  rw [hlists.upToDate.rows]
  constructor
  · intro hrows
    by_contra hne
    exact (Pages.page_ne_nil_iff itemsPerPage_pos hlists.upToDate.one_le).mpr
      (hlists.upToDate.le hne) hrows
  · intro hempty
    rw [hempty, Pages.page_nil]

/-! ## Browsing -/

/-- The page that is turned by an event. -/
def Event.turn : Event → Option Turn
  | .nextPage => some .next
  | .prevPage => some .prev
  | _ => none

/-- The event neither consumes packets nor changes the choice. -/
def Event.browses : Event → Bool
  | .message _ | .nextPage | .prevPage | .click _ => true
  | .tick | .setFilter _ | .handleSearch _ => false

/-- The dashboard has turned to the page, with the same packets to browse. -/
structure TurnedTo (d : Dashboard) (k : Nat) (d' : Dashboard) : Prop where
  filteredPackets : d'.filteredPackets = d.filteredPackets
  currentPage : d'.currentPage = k
  upToDate : UpToDate d'

theorem TurnedTo.rows {d' : Dashboard} {k : Nat} (h : TurnedTo d k d') :
    d'.rows = Pages.page itemsPerPage d.filteredPackets d'.currentPage := by
  rw [h.upToDate.rows, ← h.upToDate.filteredPackets, h.filteredPackets]

/-- Turning to a page that there is, or to any page of none. -/
theorem UpToDate.turnTo (h : UpToDate d) {k : Nat} (hk : 1 ≤ k)
    (hle : d.filteredPackets ≠ [] → k ≤ Pages.count itemsPerPage d.filteredPackets) :
    TurnedTo d k (refreshList { d with currentPage := k }).1 := by
  refine ⟨?_, ?_, upToDate_refreshList hk⟩
  · rw [refreshList_eq]
    exact h.filteredPackets.symm
  · rw [refreshList_eq]
    show (if d.filtered = [] then k else min k (Pages.count itemsPerPage d.filtered)) = k
    rw [← h.filteredPackets]
    split_ifs with hempty
    · rfl
    · exact min_eq_left (hle hempty)

theorem UpToDate.browse (h : UpToDate d) {e : Event} (he : e.browses = true) :
    TurnedTo d (e.turn.toList.foldl
        (Pages.turn (Pages.count itemsPerPage d.filteredPackets)) d.currentPage)
      (d.step browser e).1 := by
  cases e with
  | message m => exact ⟨rfl, rfl, ⟨h.filteredPackets, h.rows, h.one_le, h.le⟩⟩
  | click row =>
      rw [step_click]
      exact ⟨rfl, rfl, h⟩
  | nextPage =>
      rw [step_nextPage]
      show TurnedTo d (if _ then _ else _) _
      split_ifs with hnext
      · exact h.turnTo (Nat.succ_pos _) fun _ => hnext
      · exact ⟨rfl, rfl, h⟩
  | prevPage =>
      rw [step_prevPage]
      show TurnedTo d (if _ then _ else _) _
      split_ifs with hback
      · refine h.turnTo (Nat.le_sub_one_of_lt hback) fun hne => ?_
        rw [h.filteredPackets] at hne ⊢
        exact (Nat.sub_le _ 1).trans (h.le hne)
      · exact ⟨rfl, rfl, h⟩
  | tick => cases he
  | setFilter filter => cases he
  | handleSearch value => cases he

theorem UpToDate.browse_run (h : UpToDate d) {events : List Event}
    (hevents : ∀ e ∈ events, e.browses = true) :
    TurnedTo d ((events.filterMap Event.turn).foldl
        (Pages.turn (Pages.count itemsPerPage d.filteredPackets)) d.currentPage)
      (d.run browser events).1 := by
  induction events generalizing d with
  | nil => exact ⟨rfl, rfl, h⟩
  | cons e es ih =>
      rw [List.forall_mem_cons] at hevents
      have hone : TurnedTo d _ (d.step browser e).1 := h.browse hevents.1
      have hrest := ih hone.upToDate hevents.2
      refine ⟨hrest.filteredPackets.trans hone.filteredPackets, ?_, hrest.upToDate⟩
      rw [run, hrest.currentPage, hone.filteredPackets, hone.currentPage, List.filterMap_cons]
      cases e.turn <;> rfl

/-- Back to the first page, and then forward. -/
def toPage (d : Dashboard) (m : Nat) : List Event :=
  List.replicate (d.currentPage - 1) .prevPage ++ List.replicate m .nextPage

theorem toPage_browses (d : Dashboard) (m : Nat) : ∀ e ∈ d.toPage m, e.browses = true := by
  intro e he
  rcases List.mem_append.mp he with h | h
  · rw [List.eq_of_mem_replicate h]
    rfl
  · rw [List.eq_of_mem_replicate h]
    rfl

theorem toPage_turns (d : Dashboard) (m : Nat) :
    (d.toPage m).filterMap Event.turn =
      List.replicate (d.currentPage - 1) Turn.prev ++ List.replicate m Turn.next := by
  have hprev : Event.prevPage.turn = some Turn.prev := rfl
  have hnext : Event.nextPage.turn = some Turn.next := rfl
  rw [toPage, List.filterMap_append, List.filterMap_replicate_of_some hprev,
    List.filterMap_replicate_of_some hnext]

/-- After any run of the page, as long as nothing is consumed and the choice of
packets stays: the buttons lead through the pages of the packets that pass, one
at a time and no further than the first and the last; and the pages, from the
first to the last, show every packet that passes exactly once, in order. -/
theorem paging_exact (browser : Browser) (events browsing : List Event)
    (hbrowsing : ∀ e ∈ browsing, e.browses = true) :
    let d := (initial.run browser events).1
    let d' := (d.run browser browsing).1
    d'.filteredPackets = d.filteredPackets ∧
      d'.currentPage = (browsing.filterMap Event.turn).foldl
        (Pages.turn (Pages.count itemsPerPage d.filteredPackets)) d.currentPage ∧
      d'.rows = Pages.page itemsPerPage d.filteredPackets d'.currentPage ∧
      ((List.range (Pages.count itemsPerPage d.filteredPackets)).flatMap fun m =>
        (d'.run browser (d'.toPage m)).1.rows) = d.filteredPackets := by
  intro d d'
  have hupToDate : UpToDate d := (lists_initial.run events).upToDate
  have h : TurnedTo d _ d' := hupToDate.browse_run hbrowsing
  refine ⟨h.filteredPackets, h.currentPage, h.rows, ?_⟩
  -- from the first page on, page by page
  calc ((List.range (Pages.count itemsPerPage d.filteredPackets)).flatMap fun m =>
        (d'.run browser (d'.toPage m)).1.rows)
      = (List.range (Pages.count itemsPerPage d.filteredPackets)).flatMap fun m =>
          Pages.page itemsPerPage d.filteredPackets (m + 1) := by
        refine List.flatMap_congr fun m hm => ?_
        have hm' : TurnedTo d' _ (d'.run browser (d'.toPage m)).1 :=
          h.upToDate.browse_run (d'.toPage_browses m)
        rw [hm'.rows, hm'.currentPage, h.filteredPackets, toPage_turns, List.foldl_append,
          Pages.foldl_prev h.upToDate.one_le, Pages.foldl_next (List.mem_range.mp hm)]
    _ = d.filteredPackets := Pages.flatMap_page itemsPerPage_pos _

/-- Thirty-six packets, which are two pages. -/
def twoPages : List Event :=
  (List.range 36).map (fun n => .message ⟨"", "UDP", "a", toString n, "-", 60, ""⟩) ++ [.tick]

/-- Forward, back and forward again, while one more packet comes in. -/
def forthAndBack : List Event :=
  [.nextPage, .message ⟨"", "ARP", "b", "a", "-", 42, ""⟩, .nextPage, .prevPage, .nextPage]

/-- The second page is shown, with the one packet that is on it. -/
theorem paging_exact_forthAndBack :
    ∃ d d' : Dashboard, (initial.run plainBrowser twoPages).1 = d ∧
      (d.run plainBrowser forthAndBack).1 = d' ∧
      d.filteredPackets.length = 36 ∧ d.currentPage = 1 ∧
      d'.filteredPackets = d.filteredPackets ∧ d'.currentPage = 2 ∧ d'.rows.length = 1 ∧
      d'.rows = Pages.page itemsPerPage d.filteredPackets 2 ∧
      ((List.range 2).flatMap fun m => (d'.run plainBrowser (d'.toPage m)).1.rows) =
        d.filteredPackets := by
  have hall : ∀ e ∈ forthAndBack, e.browses = true := by decide
  have hstart : (initial.run plainBrowser twoPages).1.filteredPackets.length = 36 ∧
      (initial.run plainBrowser twoPages).1.currentPage = 1 := by
    decide +kernel
  rcases paging_exact plainBrowser twoPages forthAndBack hall with ⟨hsame, hpage, hrows, hpages⟩
  generalize hd : (initial.run plainBrowser twoPages).1 = d at *
  generalize hd' : (d.run plainBrowser forthAndBack).1 = d' at *
  have hcount : Pages.count itemsPerPage d.filteredPackets = 2 := by
    rw [Pages.count, hstart.1]
    rfl
  rw [hcount] at hpage hpages
  have hsecond : d'.currentPage = 2 := by
    rw [hpage, hstart.2]
    rfl
  rw [hsecond] at hrows
  have hone : d'.rows.length = 1 := by
    rw [hrows, Pages.page, List.length_take, List.length_drop, hstart.1]
    rfl
  exact ⟨d, d', rfl, hd', hstart.1, hstart.2, hsame, hsecond, hone, hrows, hpages⟩

end Dashboard

end NetZer

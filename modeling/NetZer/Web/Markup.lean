import NetZer.Web.Dashboard

/-! # Captured text in the page

The dashboard puts the fields of a packet into its HTML as they come. So the
page keeps the tags of its templates as long as no packet has a character that
HTML reads as markup in a field that is shown, and not a packet longer.
-/

namespace NetZer

open Html (Piece Pieces Clean Safe placed isMarkup isMarkupInValue)
open Text (Avoids)

/-- The part of an info that the list shows. -/
def PacketMessage.shownInfo (m : PacketMessage) : String :=
  if Js.includes m.info "SNI:" then
    (Js.split m.info "SNI:").getD 0 "" ++ (Js.split m.info "SNI:").getD 1 ""
  else m.info

/-- No field has a character that is read as markup where it is shown: not the
texts of a row, and not the bytes of the payload. -/
structure PacketMessage.Plain (m : PacketMessage) : Prop where
  timestamp : Avoids isMarkup m.timestamp
  proto : Avoids isMarkupInValue m.proto
  src : Avoids isMarkup m.src
  dst : Avoids isMarkup m.dst
  info : Avoids isMarkup m.shownInfo
  payload : ∀ b ∈ Dashboard.payloadBytes m.payload, b ≠ some 0x3c ∧ b ≠ some 0x26

namespace Dashboard

/-! ## Rows -/

theorem isMarkup_digitChar : ∀ d < 16, isMarkup d.digitChar = false := by
  decide

/-- What HTML reads as markup comes before the letters of ASCII. -/
theorem lt_of_isMarkupInValue (c : Char) (hc : isMarkupInValue c = true) :
    c.toNat < 0x41 ∧ c ≠ Char.ofNat 0 := by
  simp only [isMarkupInValue, isMarkup, Bool.or_eq_true, beq_iff_eq] at hc
  obtain (rfl | rfl) | rfl := hc <;> decide

/-- The info column is clean exactly if what it shows is. -/
theorem infoFormatted_clean (m : PacketMessage) :
    Clean (infoFormatted m) ↔ Avoids isMarkup m.shownInfo := by
  have hspace : Avoids isMarkup " " := by decide
  simp only [infoFormatted, PacketMessage.shownInfo]
  -- one case per kind of info; in two of them only a part of it is shown
  split_ifs with hsni hdns hhttp hmethod
  · simp [Piece.Clean]
  · have hinfo : "DNS: " ++ Js.substring m.info 5 = m.info := Js.append_substring hdns
    have hstarts : Avoids isMarkup "DNS: " := by decide
    have hiff : Avoids isMarkup (Js.substring m.info 5) ↔ Avoids isMarkup m.info := by
      rw [← hinfo, Text.avoids_append, hinfo]
      exact (and_iff_right hstarts).symm
    simpa [Piece.Clean] using hiff
  · -- a method, and the words behind it
    obtain ⟨word, words, hwords⟩ := List.exists_cons_of_ne_nil (Js.split_ne_nil m.info " ")
    have hiff := Js.avoids_split (s := m.info) (by decide) hspace
    rw [hwords, List.forall_mem_cons, ← Text.avoids_intercalate hspace words] at hiff
    simpa [Piece.Clean, hwords] using hiff
  · simp [Piece.Clean]
  · simp [Piece.Clean]
  · simp [Piece.Clean]

theorem infoFormatted_placed (m : PacketMessage) : placed .data (infoFormatted m) = true := by
  simp only [infoFormatted]
  split_ifs
  all_goals
    rw [← Html.placed_template]
    simp only [Html.template, List.map_cons, List.map_nil, Piece.template]
    decide +kernel

/-- A row is clean exactly if the fields it shows are. -/
theorem rowHtml_clean (m : PacketMessage) :
    Clean (rowHtml m) ↔
      Avoids isMarkup m.timestamp ∧ Avoids isMarkupInValue m.proto ∧ Avoids isMarkup m.src ∧
        Avoids isMarkup m.dst ∧ Avoids isMarkup m.shownInfo := by
  have hbadge : Avoids isMarkupInValue (Unicode.toLowercase m.proto) ↔
      Avoids isMarkupInValue m.proto :=
    Text.avoids_toLowercase lt_of_isMarkupInValue
  have hproto : Avoids isMarkupInValue m.proto → Avoids isMarkup m.proto := fun h =>
    h.mono fun _ => Html.isMarkup_of_inValue
  have hsize : Avoids isMarkup (toString m.size) :=
    Text.avoids_decimal (fun d hd => isMarkup_digitChar d (by omega)) m.size
  simp only [rowHtml, Html.clean_append, Html.clean_cons, Html.clean_nil, Piece.Clean, hbadge,
    infoFormatted_clean, hsize, true_and, and_true]
  constructor
  · rintro ⟨⟨htime, hvalue, -, hsrc, hdst⟩, hinfo⟩
    exact ⟨htime, hvalue, hsrc, hdst, hinfo⟩
  · rintro ⟨htime, hvalue, hsrc, hdst, hinfo⟩
    exact ⟨⟨htime, hvalue, hproto hvalue, hsrc, hdst⟩, hinfo⟩

theorem rowHtml_placed (m : PacketMessage) : placed .data (rowHtml m) = true := by
  unfold rowHtml
  refine Html.placed_append ?_ rfl
  exact Html.placed_append rfl (infoFormatted_placed m)

/-! ## The payload -/

/-- The ASCII column shows a byte of 0x3c or 0x26 as what it is. -/
theorem isMarkup_asciiChar (b : Option Int) :
    isMarkup (asciiChar b) = false ↔ b ≠ some 0x3c ∧ b ≠ some 0x26 := by
  have hprintable : ∀ n < 127, isMarkup (Char.ofNat n) = false ↔ n ≠ 0x3c ∧ n ≠ 0x26 := by
    decide
  cases b with
  | none => decide
  | some b =>
      rw [asciiChar]
      split_ifs with hb
      · obtain ⟨n, rfl⟩ := Int.eq_ofNat_of_zero_le (by omega : 0 ≤ b)
        rw [Int.toNat_natCast, hprintable n (by omega)]
        simp only [ne_eq, Option.some.injEq]
        omega
      · have hdot : isMarkup '.' = false := by decide
        simp only [hdot, ne_eq, Option.some.injEq, true_iff]
        omega

/-- The columns of digits have no markup, whatever the payload. -/
theorem hexColumn_clean (chunk : List (Option Int)) : Avoids isMarkup (hexColumn chunk) := by
  rw [hexColumn, Text.avoids_join, List.forall_mem_map]
  intro j _
  rw [Text.avoids_append]
  constructor
  · split_ifs <;> decide
  · split
    · next b _ =>
        rw [Text.avoids_append]
        refine ⟨Js.avoids_padStart (by decide) ?_, by decide⟩
        exact Js.avoids_toString16 isMarkup_digitChar (by decide) (by decide) b
    · decide

theorem hexdumpLine_clean (offset : Nat) (chunk : List (Option Int)) :
    Clean (hexdumpLine offset chunk) ↔ ∀ b ∈ chunk, b ≠ some 0x3c ∧ b ≠ some 0x26 := by
  have hoffset : Avoids isMarkup (Js.padStart (Js.toString16 (some offset)) 4 '0') :=
    Js.avoids_padStart (by decide)
      (Js.avoids_toString16 isMarkup_digitChar (by decide) (by decide) _)
  simp only [hexdumpLine, Html.clean_cons, Html.clean_nil, Piece.Clean, hoffset,
    hexColumn_clean, Text.avoids_ofList, List.forall_mem_map, isMarkup_asciiChar, true_and,
    and_true]

/-- The dump is clean exactly if the payload has no byte that is markup. -/
theorem generateHexASCII_clean (m : PacketMessage) :
    Clean (generateHexASCII m) ↔
      ∀ b ∈ payloadBytes m.payload, b ≠ some 0x3c ∧ b ≠ some 0x26 := by
  unfold generateHexASCII
  split_ifs with hempty
  · have hbytes : payloadBytes m.payload = [] := by
      rw [hempty]
      rfl
    simp [hbytes, Piece.Clean]
  · generalize payloadBytes m.payload = bytes
    calc Clean ((Rust.chunks 16 bytes).zipIdx.map fun e => hexdumpLine (16 * e.2) e.1).flatten
        ↔ ∀ e ∈ (Rust.chunks 16 bytes).zipIdx, ∀ b ∈ e.1, b ≠ some 0x3c ∧ b ≠ some 0x26 := by
          simp only [Html.clean_flatten, List.forall_mem_map, hexdumpLine_clean]
      _ ↔ ∀ chunk ∈ Rust.chunks 16 bytes, ∀ b ∈ chunk, b ≠ some 0x3c ∧ b ≠ some 0x26 := by
          conv_rhs => rw [← List.zipIdx_map_fst 0 (Rust.chunks 16 bytes)]
          rw [List.forall_mem_map]
      _ ↔ ∀ b ∈ bytes, b ≠ some 0x3c ∧ b ≠ some 0x26 := by
          conv_rhs => rw [← Rust.flatten_chunks (by decide : 0 < 16) bytes]
          rw [List.forall_mem_flatten]

theorem generateHexASCII_placed (m : PacketMessage) :
    placed .data (generateHexASCII m) = true := by
  unfold generateHexASCII
  split_ifs
  · rfl
  · apply Html.placed_flatten
    rw [List.forall_mem_map]
    intro e _
    rfl

/-! ## The list of targets -/

/-- A packet is counted for clean keys. -/
theorem dstIpOnly_avoids {dst : String} (h : Avoids isMarkup dst) :
    Avoids isMarkup (dstIpOnly dst) := by
  obtain ⟨part, parts, hparts⟩ := List.exists_cons_of_ne_nil (Js.split_ne_nil dst ":")
  have hcolon : Avoids isMarkup ":" := by decide
  have hall := (Js.avoids_split (s := dst) (by decide) hcolon).mpr h
  rw [hparts, List.forall_mem_cons] at hall
  rw [dstIpOnly, hparts, List.getD_cons_zero]
  exact hall.1

theorem domainOf_avoids {m : PacketMessage} {dom : String} (h : Avoids isMarkup m.shownInfo)
    (hdom : domainOf m.info = some dom) : Avoids isMarkup dom := by
  unfold PacketMessage.shownInfo at h
  unfold domainOf at hdom
  split_ifs at hdom with hsni hdns
  · rw [if_pos hsni.2, Text.avoids_append] at h
    rw [← Option.some.inj hdom]
    exact Js.avoids_trim h.2
  · have hno : ¬ Js.includes m.info "SNI:" = true := fun hincludes => hsni ⟨hdns.1, hincludes⟩
    rw [if_neg hno] at h
    rw [← Option.some.inj hdom]
    exact Js.avoids_trim (Js.avoids_substring h)

/-- A row of the list is clean if its name is, and its count where that is a
text. -/
theorem targetHtml_clean (browser : Browser) (maxCount : Js.Count) {t : Target}
    (hname : Avoids isMarkup t.name) (hcount : ∀ s, t.count = .text s → Avoids isMarkup s) :
    Clean (targetHtml browser maxCount t) := by
  have htext : Avoids isMarkup (countText browser t.count) := by
    unfold countText
    split
    · exact (browser.localeText_clean _).mono fun _ => Html.isMarkup_of_inValue
    · next s heq => exact hcount s heq
  have hpercent := browser.percentText_clean t.count maxCount
  simp only [targetHtml, Html.clean_cons, Html.clean_nil, Piece.Clean, true_and, and_true]
  exact ⟨hname, htext, hpercent⟩

theorem targetHtml_placed (browser : Browser) (maxCount : Js.Count) (t : Target) :
    placed .data (targetHtml browser maxCount t) = true := by
  rw [← Html.placed_template]
  simp only [Html.template, targetHtml, List.map_cons, List.map_nil, Piece.template]
  decide +kernel

/-! ## The page -/

/-- The texts the page holds are clean: those of the packets that are listed or
may still be, and the keys of the tables. -/
structure Plain (d : Dashboard) : Prop where
  packetQueue : ∀ m ∈ d.packetQueue, m.Plain
  packets : ∀ m ∈ d.packets, m.Plain
  rows : ∀ m ∈ d.rows, m.Plain
  ipStats : d.ipStats.Avoids isMarkup
  domainStats : d.domainStats.Avoids isMarkup

theorem initial_plain : initial.Plain := by
  constructor
  all_goals
    intro m hm
    cases hm

section

variable {browser : Browser} {self : Dashboard} {m : PacketMessage}

theorem bump_avoids {t : Js.Table} {key : String} (h : t.Avoids isMarkup)
    (hkey : Avoids isMarkup key) : (t.bump browser.nativeText key).Avoids isMarkup := by
  refine Js.Table.avoids_bump (by decide) (by decide) ?_ h hkey
  intro k hk
  exact (browser.nativeText_clean k hk).mono fun _ => Html.isMarkup_of_inValue

theorem countPacket_plain (h : self.Plain) (hm : m.Plain) : (countPacket browser self m).Plain where
  packetQueue := h.packetQueue
  packets := List.forall_mem_cons.mpr ⟨hm, h.packets⟩
  rows := h.rows
  ipStats := bump_avoids h.ipStats (dstIpOnly_avoids hm.dst)
  domainStats := by
    unfold countPacket
    split
    · next dom hdom => exact bump_avoids h.domainStats (domainOf_avoids hm.info hdom)
    · exact h.domainStats

theorem foldl_countPacket_plain (browser : Browser) {ms : List PacketMessage} (h : self.Plain)
    (hms : ∀ m ∈ ms, m.Plain) : (ms.foldl (countPacket browser) self).Plain := by
  induction ms generalizing self with
  | nil => exact h
  | cons m ms ih =>
      obtain ⟨hm, hrest⟩ := List.forall_mem_cons.mp hms
      exact ih (countPacket_plain h hm) hrest

theorem mem_packets_of_filtered (hm : m ∈ self.filtered) : m ∈ self.packets := by
  unfold filtered at hm
  simp only at hm
  split at hm
  · exact List.mem_of_mem_filter (List.mem_of_mem_filter hm)
  · exact List.mem_of_mem_filter hm

/-- The rows that are shown are of packets of the list. -/
theorem refreshList_plain (h : self.Plain) : (refreshList self).1.Plain := by
  unfold refreshList
  split
  · exact { h with rows := fun row hrow => nomatch hrow }
  · refine { h with rows := fun row hrow => h.packets row ?_ }
    exact mem_packets_of_filtered (List.mem_of_mem_drop (List.mem_of_mem_take hrow))

/-- A list without entries is cleared and gets a placeholder. -/
theorem mem_placeholder {html own : Pieces} (hclean : Clean own)
    (hplaced : placed .data own = true) (hhtml : html ∈ [[.markup ""], own]) :
    Clean html ∧ placed .data html = true := by
  obtain rfl | hhtml := List.mem_cons.mp hhtml
  · exact ⟨by simp [Piece.Clean], rfl⟩
  · rw [List.mem_singleton.mp hhtml]
    exact ⟨hclean, hplaced⟩

/-- What is assigned is the page's own, or a row that is shown. -/
theorem mem_refreshList {html : Pieces} (hhtml : html ∈ (refreshList self).2) :
    (Clean html ∧ placed .data html = true) ∨
      ∃ row ∈ (refreshList self).1.rows, html = rowHtml row := by
  unfold refreshList at hhtml ⊢
  split at hhtml
  · exact Or.inl (mem_placeholder (by simp [Piece.Clean]) (by decide +kernel) hhtml)
  · next hne =>
      rw [if_neg hne]
      obtain rfl | hhtml := List.mem_cons.mp hhtml
      · exact Or.inl ⟨by simp [Piece.Clean], rfl⟩
      · obtain ⟨row, hrow, rfl⟩ := List.mem_map.mp hhtml
        exact Or.inr ⟨row, hrow, rfl⟩

/-- What is assigned to the list of targets is the page's own, or of a target
that is counted. -/
theorem mem_updateTopTargetsList {html : Pieces}
    (hhtml : html ∈ updateTopTargetsList browser self) :
    (Clean html ∧ placed .data html = true) ∨
      ∃ maxCount, ∃ e ∈ self.domainStats.entries ++ self.ipStats.entries,
        html = targetHtml browser maxCount ⟨e.1, e.2⟩ := by
  unfold updateTopTargetsList at hhtml
  simp only at hhtml
  split at hhtml
  · exact Or.inl (mem_placeholder (by simp [Piece.Clean]) (by decide +kernel) hhtml)
  · next first rest htop =>
      obtain rfl | hhtml := List.mem_cons.mp hhtml
      · exact Or.inl ⟨by simp [Piece.Clean], rfl⟩
      · obtain ⟨target, htarget, rfl⟩ := List.mem_map.mp hhtml
        rw [← htop] at htarget
        have hsorted := (browser.sort_perm _).mem_iff.mp (List.mem_of_mem_take htarget)
        obtain ⟨e, he, rfl⟩ := List.mem_map.mp hsorted
        rw [List.mem_append, Js.Table.mem_forIn, Js.Table.mem_forIn] at he
        exact Or.inr ⟨first.count, e, List.mem_append.mpr he, rfl⟩

theorem refreshList_clean (h : self.Plain) : ∀ html ∈ (refreshList self).2, Clean html := by
  intro html hhtml
  obtain hown | ⟨row, hrow, rfl⟩ := mem_refreshList hhtml
  · exact hown.1
  · have hplain := (refreshList_plain h).rows row hrow
    rw [rowHtml_clean]
    exact ⟨hplain.timestamp, hplain.proto, hplain.src, hplain.dst, hplain.info⟩

theorem refreshList_placed : ∀ html ∈ (refreshList self).2, placed .data html = true := by
  intro html hhtml
  obtain hown | ⟨row, -, rfl⟩ := mem_refreshList hhtml
  · exact hown.2
  · exact rowHtml_placed row

theorem updateTopTargetsList_clean (h : self.Plain) :
    ∀ html ∈ updateTopTargetsList browser self, Clean html := by
  intro html hhtml
  obtain hown | ⟨maxCount, e, he, rfl⟩ := mem_updateTopTargetsList hhtml
  · exact hown.1
  · have hentry : Avoids isMarkup e.1 ∧ ∀ s, e.2 = .text s → Avoids isMarkup s := by
      obtain he | he := List.mem_append.mp he
      · exact h.domainStats e he
      · exact h.ipStats e he
    exact targetHtml_clean browser maxCount hentry.1 hentry.2

theorem updateTopTargetsList_placed :
    ∀ html ∈ updateTopTargetsList browser self, placed .data html = true := by
  intro html hhtml
  obtain hown | ⟨maxCount, e, -, rfl⟩ := mem_updateTopTargetsList hhtml
  · exact hown.2
  · exact targetHtml_placed browser maxCount _

/-- The packets of the queue, counted and listed. -/
theorem counted_plain (browser : Browser) (h : self.Plain) :
    let counted := self.packetQueue.foldl (countPacket browser) { self with packetQueue := [] }
    Plain { counted with packets := counted.packets.take 2000 } := by
  have hempty : Plain { self with packetQueue := [] } :=
    { h with packetQueue := fun m hm => nomatch hm }
  have hcounted := foldl_countPacket_plain browser hempty h.packetQueue
  exact { hcounted with packets := fun m hm => hcounted.packets m (List.mem_of_mem_take hm) }

/-- A step that brings no packet or a plain one keeps the page plain, and what
it assigns is clean. -/
theorem step_plain (browser : Browser) (h : self.Plain) {e : Event}
    (he : ∀ m, e = .message m → m.Plain) :
    (step browser self e).1.Plain ∧ ∀ html ∈ (step browser self e).2, Clean html := by
  have hshown : ∀ {d : Dashboard}, d.Plain →
      (refreshList d).1.Plain ∧ ∀ html ∈ (refreshList d).2, Clean html := fun hd =>
    ⟨refreshList_plain hd, refreshList_clean hd⟩
  have hstay : self.Plain ∧ ∀ html ∈ ([] : List Pieces), Clean html :=
    ⟨h, fun html hhtml => nomatch hhtml⟩
  cases e with
  -- only the queue grows; nothing is assigned
  | message m =>
      refine ⟨{ h with packetQueue := fun m' hm' => ?_ }, fun html hhtml => nomatch hhtml⟩
      obtain hm' | hm' := List.mem_append.mp hm'
      · exact h.packetQueue m' hm'
      · rw [List.mem_singleton.mp hm']
        exact he m rfl
  | tick =>
      rw [step, consumeQueue]
      split
      · exact hstay
      · have hcounted := counted_plain browser h
        refine ⟨refreshList_plain hcounted, ?_⟩
        rw [List.forall_mem_append]
        exact ⟨updateTopTargetsList_clean hcounted, refreshList_clean hcounted⟩
  | setFilter filter => exact hshown { h with }
  | handleSearch value => exact hshown { h with }
  | nextPage =>
      rw [step]
      split
      · exact hshown { h with }
      · exact hstay
  | prevPage =>
      rw [step]
      split
      · exact hshown { h with }
      · exact hstay
  -- a row that is clicked on holds a packet of the page
  | click row =>
      rw [step]
      split
      · next m hm =>
          refine ⟨h, fun html hhtml => ?_⟩
          rw [List.mem_singleton.mp hhtml, generateHexASCII_clean]
          exact (h.rows m (List.mem_of_getElem? hm)).payload
      · exact hstay

/-- Whatever is on the page, what a step assigns has its contents between tags
or in quoted values. -/
theorem step_placed (e : Event) : ∀ html ∈ (step browser self e).2, placed .data html = true := by
  have hnone : ∀ html ∈ ([] : List Pieces), placed .data html = true := fun html hhtml =>
    nomatch hhtml
  cases e with
  -- nothing is assigned for a message; the lists are redrawn or a payload is shown for others
  | message m => exact hnone
  | tick =>
      rw [step, consumeQueue]
      split
      · exact hnone
      · rw [List.forall_mem_append]
        exact ⟨updateTopTargetsList_placed, refreshList_placed⟩
  | setFilter filter => exact refreshList_placed
  | handleSearch value => exact refreshList_placed
  | nextPage =>
      rw [step]
      split
      · exact refreshList_placed
      · exact hnone
  | prevPage =>
      rw [step]
      split
      · exact refreshList_placed
      · exact hnone
  | click row =>
      rw [step]
      split
      · next m _ =>
          intro html hhtml
          rw [List.mem_singleton.mp hhtml]
          exact generateHexASCII_placed m
      · exact hnone

/-- What is assigned in a run that receives plain packets is clean. -/
theorem run_clean {events : List Event} (h : self.Plain)
    (hevents : ∀ m, .message m ∈ events → m.Plain) :
    ∀ html ∈ (self.run browser events).2, Clean html := by
  induction events generalizing self with
  | nil =>
      intro html hhtml
      cases hhtml
  | cons e es ih =>
      have hstep := step_plain browser h fun m he => hevents m (he ▸ List.mem_cons_self)
      have hrest := ih hstep.1 fun m hm => hevents m (List.mem_cons_of_mem e hm)
      rw [run, List.forall_mem_append]
      exact ⟨hstep.2, hrest⟩

theorem run_placed (events : List Event) :
    ∀ html ∈ (self.run browser events).2, placed .data html = true := by
  induction events generalizing self with
  | nil =>
      intro html hhtml
      cases hhtml
  | cons e es ih =>
      rw [run, List.forall_mem_append]
      exact ⟨step_placed e, ih⟩

end

/-- A packet that is alone in the list is shown. -/
theorem refreshList_single {d : Dashboard} {m : PacketMessage} (hpackets : d.packets = [m])
    (hfilter : d.activeFilter = "all") (hsearch : d.searchQuery = "") :
    (refreshList d).1.rows = [m] ∧ rowHtml m ∈ (refreshList d).2 := by
  have hfiltered : d.filtered = [m] := by
    simp [filtered, hpackets, hfilter, hsearch, passesFilter]
  have hpage : (min d.currentPage 1 - 1) * itemsPerPage = 0 := by
    rw [Nat.mul_eq_zero]
    omega
  have htotal : max 1 (([m].length + itemsPerPage - 1) / itemsPerPage) = 1 := by
    rw [List.length_singleton]
    decide
  rw [refreshList, hfiltered, if_neg (List.cons_ne_nil _ _)]
  simp only [htotal, hpage]
  exact ⟨rfl, List.mem_cons_of_mem _ List.mem_cons_self⟩

/-- A packet that is received alone and clicked on is shown with its row and its
payload. -/
theorem run_message (browser : Browser) (m : PacketMessage) :
    rowHtml m ∈ (initial.run browser [.message m, .tick, .click 0]).2 ∧
      generateHexASCII m ∈ (initial.run browser [.message m, .tick, .click 0]).2 := by
  -- the packet waits, is counted at the tick and gets a row, and its row is clicked on
  let received : Dashboard := { initial with packetQueue := [m] }
  let counted : Dashboard := countPacket browser { received with packetQueue := [] } m
  have htick : received.step browser .tick =
      ((refreshList counted).1,
        counted.updateTopTargetsList browser ++ (refreshList counted).2) := rfl
  obtain ⟨hrows, hrow⟩ := refreshList_single (d := counted) (m := m) rfl rfl rfl
  have hclick : (step browser (refreshList counted).1 (.click 0)).2 = [generateHexASCII m] := by
    rw [step, hrows]
    rfl
  have hrun : (initial.run browser [.message m, .tick, .click 0]).2 =
      counted.updateTopTargetsList browser ++ (refreshList counted).2 ++ [generateHexASCII m] := by
    have hsteps : (initial.run browser [.message m, .tick, .click 0]).2 =
        [] ++ ((received.step browser .tick).2 ++
          ((step browser (received.step browser .tick).1 (.click 0)).2 ++ [])) := rfl
    rw [hsteps, htick, hclick, List.nil_append, List.append_nil]
  rw [hrun]
  constructor
  · exact List.mem_append_left _ (List.mem_append_right _ hrow)
  · exact List.mem_append_right _ (List.mem_singleton_self _)

/-- Whichever packets are received: in every run what is assigned keeps the tags
of its template, with no character of a packet read as markup, exactly if the
packets are plain. -/
theorem run_safe_iff (browser : Browser) (messages : Set PacketMessage) :
    (∀ events : List Event, (∀ m, .message m ∈ events → m ∈ messages) →
      ∀ html ∈ (initial.run browser events).2, Safe html) ↔ ∀ m ∈ messages, m.Plain := by
  constructor
  · intro hsafe m hm
    have hreceived : ∀ m', Event.message m' ∈ [.message m, .tick, .click 0] → m' ∈ messages := by
      intro m' hm'
      obtain rfl : m' = m := by simpa using hm'
      exact hm
    have hclean : ∀ html ∈ (initial.run browser [.message m, .tick, .click 0]).2, Clean html :=
      fun html hhtml => (hsafe _ hreceived html hhtml).1
    obtain ⟨hrow, hpayload⟩ := run_message browser m
    obtain ⟨htime, hproto, hsrc, hdst, hinfo⟩ := (rowHtml_clean m).mp (hclean _ hrow)
    exact ⟨htime, hproto, hsrc, hdst, hinfo, (generateHexASCII_clean m).mp (hclean _ hpayload)⟩
  · intro hplain events hevents html hhtml
    rw [Html.safe_iff_clean (run_placed events html hhtml)]
    exact run_clean initial_plain (fun m hm => hplain m (hevents m hm)) html hhtml

/-- A request whose path is a tag. -/
def scriptRequest : PacketMessage :=
  { timestamp := "12:00:00.000"
    proto := "HTTP"
    src := "10.0.0.1:40000"
    dst := "10.0.0.2:80"
    info := "GET /<script>"
    size := 80
    payload := "" }

/-- Not every page keeps the tags of its templates. -/
theorem run_markup_injected :
    ¬ ∀ (browser : Browser) (events : List Event),
      ∀ html ∈ (initial.run browser events).2, Safe html := by
  intro hsafe
  have hrow := (run_message plainBrowser scriptRequest).1
  have hclean := (hsafe plainBrowser _ _ hrow).1
  have hinfo := ((rowHtml_clean scriptRequest).mp hclean).2.2.2.2
  have hmarked : ¬ Avoids isMarkup scriptRequest.shownInfo := by decide
  exact hmarked hinfo

example : Html.tags (Html.string (infoFormatted scriptRequest)) =
    [⟨false, "span".toList, ["style".toList]⟩, ⟨true, "span".toList, []⟩,
      ⟨false, "span".toList, ["style".toList]⟩, ⟨false, "script".toList, []⟩,
      ⟨true, "span".toList, []⟩] := by
  decide +kernel

end Dashboard

end NetZer

import Mathlib.Data.List.Forall2
import NetZer.Web.Liveness

/-! # A page that reconnects

When its connection is closed the page opens a new one, and is a new client to
the server. It misses what is broadcast in between. But no message comes twice:
to get on the list a connection needs the lock, so a message that the page has
had from its old connection has been through its pass by then.
-/

namespace NetZer

/-! ## Stretchs of a list -/

/-- A stretch of a list, from one place up to another. -/
structure Stretch where
  start : Nat
  stop : Nat

def Stretch.of {α : Type*} (p : Stretch) (l : List α) : List α :=
  (l.take p.stop).drop p.start

/-- Stretchs that do not overlap, one after the other. -/
theorem Stretch.flatten_sublist {α : Type*} {l : List α} {stretches : List Stretch}
    (hordered : stretches.Pairwise fun p q => p.stop ≤ q.start) :
    (stretches.map fun p => p.of l).flatten.Sublist l := by
  have hfrom : ∀ n, (∀ p ∈ stretches, n ≤ p.start) →
      (stretches.map fun p => p.of l).flatten.Sublist (l.drop n) := by
    induction stretches with
    | nil => exact fun n _ => List.nil_sublist _
    | cons p ps ih =>
        intro n hn
        rw [List.pairwise_cons] at hordered
        rw [List.forall_mem_cons] at hn
        rw [List.map_cons, List.flatten_cons]
        by_cases hle : p.start ≤ p.stop
        · -- the stretch is the beginning of what is left, the others are behind it
          have hrest := ih hordered.2 p.stop hordered.1
          have hsplit : (p.of l ++ l.drop p.stop).Sublist (l.drop p.start) := by
            have heq : p.of l ++ l.drop p.stop = l.drop p.start := by
              rw [Stretch.of, List.drop_take]
              have hdrop : l.drop p.stop = (l.drop p.start).drop (p.stop - p.start) := by
                rw [List.drop_drop, Nat.add_sub_cancel' hle]
              rw [hdrop, List.take_append_drop]
            rw [heq]
          have hstart : (l.drop p.start).Sublist (l.drop n) := by
            rw [← Nat.add_sub_cancel' hn.1, ← List.drop_drop]
            exact List.drop_sublist _ _
          exact ((List.Sublist.refl _).append hrest).trans (hsplit.trans hstart)
        · have hnone : p.of l = [] := by
            rw [Stretch.of, List.drop_eq_nil_iff, List.length_take]
            omega
          rw [hnone, List.nil_append]
          exact ih hordered.2 n hn.2
  exact hfrom 0 fun _ _ => Nat.zero_le _

/-! ## What a client has had -/

namespace WebServer

variable {interface : String} {allowed : ServerEvent → Prop}
  (b : (webSts interface allowed).Behavior)

/-- The number of messages that have been processed or, in the middle of a pass,
have been sent to client number `i`. -/
def sentCount (s : WebServer) (i : Nat) : Nat :=
  (s.processed ++ s.broadcaster.sentTo i).length

theorem sentCount_le (s : WebServer) (i : Nat) :
    s.sentCount i ≤ s.processed.length + 1 ∧
      (s.broadcaster.lockFree = true → s.sentCount i = s.processed.length) := by
  unfold sentCount
  rw [List.length_append]
  cases hb : s.broadcaster with
  | sending msg idx toRemove =>
      simp only [Broadcaster.sentTo, Broadcaster.lockFree]
      split <;> simp
  | waiting | received _ => simp [Broadcaster.sentTo]
  | poisoned => simp [Broadcaster.sentTo]

/-- A pass that is on goes on, or has ended and its message is processed. -/
theorem Move.ended {s t : WebServer} (hmove : Move s t) (hlocked : s.broadcaster.lockFree = false) :
    t.broadcaster.lockFree = false ∨ s.processed.length < t.processed.length := by
  cases hmove with
  | recv _ hs => simp [hs, Broadcaster.lockFree] at hlocked
  | lock _ hs => simp [hs, Broadcaster.lockFree] at hlocked
  | deliver _ _ _ _ _ _ _ _ ht => simp [ht, Broadcaster.lockFree]
  | release _ _ _ _ _ _ _ hprocessed => simp [hprocessed]

theorem locked_or_processed {n m : Nat} (h : n ≤ m)
    (hlocked : (b.state n).broadcaster.lockFree = false) :
    (b.state m).broadcaster.lockFree = false ∨
      (b.state n).processed.length < (b.state m).processed.length := by
  induction h with
  | refl => exact Or.inl hlocked
  | @step m hnm ih =>
      have hmono := (prefix_of_le b (Nat.le_add_right m 1)).2.length_le
      rcases ih with hstill | hended
      · rcases b.step m with ⟨e, _, hstep⟩ | hsame
        · by_cases he : e.OfBroadcaster
          · have horderly := orderly_of_reachable (b.reachable m)
            have hbefore := (prefix_of_le b hnm).2.length_le
            rcases (move_of_step horderly he hstep).ended hstill with hlocked' | hlt
            · exact Or.inl hlocked'
            · exact Or.inr (Nat.lt_of_le_of_lt hbefore hlt)
          · left
            rw [(quiet_of_step he hstep).broadcaster]
            exact hstill
        · left
          rw [hsame]
          exact hstill
      · exact Or.inr (Nat.lt_of_lt_of_le hended hmono)

/-- When the lock is free again, everything that has been sent has been processed. -/
theorem sentCount_le_processed {n m : Nat} (h : n ≤ m)
    (hfree : (b.state m).broadcaster.lockFree = true) (i : Nat) :
    (b.state n).sentCount i ≤ (b.state m).processed.length := by
  rcases (b.state n).sentCount_le i with ⟨hle, heq⟩
  cases hlock : (b.state n).broadcaster.lockFree with
  | true =>
      rw [heq hlock]
      exact (prefix_of_le b h).2.length_le
  | false =>
      rcases locked_or_processed b h hlock with hlocked | hlt
      · rw [hfree] at hlocked
        cases hlocked
      · omega

end WebServer

/-! ## Connections -/

/-- A connection of the page: when it got on the list, and which client it was
when the page last read from it. -/
structure Connection where
  registered : Nat
  left : Nat
  place : Nat
  client : Client

/-- The page had this connection: its thread put it on the list, and it was
there, not marked for removal, when the page last read from it. -/
structure Connection.In {interface : String} {allowed : ServerEvent → Prop}
    (c : Connection) (b : (webSts interface allowed).Behavior) : Prop where
  register : ∃ i, (b.state c.registered).register i = some (b.state (c.registered + 1))
  joined : c.client.joined = (b.state c.registered).processed.length
  listed : (b.state c.left).clients[c.place]? = some c.client
  unmarked : c.place ∉ (b.state c.left).broadcaster.toRemove

/-- The messages of a connection, among all that are broadcast. -/
def Connection.stretch {interface : String} {allowed : ServerEvent → Prop}
    (b : (webSts interface allowed).Behavior) (c : Connection) : Stretch :=
  ⟨c.client.joined, (b.state c.left).sentCount c.place⟩

section

variable {interface : String} {allowed : ServerEvent → Prop}
  {b : (webSts interface allowed).Behavior} {c d : Connection}

theorem Connection.In.lockFree (h : c.In b) :
    (b.state c.registered).broadcaster.lockFree = true := by
  rcases h.register with ⟨i, hi⟩
  unfold WebServer.register at hi
  split at hi
  · assumption
  · cases hi

/-- What a connection has received is its stretch of the messages. -/
theorem Connection.In.received (h : c.In b)
    (hinforms : ∀ e, allowed e → e.InformsInFull interface) {n : Nat} (hn : c.left ≤ n) :
    c.client.Received interface ((c.stretch b).of (b.state n).broadcasted) := by
  have hinv := WebServer.inv_of_reachable hinforms (b.reachable c.left)
  have hreceived := hinv.sync c.place c.client h.listed h.unmarked
  have hjoined := hinv.joined c.client (List.mem_of_getElem? h.listed)
  have hprefix := ((b.state c.left).processed_sentTo_mono c.place).trans
    (WebServer.prefix_of_le b hn).1
  have hstretch : (c.stretch b).of (b.state n).broadcasted =
      (b.state c.left).processed.drop c.client.joined ++
        (b.state c.left).broadcaster.sentTo c.place := by
    rw [← List.drop_append_of_le_length hjoined, List.prefix_iff_eq_take.mp hprefix]
    rfl
  rw [hinv.interface_eq] at hreceived
  rw [hstretch]
  exact hreceived

/-- A later connection begins behind the messages of an earlier one. -/
theorem Connection.In.stop_le_start (hd : d.In b) (h : c.left ≤ d.registered) :
    (c.stretch b).stop ≤ (d.stretch b).start := by
  show (b.state c.left).sentCount c.place ≤ d.client.joined
  rw [hd.joined]
  exact WebServer.sentCount_le_processed b h hd.lockFree c.place

end

/-- A page that opens its connections one after the other gets no message twice
and none out of order, whatever it misses in between: what its connections
received, put together, is a part of what was broadcast, in the same order. -/
theorem reconnect_no_repeat {interface : String} {allowed : ServerEvent → Prop}
    (b : (webSts interface allowed).Behavior)
    (hinforms : ∀ e, allowed e → e.InformsInFull interface) (connections : List Connection)
    (hin : ∀ c ∈ connections, c.In b)
    (hordered : connections.Pairwise fun c d => c.left ≤ d.registered) (n : Nat)
    (hn : ∀ c ∈ connections, c.left ≤ n) :
    ∃ received : List (List String),
      List.Forall₂ (fun c msgs => c.client.Received interface msgs) connections received ∧
        received.flatten.Sublist (b.state n).broadcasted := by
  refine ⟨connections.map fun c => (c.stretch b).of (b.state n).broadcasted, ?_, ?_⟩
  · rw [List.forall₂_map_right_iff, List.forall₂_same]
    intro c hc
    exact (hin c hc).received hinforms (hn c hc)
  · have hstretches : (connections.map fun c => c.stretch b).Pairwise
        fun p q => p.stop ≤ q.start := by
      rw [List.pairwise_map]
      refine hordered.imp_of_mem ?_
      intro c d _ hd h
      exact (hin d hd).stop_le_start h
    have hsublist := Stretch.flatten_sublist (l := (b.state n).broadcasted) hstretches
    rwa [List.map_map] at hsublist

/-- The page reads its first connection in the middle of a pass, and is back before the
second message. -/
def reconnecting : List ServerEvent :=
  let full : Outcome := ⟨1000, true⟩
  [.respond "" full, .inform 0 full, .register 0, .broadcast "a", .recv, .lock, .deliver full,
    .release, .respond "" full, .inform 0 full, .register 0, .broadcast "b", .recv, .lock,
    .deliver ⟨1, true⟩, .deliver full]

/-- Its two connections. -/
def reconnections (first second : Client) : List Connection :=
  [⟨2, 7, 0, first⟩, ⟨10, 16, 1, second⟩]

/-- A connection can be read off a run. -/
theorem exists_connection_in {b : (webSts "lo" (ServerEvent.InformsInFull "lo")).Behavior}
    {run : Nat → Option WebServer} (hb : ∀ n, run n = some (b.state n))
    (registered left place : Nat)
    (hregister : (run registered).bind (fun s => s.register 0) = run (registered + 1))
    (hlisted : (run left).any (fun s => place ∉ s.broadcaster.toRemove ∧
      (s.clients[place]?).any fun c =>
        (run registered).any fun r => c.joined = r.processed.length) = true) :
    ∃ client, (Connection.mk registered left place client).In b := by
  rw [hb, hb, Option.bind_some] at hregister
  rw [hb, hb, Option.any_some, decide_eq_true_iff] at hlisted
  rcases hlisted with ⟨hunmarked, hlisted⟩
  rcases (Option.any_eq_true _ _).mp hlisted with ⟨client, hclient, hjoined⟩
  exact ⟨client, ⟨0, hregister⟩, of_decide_eq_true hjoined, hclient, hunmarked⟩

theorem reconnect_no_repeat_two :
    ∃ (b : (webSts "lo" (ServerEvent.InformsInFull "lo")).Behavior) (first second : Client)
      (received : List (List String)),
      List.Forall₂ (fun c msgs => c.client.Received "lo" msgs) (reconnections first second)
        received ∧ received.flatten.Sublist (b.state 16).broadcasted := by
  have hall : ∀ e ∈ reconnecting, e.InformsInFull "lo" := by decide +kernel
  let run := fun n => (reconnecting.take n).foldlM WebServer.step (WebServer.new "lo")
  have hrun : (run 16).isSome = true := by decide +kernel
  rcases Option.isSome_iff_exists.mp hrun with ⟨t, ht⟩
  have hevents : ∃ b : (webSts "lo" (ServerEvent.InformsInFull "lo")).Behavior,
      ∀ n, run n = some (b.state n) :=
    Sts.Behavior.exists_of_events (fun e he _ => hall e he) ht
  rcases hevents with ⟨b, hb⟩
  rcases exists_connection_in hb 2 7 0 (by decide +kernel) (by decide +kernel) with
    ⟨first, hfirst⟩
  rcases exists_connection_in hb 10 16 1 (by decide +kernel) (by decide +kernel) with
    ⟨second, hsecond⟩
  refine ⟨b, first, second, ?_⟩
  refine reconnect_no_repeat b (fun _ he => he) (reconnections first second) ?_ ?_ 16 ?_
  · simpa [reconnections] using ⟨hfirst, hsecond⟩
  · simp [reconnections]
  · simp [reconnections]

end NetZer

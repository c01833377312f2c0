import Mathlib.Data.Prod.Lex
import NetZer.Lib.Fairness
import NetZer.Web.Server

/-! # Progress of the broadcaster

The channel between the capture loop and the broadcaster has no bound and no
message in it is lost: what was broadcast is what has been processed, what the
broadcaster holds and what waits, in that order. And as long as the broadcaster
thread goes on taking steps, whatever the other threads do and whatever the
connections take, every message comes through to the end of its pass.
-/

namespace NetZer

open Rust

namespace Broadcaster

/-- The message that has left the channel and is not processed yet. -/
def held : Broadcaster → List String
  | .received msg | .sending msg _ _ => [msg]
  | .waiting | .poisoned => []

/-- The steps of the loop that are before the pass over the clients. -/
def stage : Broadcaster → Nat
  | .waiting => 2
  | .received _ => 1
  | .sending .. | .poisoned => 0

/-- The clients of a pass whose turn is still to come, out of `n`. -/
def turnsLeft (n : Nat) : Broadcaster → Nat
  | .sending _ idx _ => n - idx
  | .waiting | .received _ | .poisoned => 0

end Broadcaster

/-- What only the broadcaster thread does. -/
inductive ServerEvent.OfBroadcaster : ServerEvent → Prop where
  | recv : OfBroadcaster .recv
  | lock : OfBroadcaster .lock
  | deliver (o : Outcome) : OfBroadcaster (.deliver o)
  | release : OfBroadcaster .release

/-- What an event puts into the channel. -/
def ServerEvent.sent : ServerEvent → List String
  | .broadcast jsonMsg => [jsonMsg]
  | .respond .. | .inform .. | .register _ | .recv | .lock | .deliver _ | .release => []

theorem ServerEvent.OfBroadcaster.sent {e : ServerEvent} (h : e.OfBroadcaster) : e.sent = [] := by
  cases h with
  | recv | lock | deliver o | release => rfl

namespace WebServer

/-- Every message that has been broadcast, in order. -/
def broadcasted (s : WebServer) : List String :=
  s.processed ++ s.broadcaster.held ++ s.queue

/-- A step of the broadcaster thread, whatever comes of its write. -/
def BroadcasterAction (s t : WebServer) : Prop :=
  ∃ e : ServerEvent, e.OfBroadcaster ∧ s.step e = some t

/-- Message number `k` has been broadcast. -/
def Sent (k : Nat) (s : WebServer) : Prop :=
  k < s.broadcasted.length

/-- Its pass is over, and no other is on. -/
def Done (k : Nat) (s : WebServer) : Prop :=
  k < s.processed.length ∧ s.broadcaster.lockFree = true

/-- The rank towards the end of the pass of message number `k`. -/
def rank (k : Nat) (s : WebServer) : Nat ×ₗ Nat ×ₗ Nat :=
  toLex (k + 1 - s.processed.length,
    toLex (s.broadcaster.stage, s.broadcaster.turnsLeft s.clients.length))

variable {s t : WebServer} {interface : String} {allowed : ServerEvent → Prop}

/-! ## Steps of the broadcaster -/

/-- The release of an orderly pass: the removals do not panic. -/
theorem release_cases (h : s.broadcaster.Orderly s.clients.length) (hstep : s.release = some t) :
    ∃ msg idx toRemove, s.broadcaster = .sending msg idx toRemove ∧ s.clients.length ≤ idx ∧
      t =
        { s with
          clients := without s.clients toRemove
          broadcaster := .waiting
          processed := s.processed ++ [msg] } := by
  unfold WebServer.release at hstep
  split at hstep
  · rename_i msg idx toRemove hb
    rw [hb] at h
    rcases h with ⟨hserved, hsorted, hmarked⟩
    split at hstep
    · cases hstep
    · rename_i hall
      have hinRange : ∀ i ∈ toRemove, i < s.clients.length := by
        intro i hi
        exact Nat.lt_of_lt_of_le (hmarked i hi) hserved
      have hremove : (toRemove.reverse.foldlM remove s.clients : Eval Empty _) =
          .ok (without s.clients toRemove) := foldlM_remove hsorted hinRange
      simp only [hremove, Option.some.injEq] at hstep
      exact ⟨msg, idx, toRemove, hb, Nat.le_of_not_lt hall, hstep.symm⟩
  · cases hstep

/-- What the broadcaster thread can do next, as far as the messages and the
number of clients are concerned. -/
inductive Move (s t : WebServer) : Prop where
  | recv (msg : String) : s.broadcaster = .waiting → s.queue = msg :: t.queue →
      t.broadcaster = .received msg → t.clients = s.clients → t.processed = s.processed →
      Move s t
  | lock (msg : String) : s.broadcaster = .received msg → t.queue = s.queue →
      t.broadcaster = .sending msg 0 [] → t.clients = s.clients → t.processed = s.processed →
      Move s t
  | deliver (msg : String) (idx : Nat) (toRemove toRemove' : List Nat) :
      s.broadcaster = .sending msg idx toRemove → idx < s.clients.length →
      (toRemove' = toRemove ∨ toRemove' = toRemove ++ [idx]) → t.queue = s.queue →
      t.broadcaster = .sending msg (idx + 1) toRemove' → t.clients.length = s.clients.length →
      t.processed = s.processed → Move s t
  | release (msg : String) (idx : Nat) (toRemove : List Nat) :
      s.broadcaster = .sending msg idx toRemove → s.clients.length ≤ idx → t.queue = s.queue →
      t.broadcaster = .waiting → t.processed = s.processed ++ [msg] → Move s t

theorem move_of_step (h : s.broadcaster.Orderly s.clients.length) {e : ServerEvent}
    (he : e.OfBroadcaster) (hstep : s.step e = some t) : Move s t := by
  cases he with
  | recv =>
      have hrecv : s.recv = some t := hstep
      unfold WebServer.recv at hrecv
      split at hrecv
      · rename_i msg queue hb hqueue
        cases hrecv
        exact .recv msg hb hqueue rfl rfl rfl
      · cases hrecv
  | lock =>
      have hlock : s.lock = some t := hstep
      unfold WebServer.lock at hlock
      split at hlock
      · rename_i msg hb
        cases hlock
        exact .lock msg hb rfl rfl rfl rfl
      · cases hlock
  | deliver o =>
      rcases deliver_cases hstep with
        ⟨msg, idx, toRemove, client, stream, ok, hb, hclient, _, rfl⟩
      refine .deliver msg idx toRemove _ hb (List.getElem?_eq_some_iff.mp hclient).1 ?_ rfl rfl
        (List.length_set ..) rfl
      cases ok with
      | true => exact Or.inl rfl
      | false => exact Or.inr rfl
  | release =>
      rcases release_cases h hstep with ⟨msg, idx, toRemove, hb, hall, rfl⟩
      exact .release msg idx toRemove hb hall rfl rfl rfl

theorem action_of_isSome {e : ServerEvent} (he : e.OfBroadcaster)
    (h : (s.step e).isSome = true) : ∃ t, BroadcasterAction s t := by
  rcases Option.isSome_iff_exists.mp h with ⟨t, ht⟩
  exact ⟨t, e, he, ht⟩

/-- Unless there is nothing to do. -/
theorem exists_action (h : s.broadcaster.Orderly s.clients.length)
    (hleft : s.processed.length < s.broadcasted.length) :
    ∃ t, BroadcasterAction s t := by
  cases hb : s.broadcaster with
  | waiting =>
      cases hqueue : s.queue with
      | nil => simp [broadcasted, hb, hqueue, Broadcaster.held] at hleft
      | cons msg queue => exact action_of_isSome .recv (by simp [step, recv, hb, hqueue])
  | received msg => exact action_of_isSome .lock (by simp [step, lock, hb])
  | sending msg idx toRemove =>
      by_cases hidx : idx < s.clients.length
      · -- any outcome will do
        have hclient : s.clients[idx]? = some s.clients[idx] := List.getElem?_eq_getElem hidx
        exact action_of_isSome (.deliver ⟨0, true⟩) (by simp [step, deliver, hb, hclient])
      · rw [hb] at h
        rcases h with ⟨hserved, hsorted, hmarked⟩
        have hremove : (toRemove.reverse.foldlM remove s.clients : Eval Empty _) =
            .ok (without s.clients toRemove) :=
          foldlM_remove hsorted fun i hi => Nat.lt_of_lt_of_le (hmarked i hi) hserved
        exact action_of_isSome .release (by simp only [step, release, hb, if_neg hidx, hremove,
          Option.isSome_some])
  | poisoned =>
      rw [hb] at h
      exact absurd h id

/-! ## Steps of the other threads -/

/-- What the other threads can do, as far as the broadcaster is concerned: put
a message into the channel, and a client on the list if the lock is free. -/
structure Quiet (s : WebServer) (e : ServerEvent) (t : WebServer) : Prop where
  broadcaster : t.broadcaster = s.broadcaster
  processed : t.processed = s.processed
  queue : t.queue = s.queue ++ e.sent
  clients : s.clients <+: t.clients
  locked : s.broadcaster.lockFree = false → t.clients = s.clients

theorem quiet_of_step {e : ServerEvent} (he : ¬ e.OfBroadcaster) (hstep : s.step e = some t) :
    Quiet s e t := by
  have hsame : ∀ hs : List Handshake, e.sent = [] → Quiet s e { s with handshakes := hs } := by
    intro hs hnone
    exact ⟨rfl, rfl, by rw [hnone, List.append_nil], List.prefix_refl _, fun _ => rfl⟩
  cases e with
  | respond accept o =>
      obtain rfl : s.respond accept o = t := Option.some.inj hstep
      unfold WebServer.respond
      dsimp only
      split
      · exact hsame _ rfl
      · exact hsame s.handshakes rfl
  | inform i o =>
      rcases inform_cases hstep with ⟨accept, stream, _, rfl⟩
      exact hsame _ rfl
  | register i =>
      have hregister : s.register i = some t := hstep
      unfold WebServer.register at hregister
      split at hregister
      · rename_i accept stream _ hfree
        cases hregister
        refine ⟨rfl, rfl, (List.append_nil _).symm, List.prefix_append _ _, ?_⟩
        intro hlocked
        rw [hfree] at hlocked
        cases hlocked
      · cases hregister
  | broadcast jsonMsg =>
      obtain rfl : s.broadcast jsonMsg = t := Option.some.inj hstep
      exact ⟨rfl, rfl, rfl, List.prefix_refl _, fun _ => rfl⟩
  | recv => exact absurd .recv he
  | lock => exact absurd .lock he
  | deliver o => exact absurd (.deliver o) he
  | release => exact absurd .release he

/-! ## Invariants of every run -/

theorem Move.orderly (hmove : Move s t) (h : s.broadcaster.Orderly s.clients.length) :
    t.broadcaster.Orderly t.clients.length := by
  cases hmove with
  | recv msg _ _ hb => exact hb ▸ trivial
  | lock msg _ _ hb =>
      rw [hb]
      exact ⟨Nat.zero_le _, .nil, by simp⟩
  | deliver msg idx toRemove toRemove' hs hidx hmark _ hb hlen =>
      rw [hs] at h
      rw [hb, hlen]
      rcases h with ⟨_, hsorted, hmarked⟩
      have hlater : ∀ i ∈ toRemove, i < idx + 1 := by
        intro i hi
        exact Nat.lt_succ_of_lt (hmarked i hi)
      rcases hmark with rfl | rfl
      · exact ⟨hidx, hsorted, hlater⟩
      · refine ⟨hidx, List.pairwise_append.mpr ⟨hsorted, by simp, by simpa using hmarked⟩, ?_⟩
        intro i hi
        rcases List.mem_append.mp hi with hi | hi
        · exact hlater i hi
        · rw [List.mem_singleton.mp hi]
          exact Nat.lt_succ_self idx
  | release msg idx toRemove _ _ _ hb => exact hb ▸ trivial

/-- No pass panics, whatever is sent and however the connections fail. -/
theorem orderly_of_reachable (h : (webSts interface allowed).Reachable s) :
    s.broadcaster.Orderly s.clients.length := by
  refine h.invariant (fun s => s.broadcaster.Orderly s.clients.length) ?_ ?_
  · rintro s rfl
    trivial
  · rintro s t hs ⟨e, _, hstep⟩
    by_cases he : e.OfBroadcaster
    · exact (move_of_step hs he hstep).orderly hs
    · have hquiet := quiet_of_step he hstep
      rw [hquiet.broadcaster]
      exact hs.mono hquiet.clients.length_le

/-- The broadcaster takes the messages in order, and loses none. -/
theorem Move.broadcasted (hmove : Move s t) : t.broadcasted = s.broadcasted := by
  unfold WebServer.broadcasted
  cases hmove with
  | recv msg hs hqueue hb _ hprocessed =>
      simp [hs, hb, hqueue, hprocessed, Broadcaster.held]
  | lock msg hs hqueue hb _ hprocessed =>
      simp [hs, hb, hqueue, hprocessed, Broadcaster.held]
  | deliver msg idx _ _ hs _ _ hqueue hb _ hprocessed =>
      simp [hs, hb, hqueue, hprocessed, Broadcaster.held]
  | release msg idx toRemove hs _ hqueue hb hprocessed =>
      simp [hs, hb, hqueue, hprocessed, Broadcaster.held]

theorem Quiet.broadcasted {e : ServerEvent} (h : Quiet s e t) :
    t.broadcasted = s.broadcasted ++ e.sent := by
  unfold WebServer.broadcasted
  rw [h.processed, h.broadcaster, h.queue]
  simp only [List.append_assoc]

/-- The channel gets what is broadcast, and nothing leaves it but in order. -/
theorem broadcasted_step (h : s.broadcaster.Orderly s.clients.length) {e : ServerEvent}
    (hstep : s.step e = some t) : t.broadcasted = s.broadcasted ++ e.sent := by
  by_cases he : e.OfBroadcaster
  · rw [(move_of_step h he hstep).broadcasted, he.sent, List.append_nil]
  · exact (quiet_of_step he hstep).broadcasted

/-- What has been processed stays a prefix, and what has been broadcast too. -/
theorem step_extends (h : (webSts interface allowed).Reachable s)
    (hstep : (webSts interface allowed).next s t) :
    s.broadcasted <+: t.broadcasted ∧ s.processed <+: t.processed := by
  rcases hstep with ⟨e, _, hstep⟩
  have horderly := orderly_of_reachable h
  constructor
  · rw [broadcasted_step horderly hstep]
    exact List.prefix_append _ _
  by_cases he : e.OfBroadcaster
  · cases move_of_step horderly he hstep with
    | recv msg _ _ _ _ hprocessed => exact hprocessed ▸ List.prefix_refl _
    | lock msg _ _ _ _ hprocessed => exact hprocessed ▸ List.prefix_refl _
    | deliver msg _ _ _ _ _ _ _ _ _ hprocessed => exact hprocessed ▸ List.prefix_refl _
    | release msg _ _ _ _ _ _ hprocessed =>
        rw [hprocessed]
        exact List.prefix_append _ _
  · exact (quiet_of_step he hstep).processed ▸ List.prefix_refl _

/-- What has been processed, with the message of the pass for those who have it,
is the beginning of what has been broadcast. -/
theorem processed_sentTo_mono (server : WebServer) (i : Nat) :
    server.processed ++ server.broadcaster.sentTo i <+: server.broadcasted := by
  unfold WebServer.broadcasted
  rw [List.append_assoc]
  refine (List.prefix_append_right_inj _).mpr ?_
  cases hb : server.broadcaster with
  | sending msg idx toRemove =>
      simp only [Broadcaster.sentTo, Broadcaster.held]
      split
      · exact List.prefix_append _ _
      · exact List.nil_prefix
  | waiting | received _ | poisoned => exact List.nil_prefix

/-! ## The rank -/

/-- A message that has been broadcast and is not done yet is still to be processed. -/
theorem exists_action_of_not_done (h : s.broadcaster.Orderly s.clients.length) {k : Nat}
    (hsent : s.Sent k) (hdone : ¬ s.Done k) : ∃ t, BroadcasterAction s t := by
  refine exists_action h ?_
  by_cases hlt : k < s.processed.length
  · -- another pass is on, so its message is held
    have hlocked : s.broadcaster.lockFree ≠ true := fun hfree => hdone ⟨hlt, hfree⟩
    cases hb : s.broadcaster with
    | waiting => simp [hb, Broadcaster.lockFree] at hlocked
    | received msg => simp [hb, Broadcaster.lockFree] at hlocked
    | sending msg idx toRemove =>
        simp only [WebServer.broadcasted, hb, Broadcaster.held, List.length_append,
          List.length_singleton]
        omega
    | poisoned =>
        rw [hb] at h
        exact absurd h id
  · exact Nat.lt_of_le_of_lt (Nat.le_of_not_lt hlt) hsent

/-- Every step of the broadcaster brings a message closer to the end of its pass. -/
theorem Move.rank_lt (hmove : Move s t) (k : Nat) :
    t.Done k ∨ t.rank k < s.rank k := by
  unfold WebServer.rank
  simp only [Prod.Lex.toLex_lt_toLex]
  cases hmove with
  | recv msg hs _ hb hclients hprocessed =>
      right
      simp [hs, hb, hprocessed, Broadcaster.stage]
  | lock msg hs _ hb hclients hprocessed =>
      right
      simp [hs, hb, hprocessed, Broadcaster.stage]
  | deliver msg idx _ _ hs hidx _ _ hb hlen hprocessed =>
      right
      simp only [hs, hb, hlen, hprocessed, Broadcaster.stage, Broadcaster.turnsLeft]
      exact Or.inr ⟨trivial, Or.inr ⟨trivial, by omega⟩⟩
  | release msg idx _ hs _ _ hb hprocessed =>
      have hlen : t.processed.length = s.processed.length + 1 := by simp [hprocessed]
      by_cases hlt : k < s.processed.length + 1
      · left
        refine ⟨hlen ▸ hlt, ?_⟩
        rw [hb]
        rfl
      · right
        rw [hlen]
        omega

/-- The other threads do not hold it up. -/
theorem Quiet.rank_eq {e : ServerEvent} (h : Quiet s e t) (k : Nat) : t.rank k = s.rank k := by
  have hturns : s.broadcaster.turnsLeft t.clients.length =
      s.broadcaster.turnsLeft s.clients.length := by
    cases hb : s.broadcaster with
    | sending msg idx toRemove => rw [h.locked (by rw [hb]; rfl)]
    | waiting | received _ | poisoned => rfl
  unfold WebServer.rank
  rw [h.processed, h.broadcaster, hturns]

/-! ## Runs -/

variable (b : (webSts interface allowed).Behavior)

theorem prefix_of_le {n m : Nat} (h : n ≤ m) :
    (b.state n).broadcasted <+: (b.state m).broadcasted ∧
      (b.state n).processed <+: (b.state m).processed :=
  b.extends_of_step
    (r := fun s t => s.broadcasted <+: t.broadcasted ∧ s.processed <+: t.processed)
    (fun _ => ⟨List.prefix_refl _, List.prefix_refl _⟩)
    (fun _ _ _ h h' => ⟨h.1.trans h'.1, h.2.trans h'.2⟩) (fun _ _ => step_extends) h

/-- Every message is done sooner or later. -/
theorem sent_leadsTo_done (hfair : b.Fair BroadcasterAction) (k : Nat) :
    b.LeadsTo (Sent k) (Done k) := by
  have hwaiting : b.LeadsTo (fun s => s.Sent k ∧ ¬ s.Done k) (Done k) := by
    refine Sts.Behavior.leadsTo_of_rank (rank k) hfair ?_ ?_ ?_
    · intro s hs hp
      exact exists_action_of_not_done (orderly_of_reachable hs) hp.1 hp.2
    · intro s t hs hp hnext
      by_cases hdone : t.Done k
      · exact Or.inl hdone
      right
      have hsent : t.Sent k :=
        Nat.lt_of_lt_of_le hp.1 (step_extends hs hnext).1.length_le
      refine ⟨⟨hsent, hdone⟩, ?_⟩
      rcases hnext with ⟨e, _, hstep⟩
      by_cases he : e.OfBroadcaster
      · rcases (move_of_step (orderly_of_reachable hs) he hstep).rank_lt k with hq | hlt
        · exact absurd hq hdone
        · exact le_of_lt hlt
      · exact le_of_eq ((quiet_of_step he hstep).rank_eq k)
    · rintro s t hs hp ⟨e, he, hstep⟩
      exact (move_of_step (orderly_of_reachable hs) he hstep).rank_lt k
  intro n hsent
  by_cases hdone : (b.state n).Done k
  · exact ⟨n, Nat.le_refl n, hdone⟩
  · exact hwaiting n ⟨hsent, hdone⟩

/-- All that has been broadcast by now is processed, and the lock given back. -/
theorem broadcasted_done (hfair : b.Fair BroadcasterAction) (n : Nat) :
    ∃ m, n ≤ m ∧ (b.state n).broadcasted <+: (b.state m).processed ∧
      (b.state m).broadcaster.lockFree = true := by
  by_cases hsent : 0 < (b.state n).broadcasted.length
  · -- the last message so far
    have hlast : (b.state n).Sent ((b.state n).broadcasted.length - 1) :=
      Nat.sub_lt hsent Nat.one_pos
    rcases sent_leadsTo_done b hfair _ n hlast with ⟨m, hnm, hlt, hfree⟩
    have hprocessed : (b.state m).processed <+: (b.state m).broadcasted := by
      unfold WebServer.broadcasted
      rw [List.append_assoc]
      exact List.prefix_append _ _
    exact ⟨m, hnm, List.prefix_of_prefix_length_le (prefix_of_le b hnm).1 hprocessed (by omega),
      hfree⟩
  · have hnone : (b.state n).broadcasted = [] :=
      List.length_eq_zero_iff.mp (Nat.eq_zero_of_not_pos hsent)
    refine ⟨n, Nat.le_refl n, hnone ▸ List.nil_prefix, ?_⟩
    have horderly := orderly_of_reachable (b.reachable n)
    unfold WebServer.broadcasted at hnone
    cases hb : (b.state n).broadcaster with
    | waiting => rfl
    | received msg => rfl
    | sending msg idx toRemove => simp [hb, Broadcaster.held] at hnone
    | poisoned =>
        rw [hb] at horderly
        exact absurd horderly id

theorem inv_of_reachable (hinforms : ∀ e, allowed e → e.InformsInFull interface)
    (h : (webSts interface allowed).Reachable s) : s.Inv interface := by
  refine h.invariant (WebServer.Inv interface) ?_ ?_
  · rintro s rfl
    exact inv_new
  · rintro s t hs ⟨e, he, hstep⟩
    exact hs.step (hinforms e he) hstep

/-- With the lock free, every client on the list has what it is due. -/
theorem Inv.received (h : s.Inv interface) (hfree : s.broadcaster.lockFree = true) :
    ∀ c ∈ s.clients, c.Received interface (s.processed.drop c.joined) := by
  intro c hc
  have hreceived := h.sync.listed hfree c hc
  rwa [h.interface_eq] at hreceived

end WebServer

/-- As long as the broadcaster thread goes on taking steps, whatever the other
threads do and whichever writes fail: every message that has been broadcast is
processed, after all that came before it, with the lock given back after its
pass; and if no system info has been cut short, every client that is then on the
list has received it, unless it joined later. -/
theorem web_live {interface : String} {allowed : ServerEvent → Prop}
    (b : (webSts interface allowed).Behavior) (hfair : b.Fair WebServer.BroadcasterAction)
    (n : Nat) :
    ∃ m, n ≤ m ∧ (b.state n).broadcasted <+: (b.state m).processed ∧
      (b.state m).broadcaster.lockFree = true ∧
      ((∀ e, allowed e → e.InformsInFull interface) → ∀ c ∈ (b.state m).clients,
        c.Received interface ((b.state m).processed.drop c.joined)) := by
  rcases WebServer.broadcasted_done b hfair n with ⟨m, hnm, hprocessed, hfree⟩
  refine ⟨m, hnm, hprocessed, hfree, fun hinforms => ?_⟩
  exact (WebServer.inv_of_reachable hinforms (b.reachable m)).received hfree

namespace WebServer

variable {s : WebServer}

/-- A write that takes the whole frame of the current pass. -/
def fullWrite (s : WebServer) : Outcome :=
  match s.broadcaster with
  | .sending msg _ _ => ⟨(encodeWsTextFrame msg).length, true⟩
  | .waiting | .received _ | .poisoned => ⟨0, true⟩

/-- The broadcaster's next step, with writes that go through. -/
def proceed (s : WebServer) : WebServer :=
  (s.recv <|> s.lock <|> s.deliver s.fullWrite <|> s.release).getD s

theorem proceed_eq (s : WebServer) :
    (∃ e : ServerEvent, e.OfBroadcaster ∧ s.step e = some s.proceed) ∨
      s.proceed = s ∧ ∀ t, ¬ BroadcasterAction s t := by
  unfold proceed
  cases hrecv : s.recv with
  | some t => exact Or.inl ⟨.recv, .recv, hrecv⟩
  | none =>
  cases hlock : s.lock with
  | some t => exact Or.inl ⟨.lock, .lock, hlock⟩
  | none =>
  cases hdeliver : s.deliver s.fullWrite with
  | some t => exact Or.inl ⟨.deliver _, .deliver _, hdeliver⟩
  | none =>
  cases hrelease : s.release with
  | some t => exact Or.inl ⟨.release, .release, hrelease⟩
  | none =>
      right
      refine ⟨rfl, ?_⟩
      rintro t ⟨e, he, hstep⟩
      cases he with
      | recv => exact absurd (hrecv.symm.trans hstep) (by simp)
      | lock => exact absurd (hlock.symm.trans hstep) (by simp)
      | release => exact absurd (hrelease.symm.trans hstep) (by simp)
      | deliver o =>
          -- whether there is a client to serve does not depend on the outcome
          rcases deliver_cases hstep with ⟨msg, idx, toRemove, client, _, _, hb, hclient, _⟩
          simp [deliver, hb, hclient] at hdeliver

theorem proceed_takes (h : Sts.Enabled BroadcasterAction s) : BroadcasterAction s s.proceed := by
  rcases h with ⟨t, ht⟩
  rcases s.proceed_eq with hstep | ⟨_, hnone⟩
  · exact hstep
  · exact absurd ht (hnone t)

/-- As the writes go through, every client stays on the list. -/
theorem proceed_clients (h : s.broadcaster.toRemove = []) :
    s.proceed.broadcaster.toRemove = [] ∧
      s.proceed.clients.map (fun c => (c.accept, c.joined)) =
        s.clients.map fun c => (c.accept, c.joined) := by
  cases hb : s.broadcaster with
  | waiting =>
      cases hqueue : s.queue with
      | nil => simp [proceed, recv, lock, deliver, release, hb, hqueue, Broadcaster.toRemove]
      | cons msg queue => simp [proceed, recv, hb, hqueue, Broadcaster.toRemove]
  | received msg => simp [proceed, recv, lock, hb, Broadcaster.toRemove]
  | poisoned => simp [proceed, recv, lock, deliver, release, hb, Broadcaster.toRemove]
  | sending msg idx toRemove =>
      rw [hb] at h
      have hnone : toRemove = [] := h
      subst hnone
      rcases Nat.lt_or_ge idx s.clients.length with hlt | hge
      · have hclient : s.clients[idx]? = some s.clients[idx] := List.getElem?_eq_getElem hlt
        have hwrite := writeFlush_all s.clients[idx].stream (encodeWsTextFrame msg)
        have hproceed : s.proceed =
            { s with
              clients := s.clients.set idx
                { s.clients[idx] with stream := s.clients[idx].stream ++ encodeWsTextFrame msg }
              broadcaster := .sending msg (idx + 1) [] } := by
          simp [proceed, recv, lock, deliver, fullWrite, hb, hclient, hwrite]
        rw [hproceed]
        refine ⟨rfl, List.ext_getElem (by simp) ?_⟩
        intro i _ _
        rw [List.getElem_map, List.getElem_map, List.getElem_set]
        split_ifs with hi
        · simp [hi]
        · rfl
      · have hclient : s.clients[idx]? = none := List.getElem?_eq_none hge
        have hrelease : s.release = some
            { s with broadcaster := .waiting, processed := s.processed ++ [msg] } := by
          simp only [release, hb, if_neg (Nat.not_lt.mpr hge)]
          rfl
        simp [proceed, recv, lock, deliver, hb, hclient, hrelease, Broadcaster.toRemove]

end WebServer

/-- One client, and a message that is still in the channel. -/
def oneWaiting : List ServerEvent :=
  let full : Outcome := ⟨1000, true⟩
  [.respond sampleAccept full, .inform 0 full, .register 0, .broadcast "a"]

theorem web_live_one :
    ∃ (b : (webSts "lo" (ServerEvent.InformsInFull "lo")).Behavior) (m : Nat),
      ["a"] <+: (b.state m).processed ∧
      ∀ c ∈ (b.state m).clients, c.Received "lo" ((b.state m).processed.drop c.joined) := by
  have hall : ∀ e ∈ oneWaiting, e.InformsInFull "lo" := by decide +kernel
  have hrun : (oneWaiting.foldlM WebServer.step (WebServer.new "lo")).any (fun s =>
      s.broadcasted = ["a"]) = true := by
    decide +kernel
  rcases (Option.any_eq_true _ _).mp hrun with ⟨s, hs, hend⟩
  have hreach : (webSts "lo" (ServerEvent.InformsInFull "lo")).Reachable s :=
    Sts.Reachable.events (fun e he _ => hall e he) (.init rfl) hs
  have hnext : ∀ s : WebServer, (webSts "lo" (ServerEvent.InformsInFull "lo")).next s s.proceed ∨
      s.proceed = s := by
    intro s
    rcases s.proceed_eq with ⟨e, he, hstep⟩ | ⟨hrest, _⟩
    · have hfull : e.InformsInFull "lo" := by
        cases he with
        | recv | lock | deliver o | release => trivial
      exact Or.inl ⟨e, hfull, hstep⟩
    · exact Or.inr hrest
  rcases Sts.Behavior.exists_fair_through hreach (fun _ => ()) (fun _ n => ⟨n, Nat.le_refl n, rfl⟩)
    (fun _ => WebServer.BroadcasterAction) (fun _ => WebServer.proceed) (fun _ => hnext)
    (fun _ _ => WebServer.proceed_takes) with ⟨b, k, hfair, hb⟩
  rcases web_live b (hfair ()) k with ⟨m, _, hprocessed, _, hreceived⟩
  have hstart : b.state k = s := hb 0
  rw [hstart, of_decide_eq_true hend] at hprocessed
  exact ⟨b, m, hprocessed, hreceived fun _ he => he⟩

end NetZer

import NetZer.Web.Server

/-! # One broadcast

A pass of the broadcaster over the clients, from taking the lock to giving it
back, with whatever the other threads do in between. The positions of the
failed clients are collected on the way and removed behind it, the last one
first: the list shrinks behind the positions that are still to be removed.
-/

namespace NetZer

open Rust

/-- A client after the attempt to write a message to it. -/
def offered (msg : String) (e : Client × Outcome) : Client :=
  { e.1 with stream := (writeFlush e.1.stream (encodeWsTextFrame msg) e.2).1 }

/-- The write or the flush failed. -/
def failed (msg : String) (e : Client × Outcome) : Bool :=
  !(writeFlush e.1.stream (encodeWsTextFrame msg) e.2).2

/-- What came of the broadcaster's attempts. -/
def outcomes (es : List ServerEvent) : List Outcome :=
  es.filterMap fun
    | .deliver o => some o
    | _ => none

namespace WebServer

/-- The position an event writes a message to. -/
def attempt (s : WebServer) : ServerEvent → List Nat
  | .deliver _ =>
      match s.broadcaster with
      | .sending _ idx _ => [idx]
      | _ => []
  | _ => []

/-- The positions that are written to in a run. -/
def attempts (s : WebServer) : List ServerEvent → List Nat
  | [] => []
  | e :: es =>
      match s.step e with
      | some t => s.attempt e ++ t.attempts es
      | none => []

/-- A pass from `s`: the events up to `t`, and the release after them. -/
structure Pass (s : WebServer) (es : List ServerEvent) (t u : WebServer) : Prop where
  run : es.foldlM WebServer.step s = some t
  inside : .release ∉ es
  released : t.release = some u

/-- In a pass from `s`, after these attempts: the first clients have been
written to, and the positions of those that failed are marked. -/
structure InPass (s : WebServer) (msg : String) (os : List Outcome) (t : WebServer) : Prop where
  length_le : os.length ≤ s.clients.length
  clients : t.clients = (s.clients.zip os).map (offered msg) ++ s.clients.drop os.length
  broadcaster : t.broadcaster =
    .sending msg os.length ((s.clients.zip os).findIdxs (failed msg))

variable {s t u : WebServer} {msg : String} {os : List Outcome} {o : Outcome}

/-! ## One attempt -/

theorem zip_concat {cs : List Client} (h : os.length < cs.length) (o : Outcome) :
    cs.zip (os ++ [o]) = cs.zip os ++ [(cs[os.length], o)] := by
  induction os generalizing cs with
  | nil =>
      obtain ⟨c, cs, rfl⟩ := List.exists_cons_of_length_pos h
      simp
  | cons o' os ih =>
      cases cs with
      | nil => exact absurd h (Nat.not_lt_zero _)
      | cons c cs =>
          rw [List.cons_append, List.zip_cons_cons, ih (Nat.lt_of_succ_lt_succ h)]
          rfl

/-- The attempt on the next client. -/
theorem deliver_eq {idx : Nat} {toRemove : List Nat} {client : Client}
    (hb : s.broadcaster = .sending msg idx toRemove) (hclient : s.clients[idx]? = some client)
    (o : Outcome) :
    s.deliver o = some
      { s with
        clients := s.clients.set idx (offered msg (client, o))
        broadcaster := .sending msg (idx + 1)
          (toRemove ++ if failed msg (client, o) then [idx] else []) } := by
  have hmark : ∀ ok : Bool, (if ok then toRemove else toRemove ++ [idx]) =
      toRemove ++ if !ok then [idx] else [] := by
    intro ok
    cases ok <;> simp
  simp only [WebServer.deliver, hb, hclient, hmark]
  rfl

/-- Nobody has been written to yet. -/
theorem InPass.start (hs : s.broadcaster = .sending msg 0 []) : InPass s msg [] s where
  length_le := Nat.zero_le _
  clients := by simp
  broadcaster := by simpa using hs

/-- No other event writes a message. -/
theorem outcomes_cons_of_ne (s : WebServer) {e : ServerEvent} (h : ∀ o, e ≠ .deliver o)
    (es : List ServerEvent) : outcomes (e :: es) = outcomes es ∧ s.attempt e = [] := by
  cases e with
  | deliver o => exact absurd rfl (h o)
  | respond _ _ | inform _ _ | register _ | broadcast _ | recv | lock | release =>
      exact ⟨rfl, rfl⟩

namespace InPass

theorem length_clients (h : InPass s msg os t) : t.clients.length = s.clients.length := by
  have hle := h.length_le
  rw [h.clients, List.length_append, List.length_map, List.length_zip, List.length_drop]
  omega

/-- The client whose turn it is has not been written to. -/
theorem next_client (h : InPass s msg os t) (hlt : os.length < s.clients.length) :
    t.clients[os.length]? = some s.clients[os.length] := by
  have hfront : ((s.clients.zip os).map (offered msg)).length = os.length := by
    rw [List.length_map, List.length_zip, Nat.min_eq_right h.length_le]
  rw [h.clients, List.getElem?_append_right (Nat.le_of_eq hfront), hfront, Nat.sub_self,
    List.drop_eq_getElem_cons hlt]
  rfl

/-- Any outcome is possible for it. -/
theorem deliver (h : InPass s msg os t) (hlt : os.length < s.clients.length) (o : Outcome) :
    ∃ u, t.deliver o = some u ∧ InPass s msg (os ++ [o]) u := by
  refine ⟨_, deliver_eq h.broadcaster (h.next_client hlt) o, ?_⟩
  have hfront : ((s.clients.zip os).map (offered msg)).length = os.length := by
    rw [List.length_map, List.length_zip, Nat.min_eq_right h.length_le]
  have hserved : (s.clients.zip os).length = os.length := by
    rwa [List.length_map] at hfront
  constructor
  · rw [List.length_append]
    exact hlt
  · show t.clients.set os.length _ = _
    rw [h.clients, List.set_append_right _ _ (Nat.le_of_eq hfront), hfront, Nat.sub_self,
      List.drop_eq_getElem_cons hlt, zip_concat hlt, List.map_append, List.append_assoc,
      List.length_append]
    rfl
  · show Broadcaster.sending _ _ _ = _
    rw [zip_concat hlt, List.findIdxs_append, hserved, List.findIdxs_singleton, Nat.zero_add,
      List.length_append]
    rfl

/-- With all clients served there is no further attempt. -/
theorem lt_of_deliver (h : InPass s msg os t) (hstep : t.deliver o = some u) :
    os.length < s.clients.length := by
  obtain ⟨msg', idx, toRemove, client, -, -, hb, hclient, -⟩ := deliver_cases hstep
  rw [h.broadcaster] at hb
  cases hb
  rw [← h.length_clients]
  exact (List.getElem?_eq_some_iff.mp hclient).1

/-! ## The whole pass -/

/-- What the other threads do leaves the pass alone; they do not get the lock. -/
theorem step (h : InPass s msg os t) {e : ServerEvent} (hdeliver : ∀ o, e ≠ .deliver o)
    (hrelease : e ≠ .release) (hstep : t.step e = some u) : InPass s msg os u := by
  have hb := h.broadcaster
  cases e with
  | respond accept o =>
      obtain rfl : t.respond accept o = u := Option.some.inj hstep
      unfold WebServer.respond
      dsimp only
      split
      · exact { h with }
      · exact h
  | inform i o =>
      obtain ⟨accept, stream, -, rfl⟩ := inform_cases hstep
      exact { h with }
  -- the lock is taken, so nobody gets on the list
  | register i =>
      have hlocked : t.broadcaster.lockFree = false := by
        rw [hb]
        rfl
      simp [WebServer.step, WebServer.register, hlocked] at hstep
  | broadcast jsonMsg =>
      obtain rfl : t.broadcast jsonMsg = u := Option.some.inj hstep
      exact { h with }
  | recv => simp [WebServer.step, WebServer.recv, hb] at hstep
  | lock => simp [WebServer.step, WebServer.lock, hb] at hstep
  | deliver o => exact absurd rfl (hdeliver o)
  | release => exact absurd rfl hrelease

/-- The attempts of a run go through the clients in order. -/
theorem run {es : List ServerEvent} (h : InPass s msg os t) (hinside : .release ∉ es)
    (hrun : es.foldlM WebServer.step t = some u) :
    InPass s msg (os ++ outcomes es) u ∧
      t.attempts es = List.range' os.length (outcomes es).length := by
  induction es generalizing t os with
  | nil =>
      cases hrun
      rw [outcomes, List.filterMap_nil, List.append_nil]
      exact ⟨h, rfl⟩
  | cons e es ih =>
      rw [List.mem_cons, not_or] at hinside
      rw [List.foldlM_cons] at hrun
      obtain ⟨t', hstep, hrest⟩ := Option.bind_eq_some_iff.mp hrun
      have hattempts : t.attempts (e :: es) = t.attempt e ++ t'.attempts es := by
        rw [attempts, hstep]
      -- an attempt is on the next client; any other event leaves the pass where it is
      by_cases hdeliver : ∃ o, e = .deliver o
      · obtain ⟨o, rfl⟩ := hdeliver
        obtain ⟨t'', ht'', hnext⟩ := h.deliver (h.lt_of_deliver hstep) o
        obtain rfl : t'' = t' := Option.some.inj (ht''.symm.trans hstep)
        obtain ⟨hend, hpositions⟩ := ih hnext hinside.2 hrest
        have houtcomes : outcomes (.deliver o :: es) = o :: outcomes es := rfl
        have hone : t.attempt (.deliver o) = [os.length] := by
          rw [attempt, h.broadcaster]
        constructor
        · rwa [List.append_assoc, List.singleton_append] at hend
        · rw [List.length_append, List.length_singleton] at hpositions
          rw [hattempts, hone, hpositions, houtcomes, List.length_cons, List.range'_succ]
          rfl
      · have hother : ∀ o, e ≠ .deliver o := fun o he => hdeliver ⟨o, he⟩
        have hnext : InPass s msg os t' := h.step hother (Ne.symm hinside.1) hstep
        obtain ⟨houtcomes, hnone⟩ := t.outcomes_cons_of_ne hother es
        rw [hattempts, houtcomes, hnone, List.nil_append]
        exact ih hnext hinside.2 hrest

/-- Any outcomes are possible, one after the other. -/
theorem deliver_all (h : InPass s msg os t) {os' : List Outcome}
    (hlen : os.length + os'.length ≤ s.clients.length) :
    ∃ u, (os'.map ServerEvent.deliver).foldlM WebServer.step t = some u ∧
      InPass s msg (os ++ os') u := by
  induction os' generalizing t os with
  | nil =>
      rw [List.append_nil]
      exact ⟨t, rfl, h⟩
  | cons o os' ih =>
      rw [List.length_cons] at hlen
      obtain ⟨t', ht', hnext⟩ := h.deliver (by omega) o
      have hrest : (os ++ [o]).length + os'.length ≤ s.clients.length := by
        rw [List.length_append, List.length_singleton]
        omega
      obtain ⟨u, hu, hend⟩ := ih hnext hrest
      refine ⟨u, ?_, by simpa using hend⟩
      have hstep : t.step (.deliver o) = some t' := ht'
      rw [List.map_cons, List.foldlM_cons, hstep]
      exact hu

/-! ## Behind the loop -/

/-- The marked positions are those of the failed clients, in order. -/
theorem toRemove_eq (h : InPass s msg os t) :
    t.broadcaster.toRemove = (s.clients.zip os).findIdxs (failed msg) := by
  rw [h.broadcaster]
  rfl

/-- No removal is out of range, and who is left has got the message. -/
theorem foldlM_remove_toRemove (h : InPass s msg os t) (hall : os.length = s.clients.length) :
    (t.broadcaster.toRemove.reverse.foldlM remove t.clients : Eval Empty (List Client)) =
      .ok (((s.clients.zip os).filter fun e => !failed msg e).map (offered msg)) := by
  have hclients : t.clients = (s.clients.zip os).map (offered msg) := by
    rw [h.clients, hall, List.drop_length, List.append_nil]
  have hinRange : ∀ i ∈ (s.clients.zip os).findIdxs (failed msg),
      i < ((s.clients.zip os).map (offered msg)).length := by
    intro i hi
    rw [List.length_map]
    exact List.lt_add_of_mem_findIdxs i hi
  rw [h.toRemove_eq, hclients, foldlM_remove List.pairwise_findIdxs hinRange, without_map,
    without_findIdxs]

/-- At each removal the position still names the client that failed. -/
theorem removal (h : InPass s msg os t) (hall : os.length = s.clients.length)
    {before after : List Nat} {i : Nat}
    (hi : t.broadcaster.toRemove.reverse = before ++ i :: after) :
    ∃ cs, (before.foldlM remove t.clients : Eval Empty (List Client)) = .ok cs ∧
      i < cs.length ∧ cs[i]? = t.clients[i]? ∧
      ∃ e, (s.clients.zip os)[i]? = some e ∧ failed msg e = true := by
  have hremove := h.foldlM_remove_toRemove hall
  rw [hi, List.foldlM_append, bind_eq_ok] at hremove
  obtain ⟨cs, hbefore, hrest⟩ := hremove
  rw [List.foldlM_cons, bind_eq_ok] at hrest
  obtain ⟨ds, hone, -⟩ := hrest
  have hlt : i < cs.length := by
    by_contra hge
    rw [remove, if_neg hge] at hone
    cases hone
  -- what has been removed was behind, so this position has not moved
  have hsorted : t.broadcaster.toRemove.reverse.Pairwise (· > ·) := by
    rw [List.pairwise_reverse, h.toRemove_eq]
    exact List.pairwise_findIdxs
  have hbehind : ∀ j ∈ before, i < j := by
    rw [hi, List.pairwise_append] at hsorted
    intro j hj
    exact hsorted.2.2 j hj i List.mem_cons_self
  have hmarked : i ∈ (s.clients.zip os).findIdxs (failed msg) := by
    rw [← h.toRemove_eq, ← List.mem_reverse, hi]
    exact List.mem_append_right _ List.mem_cons_self
  obtain ⟨hin, hfailed⟩ := List.mem_findIdxs_iff_exists_getElem_pos.mp hmarked
  exact ⟨cs, hbefore, hlt, getElem?_of_foldlM_remove hbehind hbefore, _,
    List.getElem?_eq_getElem hin, hfailed⟩

/-- The lock is given back after the last client only. -/
theorem length_of_release (h : InPass s msg os t) (hstep : t.release = some u) :
    os.length = s.clients.length := by
  have hle := h.length_le
  by_contra hne
  have hlt : os.length < t.clients.length := by
    rw [h.length_clients]
    omega
  simp only [WebServer.release, h.broadcaster, if_pos hlt] at hstep
  cases hstep

theorem release_eq (h : InPass s msg os t) (hall : os.length = s.clients.length) :
    t.release = some
      { t with
        clients := ((s.clients.zip os).filter fun e => !failed msg e).map (offered msg)
        broadcaster := .waiting
        processed := t.processed ++ [msg] } := by
  have hend : ¬ os.length < t.clients.length := by
    rw [h.length_clients, hall]
    exact Nat.lt_irrefl _
  have hremove := h.foldlM_remove_toRemove hall
  rw [h.toRemove_eq] at hremove
  simp only [WebServer.release, h.broadcaster, if_neg hend, hremove]

end InPass

/-- What holds of a pass from `s` up to its end in `u`, with the lock given back in
`t`: each client was written to once, and those that failed are removed. -/
structure Served (s : WebServer) (msg : String) (es : List ServerEvent) (t u : WebServer) :
    Prop where
  attempts : s.attempts es = List.range s.clients.length
  length_outcomes : (outcomes es).length = s.clients.length
  tried : t.clients = (s.clients.zip (outcomes es)).map (offered msg)
  /-- A removal is in range, and takes away a client that failed. -/
  removal : ∀ before i after, t.broadcaster.toRemove.reverse = before ++ i :: after →
    ∃ cs, (before.foldlM remove t.clients : Eval Empty (List Client)) = .ok cs ∧
      i < cs.length ∧ cs[i]? = t.clients[i]? ∧
      ∃ e, (s.clients.zip (outcomes es))[i]? = some e ∧ failed msg e = true
  removed : (t.broadcaster.toRemove.reverse.foldlM remove t.clients : Eval Empty (List Client)) =
    .ok u.clients
  clients : u.clients = ((s.clients.zip (outcomes es)).filter fun e => !failed msg e).map
    (offered msg)
  broadcaster : u.broadcaster = .waiting

end WebServer

/-- From the lock on, whatever the other threads do and whichever writes and flushes
fail: the rest of the clients can be written to, and a pass that comes to its end
has written to each client once and removed those that failed. -/
theorem broadcast_pass {s : WebServer} {msg : String}
    (hs : s.broadcaster = .sending msg 0 []) :
    (∀ es t, es.foldlM WebServer.step s = some t → .release ∉ es →
      ∀ os : List Outcome, (outcomes es).length + os.length = s.clients.length →
        ∃ t' u, s.Pass (es ++ os.map .deliver) t' u) ∧
    ∀ es t u, s.Pass es t u → s.Served msg es t u := by
  have hstart := WebServer.InPass.start hs
  constructor
  · intro es t hrun hinside os hlen
    obtain ⟨hpass, -⟩ := hstart.run hinside hrun
    rw [List.nil_append] at hpass
    obtain ⟨t', ht', hend⟩ := hpass.deliver_all (Nat.le_of_eq hlen)
    have hall : (outcomes es ++ os).length = s.clients.length := by
      rw [List.length_append, hlen]
    refine ⟨t', _, ?_, ?_, hend.release_eq hall⟩
    · rw [List.foldlM_append, hrun]
      exact ht'
    · rw [List.mem_append, not_or]
      exact ⟨hinside, by simp⟩
  · intro es t u hpass
    -- the release decides that everyone was served
    obtain ⟨hend, hpositions⟩ := hstart.run hpass.inside hpass.run
    rw [List.nil_append] at hend
    have hall := hend.length_of_release hpass.released
    have hu := (hend.release_eq hall).symm.trans hpass.released
    obtain rfl := Option.some.inj hu
    exact
      { attempts := by
          rw [hpositions, hall, List.range_eq_range']
          rfl
        length_outcomes := hall
        tried := by rw [hend.clients, hall, List.drop_length, List.append_nil]
        removal := fun before i after hi => hend.removal hall hi
        removed := hend.foldlM_remove_toRemove hall
        clients := rfl
        broadcaster := rfl }

/-- The broadcaster has just taken the lock, and there are three clients. -/
def threeListed : WebServer :=
  { WebServer.new "lo" with
    clients := [⟨"a", [], 0⟩, ⟨"b", [], 0⟩, ⟨"c", [], 0⟩]
    broadcaster := .sending "m" 0 [] }

/-- The first takes a part of the frame, the last does not flush; a message comes in
between. -/
theorem broadcast_pass_three :
    ∃ t u, threeListed.Pass [.deliver ⟨1, true⟩, .broadcast "n", .deliver ⟨9, true⟩,
        .deliver ⟨9, false⟩] t u ∧
      u.clients = [⟨"b", encodeWsTextFrame "m", 0⟩] := by
  have hpass := broadcast_pass (s := threeListed) rfl
  have hrun : ([.deliver ⟨1, true⟩, .broadcast "n"] : List ServerEvent).foldlM WebServer.step
      threeListed ≠ none := by
    decide +kernel
  obtain ⟨t, ht⟩ := Option.ne_none_iff_exists'.mp hrun
  obtain ⟨t', u, hend⟩ := hpass.1 _ t ht (by decide) [⟨9, true⟩, ⟨9, false⟩] rfl
  refine ⟨t', u, hend, ?_⟩
  rw [(hpass.2 _ t' u hend).clients]
  decide +kernel

end NetZer

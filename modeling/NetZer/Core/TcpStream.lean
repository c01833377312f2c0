import Mathlib.Logic.Function.Basic
import NetZer.Lib.Sts

/-! # TCP stream tracker

`tcp_stream.rs`: payloads are appended to a buffer per connection, and a
buffer is flushed when it is long enough or shows an HTTP message with a line
end. The streams of the tracker are a partial map from keys, as the source
only ever looks up, inserts and clears.

The tracker is a ledger for every key: what was fed under the key is what was
flushed under it and what is still buffered, in that order. The calls of other
keys leave no trace in its results.
-/

namespace NetZer

/-- The bytes of an ASCII literal `b"…"`. -/
def asciiBytes (s : String) : List UInt8 :=
  s.toList.map fun c => UInt8.ofNat c.toNat

structure StreamKey where
  clientIp : String
  clientPort : UInt16
  serverIp : String
  serverPort : UInt16
deriving DecidableEq, Repr

/-- Both directions of a connection get one key: the smaller endpoint, in the
order of pairs of address text and port, comes first. -/
def StreamKey.new (srcIp : String) (srcPort : UInt16) (dstIp : String) (dstPort : UInt16) :
    StreamKey :=
  if srcIp < dstIp ∨ srcIp = dstIp ∧ srcPort < dstPort then
    { clientIp := srcIp, clientPort := srcPort, serverIp := dstIp, serverPort := dstPort }
  else
    { clientIp := dstIp, clientPort := dstPort, serverIp := srcIp, serverPort := srcPort }

/-- The accumulated payload of one connection. -/
structure TcpStream where
  key : StreamKey
  data : List UInt8
  packetCount : Nat
deriving DecidableEq, Repr

def TcpStream.new (key : StreamKey) : TcpStream :=
  { key := key, data := [], packetCount := 0 }

structure TcpStreamTracker where
  streams : StreamKey → Option TcpStream
  flushThreshold : Nat

/-- A call of `feed`. -/
structure FeedCall where
  srcIp : String
  srcPort : UInt16
  dstIp : String
  dstPort : UInt16
  payload : List UInt8
deriving DecidableEq, Repr

/-- The key a call is filed under. -/
def FeedCall.key (c : FeedCall) : StreamKey :=
  .new c.srcIp c.srcPort c.dstIp c.dstPort

/-- The buffer starts with one of the five recognised tokens. -/
def isHttpRequest (data : List UInt8) : Bool :=
  (asciiBytes "GET ").isPrefixOf data || (asciiBytes "POST ").isPrefixOf data ||
    (asciiBytes "PUT ").isPrefixOf data || (asciiBytes "DELETE ").isPrefixOf data ||
    (asciiBytes "HTTP/").isPrefixOf data

namespace TcpStreamTracker

def new : TcpStreamTracker :=
  { streams := fun _ => none, flushThreshold := 4096 }

/-- The stream of a key, created empty when there is none (`entry(..).or_insert_with(..)`). -/
def stream (self : TcpStreamTracker) (key : StreamKey) : TcpStream :=
  (self.streams key).getD (.new key)

/-- Write a stream back under its key. -/
def insert (self : TcpStreamTracker) (key : StreamKey) (s : TcpStream) : TcpStreamTracker :=
  { self with streams := Function.update self.streams key (some s) }

/-- Long enough, or an HTTP message with a line end. -/
def shouldFlush (self : TcpStreamTracker) (data : List UInt8) : Bool :=
  decide (self.flushThreshold ≤ data.length) || (isHttpRequest data && data.contains 0x0A)

/-- `TcpStreamTracker::feed`. -/
def feed (self : TcpStreamTracker) (c : FeedCall) :
    TcpStreamTracker × Option (StreamKey × List UInt8) :=
  if c.payload.isEmpty then (self, none)
  else
    let s := self.stream c.key
    let data := s.data ++ c.payload
    let packetCount := s.packetCount + 1
    -- a flush hands the whole buffer out and leaves it empty
    if self.shouldFlush data then
      (self.insert c.key { s with data := [], packetCount := 0 }, some (c.key, data))
    else
      (self.insert c.key { s with data := data, packetCount := packetCount }, none)

/-- `TcpStreamTracker::clear`. -/
def clear (self : TcpStreamTracker) : TcpStreamTracker :=
  { self with streams := fun _ => none }

/-- Calls of `feed` one after the other, with their results in order. -/
def feedAll (self : TcpStreamTracker) :
    List FeedCall → TcpStreamTracker × List (Option (StreamKey × List UInt8))
  | [] => (self, [])
  | c :: cs =>
      let (t, flushed) := self.feed c
      let (t', rest) := t.feedAll cs
      (t', flushed :: rest)

/-! ## One call -/

section

variable (self : TcpStreamTracker) (key key' : StreamKey) (s : TcpStream)

@[simp] theorem stream_insert_self : (self.insert key s).stream key = s := by
  simp [insert, stream]

@[simp] theorem stream_insert_ne (h : key' ≠ key) :
    (self.insert key s).stream key' = self.stream key' := by
  simp [insert, stream, Function.update_of_ne h]

@[simp] theorem flushThreshold_insert :
    (self.insert key s).flushThreshold = self.flushThreshold := rfl

end

/-- What a call does: nothing on an empty payload; otherwise it extends the
stream of its key, and either hands the whole buffer out and empties it, or
keeps it. -/
theorem feed_cases (self : TcpStreamTracker) (c : FeedCall) :
    (c.payload = [] ∧ self.feed c = (self, none)) ∨
    (c.payload ≠ [] ∧ self.shouldFlush ((self.stream c.key).data ++ c.payload) = true ∧
      self.feed c = (self.insert c.key { self.stream c.key with data := [], packetCount := 0 },
        some (c.key, (self.stream c.key).data ++ c.payload))) ∨
    (c.payload ≠ [] ∧ self.shouldFlush ((self.stream c.key).data ++ c.payload) = false ∧
      self.feed c = (self.insert c.key
        { self.stream c.key with
          data := (self.stream c.key).data ++ c.payload
          packetCount := (self.stream c.key).packetCount + 1 }, none)) := by
  by_cases hempty : c.payload = []
  · left
    exact ⟨hempty, by simp [feed, hempty]⟩
  · right
    have hne : c.payload.isEmpty = false := by simpa using hempty
    cases hflush : self.shouldFlush ((self.stream c.key).data ++ c.payload) with
    | true =>
        left
        exact ⟨hempty, rfl, by simp [feed, hne, hflush]⟩
    | false =>
        right
        exact ⟨hempty, rfl, by simp [feed, hne, hflush]⟩

/-! ## Conservation -/

/-- The bytes still buffered for a key. -/
def buffered (self : TcpStreamTracker) (key : StreamKey) : List UInt8 :=
  (self.stream key).data

/-- The bytes a call feeds under a key. -/
def fedFor (key : StreamKey) (c : FeedCall) : List UInt8 :=
  if c.key = key then c.payload else []

/-- The bytes a result flushes under a key. -/
def flushedFor (key : StreamKey) : Option (StreamKey × List UInt8) → List UInt8
  | some (k, data) => if k = key then data else []
  | none => []

/-- The tracker as a ledger of one key's bytes. -/
def ledger (key : StreamKey) :
    Ledger TcpStreamTracker FeedCall (Option (StreamKey × List UInt8)) UInt8 where
  step := feed
  held := fun t => t.buffered key
  taken := fedFor key
  given := flushedFor key

theorem ledger_run (key : StreamKey) (self : TcpStreamTracker) (cs : List FeedCall) :
    (ledger key).run self cs = self.feedAll cs := by
  induction cs generalizing self with
  | nil => rfl
  | cons c cs ih =>
      simp only [Ledger.run, feedAll, ih]
      rfl

/-- One call loses, duplicates, reorders or misfiles no byte. -/
theorem ledger_conserves (key : StreamKey) : (ledger key).Conserves := by
  intro self c
  -- a call touches the stream of its own key and no other
  simp only [ledger, buffered]
  by_cases hkey : c.key = key
  · subst hkey
    rcases self.feed_cases c with ⟨hempty, hfeed⟩ | ⟨_, _, hfeed⟩ | ⟨_, _, hfeed⟩
    · simp [hfeed, flushedFor, fedFor, hempty]
    · simp [hfeed, flushedFor, fedFor]
    · simp [hfeed, flushedFor, fedFor]
  · -- a call of another key leaves this key's stream alone
    have hne : key ≠ c.key := by
      intro h
      exact hkey h.symm
    rcases self.feed_cases c with ⟨_, hfeed⟩ | ⟨_, _, hfeed⟩ | ⟨_, _, hfeed⟩
    · simp [hfeed, flushedFor, fedFor, hkey]
    · simp [hfeed, flushedFor, fedFor, hkey, hne]
    · simp [hfeed, flushedFor, fedFor, hkey, hne]

/-- Over any sequence of calls on a new tracker, what was flushed for a key
followed by what is still buffered for it is what was fed under it. -/
theorem feedAll_conserves (cs : List FeedCall) (key : StreamKey) :
    (new.feedAll cs).2.flatMap (flushedFor key) ++ (new.feedAll cs).1.buffered key =
      cs.flatMap (fedFor key) := by
  have h := (ledger_conserves key).run new cs
  rw [ledger_run] at h
  exact h

/-! ## Connections do not interfere -/

/-- The two trackers cannot be told apart by calls of one key. -/
structure AgreeFor (key : StreamKey) (t t' : TcpStreamTracker) : Prop where
  stream : t.stream key = t'.stream key
  flushThreshold : t.flushThreshold = t'.flushThreshold

section

variable {key : StreamKey} {t t' : TcpStreamTracker}

/-- A call of another key is not noticed. -/
theorem AgreeFor.feed_other (h : AgreeFor key t t') {c : FeedCall} (hkey : c.key ≠ key) :
    AgreeFor key (t.feed c).1 t' := by
  have hne : key ≠ c.key := fun heq => hkey heq.symm
  rcases t.feed_cases c with ⟨_, hfeed⟩ | ⟨_, _, hfeed⟩ | ⟨_, _, hfeed⟩
  · rw [hfeed]
    exact h
  · rw [hfeed]
    exact ⟨(stream_insert_ne _ _ _ _ hne).trans h.stream, h.flushThreshold⟩
  · rw [hfeed]
    exact ⟨(stream_insert_ne _ _ _ _ hne).trans h.stream, h.flushThreshold⟩

/-- A call of the key itself is answered alike. -/
theorem AgreeFor.feed_own (h : AgreeFor key t t') {c : FeedCall} (hkey : c.key = key) :
    (t.feed c).2 = (t'.feed c).2 ∧ AgreeFor key (t.feed c).1 (t'.feed c).1 := by
  subst hkey
  have hstream := h.stream
  have hflush : ∀ data, t'.shouldFlush data = t.shouldFlush data := by
    intro data
    rw [shouldFlush, shouldFlush, h.flushThreshold]
  rcases t.feed_cases c with ⟨hempty, hfeed⟩ | ⟨hne, hlong, hfeed⟩ | ⟨hne, hshort, hfeed⟩
  · have hfeed' : t'.feed c = (t', none) := by simp [feed, hempty]
    rw [hfeed, hfeed']
    exact ⟨rfl, h⟩
  -- the buffers are the same, so both trackers flush or neither does
  · have hfeed' := t'.feed_cases c
    simp only [hne, ← hstream, hflush, hlong, false_and, ne_eq, not_false_eq_true, true_and,
      Bool.true_eq_false, or_false, false_or] at hfeed'
    rw [hfeed, hfeed']
    exact ⟨rfl, by simp, h.flushThreshold⟩
  · have hfeed' := t'.feed_cases c
    simp only [hne, ← hstream, hflush, hshort, false_and, ne_eq, not_false_eq_true, true_and,
      Bool.false_eq_true, false_or] at hfeed'
    rw [hfeed, hfeed']
    exact ⟨rfl, by simp, h.flushThreshold⟩

end

/-- The calls of one key get the results they would get alone: in any
interleaving, other connections change neither when nor what it flushes. -/
theorem results_alone (cs : List FeedCall) (key : StreamKey) :
    ((cs.zip (new.feedAll cs).2).filter fun call => call.1.key = key).map Prod.snd =
      (new.feedAll (cs.filter fun c => c.key = key)).2 := by
  rw [← ledger_run key, ← ledger_run key]
  apply (ledger key).run_filter (fun c => decide (c.key = key)) (AgreeFor key)
  · intro t t' c h hother
    exact h.feed_other (of_decide_eq_false hother)
  · intro t t' c h hown
    exact h.feed_own (of_decide_eq_true hown)
  · exact ⟨rfl, rfl⟩

/-! ## Message boundaries -/

/-- The tokens an HTTP message is recognised by. -/
def httpTokens : List (List UInt8) :=
  ["GET ", "POST ", "PUT ", "DELETE ", "HTTP/"].map asciiBytes

theorem isHttpRequest_iff {data : List UInt8} :
    isHttpRequest data = true ↔ ∃ token ∈ httpTokens, token <+: data := by
  simp [isHttpRequest, httpTokens, or_assoc]

/-- No token begins inside another, not even with its end cut off. -/
theorem httpTokens_apart : ∀ token ∈ httpTokens, ∀ token' ∈ httpTokens, ∀ k < token.length,
    0 < k → ¬ token.drop k <+: token' ∧ ¬ token' <+: token.drop k := by
  decide

/-- Behind other bytes a token is not seen: what the buffer starts with decides. -/
theorem isHttpRequest_append {front back : List UInt8} (hfront : front ≠ [])
    (hback : isHttpRequest back = true) :
    isHttpRequest (front ++ back) = isHttpRequest front := by
  rw [Bool.eq_iff_iff, isHttpRequest_iff, isHttpRequest_iff]
  constructor
  · rintro ⟨token, htoken, hstarts⟩
    refine ⟨token, htoken, ?_⟩
    by_contra hno
    -- then the token ends behind the front, and its end is where another begins
    have hshort : front <+: token := by
      obtain hle | hle := List.prefix_or_prefix_of_prefix hstarts (List.prefix_append front back)
      · exact absurd hle hno
      · exact hle
    obtain ⟨tail, rfl⟩ := hshort
    have htail : tail <+: back := (List.prefix_append_right_inj front).mp hstarts
    obtain ⟨token', htoken', hstarts'⟩ := isHttpRequest_iff.mp hback
    have hne : tail ≠ [] := by
      rintro rfl
      exact hno (by simp)
    have hlt : front.length < (front ++ tail).length := by
      have hpos := List.length_pos_of_ne_nil hne
      rw [List.length_append]
      omega
    have hapart := httpTokens_apart _ htoken _ htoken' front.length hlt
      (List.length_pos_of_ne_nil hfront)
    rw [List.drop_left] at hapart
    obtain hle | hle := List.prefix_or_prefix_of_prefix htail hstarts'
    · exact hapart.1 hle
    · exact hapart.2 hle
  · rintro ⟨token, htoken, hstarts⟩
    exact ⟨token, htoken, hstarts.trans (List.prefix_append front back)⟩

/-- A tracker from its creation on, through calls of `feed` and `clear`. -/
def lifetime : Sts TcpStreamTracker where
  init t := t = new
  next t t' := (∃ c, t' = (t.feed c).1) ∨ t' = t.clear

theorem flushThreshold_feed (self : TcpStreamTracker) (c : FeedCall) :
    (self.feed c).1.flushThreshold = self.flushThreshold := by
  obtain ⟨_, hfeed⟩ | ⟨_, _, hfeed⟩ | ⟨_, _, hfeed⟩ := self.feed_cases c
  · rw [hfeed]
  · rw [hfeed, flushThreshold_insert]
  · rw [hfeed, flushThreshold_insert]

/-- The threshold never changes. -/
theorem flushThreshold_of_reachable {t : TcpStreamTracker} (h : lifetime.Reachable t) :
    t.flushThreshold = 4096 := by
  refine Sts.Reachable.invariant (fun t => t.flushThreshold = 4096) ?_ ?_ h
  · rintro t rfl
    rfl
  · rintro t t' ht (⟨c, rfl⟩ | rfl)
    · rw [flushThreshold_feed, ht]
    · exact ht

theorem feed_isSome_iff (self : TcpStreamTracker) {c : FeedCall} (hne : c.payload ≠ []) :
    (∃ data, (self.feed c).2 = some (c.key, data)) ↔
      self.shouldFlush (self.buffered c.key ++ c.payload) = true := by
  rw [buffered]
  obtain ⟨hempty, -⟩ | ⟨_, hflush, hfeed⟩ | ⟨_, hflush, hfeed⟩ := self.feed_cases c
  · exact absurd hempty hne
  · rw [hfeed]
    exact iff_of_true ⟨_, rfl⟩ hflush
  · rw [hfeed, hflush]
    simp

/-- In every state a tracker can get to, a payload that is the beginning of an
HTTP message with a line end is flushed at once exactly if nothing is buffered
for its connection, or an HTTP message is, or the two make up the threshold. -/
theorem feed_http_iff (t : TcpStreamTracker) (h : lifetime.Reachable t) (c : FeedCall)
    (htoken : isHttpRequest c.payload = true) (hnewline : 0x0A ∈ c.payload) :
    (∃ data, (t.feed c).2 = some (c.key, data)) ↔
      t.buffered c.key = [] ∨ isHttpRequest (t.buffered c.key) = true ∨
        4096 ≤ (t.buffered c.key).length + c.payload.length := by
  have hcontains : (t.buffered c.key ++ c.payload).contains 0x0A = true := by
    rw [List.contains_iff_mem]
    exact List.mem_append_right _ hnewline
  rw [feed_isSome_iff t (List.ne_nil_of_mem hnewline), shouldFlush, flushThreshold_of_reachable h,
    hcontains, Bool.and_true, Bool.or_eq_true, decide_eq_true_iff, List.length_append]
  by_cases hempty : t.buffered c.key = []
  · rw [hempty, List.nil_append, htoken]
    simp
  · rw [isHttpRequest_append hempty htoken, or_comm]
    simp [hempty]

/-- A byte of a connection, and then a request on it. -/
def strayByte : FeedCall :=
  { srcIp := "10.0.0.1", srcPort := 49152, dstIp := "10.0.0.2", dstPort := 80, payload := [0] }

def requestLine : FeedCall :=
  { strayByte with payload := asciiBytes "GET / HTTP/1.1\r\n" }

theorem feed_http_first :
    (∃ data, (new.feed requestLine).2 = some (requestLine.key, data)) ↔
      new.buffered requestLine.key = [] ∨ isHttpRequest (new.buffered requestLine.key) = true ∨
        4096 ≤ (new.buffered requestLine.key).length + requestLine.payload.length :=
  feed_http_iff new (.init rfl) requestLine (by decide) (by decide)

/-- The request is not seen behind the byte. -/
theorem feed_misses_request :
    ¬ ∀ (t : TcpStreamTracker), lifetime.Reachable t → ∀ c : FeedCall,
      isHttpRequest c.payload = true → 0x0A ∈ c.payload →
        ∃ data, (t.feed c).2 = some (c.key, data) := by
  intro hall
  have hreachable : lifetime.Reachable (new.feed strayByte).1 :=
    .step (.init rfl) (Or.inl ⟨strayByte, rfl⟩)
  obtain ⟨data, hdata⟩ := hall _ hreachable requestLine (by decide) (by decide)
  have hnone : ((new.feed strayByte).1.feed requestLine).2 = none := by
    decide
  rw [hnone] at hdata
  cases hdata

end TcpStreamTracker

end NetZer

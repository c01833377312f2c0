import NetZer.Core.TcpStream

/-! # What a stream holds

Every stream of a tracker is what the calls since its last flush have made it: it
is filed under its own key, holds less than the threshold and no complete HTTP
head, and counts the segments it is made of.
-/

namespace NetZer

namespace TcpStreamTracker

/-- A call of `feed` with its result, or a call of `clear`. -/
inductive Entry where
  | fed (c : FeedCall) (flushed : Option (StreamKey × List UInt8))
  | cleared
deriving DecidableEq, Repr

/-- A tracker, and the calls it has had, the last one first. -/
structure Recorded where
  tracker : TcpStreamTracker
  entries : List Entry

/-- A tracker from its creation on, with its calls on record. -/
def recorded : Sts Recorded where
  init s := s = ⟨new, []⟩
  next s t :=
    (∃ c, t = ⟨(s.tracker.feed c).1, .fed c (s.tracker.feed c).2 :: s.entries⟩) ∨
      t = ⟨s.tracker.clear, .cleared :: s.entries⟩

/-- The segments with a payload that were fed under a key since its last flush,
or since the tracker was cleared. -/
def segmentsSince (key : StreamKey) : List Entry → Nat
  | [] => 0
  | .cleared :: _ => 0
  | .fed c flushed :: rest =>
      if c.key ≠ key then segmentsSince key rest
      else if flushed.isSome then 0
      else if c.payload = [] then segmentsSince key rest
      else segmentsSince key rest + 1

/-- What is true of a stream filed under a key after these calls. -/
structure StreamOk (entries : List Entry) (key : StreamKey) (s : TcpStream) : Prop where
  key_eq : s.key = key
  short : s.data.length < 4096
  open_head : ¬ (isHttpRequest s.data = true ∧ 0x0A ∈ s.data)
  count : s.packetCount = segmentsSince key entries
  count_eq_zero_iff : s.packetCount = 0 ↔ s.data = []

/-- The invariant. A key that has no stream has had no segment: its first one
makes the stream. -/
def Recorded.Inv (s : Recorded) : Prop :=
  ∀ key, StreamOk s.entries key (s.tracker.stream key)

section

variable {s : Recorded} {key : StreamKey}

theorem StreamOk.new {entries : List Entry} (hnone : segmentsSince key entries = 0) :
    StreamOk entries key (.new key) where
  key_eq := rfl
  short := Nat.succ_pos 4095
  open_head := by simp [TcpStream.new]
  count := hnone.symm
  count_eq_zero_iff := by simp [TcpStream.new]

theorem Recorded.Inv.clear (s : Recorded) :
    Recorded.Inv ⟨s.tracker.clear, .cleared :: s.entries⟩ :=
  fun _ => .new rfl

/-- A buffer that is not flushed is short, and no complete head. -/
theorem keeps_of_shouldFlush {t : TcpStreamTracker} {data : List UInt8}
    (hthreshold : t.flushThreshold = 4096) (hkeep : t.shouldFlush data = false) :
    data.length < 4096 ∧ ¬ (isHttpRequest data = true ∧ 0x0A ∈ data) := by
  rw [shouldFlush, Bool.or_eq_false_iff, hthreshold] at hkeep
  obtain ⟨hshort, hhead⟩ := hkeep
  refine ⟨Nat.lt_of_not_le (of_decide_eq_false hshort), ?_⟩
  rintro ⟨hrequest, hnewline⟩
  rw [hrequest, List.contains_iff_mem.mpr hnewline] at hhead
  cases hhead

/-- A call of another key is not counted. -/
theorem StreamOk.fed_other {entries : List Entry} {stream : TcpStream}
    (h : StreamOk entries key stream) {c : FeedCall} (hkey : c.key ≠ key)
    (flushed : Option (StreamKey × List UInt8)) :
    StreamOk (.fed c flushed :: entries) key stream :=
  { h with count := by rw [segmentsSince, if_pos hkey, h.count] }

theorem Recorded.Inv.feed (h : s.Inv) (hthreshold : s.tracker.flushThreshold = 4096)
    (c : FeedCall) :
    Recorded.Inv ⟨(s.tracker.feed c).1, .fed c (s.tracker.feed c).2 :: s.entries⟩ := by
  intro key
  have hstream := h key
  by_cases hkey : c.key = key
  · subst hkey
    obtain ⟨hempty, hfeed⟩ | ⟨hne, _, hfeed⟩ | ⟨hne, hkeep, hfeed⟩ := s.tracker.feed_cases c
    · -- nothing is fed
      rw [hfeed]
      refine { hstream with count := ?_ }
      simp [segmentsSince, hempty, hstream.count]
    · -- a flush: the stream starts anew
      rw [hfeed, stream_insert_self]
      exact
        { key_eq := hstream.key_eq
          short := Nat.succ_pos 4095
          open_head := by simp
          count := by simp [segmentsSince]
          count_eq_zero_iff := by simp }
    · rw [hfeed, stream_insert_self]
      obtain ⟨hshort, hopen⟩ := keeps_of_shouldFlush hthreshold hkeep
      exact
        { key_eq := hstream.key_eq
          short := hshort
          open_head := hopen
          count := by simp [segmentsSince, hne, hstream.count]
          count_eq_zero_iff := by simp [hne] }
  · -- the stream of another key is left alone
    have hother : (s.tracker.feed c).1.stream key = s.tracker.stream key := by
      obtain ⟨_, hfeed⟩ | ⟨_, _, hfeed⟩ | ⟨_, _, hfeed⟩ := s.tracker.feed_cases c
      · rw [hfeed]
      · rw [hfeed, stream_insert_ne _ _ _ _ (Ne.symm hkey)]
      · rw [hfeed, stream_insert_ne _ _ _ _ (Ne.symm hkey)]
    rw [hother]
    exact hstream.fed_other hkey _

/-- Recording changes nothing: a tracker has the states it has on record. -/
theorem recorded_refines : Sts.Refinement recorded lifetime (fun _ => True) Recorded.tracker where
  init := by
    rintro s rfl
    rfl
  step := by
    rintro s t _ (⟨c, rfl⟩ | rfl)
    · exact Or.inl (Or.inl ⟨c, rfl⟩)
    · exact Or.inl (Or.inr rfl)

theorem Recorded.inv_of_reachable (h : recorded.Reachable s) : s.Inv := by
  induction h with
  | init hinit =>
      cases hinit
      exact fun _ => .new rfl
  | @step s t hs hnext ih =>
      -- the threshold is that of a tracker without a record
      have hthreshold : s.tracker.flushThreshold = 4096 :=
        flushThreshold_of_reachable (recorded_refines.reachable (fun _ => trivial) hs)
      rcases hnext with ⟨c, rfl⟩ | rfl
      · exact Recorded.Inv.feed ih hthreshold c
      · exact Recorded.Inv.clear s

end

/-- After any calls of `feed` and `clear`, every stream there is is filed under
its own key, is shorter than the threshold, holds no complete HTTP head and
counts the segments since its last flush, and its count is zero exactly if it is
empty. And whatever is fed next, what is flushed is shorter than the threshold
and the segment together. -/
theorem streams_well_kept (s : Recorded) (h : recorded.Reachable s) :
    (∀ key stream, s.tracker.streams key = some stream → StreamOk s.entries key stream) ∧
      ∀ c key data, (s.tracker.feed c).2 = some (key, data) →
        data.length < 4096 + c.payload.length := by
  have hinv := Recorded.inv_of_reachable h
  constructor
  · intro key stream hstream
    have hok := hinv key
    rwa [TcpStreamTracker.stream, hstream, Option.getD_some] at hok
  · intro c key data hflush
    have hshort := (hinv c.key).short
    -- only a flush hands data out: the stream and the new segment
    obtain ⟨_, hfeed⟩ | ⟨_, _, hfeed⟩ | ⟨_, _, hfeed⟩ := s.tracker.feed_cases c
    · rw [hfeed] at hflush
      cases hflush
    · rw [hfeed] at hflush
      cases hflush
      rw [List.length_append]
      omega
    · rw [hfeed] at hflush
      cases hflush

/-- The beginning of a request. -/
def requestStart : FeedCall :=
  { srcIp := "10.0.0.1", srcPort := 40000, dstIp := "10.0.0.2", dstPort := 80,
    payload := asciiBytes "GET /" }

def afterStart : Recorded :=
  ⟨(new.feed requestStart).1, [.fed requestStart (new.feed requestStart).2]⟩

theorem streams_well_kept_start :
    StreamOk afterStart.entries requestStart.key ⟨requestStart.key, asciiBytes "GET /", 1⟩ := by
  have hreachable : recorded.Reachable afterStart := .step (.init rfl) (Or.inl ⟨requestStart, rfl⟩)
  exact (streams_well_kept afterStart hreachable).1 _ _ (by decide)

end TcpStreamTracker

end NetZer

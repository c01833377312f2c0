import NetZer.Cli.Process

/-! # The classic capture loop

`main` without `--ring-buffer`: every frame is received into the same buffer, of
which the part that was written is copied out. What earlier frames have left
behind it is never looked at, and a read that fails changes nothing. So the loop
is `capture` on the frames, each cut off at the size of the buffer, and does what
the ring does with frames that fit.
-/

namespace NetZer

open Posix Rust

/-- What `libc::recv` finds: an error, or a frame. -/
inductive RecvAnswer where
  | error (errno : Nat)
  | frame (bytes : List UInt8)
deriving DecidableEq, Repr

/-- `RawSocket::recv`: the buffer afterwards, and how many bytes were written to
it. What a frame has more of is lost. -/
def RawSocket.recv (buffer : List UInt8) : RecvAnswer → List UInt8 × Except IoError Nat
  | .error errno => (buffer, .error (.os errno))
  | .frame bytes =>
      let size := min bytes.length buffer.length
      (bytes.take size ++ buffer.drop size, .ok size)

/-- A read, with what the clocks show when its frame is processed. -/
structure Reading where
  answer : RecvAnswer
  sinceEpoch : Option Duration
  time : LocalTime
deriving DecidableEq, Repr

/-- The loop over the reads: the packets processed, with their calls. -/
def recvLoop (out : Outputs) :
    Option TcpStreamTracker → List UInt8 → List Reading → List (Packet × List Call)
  | _, _, [] => []
  | tracker, buffer, r :: rs =>
      match RawSocket.recv buffer r.answer with
      -- the error is printed
      | (buffer, .error _) => recvLoop out tracker buffer rs
      | (buffer, .ok size) =>
          -- `buffer[..size].to_vec()`
          match (slice buffer 0 size : Run _) with
          | .error _ => []
          | .ok packetData =>
              let p : Packet :=
                { frame := packetData.val, sinceEpoch := r.sinceEpoch, time := r.time }
              let run := processPacket out p.time.display tracker p.frame size
              (p, run.trace) ::
                match run.result with
                | .ok tracker' => recvLoop out tracker' buffer rs
                | .error _ => []

/-- `vec![0u8; 65535]`. -/
def recvBuffer : List UInt8 :=
  List.replicate 65535 0

/-- The packet of a read, if the buffer takes so many bytes. -/
def Reading.packet (n : Nat) (r : Reading) : Option Packet :=
  match r.answer with
  | .error _ => none
  | .frame bytes =>
      some { frame := bytes.take n, sinceEpoch := r.sinceEpoch, time := r.time }

/-! ## The buffer -/

theorem RawSocket.recv_length (buffer : List UInt8) (answer : RecvAnswer) :
    (RawSocket.recv buffer answer).1.length = buffer.length := by
  cases answer with
  | error errno => rfl
  | frame bytes =>
      simp only [RawSocket.recv, List.length_append, List.length_take, List.length_drop]
      omega

/-- The slice is in range, and is the frame without what lies behind it. -/
theorem RawSocket.slice_recv (buffer bytes : List UInt8) :
    ∃ packetData, (slice (RawSocket.recv buffer (.frame bytes)).1 0
        (min bytes.length buffer.length) : Run _) = .ok packetData ∧
      packetData.val = bytes.take buffer.length ∧
      packetData.val.length = min bytes.length buffer.length := by
  have hlen := RawSocket.recv_length buffer (.frame bytes)
  have hle : min bytes.length buffer.length ≤ (RawSocket.recv buffer (.frame bytes)).1.length := by
    rw [hlen]
    exact Nat.min_le_right _ _
  refine ⟨_, slice_ok _ (Nat.zero_le _) hle, ?_, ?_⟩
  · have hfront : (bytes.take (min bytes.length buffer.length)).length =
        min bytes.length buffer.length := by
      rw [List.length_take]
      omega
    simp only [RawSocket.recv, List.drop_zero, Nat.sub_zero]
    rw [List.take_append_of_le_length (by omega), List.take_take, Nat.min_self]
    rcases Nat.le_total bytes.length buffer.length with h | h
    · rw [Nat.min_eq_left h, List.take_length, List.take_of_length_le h]
    · rw [Nat.min_eq_right h]
  · simp only [List.drop_zero, Nat.sub_zero, List.length_take]
    omega

/-- Whatever the buffer holds, the loop is `capture` on the frames that are read,
cut off at its length. -/
theorem recvLoop_eq (out : Outputs) (readings : List Reading) (n : Nat) :
    ∀ (tracker : Option TcpStreamTracker) (buffer : List UInt8), buffer.length = n →
      recvLoop out tracker buffer readings =
        capture out tracker (readings.filterMap (Reading.packet n)) := by
  induction readings with
  | nil =>
      intro tracker buffer _
      rfl
  | cons r rs ih =>
      intro tracker buffer hbuffer
      cases hanswer : r.answer with
      | error errno =>
          have hnone : r.packet n = none := by simp only [Reading.packet, hanswer]
          rw [List.filterMap_cons, hnone]
          simp only [recvLoop, hanswer, RawSocket.recv]
          exact ih tracker buffer hbuffer
      | frame bytes =>
          rcases RawSocket.slice_recv buffer bytes with ⟨packetData, hslice, hdata, hsize⟩
          have hlen := RawSocket.recv_length buffer (.frame bytes)
          have hpacket : r.packet n = some
              { frame := packetData.val, sinceEpoch := r.sinceEpoch, time := r.time } := by
            simp only [Reading.packet, hanswer, hdata, hbuffer]
          -- the bytes that are not of this frame are cut off with the slice
          have hread : RawSocket.recv buffer r.answer =
              ((RawSocket.recv buffer (.frame bytes)).1,
                .ok (min bytes.length buffer.length)) := by
            rw [hanswer]
            rfl
          rw [List.filterMap_cons, hpacket]
          simp only [recvLoop, capture, Packet.process, hread, hslice, hsize, List.cons.injEq,
            true_and]
          cases (processPacket out r.time.display tracker packetData.val
            (min bytes.length buffer.length)).result with
          | error panic => rfl
          | ok tracker' => exact ih tracker' _ (hlen.trans hbuffer)

/-- The classic loop is `capture` on the frames, each cut off at 65535 bytes,
whatever reads fail in between. And when the ring has handed over the same
packets, with the same times, the calls made for them are the same. -/
theorem recvLoop_agrees (out : Outputs) (tracker : Option TcpStreamTracker)
    (readings : List Reading) :
    recvLoop out tracker recvBuffer readings =
        capture out tracker (readings.filterMap (Reading.packet 65535)) ∧
      ∀ {e : Endian} {interface : String} {allowed : ServerEvent → Prop} {s : Process},
        (processSts e out interface allowed tracker).Reachable s → s.main.callsLeft = [] →
        s.packets = readings.filterMap (Reading.packet 65535) →
          s.made = (recvLoop out tracker recvBuffer readings).flatMap Prod.snd := by
  have hloop := recvLoop_eq out readings 65535 tracker recvBuffer List.length_replicate
  refine ⟨hloop, ?_⟩
  intro e interface allowed s hs hback hsame
  have hmade := (Process.inv_of_reachable hs).made
  rw [hback, List.append_nil, hsame] at hmade
  rw [hloop, hmade]

/-- A read that fails, and the datagram. -/
def echoReadings : List Reading :=
  [⟨.error 4, none, midnight⟩, ⟨.frame echoPacket.frame, none, midnight⟩]

/-- The calls are those of a process whose ring handed the datagram over. -/
theorem recvLoop_agrees_echo :
    recvLoop webOnly none recvBuffer echoReadings = capture webOnly none [echoPacket] ∧
    ∃ s : Process, echoSts.Reachable s ∧ s.packets = [echoPacket] ∧ s.made.length = 2 ∧
      s.made = (recvLoop webOnly none recvBuffer echoReadings).flatMap Prod.snd := by
  have hread : echoReadings.filterMap (Reading.packet 65535) = [echoPacket] := by decide +kernel
  rcases recvLoop_agrees webOnly none echoReadings with ⟨hloop, hring⟩
  rw [hread] at hloop
  rcases echoRun with ⟨s, hs, hpackets, hback, hmade, -⟩
  exact ⟨hloop, s, hs, hpackets, hmade, hring hs hback (hpackets.trans hread.symm)⟩

end NetZer

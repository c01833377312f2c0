import NetZer.Lib.WebSocket
import NetZer.Web.Server

/-! # The frames of the broadcasts

`encode_ws_text_frame` writes one frame for a message. Frames follow each other on
a connection without anything between them, and a client finds every one of them
again, with its message.
-/

namespace NetZer

open Bytes Text WebSocket

/-- A message as one frame: final, a text, and not masked. -/
def textFrame (payload : String) : WebSocket.Frame :=
  { fin := true
    rsv := 0
    opcode := textOpcode
    lengthForm := .minimal (utf8 payload).length
    maskingKey := none
    payload := utf8 payload }

theorem textFrame_message (payload : String) : (textFrame payload).message = some payload :=
  fromUtf8_utf8 payload

theorem textFrame_accepted {payload : String} (h : (utf8 payload).length < 2 ^ 63) :
    (textFrame payload).accepted = true := by
  have hlen : decide ((utf8 payload).length < 2 ^ 63) = true := decide_eq_true h
  rw [WebSocket.Frame.accepted, textFrame, hlen]
  simp [opcodes, textOpcode]

/-- The length bytes of a frame, in front of its payload. -/
theorem decodeFrame_of_takeLength {second : UInt8} {field payload rest : List UInt8}
    {lengthForm : LengthForm} (hunmasked : second.toNat < 128)
    (h : takeLength second.toNat (field ++ (payload ++ rest)) =
      some (lengthForm, payload.length, payload ++ rest)) :
    decodeFrame (0x81 :: (second :: field ++ payload) ++ rest) =
      some (⟨true, 0, textOpcode, lengthForm, none, payload⟩, rest) := by
  have hfirst : (0x81 : UInt8).toNat = 129 := rfl
  have hmask : ¬ 128 ≤ second.toNat := Nat.not_le_of_lt hunmasked
  rw [List.cons_append, List.append_assoc, List.cons_append, decodeFrame,
    Nat.mod_eq_of_lt hunmasked, h]
  simp only [Option.bind_eq_bind, Option.bind_some, takeKey, hmask, decide_false,
    Bool.false_eq_true, if_false, take_append rfl, hfirst]
  rfl

/-- What is written for a message is read as its frame, whatever follows. -/
theorem decodeFrame_encodeWsTextFrame {payload : String} (h : (utf8 payload).length < 2 ^ 63)
    (rest : List UInt8) :
    decodeFrame (encodeWsTextFrame payload ++ rest) = some (textFrame payload, rest) := by
  unfold encodeWsTextFrame textFrame LengthForm.minimal
  -- the three forms of the length: in seven bits, in two bytes, in eight
  by_cases hseven : (utf8 payload).length ≤ 125
  · have hlen : (UInt8.ofNat (utf8 payload).length).toNat = (utf8 payload).length := by
      rw [UInt8.toNat_ofNat']
      omega
    simp only [if_pos hseven]
    have hlength : takeLength (UInt8.ofNat (utf8 payload).length).toNat
        ([] ++ (utf8 payload ++ rest)) =
        some (.seven, (utf8 payload).length, utf8 payload ++ rest) := by
      rw [hlen, takeLength, if_neg (by omega), if_neg (by omega)]
      rfl
    exact decodeFrame_of_takeLength (by omega) hlength
  by_cases hsixteen : (utf8 payload).length ≤ 65535
  · simp only [if_neg hseven, if_pos hsixteen]
    exact decodeFrame_of_takeLength (by decide) (takeLength_sixteen (by omega) _)
  · simp only [if_neg hseven, if_neg hsixteen]
    exact decodeFrame_of_takeLength (by decide) (takeLength_sixtyFour (by omega) _)

theorem decodeFrames_texts {msgs : List String} (h : ∀ msg ∈ msgs, (utf8 msg).length < 2 ^ 63)
    (further : List UInt8) :
    decodeFrames msgs.length (msgs.flatMap encodeWsTextFrame ++ further) =
      some (msgs.map textFrame, further) := by
  apply decodeFrames_flatMap
  intro msg hmsg
  exact ⟨textFrame_accepted (h msg hmsg), decodeFrame_encodeWsTextFrame (h msg hmsg)⟩

/-- A client that reads as many frames as there were messages gets each of them,
once and in order, as a final unmasked text frame with its length in the minimal
form, and has not touched what follows. -/
theorem wsFrames_decode (msgs : List String) (h : ∀ msg ∈ msgs, (utf8 msg).length < 2 ^ 63)
    (further : List UInt8) :
    decodeFrames msgs.length (msgs.flatMap encodeWsTextFrame ++ further) =
        some (msgs.map textFrame, further) ∧
      (msgs.map textFrame).mapM WebSocket.Frame.message = some msgs := by
  refine ⟨decodeFrames_texts h further, ?_⟩
  induction msgs with
  | nil => rfl
  | cons msg msgs ih =>
      rw [List.forall_mem_cons] at h
      rw [List.map_cons, List.mapM_cons, textFrame_message, ih h.2]
      rfl

/-- A message in each of the first two forms, and the beginning of a third frame. -/
theorem wsFrames_decode_two :
    decodeFrames 2 ([0x81, 2, 0x68, 0x69] ++
        (0x81 :: 126 :: 0 :: 126 :: List.replicate 126 0x61) ++ [0x81]) =
      some ([textFrame "hi", textFrame (String.ofList (List.replicate 126 'a'))], [0x81]) ∧
    [textFrame "hi", textFrame (String.ofList (List.replicate 126 'a'))].mapM
        WebSocket.Frame.message =
      some ["hi", String.ofList (List.replicate 126 'a')] := by
  have hshort : ∀ msg ∈ ["hi", String.ofList (List.replicate 126 'a')],
      (utf8 msg).length < 2 ^ 63 := by
    decide +kernel
  have hframes : ["hi", String.ofList (List.replicate 126 'a')].flatMap encodeWsTextFrame =
      [0x81, 2, 0x68, 0x69] ++ (0x81 :: 126 :: 0 :: 126 :: List.replicate 126 0x61) := by
    decide +kernel
  rw [← hframes]
  exact wsFrames_decode _ hshort [0x81]

end NetZer

import Nullpipe.Core.Crates
import Nullpipe.Lib.Framing

/-!
# The wire protocol

`wire.rs`: a frame is a 4-byte big-endian payload length followed by the UTF-8 JSON payload, at
most `MAX_PAYLOAD_BYTES` long.

`readFrame` is the source's `read_frame` as a function of the bytes the call has received so
far: an instance of the resumable reader of `Lib/Framing.lean`.  The two `read_exact` errors of
the source are not among its outcomes, since they report the stream and not the bytes; the
tasks that call it treat them as separate steps.  `decodeMessage` checks the header again on
its own, as in the source.

Whether a message can be sent at all is `Encodes`, and `frameBytes` are its bytes, which is the
form in which the tasks use the encoder: a message that does not fit is one they write nothing
of.  That such a frame is read as it was written is `readFrame_encodeMessage`, from the header
(`fromBeBytes_toBeBytes`) and the laws of `serde_json`; `streamMessages_flatMap` is the same
for any number of frames.  A reader whose frame comes in two parts is met with
`Encodes.pieces`: the header alone is no frame and asks for just the payload.
-/

namespace Nullpipe

open Framing

/-- Maximum payload size: 16 KB. -/
def maxPayloadBytes : ℕ := 16 * 1024

/-! ## The header -/

/-- `(n as u32).to_be_bytes()`. -/
def toBeBytes (n : ℕ) : List UInt8 :=
  [UInt8.ofNat (n / 2 ^ 24), UInt8.ofNat (n / 2 ^ 16), UInt8.ofNat (n / 2 ^ 8), UInt8.ofNat n]

/-- `u32::from_be_bytes(header)`, for a header of four bytes. -/
def fromBeBytes (header : List UInt8) : ℕ :=
  header.foldl (fun acc byte => acc * 256 + byte.toNat) 0

@[simp] theorem length_toBeBytes (n : ℕ) : (toBeBytes n).length = 4 := rfl

theorem fromBeBytes_toBeBytes {n : ℕ} (hn : n < 2 ^ 32) : fromBeBytes (toBeBytes n) = n := by
  simp only [fromBeBytes, toBeBytes, List.foldl_cons, List.foldl_nil, UInt8.toNat_ofNat']
  omega

/-! ## Encoding and decoding -/

/-- `encode_message`: header and JSON payload, unless the payload is too long.
Serialising a `WireMessage` itself cannot fail. -/
def encodeMessage (json : SerdeJson) (msg : WireMessage) : Except ChatError (List UInt8) :=
  let payload := json.toVec msg
  if maxPayloadBytes < payload.length then
    .error (.oversizedMessage payload.length maxPayloadBytes)
  else
    .ok (toBeBytes payload.length ++ payload)

/-- `decode_message`, on a slice that holds a whole frame. -/
def decodeMessage (json : SerdeJson) (data : List UInt8) : Except ChatError WireMessage :=
  if data.length < 4 then
    .error (.wire "payload too short for header")
  else
    let payloadLen := fromBeBytes (data.take 4)
    if payloadLen = 0 then
      .error (.wire "zero-length payload")
    else if maxPayloadBytes < payloadLen then
      .error (.oversizedMessage payloadLen maxPayloadBytes)
    else if data.length < 4 + payloadLen then
      .error (.wire "truncated payload")
    else
      match json.fromSlice ((data.drop 4).take payloadLen) with
      | .error e => .error (.wire ("json decode failed: " ++ e))
      | .ok msg => .ok msg

/-- The length check `read_frame` makes on a complete header. -/
def framePayloadLen (header : List UInt8) : Except ChatError ℕ :=
  let payloadLen := fromBeBytes header
  if payloadLen = 0 then
    .error (.wire "zero-length payload")
  else if maxPayloadBytes < payloadLen then
    .error (.oversizedMessage payloadLen maxPayloadBytes)
  else
    .ok payloadLen

/-- The UTF-8 check `read_frame` makes on a complete payload. -/
def checkPayload (payload : List UInt8) : Except ChatError Unit :=
  if ValidUtf8 payload then .ok () else .error (.wire "payload is not valid UTF-8")

/-- The frame format of the wire. -/
def wireFormat : Format ChatError where
  headerLen := 4
  headerLen_pos := by decide
  payloadLen := framePayloadLen
  check := checkPayload

/-- `read_frame`, as a function of the bytes received so far. -/
def readFrame (got : List UInt8) : Progress ChatError := wireFormat.progress got

/-- `decode_message` with the error dropped: what a reader makes of a frame. -/
def decoded (json : SerdeJson) (frame : List UInt8) : Option WireMessage :=
  (decodeMessage json frame).toOption

/-- The messages of a byte stream, up to the first bad or unfinished frame. -/
def streamMessages (json : SerdeJson) (bytes : List UInt8) : List WireMessage :=
  wireFormat.messages (decoded json) bytes

/-! ## What the sender frames, the receiver reads -/

variable {json : SerdeJson} {msg : WireMessage} {frame : List UInt8}

/-- The frames `encode_message` produces. -/
theorem encodeMessage_eq_ok :
    encodeMessage json msg = .ok frame ↔
      (json.toVec msg).length ≤ maxPayloadBytes ∧
        frame = toBeBytes (json.toVec msg).length ++ json.toVec msg := by
  unfold encodeMessage
  dsimp only
  split
  · rename_i hlong
    constructor
    · intro h
      cases h
    · intro h
      omega
  · rename_i hfits
    constructor
    · intro h
      exact ⟨by omega, (Except.ok.inj h).symm⟩
    · rintro ⟨-, rfl⟩
      rfl

/-- No frame is longer. -/
def frameBound : ℕ := 4 + maxPayloadBytes

theorem length_le_frameBound (h : encodeMessage json msg = .ok frame) :
    frame.length ≤ frameBound := by
  obtain ⟨hfits, rfl⟩ := encodeMessage_eq_ok.mp h
  rw [List.length_append, length_toBeBytes, frameBound]
  omega

private theorem payload_length_pos (json : SerdeJson) (msg : WireMessage) :
    0 < (json.toVec msg).length :=
  List.length_pos_of_ne_nil (json.toVec_ne_nil msg)

private theorem payload_length_lt {n : ℕ} (hn : n ≤ maxPayloadBytes) : n < 2 ^ 32 := by
  unfold maxPayloadBytes at hn
  omega

private theorem framePayloadLen_toBeBytes {n : ℕ} (hpos : 0 < n) (hn : n ≤ maxPayloadBytes) :
    framePayloadLen (toBeBytes n) = .ok n := by
  rw [framePayloadLen, fromBeBytes_toBeBytes (payload_length_lt hn)]
  simp only [if_neg (Nat.ne_of_gt hpos), if_neg (Nat.not_lt.mpr hn)]

/-- An encoded message is a complete frame. -/
theorem readFrame_encodeMessage (hencode : encodeMessage json msg = .ok frame) :
    readFrame frame = .frame frame := by
  obtain ⟨hfits, rfl⟩ := encodeMessage_eq_ok.mp hencode
  have hsize := framePayloadLen_toBeBytes (payload_length_pos json msg) hfits
  have hcheck : checkPayload (json.toVec msg) = .ok () := if_pos (json.validUtf8_toVec msg)
  have htake : (toBeBytes (json.toVec msg).length ++ json.toVec msg).take 4 =
      toBeBytes (json.toVec msg).length := List.take_left' rfl
  have hdrop : (toBeBytes (json.toVec msg).length ++ json.toVec msg).drop 4 =
      json.toVec msg := List.drop_left' rfl
  rw [readFrame, Format.progress_of_header (by simp [wireFormat])]
  simp only [wireFormat, htake, hsize, hdrop, List.take_length, hcheck, List.length_append,
    length_toBeBytes, Nat.lt_irrefl, if_false]
  rw [List.take_of_length_le (by simp)]

/-- `decode_message` gives back the message that was encoded. -/
theorem decodeMessage_encodeMessage (hencode : encodeMessage json msg = .ok frame) :
    decodeMessage json frame = .ok msg := by
  obtain ⟨hfits, rfl⟩ := encodeMessage_eq_ok.mp hencode
  have hpos := payload_length_pos json msg
  have htake : (toBeBytes (json.toVec msg).length ++ json.toVec msg).take 4 =
      toBeBytes (json.toVec msg).length := List.take_left' rfl
  have hdrop : (toBeBytes (json.toVec msg).length ++ json.toVec msg).drop 4 =
      json.toVec msg := List.drop_left' rfl
  rw [decodeMessage, htake, hdrop, fromBeBytes_toBeBytes (payload_length_lt hfits)]
  rw [if_neg (by simp), if_neg (by omega), if_neg (by omega), if_neg (by simp),
    List.take_length, json.fromSlice_toVec]

theorem decoded_encodeMessage (hencode : encodeMessage json msg = .ok frame) :
    decoded json frame = some msg := by
  rw [decoded, decodeMessage_encodeMessage hencode]
  rfl

theorem encodeMessage_ne_nil (hencode : encodeMessage json msg = .ok frame) : frame ≠ [] := by
  obtain ⟨-, rfl⟩ := encodeMessage_eq_ok.mp hencode
  simp [toBeBytes]

/-- The bytes of a message that fits a frame; empty for one that does not. -/
def frameBytes (json : SerdeJson) (msg : WireMessage) : List UInt8 :=
  match encodeMessage json msg with
  | .ok frame => frame
  | .error _ => []

/-- The message fits a frame. -/
def Encodes (json : SerdeJson) (msg : WireMessage) : Prop :=
  (json.toVec msg).length ≤ maxPayloadBytes

instance (json : SerdeJson) (msg : WireMessage) : Decidable (Encodes json msg) :=
  inferInstanceAs (Decidable (_ ≤ _))

theorem Encodes.encodeMessage (h : Encodes json msg) :
    encodeMessage json msg = .ok (frameBytes json msg) := by
  have hok := encodeMessage_eq_ok.mpr ⟨h, rfl⟩
  rw [frameBytes, hok]

theorem encodes_of_encodeMessage (h : encodeMessage json msg = .ok frame) :
    Encodes json msg ∧ frameBytes json msg = frame := by
  refine ⟨(encodeMessage_eq_ok.mp h).1, ?_⟩
  rw [frameBytes, h]

theorem encodeMessage_of_not_encodes (h : ¬ Encodes json msg) :
    encodeMessage json msg =
      .error (.oversizedMessage (json.toVec msg).length maxPayloadBytes) :=
  if_pos (Nat.lt_of_not_le h)

theorem frameBytes_ne_nil (h : Encodes json msg) : frameBytes json msg ≠ [] :=
  encodeMessage_ne_nil h.encodeMessage

theorem frameBytes_split (h : Encodes json msg) :
    frameBytes json msg = toBeBytes (json.toVec msg).length ++ json.toVec msg :=
  ((encodeMessage_eq_ok.mp h.encodeMessage).2)

/-- The frame of a message in the two pieces in which a reader may get it: a header, which is
no frame, and the payload it asks for. -/
structure FramePieces (json : SerdeJson) (msg : WireMessage) (header payload : List UInt8) :
    Prop where
  split : frameBytes json msg = header ++ payload
  header_ne_nil : header ≠ []
  payload_ne_nil : payload ≠ []
  starts : readFrame [] = .needs 4
  length_header : header.length ≤ 4
  continues : ∃ k, readFrame header = .needs k ∧ payload.length ≤ k
  ends : readFrame (header ++ payload) = .frame (header ++ payload)
  decodes : decodeMessage json (header ++ payload) = .ok msg

theorem Encodes.pieces (h : Encodes json msg) :
    FramePieces json msg (toBeBytes (json.toVec msg).length) (json.toVec msg) := by
  have hsplit := frameBytes_split h
  have hpos := payload_length_pos json msg
  have hneeds : readFrame (toBeBytes (json.toVec msg).length) =
      .needs (json.toVec msg).length := by
    have hsize := framePayloadLen_toBeBytes hpos h
    have htake : (toBeBytes (json.toVec msg).length).take 4 =
        toBeBytes (json.toVec msg).length := List.take_of_length_le (by simp)
    rw [readFrame, Format.progress_of_header (by simp [wireFormat])]
    simp only [wireFormat, htake, hsize, length_toBeBytes, Nat.add_sub_cancel_left]
    rw [if_pos (by omega)]
  exact {
    split := hsplit
    header_ne_nil := List.ne_nil_of_length_pos (by rw [length_toBeBytes]; omega)
    payload_ne_nil := json.toVec_ne_nil msg
    starts := Format.progress_nil
    length_header := Nat.le_of_eq (length_toBeBytes _)
    continues := ⟨_, hneeds, Nat.le_refl _⟩
    ends := hsplit ▸ readFrame_encodeMessage h.encodeMessage
    decodes := hsplit ▸ decodeMessage_encodeMessage h.encodeMessage }

/-- Reading a concatenation of frames gives back what was framed. -/
theorem streamMessages_flatMap {msgs : List WireMessage} (h : ∀ msg ∈ msgs, Encodes json msg)
    (rest : List UInt8) :
    streamMessages json (msgs.flatMap (frameBytes json) ++ rest) =
      msgs ++ streamMessages json rest :=
  Format.messages_flatMap (fun msg hmsg =>
    ⟨readFrame_encodeMessage (h msg hmsg).encodeMessage,
      decoded_encodeMessage (h msg hmsg).encodeMessage⟩) rest

end Nullpipe

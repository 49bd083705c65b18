import Nullpipe.Core.Standard
import Nullpipe.Lib.Chunks
import Mathlib.Data.List.Forall2

/-!
# Frames on a stream

`read_frame` as the source has it, over a stream that the transport has cut into chunks: four
bytes of header, the length check, the payload, the UTF-8 check.  `readFrame` is the same read
as a function of the bytes received so far, which the tasks of the model use.
`readFrameFrom_eq` says that the two agree on every stream: what the one makes of the chunks is
what the other makes of their concatenation, by cases on whether that begins with a frame,
begins with something malformed, or ends too early.  Only the last case is an error of
`read_exact`, which the second description leaves to the stream.

From this follows the round trip `framing_round_trip`: whatever the cuts, the frames of any
messages come out as they went in, each decodes to its message, and what follows them is left.
The induction is on the messages, with what `read_frame` leaves as the stream of the rest
(`readFrames_encodeMessage`).  The chunks are asked to be solid, that is without empty ones: an
empty read is the end of the stream.
-/

namespace Nullpipe

open Framing Chunks

/-- What `read_exact` reports at the end of the stream. -/
def earlyEof : String := "early eof"

/-- `read_frame` on a stream in chunks, and the chunks behind the frame. -/
def readFrameFrom (chunks : List (List UInt8)) :
    Except ChatError (List UInt8 × List (List UInt8)) :=
  match readExact 4 chunks with
  | none => .error (.wire ("header read failed: " ++ earlyEof))
  | some (header, chunks) =>
    match framePayloadLen header with
    | .error e => .error e
    | .ok payloadLen =>
      match readExact payloadLen chunks with
      | none => .error (.wire ("payload read failed: " ++ earlyEof))
      | some (payload, chunks) =>
        match checkPayload payload with
        | .error e => .error e
        | .ok () => .ok (header ++ payload, chunks)

/-- `read_frame`, called `n` times. -/
def readFrames : ℕ → List (List UInt8) → Except ChatError (List (List UInt8) × List (List UInt8))
  | 0, chunks => .ok ([], chunks)
  | n + 1, chunks =>
    match readFrameFrom chunks with
    | .error e => .error e
    | .ok (frame, chunks) =>
      match readFrames n chunks with
      | .error e => .error e
      | .ok (frames, chunks) => .ok (frame :: frames, chunks)

variable {json : SerdeJson} {chunks : List (List UInt8)} {frame : List UInt8} {e : ChatError}
  {k : ℕ}

/-! ## The two descriptions of `read_frame` -/

/-- **A complete frame at the front of the stream is read**, and nothing behind it. -/
theorem readFrameFrom_of_frame (hsolid : Solid chunks)
    (hframe : readFrame chunks.flatten = .frame frame) :
    ∃ later, readFrameFrom chunks = .ok (frame, later) ∧
      chunks.flatten = frame ++ later.flatten ∧ Solid later := by
  have hlen : wireFormat.headerLen = 4 := rfl
  rcases Format.progress_cases wireFormat chunks.flatten with
    ⟨-, hp⟩ | ⟨-, _, -, hp⟩ | ⟨hheader, n, hsize, ⟨-, hp⟩ | ⟨-, _, -, hp⟩ | ⟨hlong, hcheck, hp⟩⟩
  all_goals rw [← readFrame, hframe] at hp
  all_goals cases hp
  rw [hlen] at hheader hsize hcheck hlong
  obtain ⟨behind, hread, hbehind, hsolid'⟩ := readExact_of_le hsolid hheader
  have hmore : n ≤ behind.flatten.length := by
    rw [hbehind, List.length_drop]
    omega
  obtain ⟨later, hread', hlater, hsolid''⟩ := readExact_of_le hsolid' hmore
  refine ⟨later, ?_, ?_, hsolid''⟩
  · have hsize' : framePayloadLen (chunks.flatten.take 4) = .ok n := hsize
    have hcheck' : checkPayload ((chunks.flatten.drop 4).take n) = .ok () := hcheck
    rw [hbehind] at hread'
    rw [readFrameFrom, hread]
    simp only [hsize', hread', hcheck']
    rw [hlen, ← List.take_add]
  · rw [hlater, hbehind, hlen, List.drop_drop, List.take_append_drop]

theorem readFrameFrom_of_failed (hsolid : Solid chunks)
    (hfailed : readFrame chunks.flatten = .failed e) : readFrameFrom chunks = .error e := by
  have hlen : wireFormat.headerLen = 4 := rfl
  rcases Format.progress_cases wireFormat chunks.flatten with
    ⟨-, hp⟩ | ⟨hheader, _, hsize, hp⟩ |
      ⟨hheader, n, hsize, ⟨-, hp⟩ | ⟨hlong, _, hcheck, hp⟩ | ⟨-, -, hp⟩⟩
  all_goals rw [← readFrame, hfailed] at hp
  all_goals cases hp
  all_goals rw [hlen] at hheader hsize
  all_goals obtain ⟨behind, hread, hbehind, hsolid'⟩ := readExact_of_le hsolid hheader
  · have hsize' : framePayloadLen (chunks.flatten.take 4) = .error e := hsize
    rw [readFrameFrom, hread]
    simp only [hsize']
  · rw [hlen] at hlong hcheck
    have hmore : n ≤ behind.flatten.length := by
      rw [hbehind, List.length_drop]
      omega
    obtain ⟨later, hread', -, -⟩ := readExact_of_le hsolid' hmore
    have hsize' : framePayloadLen (chunks.flatten.take 4) = .ok n := hsize
    have hcheck' : checkPayload ((chunks.flatten.drop 4).take n) = .error e := hcheck
    rw [hbehind] at hread'
    rw [readFrameFrom, hread]
    simp only [hsize', hread', hcheck']

/-- A stream that ends within a frame. -/
theorem readFrameFrom_of_needs (hsolid : Solid chunks)
    (hneeds : readFrame chunks.flatten = .needs k) :
    ∃ what, readFrameFrom chunks = .error (.wire (what ++ " read failed: " ++ earlyEof)) := by
  have hlen : wireFormat.headerLen = 4 := rfl
  rcases Format.progress_cases wireFormat chunks.flatten with
    ⟨hshort, hp⟩ | ⟨-, _, -, hp⟩ | ⟨hheader, n, hsize, ⟨hshort, hp⟩ | ⟨-, _, -, hp⟩ | ⟨-, -, hp⟩⟩
  all_goals rw [← readFrame, hneeds] at hp
  all_goals cases hp
  · rw [hlen] at hshort
    refine ⟨"header", ?_⟩
    rw [readFrameFrom, readExact_of_lt hshort]
    rfl
  · rw [hlen] at hheader hsize hshort
    obtain ⟨behind, hread, hbehind, -⟩ := readExact_of_le hsolid hheader
    have hsize' : framePayloadLen (chunks.flatten.take 4) = .ok n := hsize
    have hless : behind.flatten.length < n := by
      rw [hbehind, List.length_drop]
      omega
    refine ⟨"payload", ?_⟩
    rw [readFrameFrom, hread]
    simp only [hsize', readExact_of_lt hless]
    rfl

/-- **The two descriptions agree** on every stream, wherever it is cut. -/
theorem readFrameFrom_eq (hsolid : Solid chunks) :
    match readFrame chunks.flatten with
    | .frame frame => ∃ later, readFrameFrom chunks = .ok (frame, later) ∧
        chunks.flatten = frame ++ later.flatten ∧ Solid later
    | .failed e => readFrameFrom chunks = .error e
    | .needs _ => ∃ what,
        readFrameFrom chunks = .error (.wire (what ++ " read failed: " ++ earlyEof)) := by
  cases hread : readFrame chunks.flatten with
  | frame frame => exact readFrameFrom_of_frame hsolid hread
  | failed e => exact readFrameFrom_of_failed hsolid hread
  | needs k => exact readFrameFrom_of_needs hsolid hread

/-! ## Round trip -/

/-- An encoded message is read off the front of the stream, wherever it is cut. -/
theorem readFrameFrom_encodeMessage {msg : WireMessage} {rest : List UInt8} (hsolid : Solid chunks)
    (hencode : encodeMessage json msg = .ok frame) (hchunks : chunks.flatten = frame ++ rest) :
    ∃ later, readFrameFrom chunks = .ok (frame, later) ∧ later.flatten = rest ∧ Solid later := by
  have hframe : readFrame chunks.flatten = .frame frame := by
    rw [hchunks]
    exact Format.progress_append_frame (readFrame_encodeMessage hencode) rest
  obtain ⟨later, hread, hsplit, hsolid'⟩ := readFrameFrom_of_frame hsolid hframe
  rw [hchunks] at hsplit
  exact ⟨later, hread, (List.append_cancel_left hsplit).symm, hsolid'⟩

theorem readFrames_encodeMessage {msgs : List WireMessage} {frames : List (List UInt8)}
    {rest : List UInt8}
    (hencode : List.Forall₂ (fun msg f => encodeMessage json msg = .ok f) msgs frames)
    (hsolid : Solid chunks) (hchunks : chunks.flatten = frames.flatten ++ rest) :
    ∃ later, readFrames frames.length chunks = .ok (frames, later) ∧ later.flatten = rest := by
  induction hencode generalizing chunks with
  | nil => exact ⟨chunks, rfl, hchunks⟩
  | @cons msg f msgs frames hmsg _ ih =>
      rw [List.flatten_cons, List.append_assoc] at hchunks
      obtain ⟨behind, hread, hbehind, hsolid'⟩ := readFrameFrom_encodeMessage hsolid hmsg hchunks
      obtain ⟨later, hreads, hlater⟩ := ih hsolid' hbehind
      refine ⟨later, ?_, hlater⟩
      rw [List.length_cons, readFrames, hread]
      simp only [hreads]

/-- What follows the frame in the slice does not matter to `decode_message`. -/
theorem decodeMessage_append {msg : WireMessage} (hencode : encodeMessage json msg = .ok frame)
    (extra : List UInt8) : decodeMessage json (frame ++ extra) = .ok msg := by
  obtain ⟨hfits, rfl⟩ := encodeMessage_eq_ok.mp hencode
  have hpos := List.length_pos_of_ne_nil (json.toVec_ne_nil msg)
  have hlimit : (json.toVec msg).length < 2 ^ 32 := by
    unfold maxPayloadBytes at hfits
    omega
  rw [List.append_assoc]
  have htake : (toBeBytes (json.toVec msg).length ++ (json.toVec msg ++ extra)).take 4 =
      toBeBytes (json.toVec msg).length := List.take_left' rfl
  have hdrop : (toBeBytes (json.toVec msg).length ++ (json.toVec msg ++ extra)).drop 4 =
      json.toVec msg ++ extra := List.drop_left' rfl
  rw [decodeMessage, htake, hdrop, fromBeBytes_toBeBytes hlimit]
  rw [if_neg (by simp), if_neg (by omega), if_neg (by omega), if_neg (by simp),
    List.take_left, json.fromSlice_toVec]

theorem encodeMessage_fails_iff {msg : WireMessage} :
    (∃ e, encodeMessage json msg = .error e) ↔ maxPayloadBytes < (json.toVec msg).length := by
  constructor
  · rintro ⟨e, he⟩
    by_contra hfits
    have hok : encodeMessage json msg = .ok _ := Encodes.encodeMessage (Nat.not_lt.mp hfits)
    rw [he] at hok
    cases hok
  · intro hlong
    exact ⟨_, encodeMessage_of_not_encodes (Nat.not_le.mpr hlong)⟩

/-- **Frames survive the stream**: whatever the cuts, the frames of any messages come out
as they went in, each decodes to its message, and what follows them is left. -/
theorem framing_round_trip (json : SerdeJson) {msgs : List WireMessage}
    {frames : List (List UInt8)} {rest : List UInt8} {chunks : List (List UInt8)}
    (hencode : List.Forall₂ (fun msg frame => encodeMessage json msg = .ok frame) msgs frames)
    (hsolid : Solid chunks) (hchunks : chunks.flatten = frames.flatten ++ rest) :
    (∃ later, readFrames msgs.length chunks = .ok (frames, later) ∧ later.flatten = rest) ∧
      List.Forall₂ (fun msg frame => ∀ extra, decodeMessage json (frame ++ extra) = .ok msg)
        msgs frames ∧
      ∀ msg, (∃ e, encodeMessage json msg = .error e) ↔ 16384 < (json.toVec msg).length := by
  refine ⟨?_, hencode.imp fun _ _ hmsg => decodeMessage_append hmsg,
    fun _ => encodeMessage_fails_iff⟩
  rw [hencode.length_eq]
  exact readFrames_encodeMessage hencode hsolid hchunks

/-- A text and another byte, one byte a read. -/
theorem framing_round_trip_bytewise :
    let frame := frameBytes SerdeJson.standard (.system "hi")
    (∃ later, readFrames 1 ((frame ++ [7]).map fun byte => [byte]) = .ok ([frame], later) ∧
      later.flatten = [7]) ∧
      decodeMessage SerdeJson.standard (frame ++ []) = .ok (.system "hi") := by
  intro frame
  have hfits : Encodes SerdeJson.standard (.system "hi") := by decide
  have hsolid : Solid ((frame ++ [7]).map fun byte => [byte]) := by
    intro chunk hchunk
    obtain ⟨byte, -, rfl⟩ := List.mem_map.mp hchunk
    exact List.cons_ne_nil byte []
  have hchunks : ((frame ++ [7]).map fun byte => [byte]).flatten = [frame].flatten ++ [7] := by
    rw [← List.flatMap_def, List.flatMap_singleton', List.flatten_singleton]
  obtain ⟨hread, hdecode, -⟩ := framing_round_trip SerdeJson.standard
    (List.Forall₂.cons hfits.encodeMessage .nil) hsolid hchunks
  cases hdecode with
  | cons hdecode _ => exact ⟨hread, hdecode []⟩

end Nullpipe

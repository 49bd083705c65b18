import Nullpipe.Core.Wire
import Nullpipe.Lib.Listener

/-!
# Well-formed streams

What a stream of arbitrary bytes says, without the reader: `Payloads bytes ps` holds when
`bytes` starts with the frames of the payloads `ps`, one behind the other, and no frame
follows them.  A good payload is not empty, fits a frame and is UTF-8; what is behind the last
good frame may be anything, an unfinished frame or one that `read_frame` refuses.

* Every stream says something (`exists_payloads`), by recursion on its length.
* Repeated calls of `read_frame` find just these payloads (`Payloads.frames_eq`).  The step is
  `readFrame_eq_frame_iff`: a read completes exactly on the frame of a good payload, and the
  only work in it is that the four bytes of a header and the length they announce determine
  each other.

The two readers make different things of a payload that is no message: the hub's stops there
(`opening`), the joiner's passes over it (`readable`).  Neither definition mentions frames, and
`Payloads.streamMessages_eq` and `Payloads.heard_readAll` tie them to the readers.
-/

namespace Nullpipe

open Framing

variable {json : SerdeJson} {bytes payload frame more : List UInt8} {ps : List (List UInt8)}

/-! ## Frames -/

/-- A payload that a frame can carry. -/
def GoodPayload (payload : List UInt8) : Prop :=
  1 ≤ payload.length ∧ payload.length ≤ maxPayloadBytes ∧ ValidUtf8 payload

/-- The payload behind its length. -/
def frameOf (payload : List UInt8) : List UInt8 := toBeBytes payload.length ++ payload

theorem toBeBytes_fromBeBytes {header : List UInt8} (hlen : header.length = 4) :
    toBeBytes (fromBeBytes header) = header := by
  match header, hlen with
  | [a, b, c, d], _ =>
    have ha := a.toNat_lt
    have hb := b.toNat_lt
    have hc := c.toNat_lt
    have hd := d.toNat_lt
    have hbyte : ∀ (n : ℕ) (byte : UInt8), n % 256 = byte.toNat → UInt8.ofNat n = byte := by
      intro n byte h
      apply UInt8.toNat_inj.mp
      rw [UInt8.toNat_ofNat']
      exact h
    simp only [fromBeBytes, toBeBytes, List.foldl_cons, List.foldl_nil, List.cons.injEq, and_true]
    exact ⟨hbyte _ _ (by omega), hbyte _ _ (by omega), hbyte _ _ (by omega), hbyte _ _ (by omega)⟩

theorem framePayloadLen_eq_ok {header : List UInt8} {n : ℕ} (hlen : header.length = 4) :
    framePayloadLen header = .ok n ↔ header = toBeBytes n ∧ 1 ≤ n ∧ n ≤ maxPayloadBytes := by
  unfold framePayloadLen
  dsimp only
  constructor
  · intro h
    split at h
    · cases h
    split at h
    · cases h
    · cases h
      exact ⟨(toBeBytes_fromBeBytes hlen).symm, by omega, by omega⟩
  · rintro ⟨rfl, hpos, hmax⟩
    have hword : n < 2 ^ 32 := by
      unfold maxPayloadBytes at hmax
      omega
    rw [fromBeBytes_toBeBytes hword, if_neg (by omega), if_neg (by omega)]

/-- **`read_frame` accepts the frames of good payloads.** -/
theorem readFrame_eq_frame_iff :
    readFrame bytes = .frame frame ↔
      ∃ payload more, GoodPayload payload ∧ frame = frameOf payload ∧
        bytes = frameOf payload ++ more := by
  constructor
  · intro h
    rcases Format.progress_cases wireFormat bytes with ⟨-, hp⟩ | ⟨-, e, -, hp⟩ |
      ⟨hlen, n, hsize, hrest⟩
    -- the reader asks for more of the header, or the length is out of range
    · rw [readFrame, hp] at h
      cases h
    · rw [readFrame, hp] at h
      cases h
    -- the header is complete; only a whole payload that is UTF-8 gives a frame
    rcases hrest with ⟨-, hp⟩ | ⟨-, e, -, hp⟩ | ⟨hlong, hcheck, hp⟩
    · rw [readFrame, hp] at h
      cases h
    · rw [readFrame, hp] at h
      cases h
    · rw [readFrame, hp] at h
      have hfour : (bytes.take 4).length = 4 := List.length_take_of_le hlen
      obtain ⟨hheader, hpos, hmax⟩ := (framePayloadLen_eq_ok hfour).mp hsize
      have hpayload : ((bytes.drop 4).take n).length = n := by
        have hlong' : 4 + n ≤ bytes.length := hlong
        rw [List.length_take, List.length_drop]
        omega
      have hvalid : ValidUtf8 ((bytes.drop 4).take n) := by
        by_contra hbad
        have hfail : checkPayload ((bytes.drop 4).take n) = _ := if_neg hbad
        have hcheck' : checkPayload ((bytes.drop 4).take n) = .ok () := hcheck
        rw [hfail] at hcheck'
        cases hcheck'
      -- the header that was read is the one a sender would write
      have hframe : bytes.take (4 + n) = frameOf ((bytes.drop 4).take n) := by
        rw [frameOf, hpayload, ← hheader, List.take_add]
      refine ⟨(bytes.drop 4).take n, bytes.drop (4 + n), ⟨by omega, by omega, hvalid⟩, ?_, ?_⟩
      · rw [← hframe]
        exact (Progress.frame.inj h).symm
      · rw [← hframe, List.take_append_drop]
  · rintro ⟨payload, more, ⟨hpos, hmax, hvalid⟩, rfl, rfl⟩
    have htake : (toBeBytes payload.length ++ payload).take 4 = toBeBytes payload.length :=
      List.take_left' rfl
    have hdrop : (toBeBytes payload.length ++ payload).drop 4 = payload := List.drop_left' rfl
    have hsize := (framePayloadLen_eq_ok (n := payload.length) (length_toBeBytes _)).mpr
      ⟨rfl, hpos, hmax⟩
    have hwhole : readFrame (frameOf payload) = .frame (frameOf payload) := by
      have hcheck : checkPayload payload = .ok () := if_pos hvalid
      rw [readFrame, frameOf, Format.progress_of_header (by simp [wireFormat])]
      simp only [wireFormat, htake, hsize, hdrop, List.take_length, hcheck, List.length_append,
        length_toBeBytes, Nat.lt_irrefl, if_false]
      rw [List.take_of_length_le (by simp)]
    exact Format.progress_append_frame hwhole more

/-- `decode_message` on a frame is the JSON reader on its payload. -/
theorem decoded_frameOf (h : GoodPayload payload) :
    decoded json (frameOf payload) = (json.fromSlice payload).toOption := by
  obtain ⟨hpos, hmax, -⟩ := h
  have hword : payload.length < 2 ^ 32 := by
    unfold maxPayloadBytes at hmax
    omega
  have htake : (toBeBytes payload.length ++ payload).take 4 = toBeBytes payload.length :=
    List.take_left' rfl
  have hdrop : (toBeBytes payload.length ++ payload).drop 4 = payload := List.drop_left' rfl
  rw [decoded, decodeMessage, frameOf, htake, hdrop, fromBeBytes_toBeBytes hword]
  rw [if_neg (by simp), if_neg (by omega), if_neg (by omega), if_neg (by simp), List.take_length]
  cases json.fromSlice payload <;> rfl

/-! ## Streams -/

/-- The payloads of the longest front part of a stream that consists of frames. -/
inductive Payloads : List UInt8 → List (List UInt8) → Prop
  | frame {payload more : List UInt8} {ps : List (List UInt8)} (hgood : GoodPayload payload)
      (hrest : Payloads more ps) : Payloads (frameOf payload ++ more) (payload :: ps)
  | stop {bytes : List UInt8}
      (hbad : ¬ ∃ payload more, GoodPayload payload ∧ bytes = frameOf payload ++ more) :
      Payloads bytes []

theorem frames_of_good (hgood : GoodPayload payload) (more : List UInt8) :
    wireFormat.frames (frameOf payload ++ more) = frameOf payload :: wireFormat.frames more := by
  have hframe : readFrame (frameOf payload ++ more) = .frame (frameOf payload) :=
    readFrame_eq_frame_iff.mpr ⟨payload, more, hgood, rfl, rfl⟩
  rw [Format.frames, Format.messages_of_frame hframe rfl, List.drop_left]
  rfl

theorem frames_of_bad
    (hbad : ¬ ∃ payload more, GoodPayload payload ∧ bytes = frameOf payload ++ more) :
    wireFormat.frames bytes = [] := by
  cases hprogress : wireFormat.progress bytes with
  | needs k => exact Format.messages_of_needs hprogress
  | failed e => exact Format.messages_of_failed hprogress
  | frame f =>
      obtain ⟨payload, more, hgood, -, hbytes⟩ := readFrame_eq_frame_iff.mp hprogress
      exact absurd ⟨payload, more, hgood, hbytes⟩ hbad

/-- **Repeated reads find the payloads of the stream.** -/
theorem Payloads.frames_eq (h : Payloads bytes ps) :
    wireFormat.frames bytes = ps.map frameOf ∧ ∀ p ∈ ps, GoodPayload p := by
  induction h with
  | frame hgood _ ih =>
      refine ⟨?_, ?_⟩
      · rw [frames_of_good hgood, ih.1]
        rfl
      · intro p hp
        rcases List.mem_cons.mp hp with rfl | hp
        · exact hgood
        · exact ih.2 p hp
  | stop hbad => exact ⟨frames_of_bad hbad, fun p hp => absurd hp List.not_mem_nil⟩

theorem exists_payloads (bytes : List UInt8) : ∃ ps, Payloads bytes ps := by
  induction hlen : bytes.length using Nat.strongRecOn generalizing bytes with
  | _ n ih =>
      by_cases hgood : ∃ payload more, GoodPayload payload ∧ bytes = frameOf payload ++ more
      · obtain ⟨payload, more, hgood, rfl⟩ := hgood
        have hshort : more.length < n := by
          rw [← hlen, List.length_append, frameOf, List.length_append, length_toBeBytes]
          omega
        obtain ⟨ps, hps⟩ := ih _ hshort more rfl
        exact ⟨payload :: ps, .frame hgood hps⟩
      · exact ⟨[], .stop hgood⟩

/-! ## What the readers make of them -/

/-- The messages of the payloads up to the first one that is none. -/
def opening (json : SerdeJson) : List (List UInt8) → List WireMessage
  | [] => []
  | payload :: ps =>
    match json.fromSlice payload with
    | .ok msg => msg :: opening json ps
    | .error _ => []

/-- A hub reads the opening of a stream. -/
theorem Payloads.streamMessages_eq (h : Payloads bytes ps) :
    streamMessages json bytes = opening json ps := by
  induction h with
  | @frame payload more ps hgood _ ih =>
      have hframe : readFrame (frameOf payload ++ more) = .frame (frameOf payload) :=
        readFrame_eq_frame_iff.mpr ⟨payload, more, hgood, rfl, rfl⟩
      have hdecoded : decoded json (frameOf payload) = _ := decoded_frameOf hgood
      rw [opening]
      cases hjson : json.fromSlice payload with
      | error e =>
          rw [hjson] at hdecoded
          exact Format.messages_of_undecodable hframe hdecoded
      | ok msg =>
          rw [hjson] at hdecoded
          rw [streamMessages, Format.messages_of_frame hframe hdecoded, List.drop_left]
          exact congrArg _ ih
  | stop hbad =>
      have hframes := frames_of_bad hbad
      rw [opening, streamMessages]
      cases hprogress : wireFormat.progress _ with
      | needs k => exact Format.messages_of_needs hprogress
      | failed e => exact Format.messages_of_failed hprogress
      | frame f =>
          rw [Format.frames, Format.messages_of_frame hprogress rfl] at hframes
          cases hframes

/-- All messages among the payloads. -/
def readable (json : SerdeJson) (ps : List (List UInt8)) : List WireMessage :=
  ps.filterMap fun payload => (json.fromSlice payload).toOption

/-- A reader that hands every message on and passes over what is none. -/
def readAll {ω : Type*} (json : SerdeJson) (event : WireMessage → ω) (frame : List UInt8) :
    Verdict ω :=
  match decoded json frame with
  | some msg => .hand (event msg)
  | none => .skip

theorem handed_readAll {ω : Type*} (event : WireMessage → ω) (hgood : ∀ p ∈ ps, GoodPayload p) :
    Verdict.handed ((ps.map frameOf).map (readAll json event)) = (readable json ps).map event := by
  induction ps with
  | nil => rfl
  | cons payload ps ih =>
      have hrest := ih fun p hp => hgood p (List.mem_cons_of_mem _ hp)
      have hdecoded : decoded json (frameOf payload) = _ :=
        decoded_frameOf (hgood payload (List.mem_cons_self ..))
      rw [List.map_cons, List.map_cons, Verdict.handed_cons, hrest, readAll, hdecoded, readable,
        readable]
      cases hjson : (json.fromSlice payload).toOption with
      | none =>
          simp only [List.filterMap_cons, hjson]
          rfl
      | some msg =>
          simp only [List.filterMap_cons, hjson]
          rfl

/-- A joiner reads all messages of the front part that is well-formed. -/
theorem Payloads.heard_readAll {ω : Type*} (event : WireMessage → ω) (h : Payloads bytes ps) :
    wireFormat.heard (readAll json event) bytes = (readable json ps).map event := by
  obtain ⟨hframes, hgood⟩ := h.frames_eq
  rw [Format.heard, hframes, handed_readAll event hgood]

end Nullpipe

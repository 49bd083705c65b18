import Mathlib.Data.List.Basic
import Mathlib.Tactic.Common

/-!
# Length-prefixed frames on a byte stream

A frame is a header of fixed length, which announces the length of the payload,
followed by the payload.  `Format.progress` is a resumable reader: given the
bytes a read in progress has received so far, it says how many more the pending
read asks for, or that the frame is complete, or that it is malformed.  It asks
for the rest of the header first and for the rest of the payload second, so it
never takes a byte past the end of the frame (`progress_exact`).

`Format.messages` is what a reader gets out of a whole stream: the decoded
frames, in order, up to the first bad or unfinished one.  `Consumed` relates the
two for a reader that is still running, whatever the chunks it was fed.
-/

namespace Framing

variable {ε μ : Type*}

/-- A frame format: the header, the payload length it announces, and the check
made on a complete payload. -/
structure Format (ε : Type*) where
  headerLen : ℕ
  headerLen_pos : 0 < headerLen
  payloadLen : List UInt8 → Except ε ℕ
  check : List UInt8 → Except ε Unit

/-- Where a read of one frame stands. -/
inductive Progress (ε : Type*)
  | needs (n : ℕ)
  | failed (e : ε)
  | frame (bytes : List UInt8)
  deriving DecidableEq

namespace Format

variable (F : Format ε)

/-- What a read that has received `got` does next. -/
def progress (got : List UInt8) : Progress ε :=
  if got.length < F.headerLen then .needs (F.headerLen - got.length)
  else
    match F.payloadLen (got.take F.headerLen) with
    | .error e => .failed e
    | .ok n =>
      if got.length < F.headerLen + n then .needs (F.headerLen + n - got.length)
      else
        match F.check ((got.drop F.headerLen).take n) with
        | .error e => .failed e
        | .ok () => .frame (got.take (F.headerLen + n))

variable {F} {got chunk more f : List UInt8} {e : ε} {k : ℕ}

/-- A complete header leaves only the payload length to look at. -/
theorem progress_of_header (hlen : F.headerLen ≤ got.length) :
    F.progress got =
      match F.payloadLen (got.take F.headerLen) with
      | .error e => .failed e
      | .ok n =>
        if got.length < F.headerLen + n then .needs (F.headerLen + n - got.length)
        else
          match F.check ((got.drop F.headerLen).take n) with
          | .error e => .failed e
          | .ok () => .frame (got.take (F.headerLen + n)) := by
  rw [progress, if_neg (Nat.not_lt.mpr hlen)]

theorem progress_nil : F.progress [] = .needs F.headerLen := by
  rw [progress, if_pos (by simpa using F.headerLen_pos)]
  simp

/-- The three ways a read can stand, in terms of the bytes received. -/
theorem progress_cases (F : Format ε) (got : List UInt8) :
    (got.length < F.headerLen ∧ F.progress got = .needs (F.headerLen - got.length)) ∨
    (F.headerLen ≤ got.length ∧ ∃ e, F.payloadLen (got.take F.headerLen) = .error e ∧
      F.progress got = .failed e) ∨
    (F.headerLen ≤ got.length ∧ ∃ n, F.payloadLen (got.take F.headerLen) = .ok n ∧
      ((got.length < F.headerLen + n ∧ F.progress got = .needs (F.headerLen + n - got.length)) ∨
       (F.headerLen + n ≤ got.length ∧ ∃ e, F.check ((got.drop F.headerLen).take n) = .error e ∧
        F.progress got = .failed e) ∨
       (F.headerLen + n ≤ got.length ∧ F.check ((got.drop F.headerLen).take n) = .ok () ∧
        F.progress got = .frame (got.take (F.headerLen + n))))) := by
  rcases Nat.lt_or_ge got.length F.headerLen with hlt | hge
  · exact .inl ⟨hlt, by rw [progress, if_pos hlt]⟩
  · refine .inr ?_
    rw [progress_of_header hge]
    cases hsize : F.payloadLen (got.take F.headerLen) with
    | error e => exact .inl ⟨hge, e, rfl, rfl⟩
    | ok n =>
        refine .inr ⟨hge, n, rfl, ?_⟩
        rcases Nat.lt_or_ge got.length (F.headerLen + n) with hshort | hlong
        · exact .inl ⟨hshort, by simp [hshort]⟩
        · simp only [if_neg (Nat.not_lt.mpr hlong)]
          cases hcheck : F.check ((got.drop F.headerLen).take n) with
          | error e => exact .inr (.inl ⟨hlong, e, rfl, rfl⟩)
          | ok u => exact .inr (.inr ⟨hlong, rfl, rfl⟩)

/-- A pending read always asks for at least one byte. -/
theorem progress_needs_pos (h : F.progress got = .needs k) : 0 < k := by
  rcases progress_cases F got with ⟨hlt, hp⟩ | ⟨-, e, -, hp⟩ | ⟨-, n, -, hrest⟩
  · rw [h] at hp
    cases hp
    omega
  · rw [h] at hp
    cases hp
  · rcases hrest with ⟨hlt, hp⟩ | ⟨-, e, -, hp⟩ | ⟨-, -, hp⟩ <;> rw [h] at hp <;> cases hp
    omega

private theorem take_header_append (hlen : F.headerLen ≤ got.length) (more : List UInt8) :
    (got ++ more).take F.headerLen = got.take F.headerLen :=
  List.take_append_of_le_length hlen

private theorem take_payload_append {n : ℕ} (hlen : F.headerLen + n ≤ got.length)
    (more : List UInt8) :
    ((got ++ more).drop F.headerLen).take n = (got.drop F.headerLen).take n := by
  rw [List.drop_append_of_le_length (by omega),
    List.take_append_of_le_length (by rw [List.length_drop]; omega)]

/-- A malformed frame stays malformed whatever follows. -/
theorem progress_append_failed (h : F.progress got = .failed e) (more : List UInt8) :
    F.progress (got ++ more) = .failed e := by
  rcases progress_cases F got with ⟨-, hp⟩ | ⟨hlen, e', hsize, hp⟩ | ⟨hlen, n, hsize, hrest⟩
  · rw [h] at hp
    cases hp
  · rw [h] at hp
    cases hp
    rw [progress_of_header (by rw [List.length_append]; omega), take_header_append hlen, hsize]
  · rcases hrest with ⟨-, hp⟩ | ⟨hlong, e', hcheck, hp⟩ | ⟨-, -, hp⟩ <;> rw [h] at hp <;> cases hp
    rw [progress_of_header (by rw [List.length_append]; omega), take_header_append hlen, hsize]
    simp only [List.length_append,
      if_neg (show ¬ got.length + more.length < F.headerLen + n by omega),
      take_payload_append hlong, hcheck]

/-- A complete frame stays the frame whatever follows. -/
theorem progress_append_frame (h : F.progress got = .frame f) (more : List UInt8) :
    F.progress (got ++ more) = .frame f := by
  rcases progress_cases F got with ⟨-, hp⟩ | ⟨-, e', -, hp⟩ | ⟨hlen, n, hsize, hrest⟩
  · rw [h] at hp
    cases hp
  · rw [h] at hp
    cases hp
  · rcases hrest with ⟨-, hp⟩ | ⟨-, e', -, hp⟩ | ⟨hlong, hcheck, hp⟩ <;> rw [h] at hp <;> cases hp
    rw [progress_of_header (by rw [List.length_append]; omega), take_header_append hlen, hsize]
    simp only [List.length_append,
      if_neg (show ¬ got.length + more.length < F.headerLen + n by omega),
      take_payload_append hlong, hcheck, List.take_append_of_le_length hlong]

/-- A complete frame is the front part of the bytes received, and is not empty. -/
theorem progress_frame_prefix (h : F.progress got = .frame f) :
    0 < f.length ∧ got = f ++ got.drop f.length := by
  have hpos := F.headerLen_pos
  rcases progress_cases F got with ⟨-, hp⟩ | ⟨-, e', -, hp⟩ | ⟨hlen, n, -, hrest⟩
  · rw [h] at hp
    cases hp
  · rw [h] at hp
    cases hp
  · rcases hrest with ⟨-, hp⟩ | ⟨-, e', -, hp⟩ | ⟨hlong, -, hp⟩ <;> rw [h] at hp <;> cases hp
    refine ⟨by rw [List.length_take]; omega, ?_⟩
    rw [List.length_take, Nat.min_eq_left hlong, List.take_append_drop]

/-- **A read takes exactly its frame.**  Each read asks for no more than it
needs, so when the frame completes the bytes received are the frame. -/
theorem progress_exact (hneeds : F.progress got = .needs k) (hfit : chunk.length ≤ k)
    (hframe : F.progress (got ++ chunk) = .frame f) : f = got ++ chunk := by
  rcases progress_cases F (got ++ chunk) with ⟨-, hp⟩ | ⟨-, e', -, hp⟩ | ⟨hlen, n, hsize, hrest⟩
  · rw [hframe] at hp
    cases hp
  · rw [hframe] at hp
    cases hp
  · rcases hrest with ⟨-, hp⟩ | ⟨-, e', -, hp⟩ | ⟨hlong, -, hp⟩ <;> rw [hframe] at hp <;> cases hp
    apply List.take_of_length_le
    rw [List.length_append] at hlong ⊢
    rcases progress_cases F got with ⟨hlt, hp⟩ | ⟨-, e', -, hp⟩ | ⟨hlen', n', hsize', hrest'⟩
    · rw [hneeds] at hp
      cases hp
      omega
    · rw [hneeds] at hp
      cases hp
    · rcases hrest' with ⟨hshort, hp⟩ | ⟨-, e', -, hp⟩ | ⟨-, -, hp⟩ <;>
        rw [hneeds] at hp <;> cases hp
      have hn : n' = n := by
        rw [take_header_append hlen'] at hsize
        exact Except.ok.inj (hsize'.symm.trans hsize)
      omega

/-- **A read inside a good frame waits for more of it**, and for no more than is
missing. -/
theorem progress_of_proper_prefix (hframe : F.progress (got ++ more) = .frame (got ++ more))
    (hmore : more ≠ []) : ∃ k, F.progress got = .needs k ∧ k ≤ more.length := by
  have hpos := List.length_pos_of_ne_nil hmore
  rcases progress_cases F (got ++ more) with ⟨-, hp⟩ | ⟨-, e', -, hp⟩ | ⟨hlen, n, hsize, hrest⟩
  · rw [hframe] at hp
    cases hp
  · rw [hframe] at hp
    cases hp
  · rcases hrest with ⟨-, hp⟩ | ⟨-, e', -, hp⟩ | ⟨hlong, -, hp⟩ <;> rw [hframe] at hp
    · cases hp
    · cases hp
    · have hexact : (got ++ more).length = F.headerLen + n := by
        have htake := congrArg List.length (Progress.frame.inj hp)
        rw [List.length_take, Nat.min_eq_left hlong] at htake
        exact htake
      rw [List.length_append] at hlen hexact
      rcases progress_cases F got with ⟨hlt, hp'⟩ | ⟨hlen', e', hsize', -⟩ |
        ⟨hlen', n', hsize', hrest'⟩
      · exact ⟨_, hp', by omega⟩
      · rw [take_header_append hlen', hsize'] at hsize
        cases hsize
      · rw [take_header_append hlen', hsize'] at hsize
        cases hsize
        rcases hrest' with ⟨hshort, hp'⟩ | ⟨hlong', -⟩ | ⟨hlong', -⟩
        · exact ⟨_, hp', by omega⟩
        · omega
        · omega

/-! ## Whole streams -/

variable (F) (decode : List UInt8 → Option μ)

/-- `messages` with an explicit bound on the number of frames. -/
def messagesUpTo : ℕ → List UInt8 → List μ
  | 0, _ => []
  | fuel + 1, bytes =>
    match F.progress bytes with
    | .frame f =>
      match decode f with
      | some m => m :: messagesUpTo fuel (bytes.drop f.length)
      | none => []
    | _ => []

/-- The decoded frames of a stream, up to the first one that is malformed,
undecodable or unfinished. -/
def messages (bytes : List UInt8) : List μ := messagesUpTo F decode bytes.length bytes

variable {F decode} {bytes : List UInt8} {m : μ}

private theorem messagesUpTo_eq {fuel : ℕ} (hfuel : bytes.length ≤ fuel) :
    messagesUpTo F decode fuel bytes = F.messages decode bytes := by
  unfold messages
  induction fuel using Nat.strongRecOn generalizing bytes with
  | _ fuel ih =>
      cases fuel with
      | zero => rw [Nat.le_zero.mp hfuel]
      | succ fuel =>
          cases hbytes : bytes.length with
          | zero =>
              rw [List.length_eq_zero_iff.mp hbytes]
              simp only [messagesUpTo, progress_nil]
          | succ n =>
              simp only [messagesUpTo]
              cases hprogress : F.progress bytes with
              | needs k => rfl
              | failed e => rfl
              | frame f =>
                  obtain ⟨hpos, -⟩ := progress_frame_prefix hprogress
                  have hdrop : (bytes.drop f.length).length ≤ n := by
                    rw [List.length_drop]
                    omega
                  cases hdecode : decode f with
                  | none => simp only [hdecode]
                  | some m =>
                      simp only [hdecode]
                      rw [ih fuel (by omega) (by omega), ih n (by omega) hdrop]

/-- A stream that starts with a decodable frame. -/
theorem messages_of_frame (hframe : F.progress bytes = .frame f) (hdecode : decode f = some m) :
    F.messages decode bytes = m :: F.messages decode (bytes.drop f.length) := by
  obtain ⟨hpos, hsplit⟩ := progress_frame_prefix hframe
  have hlen : bytes.length = f.length + (bytes.drop f.length).length := by
    rw [← List.length_append, ← hsplit]
  obtain ⟨n, hn⟩ : ∃ n, bytes.length = n + 1 := ⟨bytes.length - 1, by omega⟩
  rw [messages, hn]
  simp only [messagesUpTo, hframe, hdecode]
  rw [messagesUpTo_eq (by omega)]

/-- A stream that starts with a complete frame that does not decode. -/
theorem messages_of_undecodable (hframe : F.progress bytes = .frame f) (hdecode : decode f = none) :
    F.messages decode bytes = [] := by
  unfold messages
  cases bytes.length <;> simp [messagesUpTo, hframe, hdecode]

theorem messages_of_failed (hfailed : F.progress bytes = .failed e) :
    F.messages decode bytes = [] := by
  unfold messages
  cases bytes.length <;> simp [messagesUpTo, hfailed]

theorem messages_of_needs (hneeds : F.progress bytes = .needs k) :
    F.messages decode bytes = [] := by
  unfold messages
  cases bytes.length <;> simp [messagesUpTo, hneeds]

/-- A stream that starts with a given decodable frame. -/
theorem messages_append_of_frame (hframe : F.progress f = .frame f) (hdecode : decode f = some m)
    (rest : List UInt8) : F.messages decode (f ++ rest) = m :: F.messages decode rest := by
  rw [messages_of_frame (progress_append_frame hframe rest) hdecode, List.drop_left]

/-- **The messages of a concatenation of frames are the messages framed.** -/
theorem messages_flatMap {encode : μ → List UInt8} {ms : List μ}
    (hencode : ∀ m ∈ ms, F.progress (encode m) = .frame (encode m) ∧ decode (encode m) = some m)
    (rest : List UInt8) :
    F.messages decode (ms.flatMap encode ++ rest) = ms ++ F.messages decode rest := by
  induction ms with
  | nil => rfl
  | cons m ms ih =>
      obtain ⟨hframe, hdecode⟩ := hencode m (List.mem_cons_self ..)
      rw [List.flatMap_cons, List.append_assoc, messages_append_of_frame hframe hdecode,
        ih fun m' hm' => hencode m' (List.mem_cons_of_mem _ hm')]
      rfl

/-- More bytes can only add messages at the end. -/
theorem messages_prefix_append (bytes more : List UInt8) :
    F.messages decode bytes <+: F.messages decode (bytes ++ more) := by
  induction hlen : bytes.length using Nat.strongRecOn generalizing bytes with
  | _ n ih =>
      cases hprogress : F.progress bytes with
      | needs k =>
          rw [messages_of_needs hprogress]
          exact List.nil_prefix
      | failed e =>
          rw [messages_of_failed hprogress]
          exact List.nil_prefix
      | frame f =>
          obtain ⟨hpos, hsplit⟩ := progress_frame_prefix hprogress
          cases hdecode : decode f with
          | none =>
              rw [messages_of_undecodable hprogress hdecode]
              exact List.nil_prefix
          | some m =>
              have hle : f.length ≤ bytes.length := by
                rw [hsplit, List.length_append]
                omega
              rw [messages_of_frame hprogress hdecode,
                messages_of_frame (progress_append_frame hprogress more) hdecode,
                List.drop_append_of_le_length hle]
              refine List.cons_prefix_cons.mpr ⟨rfl, ih _ ?_ _ rfl⟩
              rw [List.length_drop]
              omega

/-! ## Streams of whole frames -/

section Frames

variable {encode : μ → List UInt8} {ms done : List μ} {front : List UInt8}

/-- The front part of a concatenation of frames is unfinished or starts with the
first of them. -/
theorem progress_of_frames (hframes : ∀ m ∈ ms, F.progress (encode m) = .frame (encode m))
    (hbytes : bytes <+: ms.flatMap encode) (hne : bytes ≠ []) :
    (∃ k, F.progress bytes = .needs k) ∨
      ∃ m rest, ms = m :: rest ∧ F.progress bytes = .frame (encode m) := by
  cases ms with
  | nil => exact absurd (List.prefix_nil.mp hbytes) hne
  | cons m rest =>
      have hframe := hframes m (List.mem_cons_self ..)
      rw [List.flatMap_cons] at hbytes
      by_cases hlen : (encode m).length ≤ bytes.length
      · -- the first frame is complete
        obtain ⟨more, rfl⟩ := List.prefix_of_prefix_length_le (List.prefix_append ..) hbytes hlen
        exact .inr ⟨m, rest, rfl, progress_append_frame hframe more⟩
      · obtain ⟨more, hmore⟩ := List.prefix_of_prefix_length_le hbytes (List.prefix_append ..)
          (Nat.le_of_not_le hlen)
        have hmoreNe : more ≠ [] := by
          rintro rfl
          rw [List.append_nil] at hmore
          exact hlen (Nat.le_of_eq (by rw [hmore]))
        rw [← hmore] at hframe
        obtain ⟨k, hneeds, -⟩ := progress_of_proper_prefix hframe hmoreNe
        exact .inl ⟨k, hneeds⟩

/-- **A reader that has read whole frames and part of the next one** still does so
after a further read: the frame stays unfinished, or it completes as the next
message of the stream. -/
theorem progress_of_aligned (hframes : ∀ m ∈ ms, F.progress (encode m) = .frame (encode m))
    (hdone : done <+: ms)
    (hread : front ++ done.flatMap encode ++ (got ++ chunk) <+: front ++ ms.flatMap encode)
    (hneeds : F.progress got = .needs k) (hfit : chunk.length ≤ k) (hne : chunk ≠ []) :
    (∃ k', F.progress (got ++ chunk) = .needs k') ∨
      ∃ m, done ++ [m] <+: ms ∧ F.progress (got ++ chunk) = .frame (encode m) ∧
        got ++ chunk = encode m := by
  obtain ⟨ahead, rfl⟩ := hdone
  rw [List.flatMap_append, List.append_assoc, List.prefix_append_right_inj,
    List.prefix_append_right_inj] at hread
  have hgot : got ++ chunk ≠ [] := fun hnil => hne (List.append_eq_nil_iff.mp hnil).2
  rcases progress_of_frames (fun m hm => hframes m (List.mem_append_right _ hm)) hread hgot with
    hmore | ⟨m, rest, rfl, hframe⟩
  · exact .inl hmore
  · refine .inr ⟨m, ?_, hframe, (progress_exact hneeds hfit hframe).symm⟩
    rw [List.prefix_append_right_inj]
    exact ⟨rest, rfl⟩

/-- A reader that waits for bytes and has read the whole stream has handed out
every message. -/
theorem done_of_aligned (hframes : ∀ m ∈ ms, F.progress (encode m) = .frame (encode m))
    (hdone : done <+: ms)
    (hread : front ++ done.flatMap encode ++ got = front ++ ms.flatMap encode)
    (hneeds : F.progress got = .needs k) : done = ms ∧ got = [] := by
  obtain ⟨ahead, rfl⟩ := hdone
  rw [List.flatMap_append, List.append_assoc, List.append_cancel_left_eq,
    List.append_cancel_left_eq] at hread
  cases ahead with
  | nil => exact ⟨(List.append_nil _).symm, hread⟩
  | cons m rest =>
      have hframe := progress_append_frame (hframes m
        (List.mem_append_right _ (List.mem_cons_self ..))) (rest.flatMap encode)
      rw [hread, List.flatMap_cons, hframe] at hneeds
      cases hneeds

end Frames

/-! ## Readers that are still running -/

variable (F decode) in
/-- A reader of the stream `all` has handed out `done` and still has `rest`
ahead of it, part of which it may hold in its buffer: whatever arrives later, the
messages of the stream are `done` followed by those of `rest`. -/
def Consumed (all : List UInt8) (done : List μ) (rest : List UInt8) : Prop :=
  ∀ later, F.messages decode (all ++ later) = done ++ F.messages decode (rest ++ later)

variable (F decode) in
/-- A reader of the stream `all` has handed out `done` and nothing more can come
out of it, whatever arrives later. -/
def Finished (all : List UInt8) (done : List μ) : Prop :=
  ∀ later, F.messages decode (all ++ later) = done

variable {all rest : List UInt8} {done : List μ}

theorem Consumed.start (all : List UInt8) : F.Consumed decode all [] all := fun _ => rfl

theorem Consumed.arrive (h : F.Consumed decode all done rest) (chunk : List UInt8) :
    F.Consumed decode (all ++ chunk) done (rest ++ chunk) := fun later => by
  rw [List.append_assoc, List.append_assoc, h]

theorem Finished.arrive (h : F.Finished decode all done) (chunk : List UInt8) :
    F.Finished decode (all ++ chunk) done := fun later => by
  rw [List.append_assoc, h]

/-- Taking a complete frame off the front hands out its message. -/
theorem Consumed.frame (h : F.Consumed decode all done (f ++ rest))
    (hframe : F.progress f = .frame f) (hdecode : decode f = some m) :
    F.Consumed decode all (done ++ [m]) rest := fun later => by
  rw [h, List.append_assoc, messages_append_of_frame hframe hdecode, List.append_assoc,
    List.singleton_append]

/-- A malformed frame at the front ends the stream for good. -/
theorem Consumed.failed (h : F.Consumed decode all done rest)
    (hfailed : F.progress rest = .failed e) :
    F.Finished decode all done := fun later => by
  rw [h, messages_of_failed (progress_append_failed hfailed later), List.append_nil]

/-- A complete frame at the front that does not decode ends the stream for good. -/
theorem Consumed.undecodable (h : F.Consumed decode all done rest)
    (hframe : F.progress rest = .frame f) (hdecode : decode f = none) :
    F.Finished decode all done := fun later => by
  rw [h, messages_of_undecodable (progress_append_frame hframe later) hdecode, List.append_nil]

/-- What was handed out is the front part of the messages of the stream. -/
theorem Consumed.prefix_messages (h : F.Consumed decode all done rest) :
    done <+: F.messages decode all := by
  have hall := h []
  rw [List.append_nil] at hall
  rw [hall]
  exact List.prefix_append _ _

theorem Finished.messages_eq (h : F.Finished decode all done) : F.messages decode all = done := by
  simpa using h []

/-- A reader that waits for bytes with none left has handed out everything. -/
theorem Consumed.messages_eq (h : F.Consumed decode all done rest)
    (hneeds : F.progress rest = .needs k) : F.messages decode all = done := by
  have hall := h []
  rwa [List.append_nil, List.append_nil, messages_of_needs hneeds, List.append_nil] at hall

end Format

end Framing

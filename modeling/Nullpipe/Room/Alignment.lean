import Nullpipe.Room.Subscription

/-!
# Frame alignment

What the hub writes to a peer is the accept byte and then frames, and a reader that has
lost the start of a frame never finds one again.  A write that fails may leave part of
its frame in the stream.  Neither the handler nor the writer looks at the failure, so the
next frame follows: `written_aligned` says that the stream stays aligned as long as
nothing is written behind a torn frame (`LeavesTorn`), `torn_frame_misaligns` that it does not
otherwise.

Whether a frame is torn cannot be read off the state: a writer whose write has failed goes on
to its flush as after a whole frame.  `TearStep` therefore runs the room with a flag, which
goes up in a step that `Tears` the stream and never down; every run of a room has its flag
(`exists_tearRun`).

The invariant `Conn.Wrote` has two cases.

* **Nothing is torn.**  The stream agrees with the phase of the task that writes:
  `Handler.Wrote` up to the join notice, then `Writer.Wrote`.  Where a task is in the middle
  of a frame, its `rest` is what the stream is missing.
* **A frame is torn.**  The stream is aligned and nothing is written any more.

`HandlerStep.wrote` and `WriterStep.wrote` go through the writing tasks, `TearStep.wrote` is
the step lemma, and `Conn.Wrote.aligned` says that a stream that agrees with its tasks is
aligned.  What that is good for is `Aligned.not_failed`: no reader of an aligned stream knows
it to be malformed.
-/

namespace Nullpipe

open Channel Framing Room Transition

variable {X : Crates} {cfg : HostConfig} {c : ConnId} {s t : Room} {torn : Bool}
  {json : SerdeJson} {written : List UInt8} {k : Conn}

/-! ## Aligned streams -/

/-- The accept byte and whole frames. -/
def Whole (json : SerdeJson) (written : List UInt8) : Prop :=
  ∃ msgs : List WireMessage, (∀ msg ∈ msgs, Encodes json msg) ∧
    written = 0 :: msgs.flatMap (frameBytes json)

/-- The accept byte, whole frames, and at the very end at most part of a frame. -/
def Aligned (json : SerdeJson) (written : List UInt8) : Prop :=
  ∃ (msgs : List WireMessage) (part : List UInt8), (∀ msg ∈ msgs, Encodes json msg) ∧
    written = 0 :: msgs.flatMap (frameBytes json) ++ part ∧
    (part = [] ∨ ∃ msg, Encodes json msg ∧ part <+: frameBytes json msg)

theorem Whole.accepted (json : SerdeJson) : Whole json [0] := ⟨[], nofun, rfl⟩

theorem Whole.aligned (h : Whole json written) : Aligned json written := by
  obtain ⟨msgs, hmsgs, rfl⟩ := h
  exact ⟨msgs, [], hmsgs, (List.append_nil _).symm, .inl rfl⟩

/-- Part of a frame behind whole frames. -/
theorem Whole.aligned_append {msg : WireMessage} {part rest : List UInt8} (h : Whole json written)
    (hmsg : Encodes json msg) (hpart : frameBytes json msg = part ++ rest) :
    Aligned json (written ++ part) := by
  obtain ⟨msgs, hmsgs, rfl⟩ := h
  exact ⟨msgs, part, hmsgs, rfl, .inr ⟨msg, hmsg, hpart ▸ List.prefix_append ..⟩⟩

/-- A further frame. -/
theorem Whole.append {msg : WireMessage} (h : Whole json written) (hmsg : Encodes json msg) :
    Whole json (written ++ frameBytes json msg) := by
  obtain ⟨msgs, hmsgs, rfl⟩ := h
  refine ⟨msgs ++ [msg], ?_, by simp⟩
  intro msg' hmem
  rcases List.mem_append.mp hmem with hold | hnew
  · exact hmsgs msg' hold
  · rw [List.mem_singleton.mp hnew]
    exact hmsg

/-- An aligned stream is not one of which a reader knows that it is malformed. -/
theorem Aligned.not_failed {bytes : List UInt8} {e : ChatError} (h : Aligned json (0 :: bytes)) :
    readFrame bytes ≠ .failed e := by
  obtain ⟨msgs, part, hmsgs, hbytes, hpart⟩ := h
  rw [List.cons_append] at hbytes
  have hbytes := List.tail_eq_of_cons_eq hbytes
  -- the torn frame at the end is the front part of a whole one
  have hall : ∃ more : List WireMessage, (∀ msg ∈ more, Encodes json msg) ∧
      bytes <+: more.flatMap (frameBytes json) := by
    rcases hpart with rfl | ⟨msg, hmsg, hpart⟩
    · exact ⟨msgs, hmsgs, by rw [hbytes, List.append_nil]⟩
    · refine ⟨msgs ++ [msg], ?_, ?_⟩
      · intro msg' hmem
        rcases List.mem_append.mp hmem with hold | hnew
        · exact hmsgs msg' hold
        · rw [List.mem_singleton.mp hnew]
          exact hmsg
      · rw [hbytes, List.flatMap_append, List.flatMap_singleton]
        exact (List.prefix_append_right_inj _).mpr hpart
  obtain ⟨more, hmore, hprefix⟩ := hall
  intro hfailed
  by_cases hnil : bytes = []
  · rw [hnil, readFrame, Format.progress_nil] at hfailed
    cases hfailed
  · have hframes : ∀ msg ∈ more, wireFormat.progress (frameBytes json msg) =
        .frame (frameBytes json msg) :=
      fun msg hmsg => readFrame_encodeMessage (hmore msg hmsg).encodeMessage
    rcases Format.progress_of_frames hframes hprefix hnil with ⟨n, hneeds⟩ | ⟨_, _, -, hframe⟩
    · rw [readFrame, hneeds] at hfailed
      cases hfailed
    · rw [readFrame, hframe] at hfailed
      cases hfailed

/-! ## Torn frames -/

/-- A write on the stream of `c` fails in the middle of a frame. -/
def Tears (X : Crates) (c : ConnId) (s : Room) : Label → Prop
  | .handler d (.writeFail _) | .writer d .writeFail =>
    d = c ∧ ¬ Whole X.json (s.conns c).sock.written
  | _ => False

/-- The stream of `c` takes bytes. -/
def Label.Writes (c : ConnId) : Label → Prop
  | .handler d (.write _) | .writer d (.write _) => d = c
  | _ => False

/-- The steps of a room, with a flag that says whether a write on the stream of `c` has
failed in the middle of a frame. -/
def TearStep (X : Crates) (cfg : HostConfig) (c : ConnId) (l : Label) (s t : Room × Bool) : Prop :=
  Step X cfg l s.1 t.1 ∧ (t.2 = true ↔ s.2 = true ∨ Tears X c s.1 l)

/-- Nothing is written behind a torn frame. -/
def LeavesTorn (c : ConnId) (s : Room × Bool) (l : Label) : Prop := s.2 = true → ¬ l.Writes c

/-- Every run of a room has its flag. -/
theorem exists_tearRun {ls : List Label} (hrun : RoomRun X cfg s ls t) :
    ∃ torn', Run (TearStep X cfg c) (s, torn) ls (t, torn') := by
  induction hrun with
  | nil => exact ⟨torn, .nil⟩
  | @snoc t _ _ l _ hstep ih =>
      obtain ⟨torn', hrun⟩ := ih
      by_cases htears : torn' = true ∨ Tears X c t l
      · exact ⟨true, hrun.snoc ⟨hstep, iff_of_true rfl htears⟩⟩
      · exact ⟨false, hrun.snoc ⟨hstep, iff_of_false Bool.false_ne_true htears⟩⟩

/-! ## Place and stream -/

/-- The handler has written all it ever writes. -/
def Handler.Notified : Handler → Prop
  | .spawnReader _ | .subscribe _ | .serve _ | .abortWriter _ | .deregister _ | .emitLeave _
  | .ended _ => True
  | _ => False

/-- What a handler has written up to its join notice. -/
def Handler.Wrote (X : Crates) (written : List UInt8) : Handler → Prop
  | .idle | .spawned | .readHandshake .. | .lockNonces .. => written = []
  | .rejectReused rest => written ++ rest = [1]
  | .writeAccept _ rest _ => written ++ rest = [0]
  | .flushAccept .. | .readName .. | .register _ | .emitJoin _ => written = [0]
  | .notifyJoin info rest => ∃ part, written = 0 :: part ∧ Encodes X.json (joinNotice info) ∧
    frameBytes X.json (joinNotice info) = part ++ rest
  | .failed _ => written <+: [0] ∨ written <+: [1]
  | _ => False

/-- Behind the join notice the stream holds whole frames, up to the one that is being
written. -/
def Writer.Wrote (X : Crates) (written : List UInt8) : Writer → Prop
  | .writing rest _ => ∃ front part msg, Whole X.json front ∧ written = front ++ part ∧
    Encodes X.json msg ∧ frameBytes X.json msg = part ++ rest
  | .ended => True
  | _ => Whole X.json written

/-- The stream of a connection agrees with its tasks. -/
inductive Conn.Wrote (X : Crates) (torn : Bool) (k : Conn) : Prop
  | early (hwriter : k.writer = .unspawned) (htorn : torn = true → ∃ e, k.handler = .failed e)
      (hhandler : k.handler.Wrote X k.sock.written)
  | late (hlate : k.handler.Notified) (haligned : Aligned X.json k.sock.written)
      (hwriter : torn = false → k.writer.Wrote X k.sock.written)
      (hunserved : ∀ info, k.handler = .spawnReader info ∨ k.handler = .subscribe info →
        k.writer = .unspawned)

/-- **A stream that agrees with its tasks is aligned.** -/
theorem Conn.Wrote.aligned (h : k.Wrote X torn) (haccepted : k.sock.written.head? = some 0) :
    Aligned X.json k.sock.written := by
  obtain ⟨-, -, hhandler⟩ | ⟨-, haligned, -, -⟩ := h
  · have hone : k.sock.written = [0] → Aligned X.json k.sock.written := by
      intro heq
      rw [heq]
      exact (Whole.accepted X.json).aligned
    generalize k.sock.written = written at *
    obtain ⟨rest, rfl⟩ : ∃ rest, written = 0 :: rest := by
      cases written with
      | nil => cases haccepted
      | cons byte rest => exact ⟨rest, by rw [Option.some.inj haccepted]⟩
    cases hk : k.handler with
    | idle | spawned | readHandshake | lockNonces =>
        rw [hk] at hhandler
        cases hhandler
    | rejectReused =>
        rw [hk] at hhandler
        simp [Handler.Wrote] at hhandler
    | writeAccept =>
        rw [hk] at hhandler
        refine hone ?_
        simp [Handler.Wrote] at hhandler
        rw [hhandler.1]
    | flushAccept | readName | register | emitJoin =>
        rw [hk] at hhandler
        exact hone hhandler
    | notifyJoin info =>
        -- part of the join notice behind the accept byte
        rw [hk] at hhandler
        obtain ⟨part, heq, hfits, hpart⟩ := hhandler
        rw [heq]
        exact (Whole.accepted X.json).aligned_append hfits hpart
    | failed =>
        -- the stream starts with the accept byte, so it ends there, too
        rw [hk] at hhandler
        refine hone ?_
        rcases hhandler with hzero | hone
        · have hrest := (List.prefix_cons_inj 0).mp hzero
          rw [List.prefix_nil.mp hrest]
        · simp [List.cons_prefix_cons] at hone
    | _ =>
        rw [hk] at hhandler
        cases hhandler
  · exact haligned

/-- The handler is at work on its handshake or its join notice. -/
def Handler.Greets : Handler → Prop
  | .failed _ => False
  | handler => ¬ handler.Notified

theorem Conn.Wrote.of_greets (h : k.Wrote X torn) (hgreets : k.handler.Greets) :
    k.writer = .unspawned ∧ torn = false ∧ k.handler.Wrote X k.sock.written := by
  cases h with
  | early hwriter htorn hhandler =>
      refine ⟨hwriter, Bool.eq_false_of_not_eq_true fun heq => ?_, hhandler⟩
      obtain ⟨e, he⟩ := htorn heq
      rw [he] at hgreets
      exact hgreets
  | late hlate =>
      generalize k.handler = handler at *
      cases handler <;> first | exact hlate.elim | exact absurd hlate hgreets

/-- A step of the handler behind its join notice: the stream is left alone. -/
theorem Conn.Wrote.of_notified {k' : Conn} {torn' : Bool} (h : k.Wrote X torn)
    (hnotified : k.handler.Notified) (htorn : torn' = false → torn = false)
    (hlate : k'.handler.Notified) (hsock : k'.sock = k.sock)
    (hwriter : k'.writer = k.writer ∨ k.writer = .unspawned ∧ k'.writer = .recv)
    (hunserved : ∀ info, k'.handler = .spawnReader info ∨ k'.handler = .subscribe info →
      k'.writer = .unspawned) : k'.Wrote X torn' := by
  cases h with
  | early _ _ hhandler =>
      generalize k.handler = handler at *
      cases handler <;> first | exact hnotified.elim | exact hhandler.elim
  | late _ haligned hold =>
      refine .late hlate (hsock ▸ haligned) (fun hfalse => ?_) hunserved
      rw [hsock]
      rcases hwriter with hsame | ⟨hunspawned, hrecv⟩
      · rw [hsame]
        exact hold (htorn hfalse)
      · have hwhole := hold (htorn hfalse)
        rw [hunspawned] at hwhole
        rw [hrecv]
        exact hwhole

theorem HandlerStep.wrote {l : HandlerLabel} {torn' : Bool} (h : HandlerStep X c l s t)
    (hflag : torn' = true ↔ torn = true ∨ Tears X c s (.handler c l))
    (hs : (s.conns c).Wrote X torn) : (t.conns c).Wrote X torn' := by
  -- a step that is not a failed write keeps the flag, and a failed reply ends the handler
  have hearly : ∀ k' : Conn, (s.conns c).handler.Greets → k'.writer = (s.conns c).writer →
      ((∀ reason, l ≠ .writeFail reason) ∨ ∃ e, k'.handler = .failed e) →
      ((s.conns c).handler.Wrote X (s.conns c).sock.written →
        k'.handler.Wrote X k'.sock.written) → k'.Wrote X torn' := by
    intro k' hgreets hwriter hl hnext
    obtain ⟨hunspawned, rfl, hhandler⟩ := hs.of_greets hgreets
    refine .early (hwriter.trans hunspawned) (fun htorn => ?_) (hnext hhandler)
    rcases hl with hl | hfailed
    · rcases hflag.mp htorn with hold | htears
      · cases hold
      · cases l with
        | writeFail reason => exact absurd rfl (hl reason)
        | _ => cases htears
    · exact hfailed
  have hkeep : (∀ reason, l ≠ .writeFail reason) → torn' = false → torn = false := by
    intro hl hfalse
    refine Bool.eq_false_of_not_eq_true fun htorn => ?_
    rw [hflag.mpr (.inl htorn)] at hfalse
    cases hfalse
  cases h with
  | start hphase =>
      simp only [conns_setConn_self]
      exact hearly _ (by rw [hphase]; exact id) rfl (.inl (by simp)) (by rw [hphase]; exact id)
  | readHandshake hphase =>
      simp only [conns_setConn_self]
      refine hearly _ (by rw [hphase]; exact id) rfl (.inl (by simp)) ?_
      rw [hphase]
      exact fun hwrote => handshakeRead_cases (P := fun handler => handler.Wrote X _)
        (fun _ _ => hwrote) (fun _ _ => hwrote) _ _
  | handshakeReadFail hphase | handshakeReadTimeout hphase =>
      simp only [conns_setConn_self]
      refine hearly _ (by rw [hphase]; exact id) rfl (.inl (by simp)) ?_
      rw [hphase]
      exact fun hwrote => .inl (hwrote ▸ List.nil_prefix)
  | insertNonce hphase =>
      simp only [conns_setConn_self]
      refine hearly _ (by rw [hphase]; exact id) rfl (.inl (by simp)) ?_
      rw [hphase]
      intro hwrote
      exact show _ ++ [0] = [0] by rw [show (s.conns c).sock.written = [] from hwrote]; rfl
  | refuseNonce hphase =>
      simp only [conns_setConn_self]
      refine hearly _ (by rw [hphase]; exact id) rfl (.inl (by simp)) ?_
      rw [hphase]
      intro hwrote
      exact show _ ++ [1] = [1] by rw [show (s.conns c).sock.written = [] from hwrote]; rfl
  | @writeReject _ chunk rest hphase =>
      simp only [conns_setConn_self]
      refine hearly _ (by rw [hphase]; exact id) rfl (.inl (by simp)) ?_
      rw [hphase]
      intro hwrote
      have hwrote : (s.conns c).sock.written ++ chunk ++ rest = [1] := by
        rw [List.append_assoc]
        exact hwrote
      dsimp only
      split
      · exact .inr ⟨rest, hwrote⟩
      · exact hwrote
  | rejectFail hphase =>
      simp only [conns_setConn_self]
      refine hearly _ (by rw [hphase]; exact id) rfl (.inr ⟨_, rfl⟩) ?_
      rw [hphase]
      exact fun hwrote => .inr ⟨_, hwrote⟩
  | @writeAccept _ _ chunk rest _ hphase =>
      simp only [conns_setConn_self]
      refine hearly _ (by rw [hphase]; exact id) rfl (.inl (by simp)) ?_
      rw [hphase]
      intro hwrote
      have hwrote : (s.conns c).sock.written ++ chunk ++ rest = [0] := by
        rw [List.append_assoc]
        exact hwrote
      dsimp only
      split
      · rename_i hrest
        rw [hrest, List.append_nil] at hwrote
        exact hwrote
      · exact hwrote
  | acceptFail hphase =>
      simp only [conns_setConn_self]
      refine hearly _ (by rw [hphase]; exact id) rfl (.inr ⟨_, rfl⟩) ?_
      rw [hphase]
      exact fun hwrote => .inl ⟨_, hwrote⟩
  | acceptTimeout hphase =>
      simp only [conns_setConn_self]
      refine hearly _ (by rw [hphase]; exact id) rfl (.inl (by simp)) ?_
      rw [hphase]
      exact fun hwrote => .inl ⟨_, hwrote⟩
  | flushAccept hphase | register hphase =>
      simp only [conns_setConn_self]
      exact hearly _ (by rw [hphase]; exact id) rfl (.inl (by simp)) (by rw [hphase]; exact id)
  | flushFail hphase | flushTimeout hphase | nameReadFail hphase | nameReadTimeout hphase =>
      simp only [conns_setConn_self]
      refine hearly _ (by rw [hphase]; exact id) rfl (.inl (by simp)) ?_
      rw [hphase]
      exact fun hwrote => .inl (hwrote ▸ List.prefix_refl _)
  | readName hphase =>
      simp only [conns_setConn_self]
      refine hearly _ (by rw [hphase]; exact id) rfl (.inl (by simp)) ?_
      rw [hphase]
      intro hwrote
      exact nameRead_cases (P := fun handler => handler.Wrote X (s.conns c).sock.written)
        (fun _ _ _ => hwrote) (fun _ => .inl (hwrote ▸ List.prefix_refl _)) (fun _ => hwrote)
        _ _ _ _ _
  | @emitJoin _ info hphase =>
      simp only [conns_setConn_self]
      have hgreets : (s.conns c).handler.Greets := by
        rw [hphase]
        exact id
      obtain ⟨hunspawned, htorn, hwrote⟩ := hs.of_greets hgreets
      rw [hphase] at hwrote
      have hwrote : (s.conns c).sock.written = [0] := hwrote
      cases hencode : encodeMessage X.json (joinNotice info) with
      | ok frame =>
          obtain ⟨hfits, hframe⟩ := encodes_of_encodeMessage hencode
          refine hearly _ hgreets rfl (.inl (by simp)) fun _ => ?_
          simp only [afterEmitJoin, hencode]
          exact ⟨[], hwrote, hfits, hframe⟩
      | error e =>
          have hafter : afterEmitJoin X.json info = .spawnReader info := by
            rw [afterEmitJoin, hencode]
          rw [hafter]
          refine .late trivial ?_ (fun _ => ?_) (fun _ _ => hunspawned) <;> dsimp only
          · rw [hwrote]
            exact (Whole.accepted X.json).aligned
          · rw [hunspawned, hwrote]
            exact Whole.accepted X.json
  | @writeNotice _ info chunk rest hphase =>
      simp only [conns_setConn_self]
      have hgreets : (s.conns c).handler.Greets := by
        rw [hphase]
        exact id
      obtain ⟨hunspawned, htorn, hwrote⟩ := hs.of_greets hgreets
      rw [hphase] at hwrote
      obtain ⟨part, hwritten, hfits, hframe⟩ := hwrote
      by_cases hrest : rest = []
      · rw [if_pos hrest]
        rw [hrest, List.append_nil] at hframe
        have hwhole : Whole X.json ((s.conns c).sock.write chunk).written := by
          rw [Socket.written_write, hwritten, List.cons_append, ← hframe]
          exact (Whole.accepted X.json).append hfits
        exact .late trivial hwhole.aligned (fun _ => by rw [hunspawned]; exact hwhole)
          fun _ _ => hunspawned
      · rw [if_neg hrest]
        refine hearly _ hgreets rfl (.inl (by simp)) fun _ => ⟨part ++ chunk, ?_, hfits, ?_⟩
        · rw [Socket.written_write, hwritten, List.cons_append]
        · rw [hframe, List.append_assoc]
  | @noticeFail _ info rest _ hphase =>
      simp only [conns_setConn_self]
      have hgreets : (s.conns c).handler.Greets := by
        rw [hphase]
        exact id
      obtain ⟨hunspawned, htorn, hwrote⟩ := hs.of_greets hgreets
      rw [hphase] at hwrote
      obtain ⟨part, hwritten, hfits, hframe⟩ := hwrote
      refine .late trivial ?_ (fun hfalse => ?_) (fun _ _ => hunspawned) <;> dsimp only
      · rw [hwritten]
        exact (Whole.accepted X.json).aligned_append hfits hframe
      · -- the flag is off, so the notice was not torn
        rw [hunspawned]
        refine by_contra fun hpart => ?_
        rw [hflag.mpr (.inr ⟨rfl, hpart⟩)] at hfalse
        cases hfalse
  | spawnReader hphase =>
      simp only [conns_setConn_self]
      have hunserved : (s.conns c).writer = .unspawned := by
        cases hs with
        | early hunspawned => exact hunspawned
        | late _ _ _ hunserved => exact hunserved _ (.inl hphase)
      exact hs.of_notified (by rw [hphase]; trivial) (hkeep (by simp)) trivial rfl (.inl rfl)
        fun _ _ => hunserved
  | subscribe hphase =>
      simp only [conns_setConn_self]
      have hunserved : (s.conns c).writer = .unspawned := by
        cases hs with
        | early hunspawned => exact hunspawned
        | late _ _ _ hunserved => exact hunserved _ (.inr hphase)
      exact hs.of_notified (by rw [hphase]; trivial) (hkeep (by simp)) trivial rfl
        (.inr ⟨hunserved, rfl⟩) (by simp)
  | readerDone hphase | shutdown hphase | abortWriter hphase | deregister hphase
  | emitLeave hphase =>
      simp only [conns_setConn_self]
      exact hs.of_notified (by rw [hphase]; trivial) (hkeep (by simp)) trivial rfl (.inl rfl)
        (by simp)

theorem WriterStep.wrote {l : WriterLabel} {torn' : Bool} (h : WriterStep X c l s t)
    (hflag : torn' = true ↔ torn = true ∨ Tears X c s (.writer c l))
    (hok : torn = true → ¬ (Label.writer c l).Writes c)
    (hs : (s.conns c).Wrote X torn) : (t.conns c).Wrote X torn' := by
  have hkeep : torn' = false → torn = false := by
    intro hfalse
    refine Bool.eq_false_of_not_eq_true fun htorn => ?_
    rw [hflag.mpr (.inl htorn)] at hfalse
    cases hfalse
  have hspawned : (s.conns c).writer ≠ .unspawned := by
    cases h with
    | cancel _ hspawned => exact hspawned
    | _ hphase => exact hphase ▸ nofun
  obtain ⟨hlate, haligned, hwriter, hunserved⟩ : (s.conns c).handler.Notified ∧
      Aligned X.json (s.conns c).sock.written ∧
      (torn = false → (s.conns c).writer.Wrote X (s.conns c).sock.written) ∧
      ∀ info, ¬ ((s.conns c).handler = .spawnReader info ∨
        (s.conns c).handler = .subscribe info) := by
    cases hs with
    | early hunspawned => exact absurd hunspawned hspawned
    | late hlate haligned hwriter hunserved =>
        exact ⟨hlate, haligned, hwriter, fun info hphase => hspawned (hunserved info hphase)⟩
  cases h with
  | @recv _ msg _ hphase =>
      simp only [conns_setConn_self]
      refine .late hlate haligned (fun hfalse => ?_)
        fun info hother => absurd hother (hunserved info)
      have hwhole := hwriter (hkeep hfalse)
      rw [hphase] at hwhole
      cases hencode : encodeMessage X.json msg with
      | error e =>
          simp only [afterRecv, hencode]
          exact hwhole
      | ok frame =>
          obtain ⟨hfits, hframe⟩ := encodes_of_encodeMessage hencode
          simp only [afterRecv, hencode]
          exact ⟨_, [], msg, hwhole, (List.append_nil _).symm, hfits, hframe⟩
  | @write _ chunk rest _ hphase =>
      simp only [conns_setConn_self]
      have htorn : torn = false := Bool.eq_false_of_not_eq_true fun htorn => hok htorn rfl
      have hwriting := hwriter htorn
      rw [hphase] at hwriting
      obtain ⟨front, part, msg, hwhole, hwritten, hfits, hframe⟩ := hwriting
      have hwritten' : ((s.conns c).sock.write chunk).written = front ++ (part ++ chunk) := by
        rw [Socket.written_write, hwritten, List.append_assoc]
      by_cases hrest : rest = []
      · rw [if_pos hrest]
        rw [hrest, List.append_nil] at hframe
        have hmore : Whole X.json ((s.conns c).sock.write chunk).written := by
          rw [hwritten', ← hframe]
          exact hwhole.append hfits
        exact .late hlate hmore.aligned (fun _ => hmore)
          fun info hother => absurd hother (hunserved info)
      · rw [if_neg hrest]
        rw [← List.append_assoc] at hframe
        refine .late hlate ?_
          (fun _ => ⟨front, part ++ chunk, msg, hwhole, hwritten', hfits, hframe⟩)
          fun info hother => absurd hother (hunserved info)
        dsimp only
        rw [hwritten']
        exact hwhole.aligned_append hfits hframe
  | writeFail hphase =>
      simp only [conns_setConn_self]
      refine .late hlate haligned (fun hfalse => ?_)
        fun info hother => absurd hother (hunserved info)
      -- the flag is off, so the frame was not torn
      refine by_contra fun hpart => ?_
      rw [hflag.mpr (.inr ⟨rfl, hpart⟩)] at hfalse
      cases hfalse
  | lagged hphase | flush hphase | flushFail hphase =>
      simp only [conns_setConn_self]
      refine .late hlate haligned (fun hfalse => ?_)
        fun info hother => absurd hother (hunserved info)
      have hwhole := hwriter (hkeep hfalse)
      rw [hphase] at hwhole
      dsimp only
      first
        | exact hwhole
        | rw [hphase]; exact hwhole
  | closed | writeTimeout | flushTimeout | cancel =>
      simp only [conns_setConn_self]
      exact .late hlate haligned (fun _ => trivial)
        fun info hother => absurd hother (hunserved info)

/-! ## Every run -/

/-- A step that leaves the writing tasks of `c` and what they have written alone. -/
theorem Conn.Wrote.frame {k' : Conn} (h : k.Wrote X torn) (hhandler : k'.handler = k.handler)
    (hwriter : k'.writer = k.writer) (hwritten : k'.sock.written = k.sock.written) :
    k'.Wrote X torn := by
  cases h with
  | early hunspawned htorn hwrote =>
      refine .early (hwriter.trans hunspawned) (hhandler ▸ htorn) ?_
      rw [hhandler, hwritten]
      exact hwrote
  | late hlate haligned hwrote hunserved =>
      refine .late (hhandler ▸ hlate) (hwritten ▸ haligned) ?_ ?_
      · rw [hwriter, hwritten]
        exact hwrote
      · rw [hhandler, hwriter]
        exact hunserved

theorem Conn.Wrote.init (X : Crates) : Conn.fresh.Wrote X false :=
  .early rfl (fun heq => absurd heq Bool.false_ne_true) rfl

/-- **Step lemma.**  A step that writes nothing behind a torn frame keeps the stream in
agreement with its tasks. -/
theorem TearStep.wrote {l : Label} {s t : Room × Bool} (h : TearStep X cfg c l s t)
    (hok : LeavesTorn c s l) (hs : (s.1.conns c).Wrote X s.2) : (t.1.conns c).Wrote X t.2 := by
  obtain ⟨s, torn⟩ := s
  obtain ⟨t, torn'⟩ := t
  have hstep : Step X cfg l s t := h.1
  have hflag : torn' = true ↔ torn = true ∨ Tears X c s l := h.2
  have hs : (s.conns c).Wrote X torn := hs
  show (t.conns c).Wrote X torn'
  -- the flag stays where nothing is torn
  have hsame : ¬ Tears X c s l → torn' = torn := by
    intro hnot
    refine Bool.eq_iff_iff.mpr (hflag.trans ?_)
    exact or_iff_left hnot
  by_cases hconn : l.conn = some c
  · cases hstep.connStep hconn with
    | accept haccept hready hidle =>
        rw [hsame id, conns_setConn_self]
        obtain ⟨hunspawned, rfl, hwrote⟩ := hs.of_greets (show (s.conns c).handler.Greets by
          rw [hidle]
          exact id)
        rw [hidle] at hwrote
        exact .early hunspawned (fun heq => absurd heq Bool.false_ne_true) hwrote
    | handler h => exact h.wrote hflag hs
    | reader h =>
        rw [hsame id]
        exact hs.frame h.frame.1 h.frame.2.2.2.1 h.frame.2.2.2.2.2.2
    | writer h => exact h.wrote hflag hok hs
    | net h =>
        rw [hsame id]
        exact hs.frame h.frame.1 h.frame.2.2.2.2.1 h.frame.2.2.2.2.2.2.2.2
  -- a step about another connection tears nothing of this one
  · have hnot : ¬ Tears X c s l := by
      intro htears
      cases l with
      | handler d l =>
          cases l with
          | writeFail => exact hconn (congrArg some htears.1)
          | _ => exact htears
      | writer d l =>
          cases l with
          | writeFail => exact hconn (congrArg some htears.1)
          | _ => exact htears
      | _ => exact htears
    rw [hsame hnot, hstep.conns_of_ne hconn]
    exact hs

/-- **The stream from hub to peer stays aligned** as long as nothing is written behind a
torn frame. -/
theorem written_aligned (X : Crates) (cfg : HostConfig) (c : ConnId) (now : ℕ) (ls : List Label)
    (s : Room) (torn : Bool)
    (hrun : Run (Guarded (TearStep X cfg c) (LeavesTorn c)) (Room.init now, false) ls (s, torn))
    (haccepted : (s.conns c).sock.written.head? = some 0) :
    Aligned X.json (s.conns c).sock.written := by
  have hwrote : (s.conns c).Wrote X torn :=
    hrun.invariant (I := fun s => (s.1.conns c).Wrote X s.2) (.init X)
      fun hs hstep => hstep.1.wrote hstep.2 hs
  exact hwrote.aligned haccepted

/-! ### A torn join notice -/

/-- A run in which no write fails leaves the flag down. -/
theorem run_intact {ls : List Label} (hrun : RoomRun X cfg s ls t)
    (hintact : ∀ l ∈ ls, ∀ s, ¬ Tears X c s l) :
    Run (Guarded (TearStep X cfg c) (LeavesTorn c)) (s, false) ls (t, false) := by
  induction hrun with
  | nil => exact .nil
  | snoc _ hstep ih =>
      refine (ih fun l hl => hintact l (List.mem_append_left _ hl)).snoc ⟨⟨hstep, ?_⟩, nofun⟩
      have hnot := hintact _ (List.mem_append_right _ (List.mem_singleton_self _))
      exact iff_of_false Bool.false_ne_true (fun h => h.elim Bool.false_ne_true (hnot _))

/-- The steps up to ann's join event. -/
def announceLabels : List Label :=
  openLabels "room.onion" ++ handshakeLabels .standard 0 (.fill 0) (.fill 7) "ann" ++ joinLabels 0

theorem run_announce :
    RoomRun .standard ⟨"host", 300⟩ (Room.init 0) announceLabels Room.announcing := by
  have hgreeted : RoomRun .standard ⟨"host", 300⟩ (Room.init 0)
      (openLabels "room.onion" ++ handshakeLabels .standard 0 (.fill 0) (.fill 7) "ann") _ :=
    (run_open ..).append (run_handshake rfl (by decide) rfl rfl (by decide) (by decide))
  have hjoined : RoomRun .standard ⟨"host", 300⟩ _ (joinLabels 0) Room.announcing :=
    .cons (step_register rfl) (.single step_announcing)
  exact hgreeted.append hjoined

/-- The first byte of ann's join notice is in the stream. -/
def Room.halfway : Room :=
  Room.announcing.setConn 0
    { Room.announcing.conns 0 with
      sock := (Room.announcing.conns 0).sock.write [0]
      handler := .notifyJoin ⟨peerId .standard (.fill 7), "ann", 0⟩
        ((frameBytes SerdeJson.standard (.system "ann joined")).drop 1) }

/-- The write of ann's join notice has failed behind the first byte. -/
def Room.tornNotice : Room :=
  Room.halfway.setConn 0
    { Room.halfway.conns 0 with
      handler := .spawnReader ⟨peerId .standard (.fill 7), "ann", 0⟩ }

theorem step_halfway :
    Step .standard ⟨"host", 300⟩ (.handler 0 (.write [0])) Room.announcing Room.halfway := by
  have hframe : (Room.announcing.conns 0).handler =
      .notifyJoin ⟨peerId .standard (.fill 7), "ann", 0⟩
        ([0] ++ (frameBytes SerdeJson.standard (.system "ann joined")).drop 1) := by decide
  exact .handler (.writeNotice hframe (List.cons_ne_nil _ _))

theorem step_tornNotice :
    Step .standard ⟨"host", 300⟩ (.handler 0 (.writeFail "")) Room.halfway Room.tornNotice :=
  .handler (.noticeFail rfl)

/-- A reader finds no frame behind four zero bytes. -/
theorem readFrame_zeros (more : List UInt8) :
    readFrame (0 :: 0 :: 0 :: 0 :: more) = .failed (.wire "zero-length payload") := by
  rw [readFrame, Format.progress_of_header (by simp [wireFormat])]
  rfl

/-- Ann's join notice is torn, and nothing is written behind it. -/
theorem written_aligned_torn :
    ∃ ls s, Run (Guarded (TearStep .standard ⟨"host", 300⟩ 0) (LeavesTorn 0)) (Room.init 0, false)
        ls (s, true) ∧ (s.conns 0).sock.written = [0, 0] ∧
      Aligned SerdeJson.standard (s.conns 0).sock.written := by
  have hintact : ∀ l ∈ announceLabels, ∀ s, ¬ Tears .standard 0 s l := by
    simp [announceLabels, openLabels, handshakeLabels, joinLabels, Tears]
  have htorn : ¬ Whole SerdeJson.standard (Room.halfway.conns 0).sock.written := by
    rintro ⟨msgs, hmsgs, hwritten⟩
    cases msgs with
    | nil => cases hwritten
    | cons msg msgs =>
        have hlen := congrArg List.length hwritten
        rw [List.flatMap_cons, frameBytes_split (hmsgs msg (List.mem_cons_self ..))] at hlen
        simp only [List.length_cons, List.length_append, length_toBeBytes] at hlen
        have htwo : (Room.halfway.conns 0).sock.written.length = 2 := rfl
        omega
  have hrun := (run_intact (c := 0) run_announce hintact).snoc
    (l := .handler 0 (.write [0])) (u := (Room.halfway, false))
    ⟨⟨step_halfway, iff_of_false Bool.false_ne_true (fun h => h.elim Bool.false_ne_true id)⟩, nofun⟩
  have htears : Tears .standard 0 Room.halfway (.handler 0 (.writeFail "")) := ⟨rfl, htorn⟩
  have hrun := hrun.snoc (l := .handler 0 (.writeFail "")) (u := (Room.tornNotice, true))
    ⟨⟨step_tornNotice, iff_of_true rfl (.inr htears)⟩, nofun⟩
  exact ⟨_, _, hrun, rfl, written_aligned .standard ⟨"host", 300⟩ 0 0 _ _ true hrun rfl⟩

/-- Ann's join notice is torn; then the host says something, and the frame follows. -/
theorem torn_frame_misaligns :
    ∃ ls s, RoomRun .standard ⟨"host", 300⟩ (Room.init 0) ls s ∧
      (s.conns 0).handler = .serve ⟨peerId .standard (.fill 7), "ann", 0⟩ ∧
      (s.conns 0).sock.written =
        [0, 0] ++ frameBytes SerdeJson.standard (.chat "host" "hi") ∧
      ¬ Aligned SerdeJson.standard (s.conns 0).sock.written := by
  let info : PeerInfo := ⟨peerId .standard (.fill 7), "ann", 0⟩
  let frame := frameBytes SerdeJson.standard (.chat "host" "hi")
  let served : Room := Room.tornNotice.setConn 0
    { Room.tornNotice.conns 0 with
      handler := .serve info, reader := .spawned info.id, writer := .recv, cursor := 0 }
  let told := served.told ⟨"host", 300⟩ "hi"
  have hrun := (run_announce.snoc step_halfway).snoc step_tornNotice
  have hrun := hrun.snoc (.handler (c := 0) (l := .spawnReader) (.spawnReader rfl))
  have hrun := hrun.extend (v := served) (.handler (c := 0) (l := .subscribe) (.subscribe rfl))
    (by simp only [conns_setConn_self, setConn_setConn]; rfl)
  have hrun : RoomRun .standard ⟨"host", 300⟩ (Room.init 0) _ told :=
    hrun.append (run_text rfl (by decide) rfl rfl rfl)
  -- ann's writer takes the text and writes its frame
  have hrecv : Broadcast.recv broadcastChanCap told.bcast (told.conns 0).cursor =
      (.value (.chat "host" "hi"), 1) := rfl
  have hrun := hrun.extend
    (v := told.setConn 0
      { served.conns 0 with cursor := 1, writer := .writing (frame ++ []) (0 + writeTimeout) })
    (.writer (c := 0) (l := .recv (.chat "host" "hi")) (.recv rfl hrecv)) rfl
  have hrun := hrun.snoc (.writer (c := 0) (l := .write frame)
    (.write (by rw [conns_setConn_self]) (frameBytes_ne_nil (by decide))))
  refine ⟨_, _, hrun, ?_, ?_, fun haligned => ?_⟩
  · rfl
  · rfl
  · -- one zero byte of the notice and the first three of the frame
    exact Aligned.not_failed haligned (readFrame_zeros _)

end Nullpipe

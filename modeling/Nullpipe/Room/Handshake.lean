import Nullpipe.Room.Frame

/-!
# Where a connection stands

What the phase of a handler says about the bytes of its stream and about the two
tasks it spawns: `Conn.Coherent`, an invariant of every reachable room and the one on which
nearly all others rest.  It has three parts, each a function of the phase.

* `Handler.Fits`: the bytes read and written.  Before the name is read the handler holds all
  bytes read so far; then the stream starts with nonce, discriminator and name frame
  (`Greets`), and the rest belongs to the reader.  What was written is a part of the reply,
  then the accept byte and a part of the join notice.
* `Handler.Spawned`: which of the two tasks exist.  A reader exists from `subscribe` on and a
  writer from `serve` on.
* `Handler.Aborts`: which of them may have been aborted.

Both tasks use the stream of the handler, so the parts need each other: a byte that is read
while the handler still counts its bytes would break `Fits`, and it is `Spawned` that excludes
a running reader there (`Handler.Fits.reader`, `Handler.Fits.writer`).

`Step.coherent` is the step lemma and `RoomReachable.coherent` the invariant.  Its main use is
`Conn.Coherent.greets`: the stream of a joined peer starts with its handshake.
-/

namespace Nullpipe

open Channel Room Transition

variable {X : Crates} {cfg : HostConfig} {s t : Room} {c : ConnId}

/-! ## The bytes of a handshake -/

/-- The stream starts with the handshake of the peer `info`, and `more` follows. -/
def Greets (X : Crates) (info : PeerInfo) (read more : List UInt8) : Prop :=
  ∃ (nonce discriminator : Bytes16) (frame : List UInt8) (msg : WireMessage),
    info.id = peerId X discriminator ∧ info.name = msg.text ∧
      readFrame frame = .frame frame ∧ decodeMessage X.json frame = .ok msg ∧
      read = nonce.val ++ discriminator.val ++ frame ++ more

/-- The stream starts with a nonce and the discriminator behind `id`, and `got`
follows. -/
def Presents (X : Crates) (id : PeerId) (read got : List UInt8) : Prop :=
  ∃ nonce discriminator : Bytes16, id = peerId X discriminator ∧
    read = nonce.val ++ discriminator.val ++ got

/-- What the phase of a handler says about the bytes read and written. -/
def Handler.Fits (X : Crates) (read written : List UInt8) : Handler → Prop
  | .idle | .spawned => read = [] ∧ written = []
  | .readHandshake buf _ => read = buf ∧ buf.length < handshakeLen ∧ written = []
  | .lockNonces nonce discriminator => read = nonce.val ++ discriminator.val ∧ written = []
  | .rejectReused rest => (∃ id, Presents X id read []) ∧ written ++ rest = [1]
  | .writeAccept id rest _ => Presents X id read [] ∧ written ++ rest = [0]
  | .flushAccept id _ => Presents X id read [] ∧ written = [0]
  | .readName id got _ => Presents X id read got ∧ (∃ k, readFrame got = .needs k) ∧ written = [0]
  | .register info | .emitJoin info => Greets X info read [] ∧ written = [0]
  | .notifyJoin info rest =>
    Greets X info read [] ∧ ∃ sent, written = 0 :: sent ∧
      encodeMessage X.json (joinNotice info) = .ok (sent ++ rest)
  | .spawnReader info => Greets X info read [] ∧ written.head? = some 0
  | .subscribe info | .serve info | .abortWriter info | .deregister info | .emitLeave info
  | .ended info => (∃ more, Greets X info read more) ∧ written.head? = some 0
  | .failed _ => written = [] ∨ (written = [1] ∨ written.head? = some 0) ∧
      ∃ id got, Presents X id read got

/-- Which tasks a handler in this phase has spawned. -/
def Handler.Spawned (reader : Reader) (writer : Writer) : Handler → Prop
  | .subscribe _ => reader ≠ .unspawned ∧ writer = .unspawned
  | .serve _ | .abortWriter _ | .deregister _ | .emitLeave _ | .ended _ =>
    reader ≠ .unspawned ∧ writer ≠ .unspawned
  | _ => reader = .unspawned ∧ writer = .unspawned

/-- Which of its tasks a handler in this phase may have aborted. -/
def Handler.Aborts (readerAborted writerAborted : Bool) : Handler → Prop
  | .deregister _ | .emitLeave _ | .ended _ => True
  | .abortWriter _ => writerAborted = false
  | _ => readerAborted = false ∧ writerAborted = false

/-- The peer whose join event a handler has emitted. -/
def Handler.joined : Handler → Option PeerInfo
  | .notifyJoin info _ | .spawnReader info | .subscribe info | .serve info | .abortWriter info
  | .deregister info | .emitLeave info | .ended info => some info
  | _ => none

/-- The handler has left its select. -/
def Handler.Gone : Handler → Prop
  | .abortWriter _ | .deregister _ | .emitLeave _ | .ended _ => True
  | _ => False

/-- A connection whose parts agree. -/
structure Conn.Coherent (X : Crates) (k : Conn) : Prop where
  fits : k.handler.Fits X k.sock.read k.sock.written
  spawned : k.handler.Spawned k.reader k.writer
  aborts : k.handler.Aborts k.readerAborted k.writerAborted

theorem Conn.Coherent.fresh (X : Crates) : Conn.fresh.Coherent X :=
  ⟨⟨rfl, rfl⟩, ⟨rfl, rfl⟩, ⟨rfl, rfl⟩⟩

/-! ## The handlers of the handshake -/

section

variable {reader : Reader} {writer : Writer} {read written : List UInt8}

theorem spawned_handshakeRead (buf : List UInt8) (deadline : ℕ) :
    (handshakeRead buf deadline).Spawned reader writer ↔
      reader = .unspawned ∧ writer = .unspawned :=
  handshakeRead_cases
    (P := fun h => h.Spawned reader writer ↔ reader = .unspawned ∧ writer = .unspawned)
    (fun _ _ => .rfl) (fun _ _ => .rfl) ..

theorem spawned_nameRead (json : SerdeJson) (id : PeerId) (got : List UInt8) (deadline now : ℕ) :
    (nameRead json id got deadline now).Spawned reader writer ↔
      reader = .unspawned ∧ writer = .unspawned :=
  nameRead_cases
    (P := fun h => h.Spawned reader writer ↔ reader = .unspawned ∧ writer = .unspawned)
    (fun _ _ _ => .rfl) (fun _ => .rfl) (fun _ => .rfl) ..

theorem spawned_afterEmitJoin (json : SerdeJson) (info : PeerInfo) :
    (afterEmitJoin json info).Spawned reader writer ↔
      reader = .unspawned ∧ writer = .unspawned :=
  afterEmitJoin_cases
    (P := fun h => h.Spawned reader writer ↔ reader = .unspawned ∧ writer = .unspawned)
    (fun _ => .rfl) .rfl json

theorem aborts_of_early {h : Handler} {readerAborted writerAborted : Bool}
    (hearly : h.Spawned .unspawned .unspawned) :
    h.Aborts readerAborted writerAborted ↔ readerAborted = false ∧ writerAborted = false := by
  cases h <;> first | rfl | exact absurd rfl hearly.1

/-- A handshake buffer that is full splits into nonce and discriminator. -/
theorem fits_handshakeRead {buf : List UInt8} (hlen : buf.length ≤ handshakeLen)
    (deadline : ℕ) : (handshakeRead buf deadline).Fits X buf [] := by
  unfold handshakeRead
  split
  · exact ⟨(List.take_append_drop 16 buf).symm, rfl⟩
  · rename_i hne
    exact ⟨rfl, Nat.lt_of_le_of_ne hlen hne, rfl⟩

/-- A name frame that is complete is the whole of what was read for it. -/
theorem fits_nameRead {id : PeerId} {got chunk : List UInt8} {k : ℕ}
    (hread : Presents X id read got) (hneeds : readFrame got = .needs k)
    (hfit : chunk.length ≤ k) (deadline now : ℕ) :
    (nameRead X.json id (got ++ chunk) deadline now).Fits X (read ++ chunk) [0] := by
  obtain ⟨nonce, discriminator, hid, hsplit⟩ := hread
  have hpresents : Presents X id (read ++ chunk) (got ++ chunk) :=
    ⟨nonce, discriminator, hid, by rw [hsplit, List.append_assoc]⟩
  unfold nameRead
  split
  · rename_i n hn
    exact ⟨hpresents, ⟨n, hn⟩, rfl⟩
  · exact .inr ⟨.inr rfl, id, _, hpresents⟩
  · rename_i frame hframe
    have hexact := Framing.Format.progress_exact hneeds hfit hframe
    split
    · exact .inr ⟨.inr rfl, id, _, hpresents⟩
    · rename_i msg hmsg
      refine ⟨⟨nonce, discriminator, frame, msg, hid, rfl, ?_, hmsg, ?_⟩, rfl⟩
      · rw [← hexact] at hframe
        exact hframe
      · rw [hsplit, hexact]
        simp

theorem fits_afterEmitJoin {info : PeerInfo} (hread : Greets X info read []) :
    (afterEmitJoin X.json info).Fits X read [0] := by
  unfold afterEmitJoin
  split
  · rename_i frame hframe
    exact ⟨hread, [], rfl, hframe⟩
  · exact ⟨hread, rfl⟩

end

/-! ## One step -/

theorem HandlerStep.spawned {l : HandlerLabel} (h : HandlerStep X c l s t)
    (hs : (s.conns c).handler.Spawned (s.conns c).reader (s.conns c).writer) :
    (t.conns c).handler.Spawned (t.conns c).reader (t.conns c).writer := by
  cases h with
  | start hphase | readHandshake hphase | handshakeReadFail hphase | handshakeReadTimeout hphase
  | insertNonce hphase | refuseNonce hphase | rejectFail hphase | acceptFail hphase
  | acceptTimeout hphase | flushAccept hphase | flushFail hphase | flushTimeout hphase
  | readName hphase | nameReadFail hphase | nameReadTimeout hphase | register hphase
  | emitJoin hphase | noticeFail hphase | shutdown hphase | abortWriter hphase
  | readerDone hphase | deregister hphase | emitLeave hphase =>
      rw [hphase] at hs
      simp only [conns_setConn_self, spawned_handshakeRead, spawned_nameRead,
        spawned_afterEmitJoin]
      exact hs
  | writeReject hphase | writeAccept hphase | writeNotice hphase =>
      rw [hphase] at hs
      simp only [conns_setConn_self]
      split <;> exact hs
  | spawnReader hphase =>
      rw [hphase] at hs
      simpa [Handler.Spawned] using hs.2
  | subscribe hphase =>
      rw [hphase] at hs
      simpa [Handler.Spawned] using hs.1

theorem HandlerStep.aborts {l : HandlerLabel} (h : HandlerStep X c l s t)
    (hs : (s.conns c).handler.Aborts (s.conns c).readerAborted (s.conns c).writerAborted) :
    (t.conns c).handler.Aborts (t.conns c).readerAborted (t.conns c).writerAborted := by
  cases h with
  | readHandshake hphase =>
      rw [hphase] at hs
      simp only [conns_setConn_self]
      exact (aborts_of_early ((spawned_handshakeRead ..).mpr ⟨rfl, rfl⟩)).mpr hs
  | readName hphase =>
      rw [hphase] at hs
      simp only [conns_setConn_self]
      exact (aborts_of_early ((spawned_nameRead ..).mpr ⟨rfl, rfl⟩)).mpr hs
  | emitJoin hphase =>
      rw [hphase] at hs
      simp only [conns_setConn_self]
      exact (aborts_of_early ((spawned_afterEmitJoin ..).mpr ⟨rfl, rfl⟩)).mpr hs
  | writeReject hphase | writeAccept hphase | writeNotice hphase =>
      rw [hphase] at hs
      simp only [conns_setConn_self]
      split <;> exact hs
  | readerDone hphase | shutdown hphase =>
      -- a handler that serves its peer has aborted nothing
      rw [hphase] at hs
      simp only [conns_setConn_self]
      exact hs.2
  | abortWriter | deregister | emitLeave =>
      simp only [conns_setConn_self]
      trivial
  | start hphase | handshakeReadFail hphase | handshakeReadTimeout hphase
  | insertNonce hphase | refuseNonce hphase | rejectFail hphase | acceptFail hphase
  | acceptTimeout hphase | flushAccept hphase | flushFail hphase | flushTimeout hphase
  | nameReadFail hphase | nameReadTimeout hphase | register hphase | noticeFail hphase
  | spawnReader hphase | subscribe hphase =>
      rw [hphase] at hs
      simp only [conns_setConn_self]
      exact hs

theorem HandlerStep.fits {l : HandlerLabel} (h : HandlerStep X c l s t)
    (hs : (s.conns c).handler.Fits X (s.conns c).sock.read (s.conns c).sock.written) :
    (t.conns c).handler.Fits X (t.conns c).sock.read (t.conns c).sock.written := by
  cases h with
  | start hphase =>
      rw [hphase] at hs
      simp only [conns_setConn_self]
      exact ⟨hs.1, by decide, hs.2⟩
  | @readHandshake _ buf chunk deadline hphase htake hfit =>
      rw [hphase] at hs
      simp only [conns_setConn_self, Socket.read_take, Socket.written_take, hs.1, hs.2.2]
      exact fits_handshakeRead (by rw [List.length_append]; exact hfit) _
  | handshakeReadFail hphase | handshakeReadTimeout hphase =>
      -- nothing was written before the verdict
      rw [hphase] at hs
      simp only [conns_setConn_self]
      exact .inl hs.2.2
  | @insertNonce _ nonce discriminator hphase =>
      rw [hphase] at hs
      simp only [conns_setConn_self]
      exact ⟨⟨nonce, discriminator, rfl, by simpa using hs.1⟩, by rw [hs.2]; rfl⟩
  | @refuseNonce _ nonce discriminator hphase =>
      rw [hphase] at hs
      simp only [conns_setConn_self]
      exact ⟨⟨_, nonce, discriminator, rfl, by simpa using hs.1⟩, by rw [hs.2]; rfl⟩
  | @writeReject _ chunk rest hphase hchunk =>
      -- the reject byte is one byte, so it is written whole or not at all
      rw [hphase] at hs
      obtain ⟨⟨id, hread⟩, hwritten⟩ := hs
      rw [← List.append_assoc] at hwritten
      simp only [conns_setConn_self, Socket.read_write, Socket.written_write]
      split
      · rename_i hrest
        rw [hrest, List.append_nil] at hwritten
        exact .inr ⟨.inl hwritten, id, [], hread⟩
      · exact ⟨⟨id, hread⟩, hwritten⟩
  | rejectFail hphase =>
      rw [hphase] at hs
      obtain ⟨⟨id, hread⟩, hwritten⟩ := hs
      simp only [conns_setConn_self]
      rcases List.append_eq_singleton_iff.mp hwritten with ⟨hnone, -⟩ | ⟨hsome, -⟩
      · exact .inl hnone
      · exact .inr ⟨.inl hsome, id, [], hread⟩
  | @writeAccept _ id chunk rest deadline hphase hchunk =>
      rw [hphase] at hs
      obtain ⟨hread, hwritten⟩ := hs
      rw [← List.append_assoc] at hwritten
      simp only [conns_setConn_self, Socket.read_write, Socket.written_write]
      split
      · rename_i hrest
        rw [hrest, List.append_nil] at hwritten
        exact ⟨hread, hwritten⟩
      · exact ⟨hread, hwritten⟩
  | acceptFail hphase | acceptTimeout hphase =>
      rw [hphase] at hs
      obtain ⟨hread, hwritten⟩ := hs
      simp only [conns_setConn_self]
      rcases List.append_eq_singleton_iff.mp hwritten with ⟨hnone, -⟩ | ⟨hsome, -⟩
      · exact .inl hnone
      · exact .inr ⟨.inr (by rw [hsome]; rfl), _, [], hread⟩
  | flushAccept hphase =>
      -- the buffer of the name frame is empty
      rw [hphase] at hs
      simp only [conns_setConn_self, Socket.read_flush, Socket.written_flush]
      exact ⟨hs.1, ⟨_, Framing.Format.progress_nil⟩, hs.2⟩
  | flushFail hphase | flushTimeout hphase =>
      rw [hphase] at hs
      simp only [conns_setConn_self]
      exact .inr ⟨.inr (by rw [hs.2]; rfl), _, [], hs.1⟩
  | readName hphase htake hneeds hfit =>
      rw [hphase] at hs
      obtain ⟨hread, -, hwritten⟩ := hs
      simp only [conns_setConn_self, Socket.read_take, Socket.written_take, hwritten]
      exact fits_nameRead hread hneeds hfit _ _
  | nameReadFail hphase | nameReadTimeout hphase =>
      rw [hphase] at hs
      obtain ⟨hread, -, hwritten⟩ := hs
      simp only [conns_setConn_self]
      exact .inr ⟨.inr (by rw [hwritten]; rfl), _, _, hread⟩
  | register hphase =>
      rw [hphase] at hs
      simp only [conns_setConn_self]
      exact hs
  | emitJoin hphase =>
      rw [hphase] at hs
      simp only [conns_setConn_self, hs.2]
      exact fits_afterEmitJoin hs.1
  | @writeNotice _ info chunk rest hphase hchunk =>
      -- `sent` is the front part of the join notice that the stream has
      rw [hphase] at hs
      obtain ⟨hread, sent, hwritten, hframe⟩ := hs
      rw [← List.append_assoc] at hframe
      simp only [conns_setConn_self, Socket.read_write, Socket.written_write, hwritten]
      split
      · exact ⟨hread, rfl⟩
      · exact ⟨hread, sent ++ chunk, rfl, hframe⟩
  | noticeFail hphase =>
      rw [hphase] at hs
      obtain ⟨hread, sent, hwritten, -⟩ := hs
      simp only [conns_setConn_self, hwritten]
      exact ⟨hread, rfl⟩
  | spawnReader hphase =>
      -- from here on the bytes that follow are the reader's
      rw [hphase] at hs
      simp only [conns_setConn_self]
      exact ⟨⟨[], hs.1⟩, hs.2⟩
  | subscribe hphase | readerDone hphase | shutdown hphase | abortWriter hphase
  | deregister hphase | emitLeave hphase =>
      rw [hphase] at hs
      simp only [conns_setConn_self]
      exact hs

/-- The stream of a joined peer starts with its handshake. -/
theorem Conn.Coherent.greets {k : Conn} (h : k.Coherent X) {info : PeerInfo}
    (hjoined : k.handler.joined = some info) : ∃ more, Greets X info k.sock.read more := by
  have hfits := h.fits
  cases hphase : k.handler with
  | notifyJoin info' rest | spawnReader info' =>
      rw [hphase] at hjoined hfits
      cases hjoined
      exact ⟨[], hfits.1⟩
  | subscribe info' | serve info' | abortWriter info' | deregister info' | emitLeave info'
  | ended info' =>
      rw [hphase] at hjoined hfits
      cases hjoined
      exact hfits.1
  | _ =>
      rw [hphase] at hjoined
      cases hjoined

/-! ## The steps of the spawned tasks -/

theorem Greets.append {info : PeerInfo} {read more : List UInt8} (h : Greets X info read more)
    (chunk : List UInt8) : Greets X info (read ++ chunk) (more ++ chunk) := by
  obtain ⟨nonce, discriminator, frame, msg, hid, hname, hframe, hmsg, hread⟩ := h
  exact ⟨nonce, discriminator, frame, msg, hid, hname, hframe, hmsg, by rw [hread]; simp⟩

/-- A reader that steps was spawned, and what it read is appended. -/
theorem ReaderStep.spawned {l : ReaderLabel} (h : ReaderStep X c l s t) :
    (s.conns c).reader ≠ .unspawned ∧ (t.conns c).reader ≠ .unspawned ∧
      ∃ chunk, (t.conns c).sock.read = (s.conns c).sock.read ++ chunk := by
  cases h with
  | start hphase | readFail hphase | readTimeout hphase | send hphase | sendClosed hphase =>
      exact ⟨by rw [hphase]; simp, by simp, [], by simp⟩
  | read hphase | message hphase | ping hphase | badFrame hphase | badMessage hphase =>
      exact ⟨by rw [hphase]; simp, by simp, _, by simp; rfl⟩
  | cancel habort hspawned => exact ⟨hspawned, by simp, [], by simp⟩

/-- A writer that steps was spawned, and what it wrote is appended. -/
theorem WriterStep.spawned {l : WriterLabel} (h : WriterStep X c l s t) :
    (s.conns c).writer ≠ .unspawned ∧ (t.conns c).writer ≠ .unspawned ∧
      ∃ chunk, (t.conns c).sock.written = (s.conns c).sock.written ++ chunk := by
  cases h with
  | recv hphase =>
      refine ⟨by rw [hphase]; simp, ?_, [], by simp⟩
      simp only [conns_setConn_self, afterRecv]
      split <;> simp
  | lagged hphase | closed hphase | writeFail hphase | writeTimeout hphase | flush hphase
  | flushFail hphase | flushTimeout hphase =>
      exact ⟨by rw [hphase]; simp, by simp [hphase], [], by simp⟩
  | write hphase =>
      refine ⟨by rw [hphase]; simp, ?_, _, by simp; rfl⟩
      simp only [conns_setConn_self]
      split <;> simp
  | cancel habort hspawned => exact ⟨hspawned, by simp, [], by simp⟩

/-- A handler whose reader may be running stays where it is while bytes are read. -/
theorem Handler.Fits.reader {h : Handler} {reader : Reader} {writer : Writer}
    {read written : List UInt8} (hfits : h.Fits X read written) (hspawned : h.Spawned reader writer)
    (hreader : reader ≠ .unspawned) (chunk : List UInt8) : h.Fits X (read ++ chunk) written := by
  cases h with
  | subscribe | serve | abortWriter | deregister | emitLeave | ended =>
      obtain ⟨⟨more, hmore⟩, hhead⟩ := hfits
      exact ⟨⟨_, hmore.append chunk⟩, hhead⟩
  | _ => exact absurd hspawned.1 hreader

/-- A handler whose writer may be running stays where it is while bytes are written. -/
theorem Handler.Fits.writer {h : Handler} {reader : Reader} {writer : Writer}
    {read written : List UInt8} (hfits : h.Fits X read written) (hspawned : h.Spawned reader writer)
    (hwriter : writer ≠ .unspawned) (chunk : List UInt8) : h.Fits X read (written ++ chunk) := by
  cases h with
  | serve | abortWriter | deregister | emitLeave | ended =>
      exact ⟨hfits.1, by rw [List.head?_append, hfits.2]; rfl⟩
  | _ => exact absurd hspawned.2 hwriter

theorem Handler.Spawned.reader {h : Handler} {reader reader' : Reader} {writer : Writer}
    (hspawned : h.Spawned reader writer) (hreader : reader ≠ .unspawned)
    (hreader' : reader' ≠ .unspawned) : h.Spawned reader' writer := by
  cases h with
  | subscribe | serve | abortWriter | deregister | emitLeave | ended =>
      exact ⟨hreader', hspawned.2⟩
  | _ => exact absurd hspawned.1 hreader

theorem Handler.Spawned.writer {h : Handler} {reader : Reader} {writer writer' : Writer}
    (hspawned : h.Spawned reader writer) (hwriter : writer ≠ .unspawned)
    (hwriter' : writer' ≠ .unspawned) : h.Spawned reader writer' := by
  cases h with
  | serve | abortWriter | deregister | emitLeave | ended => exact ⟨hspawned.1, hwriter'⟩
  | _ => exact absurd hspawned.2 hwriter

/-! ## Every reachable room -/

/-- One step keeps every connection coherent. -/
theorem Step.coherent {l : Label} (h : Step X cfg l s t)
    (hs : ∀ c, (s.conns c).Coherent X) (c : ConnId) : (t.conns c).Coherent X := by
  by_cases hconn : l.conn = some c
  · have hc := hs c
    cases h.connStep hconn with
    | accept _ _ hidle =>
        have hfits := hc.fits
        have hspawned := hc.spawned
        have haborts := hc.aborts
        rw [hidle] at hfits hspawned haborts
        exact ⟨by rw [conns_setConn_self]; exact hfits,
          by rw [conns_setConn_self]; exact hspawned,
          by rw [conns_setConn_self]; exact haborts⟩
    | handler h =>
        exact ⟨h.fits hc.fits, h.spawned hc.spawned, h.aborts hc.aborts⟩
    | reader h =>
        -- `Spawned` says that the handler is past its own reading
        obtain ⟨hbefore, hafter, chunk, hread⟩ := h.spawned
        obtain ⟨hhandler, -, hreaderAborted, hwriter, hwriterAborted, -, hwritten⟩ := h.frame
        constructor
        · rw [hhandler, hread, hwritten]
          exact hc.fits.reader hc.spawned hbefore chunk
        · rw [hhandler, hwriter]
          exact hc.spawned.reader hbefore hafter
        · rw [hhandler, hreaderAborted, hwriterAborted]
          exact hc.aborts
    | writer h =>
        -- and likewise past its own writing
        obtain ⟨hbefore, hafter, chunk, hwritten⟩ := h.spawned
        obtain ⟨hhandler, -, hreader, hreaderAborted, hwriterAborted, hread, -⟩ := h.frame
        constructor
        · rw [hhandler, hread, hwritten]
          exact hc.fits.writer hc.spawned hbefore chunk
        · rw [hhandler, hreader]
          exact hc.spawned.writer hbefore hafter
        · rw [hhandler, hreaderAborted, hwriterAborted]
          exact hc.aborts
    | net h =>
        obtain ⟨hhandler, -, hreader, hreaderAborted, hwriter, hwriterAborted, -, hread,
          hwritten⟩ := h.frame
        exact ⟨by rw [hhandler, hread, hwritten]; exact hc.fits,
          by rw [hhandler, hreader, hwriter]; exact hc.spawned,
          by rw [hhandler, hreaderAborted, hwriterAborted]; exact hc.aborts⟩
  · rw [h.conns_of_ne hconn]
    exact hs c

/-- **In every reachable room every connection is coherent.** -/
theorem RoomReachable.coherent (hs : RoomReachable X cfg s) (c : ConnId) :
    (s.conns c).Coherent X := by
  obtain ⟨now, hreach⟩ := hs
  exact hreach.invariant (I := fun s => ∀ c, (s.conns c).Coherent X)
    (fun _ => .fresh X) (fun hs hstep => hstep.coherent hs) c

end Nullpipe

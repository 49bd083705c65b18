import Nullpipe.Room.Handshake

/-!
# What the reader of a connection has read

Behind nonce, discriminator and name frame the stream of a peer is a sequence of
frames.  `Conn.Reads` ties the state of the reader to the bytes that have arrived:
what it has handed out, together with what it still has ahead of it, is what a
single pass over all of them gives, wherever the chunks end.

* Where the reader is live it holds the start of a frame (`Reader.buffer`), and the frames in
  that and in the bytes it has not taken follow what it has handed out.
* Where it has ended, `ReaderEnd.Explains` says why: behind a malformed frame nothing can
  follow, at the end of the stream there is nothing left, and a reader that timed out or was
  aborted promises nothing.

`ReaderStep.reads` goes through the steps of the reader.  A chunk moves from the inbox to the
buffer and changes nothing; a good frame is handed out, a ping as well, though it is not
forwarded; and a bad frame ends the reader.  `HandlerStep.reads` and `NetStep.reads` are about
the tasks that share the stream: a handler whose peer has joined does not read, and bytes that
arrive lie ahead of the reader.

`Conn.Reads.prefix_framed` and `Conn.Reads.eq_framed` are what the other modules use.
-/

namespace Nullpipe

open Channel Room Framing

variable {X : Crates} {cfg : HostConfig} {s t : Room} {c : ConnId} {l : Label}
  {done : List WireMessage} {info : PeerInfo}

/-! ## The bytes behind the handshake -/

/-- The bytes that follow the handshake of a client. -/
def payload (arrived : List UInt8) : List UInt8 :=
  match readFrame (arrived.drop handshakeLen) with
  | .frame frame => arrived.drop (handshakeLen + frame.length)
  | _ => []

/-- The messages a client has framed after its handshake, up to the first frame
that does not decode. -/
def framed (X : Crates) (k : Conn) : List WireMessage :=
  streamMessages X.json (payload k.sock.arrived)

theorem payload_of_greets {read more : List UInt8} (h : Greets X info read more)
    (later : List UInt8) : payload (read ++ later) = more ++ later := by
  obtain ⟨nonce, discriminator, frame, msg, -, -, hframe, -, rfl⟩ := h
  have hlen : (nonce.val ++ discriminator.val).length = handshakeLen := by
    rw [List.length_append, nonce.property, discriminator.property]
    rfl
  have hdrop : (nonce.val ++ discriminator.val ++ frame ++ more ++ later).drop handshakeLen =
      frame ++ (more ++ later) := by
    rw [List.append_assoc, List.append_assoc, List.drop_left' hlen]
  have hfirst : readFrame (frame ++ (more ++ later)) = .frame frame :=
    Format.progress_append_frame hframe _
  rw [payload, hdrop, hfirst]
  dsimp only
  rw [← List.drop_drop, hdrop, List.drop_left]

/-- Bytes that arrive at a greeted connection go to its payload. -/
theorem payload_arrive {k : Socket} {more : List UInt8} (h : Greets X info k.read more)
    (chunk : List UInt8) : payload (k.arrived ++ chunk) = payload k.arrived ++ chunk := by
  rw [Socket.arrived, List.append_assoc, payload_of_greets h, payload_of_greets h,
    List.append_assoc]

/-! ## The position of the reader -/

/-- The part of an unfinished frame a reader holds. -/
def Reader.buffer : Reader → List UInt8
  | .reading _ got _ => got
  | _ => []

/-- The message a reader is about to put on the message channel. -/
def Reader.held : Reader → List WireMessage
  | .sending _ msg => [msg]
  | _ => []

/-- The chat messages of a list. -/
def chats (msgs : List WireMessage) : List WireMessage := msgs.filter fun msg => msg.kind = .chat

@[simp] theorem chats_nil : chats [] = [] := rfl

@[simp] theorem chats_append (msgs more : List WireMessage) :
    chats (msgs ++ more) = chats msgs ++ chats more := List.filter_append ..

/-- What the reader forwards of a list: everything but the pings. -/
def forwards (msgs : List WireMessage) : List WireMessage := msgs.filter fun msg => msg.kind ≠ .ping

@[simp] theorem forwards_nil : forwards [] = [] := rfl

@[simp] theorem chats_forwards (msgs : List WireMessage) : chats (forwards msgs) = chats msgs := by
  rw [chats, forwards, List.filter_filter]
  congr 1
  funext msg
  cases msg.kind <;> rfl

/-- What the reason for the end of a reader says about the messages `done` it has
handed out: after a malformed frame none can follow, at the end of the stream
none is left, and it was cancelled only if it was aborted. -/
def ReaderEnd.Explains (X : Crates) (k : Conn) (done : List WireMessage) : ReaderEnd → Prop
  | .malformed => wireFormat.Finished (decoded X.json) (payload k.sock.arrived) done
  | .readError => framed X k = done ∧ k.sock.readEnd.isSome
  | .timedOut => True
  | .cancelled => k.readerAborted = true

/-- The reader of a connection has handed out `done`. -/
inductive Conn.Reads (X : Crates) (k : Conn) (done : List WireMessage) : Prop
  | live (hlive : ∀ reason, k.reader ≠ .ended reason)
      (hneeds : ∃ n, readFrame k.reader.buffer = .needs n)
      (hconsumed : wireFormat.Consumed (decoded X.json) (payload k.sock.arrived) done
        (k.reader.buffer ++ k.sock.inbox))
  | ended {reason : ReaderEnd} (hended : k.reader = .ended reason)
      (hfront : done <+: framed X k) (hreason : reason.Explains X k done)

theorem Conn.Reads.prefix_framed {k : Conn} (h : k.Reads X done) : done <+: framed X k := by
  cases h with
  | live _ _ hconsumed => exact hconsumed.prefix_messages
  | ended _ hfront => exact hfront

/-- A reader that runs and has nothing left to read has handed out everything, and
so has one that met a malformed frame or the end of the stream. -/
theorem Conn.Reads.eq_framed {k : Conn} (h : k.Reads X done)
    (htimeout : k.reader ≠ .ended .timedOut)
    (habort : k.readerAborted = false)
    (hinbox : (∃ reason, k.reader = .ended reason) ∨ k.sock.inbox = []) : done = framed X k := by
  cases h with
  | live hlive hneeds hconsumed =>
      obtain ⟨n, hneeds⟩ := hneeds
      rw [hinbox.resolve_left fun ⟨reason, h⟩ => hlive reason h, List.append_nil] at hconsumed
      exact (hconsumed.messages_eq hneeds).symm
  | @ended reason hended _ hreason =>
      cases reason with
      | malformed => exact hreason.messages_eq.symm
      | readError => exact hreason.1.symm
      | timedOut => exact absurd hended htimeout
      | cancelled =>
          rw [show k.readerAborted = true from hreason] at habort
          cases habort

/-- A step that touches neither the reader nor the incoming side of the stream. -/
theorem Conn.Reads.congr {k k' : Conn} (h : k.Reads X done) (hreader : k'.reader = k.reader)
    (hread : k'.sock.read = k.sock.read) (hinbox : k'.sock.inbox = k.sock.inbox)
    (hend : k'.sock.readEnd = k.sock.readEnd)
    (habort : k.readerAborted = true → k'.readerAborted = true) : k'.Reads X done := by
  have harrived : k'.sock.arrived = k.sock.arrived := by
    rw [Socket.arrived, hread, hinbox, Socket.arrived]
  cases h with
  | live hlive hneeds hconsumed =>
      exact .live (by rwa [hreader]) (by rwa [hreader])
        (by rw [harrived, hreader, hinbox]; exact hconsumed)
  | @ended reason hended hfront hreason =>
      refine .ended (hreader.trans hended) (by rwa [framed, harrived]) ?_
      cases reason with
      | malformed =>
          rw [ReaderEnd.Explains, harrived]
          exact hreason
      | readError =>
          rw [ReaderEnd.Explains, framed, harrived, hend]
          exact hreason
      | timedOut => trivial
      | cancelled => exact habort hreason

/-- When a connection joins, its reader has handed out nothing. -/
theorem Conn.Reads.start {k : Conn} (hgreets : Greets X info k.sock.read [])
    (hreader : k.reader = .unspawned) : k.Reads X [] := by
  refine .live (by simp [hreader]) ⟨_, by rw [hreader]; exact Format.progress_nil⟩ ?_
  rw [Socket.arrived, payload_of_greets hgreets, hreader]
  exact .start _

/-! ## The steps of the reader -/

/-- What a step of the reader does to the messages it has handed out: it hands out
further ones and holds what it forwards of them, or it lets go of what it held,
by sending it or because it cannot be sent any more. -/
def Advances (X : Crates) (c : ConnId) (s t : Room) (l : Label) (done : List WireMessage) : Prop :=
  (l ≠ .reader c .send ∧ ∃ more, (t.conns c).Reads X (done ++ more) ∧
    (t.conns c).reader.held = (s.conns c).reader.held ++ forwards more) ∨
  ((t.conns c).Reads X done ∧ (t.conns c).reader.held = [] ∧
    (l = .reader c .send ∨ s.msgs.isOpen = false ∨ (s.conns c).readerAborted = true))

/-- The usual case: no message is handed out. -/
theorem Advances.still (hsend : l ≠ .reader c .send) (hreads : (t.conns c).Reads X done)
    (hheld : (t.conns c).reader.held = (s.conns c).reader.held) : Advances X c s t l done :=
  .inl ⟨hsend, [], by rwa [List.append_nil], by rw [hheld, forwards_nil, List.append_nil]⟩

section

variable {k : Conn} {id : PeerId} {got chunk frame : List UInt8} {deadline n : ℕ}

/-- What a reader has ahead of it after it has taken a chunk. -/
private theorem consumed_take (h : k.Reads X done) (hphase : k.reader = .reading id got deadline)
    (htake : k.sock.CanTake chunk) :
    wireFormat.Consumed (decoded X.json) (payload (k.sock.take chunk).arrived) done
      (got ++ chunk ++ (k.sock.take chunk).inbox) := by
  cases h with
  | live _ _ hconsumed =>
      rw [hphase, Reader.buffer, Socket.inbox_take htake, ← List.append_assoc] at hconsumed
      rw [Socket.arrived_take htake]
      exact hconsumed
  | ended hended =>
      rw [hphase] at hended
      cases hended

/-- The same when the chunk completes a good frame. -/
private theorem consumed_frame {msg : WireMessage} (h : k.Reads X done)
    (hphase : k.reader = .reading id got deadline) (htake : k.sock.CanTake chunk)
    (hneeds : readFrame got = .needs n) (hfit : chunk.length ≤ n)
    (hframe : readFrame (got ++ chunk) = .frame frame)
    (hdecode : decodeMessage X.json frame = .ok msg) :
    wireFormat.Consumed (decoded X.json) (payload (k.sock.take chunk).arrived) (done ++ [msg])
      (k.sock.take chunk).inbox := by
  have hexact := Format.progress_exact hneeds hfit hframe
  rw [← hexact] at hframe
  have htaken := consumed_take h hphase htake
  rw [← hexact] at htaken
  exact htaken.frame hframe (by rw [decoded, hdecode]; rfl)

/-- A reader that goes on to the next frame. -/
private theorem reads_next {msg : WireMessage} (h : k.Reads X done)
    (hphase : k.reader = .sending id msg) (id' : PeerId) (deadline : ℕ) :
    Conn.Reads X { k with reader := .reading id' [] deadline } done := by
  cases h with
  | live _ _ hconsumed =>
      rw [hphase] at hconsumed
      exact .live (fun _ => Reader.noConfusion) ⟨_, Format.progress_nil⟩ hconsumed
  | ended hended =>
      rw [hphase] at hended
      cases hended

end

theorem ReaderStep.reads {l : ReaderLabel} (h : ReaderStep X c l s t)
    (hreads : (s.conns c).Reads X done) : Advances X c s t (.reader c l) done := by
  cases h with
  | start hphase =>
      refine .still (by simp) ?_ (by rw [conns_setConn_self, hphase]; rfl)
      cases hreads with
      | live _ _ hconsumed =>
          rw [hphase] at hconsumed
          rw [conns_setConn_self]
          exact .live (fun _ => Reader.noConfusion) ⟨_, Format.progress_nil⟩ hconsumed
      | ended hended =>
          rw [hphase] at hended
          cases hended
  | @read _ _ _ chunk deadline n k' hphase htake _ _ hmore =>
      refine .still (by simp) ?_ (by rw [conns_setConn_self, hphase]; rfl)
      rw [conns_setConn_self]
      exact .live (fun _ => Reader.noConfusion) ⟨k', hmore⟩ (consumed_take hreads hphase htake)
  | @message _ _ _ _ _ _ _ msg hphase htake hneeds hfit hframe hdecode hkind =>
      refine .inl ⟨by simp, [msg], ?_, ?_⟩
      · rw [conns_setConn_self]
        exact .live (fun _ => Reader.noConfusion) ⟨_, Format.progress_nil⟩
          (consumed_frame hreads hphase htake hneeds hfit hframe hdecode)
      · rw [conns_setConn_self, hphase]
        simp [Reader.held, forwards, hkind]
  | @ping _ _ _ _ _ _ _ msg hphase htake hneeds hfit hframe hdecode hkind =>
      refine .inl ⟨by simp, [msg], ?_, ?_⟩
      · rw [conns_setConn_self]
        exact .live (fun _ => Reader.noConfusion) ⟨_, Format.progress_nil⟩
          (consumed_frame hreads hphase htake hneeds hfit hframe hdecode)
      · rw [conns_setConn_self, hphase]
        simp [Reader.held, forwards, hkind]
  | badFrame hphase htake _ _ hfailed =>
      refine .still (by simp) ?_ (by rw [conns_setConn_self, hphase]; rfl)
      have htaken := consumed_take hreads hphase htake
      rw [conns_setConn_self]
      exact .ended rfl htaken.prefix_messages
        (htaken.failed (Format.progress_append_failed hfailed _))
  | badMessage hphase htake _ _ hframe hdecode =>
      refine .still (by simp) ?_ (by rw [conns_setConn_self, hphase]; rfl)
      have htaken := consumed_take hreads hphase htake
      rw [conns_setConn_self]
      exact .ended rfl htaken.prefix_messages
        (htaken.undecodable (Format.progress_append_frame hframe _)
          (by rw [decoded, hdecode]; rfl))
  | readFail hphase hend =>
      refine .still (by simp) ?_ (by rw [conns_setConn_self, hphase]; rfl)
      cases hreads with
      | live _ hneeds hconsumed =>
          obtain ⟨n, hneeds⟩ := hneeds
          -- the frame the reader waits for will not be completed
          rw [hend.1, List.append_nil] at hconsumed
          rw [conns_setConn_self]
          exact .ended rfl hconsumed.prefix_messages ⟨hconsumed.messages_eq hneeds, hend.2⟩
      | ended hended =>
          rw [hphase] at hended
          cases hended
  | readTimeout hphase =>
      refine .still (by simp) ?_ (by rw [conns_setConn_self, hphase]; rfl)
      rw [conns_setConn_self]
      exact .ended rfl hreads.prefix_framed trivial
  | send hphase =>
      refine .inr ⟨?_, by rw [conns_setConn_self]; rfl, .inl rfl⟩
      rw [conns_setConn_self]
      exact reads_next hreads hphase _ _
  | sendClosed hphase hclosed =>
      refine .inr ⟨?_, by rw [conns_setConn_self]; rfl, .inr (.inl hclosed)⟩
      rw [conns_setConn_self]
      exact reads_next hreads hphase _ _
  | cancel habort =>
      refine .inr ⟨?_, by rw [conns_setConn_self]; rfl, .inr (.inr habort)⟩
      rw [conns_setConn_self]
      exact .ended rfl hreads.prefix_framed habort

/-! ## Any step -/

/-- A handler of a joined peer leaves the stream of its reader alone. -/
theorem HandlerStep.reads {l : HandlerLabel} (h : HandlerStep X c l s t)
    (hc : (s.conns c).Coherent X) (hjoined : (s.conns c).handler.joined = some info)
    (hreads : (s.conns c).Reads X done) : Advances X c s t (.handler c l) done := by
  cases h with
  -- a reader that starts is in the place of one that has not read
  | spawnReader hphase =>
      have hspawned := hc.spawned
      rw [hphase] at hspawned
      refine .still (by simp) ?_ (by rw [conns_setConn_self, hspawned.1]; rfl)
      cases hreads with
      | live _ _ hconsumed =>
          rw [hspawned.1] at hconsumed
          rw [conns_setConn_self]
          exact .live (fun _ => Reader.noConfusion) ⟨_, Format.progress_nil⟩ hconsumed
      | ended hended =>
          rw [hspawned.1] at hended
          cases hended
  | writeNotice | noticeFail | subscribe | readerDone | abortWriter | deregister | emitLeave =>
      exact .still (by simp) (hreads.congr (by rw [conns_setConn_self]) (by simp) (by simp)
        (by simp) (by rw [conns_setConn_self]; exact id)) (by rw [conns_setConn_self])
  | shutdown =>
      exact .still (by simp) (hreads.congr (by rw [conns_setConn_self]) (by simp) (by simp)
        (by simp) (by rw [conns_setConn_self]; exact fun _ => rfl)) (by rw [conns_setConn_self])
  | start hphase | readHandshake hphase | handshakeReadFail hphase | handshakeReadTimeout hphase
  | insertNonce hphase | refuseNonce hphase | writeReject hphase | rejectFail hphase
  | writeAccept hphase | acceptFail hphase | acceptTimeout hphase | flushAccept hphase
  | flushFail hphase | flushTimeout hphase | readName hphase | nameReadFail hphase
  | nameReadTimeout hphase | register hphase | emitJoin hphase =>
      rw [hphase] at hjoined
      cases hjoined

/-- What arrives is ahead of the reader, and nothing arrives after the end. -/
theorem NetStep.reads {l : NetLabel} (h : NetStep c l s t) (hc : (s.conns c).Coherent X)
    (hjoined : (s.conns c).handler.joined = some info) (hreads : (s.conns c).Reads X done) :
    Advances X c s t (.net c l) done := by
  obtain ⟨more, hgreets⟩ := hc.greets hjoined
  refine .still (by simp) ?_ (by rw [h.frame.2.2.1])
  cases h with
  | @arrive _ chunk hopen =>
      rw [conns_setConn_self]
      cases hreads with
      -- the new bytes come behind those the reader has not taken
      | live hlive hneeds hconsumed =>
          refine .live hlive hneeds ?_
          rw [Socket.arrived_arrive, payload_arrive hgreets]
          exact (List.append_assoc .. ▸ hconsumed.arrive chunk :)
      | @ended reason hended hfront hreason =>
          have hframed : (s.conns c).sock.arrived ++ chunk =
              ((s.conns c).sock.arrive chunk).arrived := (Socket.arrived_arrive ..).symm
          refine .ended hended (hfront.trans ?_) ?_
          · rw [framed, framed, ← hframed, payload_arrive hgreets]
            exact Format.messages_prefix_append ..
          · cases reason with
            | malformed =>
                rw [ReaderEnd.Explains, ← hframed, payload_arrive hgreets]
                exact hreason.arrive chunk
            -- the stream has ended, so nothing arrives
            | readError =>
                have hsome := hreason.2
                rw [hopen] at hsome
                cases hsome
            | timedOut => trivial
            | cancelled => exact hreason
  | finish =>
      rw [conns_setConn_self]
      cases hreads with
      | live hlive hneeds hconsumed => exact .live hlive hneeds hconsumed
      | @ended reason hended hfront hreason =>
          refine .ended hended hfront ?_
          cases reason with
          | readError => exact ⟨hreason.1, rfl⟩
          | malformed | timedOut | cancelled => exact hreason

/-- **The reader of a joined peer keeps its place in the stream.** -/
theorem Step.reads (h : Step X cfg l s t) (hc : (s.conns c).Coherent X)
    (hjoined : (s.conns c).handler.joined = some info) (hreads : (s.conns c).Reads X done) :
    Advances X c s t l done := by
  by_cases hconn : l.conn = some c
  · cases h.connStep hconn with
    | accept _ _ hidle =>
        rw [hidle] at hjoined
        cases hjoined
    | handler h =>
        exact h.reads hc hjoined hreads
    | reader h =>
        exact h.reads hreads
    | writer h =>
        obtain ⟨-, -, hreader, haborted, -, hread, hinbox, hend⟩ := h.frame
        exact .still (by simp) (hreads.congr hreader hread hinbox hend (by rw [haborted]; exact id))
          (by rw [hreader])
    | net h =>
        exact h.reads hc hjoined hreads
  · refine .still ?_ (by rwa [h.conns_of_ne hconn]) (by rw [h.conns_of_ne hconn])
    rintro rfl
    exact hconn rfl

end Nullpipe

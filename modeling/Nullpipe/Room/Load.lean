import Nullpipe.Lib.Parts
import Nullpipe.Room.Lifecycle

/-!
# The load of a room

The load is a number for each task and each queue of the room, and bounds how often the
room can move before new input comes.  Everything about rest and shutdown in
`Progress.lean` is an induction on it.

A task alone is easy: each of its steps brings it nearer to its end, and `Handler.load`,
`Reader.load` and `Writer.load` count what is left.  Three things stand in the way of a sum.

* **Tasks make work for each other.**  A text that the host loop takes is written to every
  connection, and a message of a peer becomes an event.  So an entry of a queue weighs what
  its receiver does with it: a text weighs `relayLoad` for each connection, and each
  connection is charged for the part of the broadcast log that its cursor has not passed.
* **Buffers.**  A byte that has come in may complete a message, which is then sent and
  delivered; a `write_all` takes as many steps as the stream likes.  Bytes weigh four in the
  inbox of a connection, and a frame that may still be written weighs `frameBound`.
* **Infinitely many connections.**  `Room.load` is a sum over a finite set outside which no
  connection is in use (`Room.Within`).  Only the accept loop leaves the set, and that step is
  input.

Each relation has its lemma: `HandlerStep.load` and `WriterStep.load` lower the load of their
connection, `ReaderStep.load` lowers it by what the message it sends weighs in the queue, and
`HostStep.load` pays for a broadcast with `Conn.load_succ`.  `Step.load` puts them together:
**every step but new input takes some load away**.
-/

namespace Nullpipe

open Channel Room Framing Transition

variable {X : Crates} {cfg : HostConfig} {s t : Room} {c : ConnId} {l : Label}
  {conns : Finset ConnId}

/-! ## Tasks -/

/-- The steps of a handler that are still to come, with the first ones of the two tasks it
spawns. -/
def Handler.load : Handler → ℕ
  | .idle | .ended _ | .failed _ => 0
  | .emitLeave _ => 1
  | .deregister _ => 2
  | .abortWriter _ => 3
  | .serve _ => 4
  | .subscribe _ => 6
  | .spawnReader _ => 9
  | .notifyJoin _ rest => 10 + rest.length
  | .emitJoin _ => 11 + frameBound
  | .register _ => 12 + frameBound
  | .readName .. => 13 + frameBound
  | .flushAccept .. => 14 + frameBound
  | .writeAccept _ rest _ => 15 + frameBound + rest.length
  | .rejectReused rest => 1 + rest.length
  | .lockNonces .. => 17 + frameBound
  | .readHandshake .. => 18 + frameBound
  | .spawned => 19 + frameBound

/-- A message that waits to be sent weighs its place on the message channel, too. -/
def Reader.load : Reader → ℕ
  | .unspawned | .ended _ => 0
  | .reading .. => 1
  | .spawned _ => 2
  | .sending .. => 4

def Writer.load : Writer → ℕ
  | .unspawned | .ended => 0
  | .recv => 1
  | .flushing _ => 2
  | .writing rest _ => 3 + rest.length

/-- What a message on the broadcast log weighs for each connection. -/
def relayLoad : ℕ := 3 + frameBound

/-- The load of one connection, when the broadcast log is `log` long. -/
def Conn.load (log : ℕ) (k : Conn) : ℕ :=
  k.handler.load + k.reader.load + k.writer.load + 4 * k.sock.inbox.length +
    (log - k.cursor) * relayLoad

/-- The load of the host loop, if a broadcast makes `relay` more. -/
def HostLoop.load (relay : ℕ) : HostLoop → ℕ
  | .creating | .ended => 0
  | .joinAccept | .failedClosing => 1
  | .abortAccept | .failedSelect => 2
  | .closing | .sendError _ => 3
  | .select => 4
  | .deliver .. => 5
  | .broadcast _ => 5 + relay
  | .echo _ => 6 + relay
  | .spawnAccept => 6
  | .publishInvite _ => 7
  | .sendReady _ => 8

def AcceptLoop.load : AcceptLoop → ℕ
  | .running => 1
  | .unspawned | .ended => 0

/-- The load of a room whose connections are `conns`. -/
def Room.load (conns : Finset ConnId) (s : Room) : ℕ :=
  ∑ c ∈ conns, (s.conns c).load s.bcast.length + s.host.load (conns.card * relayLoad) +
    s.accept.load + 2 * s.msgs.queue.length +
    (conns.card * relayLoad + 3) * s.sendQ.queue.length

/-! ## Connections -/

theorem Handler.load_handshakeRead (buf : List UInt8) (deadline : ℕ) :
    (handshakeRead buf deadline).load ≤ 18 + frameBound :=
  handshakeRead_cases (P := fun h => h.load ≤ 18 + frameBound)
    (fun _ _ => by simp only [Handler.load]; omega) (fun _ _ => le_rfl) ..

theorem Handler.load_nameRead (json : SerdeJson) (id : PeerId) (got : List UInt8)
    (deadline now : ℕ) : (nameRead json id got deadline now).load ≤ 13 + frameBound :=
  nameRead_cases (P := fun h => h.load ≤ 13 + frameBound) (fun _ _ _ => le_rfl)
    (fun _ => Nat.zero_le _) (fun _ => by simp only [Handler.load]; omega) ..

theorem Handler.load_afterEmitJoin (json : SerdeJson) (info : PeerInfo) :
    (afterEmitJoin json info).load ≤ 10 + frameBound := by
  unfold afterEmitJoin
  split
  · rename_i frame hencode
    have hlen := length_le_frameBound hencode
    simp only [Handler.load]
    omega
  · simp only [Handler.load]
    omega

theorem Writer.load_afterRecv (json : SerdeJson) (msg : WireMessage) (now : ℕ) :
    (afterRecv json msg now).load ≤ relayLoad := by
  unfold afterRecv
  split
  · rename_i frame hencode
    have hlen := length_le_frameBound hencode
    simp only [Writer.load, relayLoad]
    omega
  · simp only [Writer.load, relayLoad]
    omega

theorem HandlerStep.load {l : HandlerLabel} (h : HandlerStep X c l s t) :
    (t.conns c).load t.bcast.length < (s.conns c).load s.bcast.length := by
  cases h with
  | @readHandshake _ buf chunk deadline hphase htake =>
      have hinbox := Socket.length_take_lt htake
      have hbefore : (s.conns c).handler.load = 18 + frameBound := by rw [hphase]; rfl
      have hnext := Handler.load_handshakeRead (buf ++ chunk) deadline
      rw [conns_setConn_self]
      simp only [Conn.load, hbefore, bcast_setConn]
      omega
  | @readName _ id got chunk deadline _ hphase htake =>
      have hinbox := Socket.length_take_lt htake
      have hbefore : (s.conns c).handler.load = 13 + frameBound := by rw [hphase]; rfl
      have hnext := Handler.load_nameRead X.json id (got ++ chunk) deadline s.now
      rw [conns_setConn_self]
      simp only [Conn.load, hbefore, bcast_setConn]
      omega
  | @emitJoin _ info hphase =>
      have hbefore : (s.conns c).handler.load = 11 + frameBound := by rw [hphase]; rfl
      have hnext := Handler.load_afterEmitJoin X.json info
      rw [conns_setConn_self]
      simp only [Conn.load, hbefore, bcast_setConn]
      omega
  | writeReject hphase hchunk | writeAccept hphase hchunk | writeNotice hphase hchunk =>
      have hpos := List.length_pos_of_ne_nil hchunk
      rw [conns_setConn_self]
      simp only [Conn.load, hphase, bcast_setConn, Socket.inbox_write]
      split <;> simp only [Handler.load, List.length_append] <;> omega
  | spawnReader hphase =>
      rw [conns_setConn_self]
      simp only [Conn.load, hphase, Handler.load, Reader.load, bcast_setConn]
      omega
  | subscribe hphase =>
      -- a subscriber starts behind the last message of the log
      rw [conns_setConn_self]
      simp only [Conn.load, hphase, Handler.load, Writer.load, bcast_setConn, Nat.sub_self,
        Nat.zero_mul]
      omega
  | start hphase | handshakeReadFail hphase | handshakeReadTimeout hphase | insertNonce hphase
  | refuseNonce hphase | rejectFail hphase | acceptFail hphase | acceptTimeout hphase
  | flushAccept hphase | flushFail hphase | flushTimeout hphase | nameReadFail hphase
  | nameReadTimeout hphase | register hphase | noticeFail hphase | readerDone hphase
  | shutdown hphase | abortWriter hphase | deregister hphase | emitLeave hphase =>
      rw [conns_setConn_self]
      simp only [Conn.load, hphase, Handler.load, bcast_setConn, Socket.inbox_flush,
        List.length_cons, List.length_nil]
      omega

/-- A reader pays for the message that it puts on the message channel. -/
theorem ReaderStep.load {l : ReaderLabel} (h : ReaderStep X c l s t) :
    ∃ n, t.msgs.queue.length = s.msgs.queue.length + n ∧
      (t.conns c).load t.bcast.length + (2 * n + 1) ≤ (s.conns c).load s.bcast.length := by
  cases h with
  | read hphase htake | message hphase htake | ping hphase htake | badFrame hphase htake
  -- what is taken off the inbox outweighs what it can become
  | badMessage hphase htake =>
      have hinbox := Socket.length_take_lt htake
      refine ⟨0, rfl, ?_⟩
      rw [conns_setConn_self]
      simp only [Conn.load, hphase, Reader.load, bcast_setConn]
      omega
  | start hphase | readFail hphase | readTimeout hphase | sendClosed hphase =>
      refine ⟨0, rfl, ?_⟩
      rw [conns_setConn_self]
      simp only [Conn.load, hphase, Reader.load, bcast_setConn]
      omega
  | send hphase =>
      -- the message now weighs in the queue of the host loop
      refine ⟨1, by simp [Mpsc.push], ?_⟩
      rw [conns_setConn_self]
      simp only [Conn.load, hphase, Reader.load, bcast_setConn]
      omega
  | cancel _ hspawned hlive =>
      -- an aborted reader had a step to take, whatever it was
      have hpos : 0 < (s.conns c).reader.load := by
        cases hreader : (s.conns c).reader with
        | unspawned => exact absurd hreader hspawned
        | ended reason => exact absurd hreader (hlive reason)
        | _ => simp [Reader.load]
      have hafter : (Reader.ended .cancelled).load = 0 := rfl
      refine ⟨0, rfl, ?_⟩
      rw [conns_setConn_self]
      simp only [Conn.load, hafter, bcast_setConn]
      omega

theorem WriterStep.load {l : WriterLabel} (h : WriterStep X c l s t) :
    (t.conns c).load t.bcast.length < (s.conns c).load s.bcast.length := by
  cases h with
  | @recv _ msg next hphase hrecv =>
      -- one message less to come, and at most a frame to write
      obtain ⟨hget, rfl⟩ := Broadcast.recv_value hrecv
      have hlt := (List.getElem?_eq_some_iff.mp hget).1
      have hnext := Writer.load_afterRecv X.json msg s.now
      have hbacklog : (s.bcast.length - (s.conns c).cursor) * relayLoad =
          (s.bcast.length - ((s.conns c).cursor + 1)) * relayLoad + relayLoad := by
        rw [← Nat.succ_mul]
        congr 1
        omega
      have hbefore : (s.conns c).writer.load = 1 := by rw [hphase]; rfl
      rw [conns_setConn_self]
      simp only [Conn.load, hbefore, bcast_setConn, hbacklog]
      omega
  | @lagged _ _ next hphase hrecv =>
      -- a receiver that lags skips messages, and so their weight
      obtain ⟨hlt, hle⟩ := Broadcast.lt_of_lagged hrecv
      have hbacklog : (s.bcast.length - next) * relayLoad <
          (s.bcast.length - (s.conns c).cursor) * relayLoad :=
        Nat.mul_lt_mul_of_pos_right (by omega) (by simp [relayLoad])
      rw [conns_setConn_self]
      simp only [Conn.load, bcast_setConn]
      omega
  | write hphase hchunk =>
      have hpos := List.length_pos_of_ne_nil hchunk
      rw [conns_setConn_self]
      simp only [Conn.load, hphase, bcast_setConn, Socket.inbox_write]
      split <;> simp only [Writer.load, List.length_append] <;> omega
  | closed hphase | writeFail hphase | writeTimeout hphase | flush hphase | flushFail hphase
  | flushTimeout hphase =>
      rw [conns_setConn_self]
      simp only [Conn.load, hphase, Writer.load, bcast_setConn, Socket.inbox_flush]
      omega
  | cancel _ hspawned hlive =>
      have hpos : 0 < (s.conns c).writer.load := by
        cases hwriter : (s.conns c).writer with
        | unspawned => exact absurd hwriter hspawned
        | ended => exact absurd hwriter hlive
        | _ => simp [Writer.load]
      have hafter : Writer.ended.load = 0 := rfl
      rw [conns_setConn_self]
      simp only [Conn.load, hafter, bcast_setConn]
      omega

/-- A message on the log is load for every connection. -/
theorem Conn.load_succ (log : ℕ) (k : Conn) : k.load (log + 1) ≤ k.load log + relayLoad := by
  have hbacklog : (log + 1 - k.cursor) * relayLoad ≤ (log - k.cursor) * relayLoad + relayLoad := by
    rw [← Nat.succ_mul]
    exact Nat.mul_le_mul_right _ (by omega)
  simp only [Conn.load]
  omega

/-! ## The room -/

/-- The connections the room has accepted. -/
def Room.Within (conns : Finset ConnId) (s : Room) : Prop :=
  ∀ c ∉ conns, (s.conns c).handler = .idle

/-- Only the accept loop makes use of a further connection. -/
theorem Step.within (h : Step X cfg l s t) (hl : ¬ l.Input) (hs : s.Within conns) :
    t.Within conns := by
  intro c hc
  have hidle := hs c hc
  by_cases hconn : l.conn = some c
  · cases h.connStep hconn with
    | accept => exact absurd trivial hl
    | handler h => exact absurd (show (s.conns c).handler.Over by rw [hidle]; trivial) h.not_over
    | reader h => rw [h.frame.1, hidle]
    | writer h => rw [h.frame.1, hidle]
    | net => exact absurd trivial hl
  · rw [h.conns_of_ne hconn, hidle]

theorem HostStep.load {l : HostLabel} (h : HostStep cfg l s t) (hl : ¬ (Label.host l).Input) :
    t.load conns < s.load conns := by
  cases h with
  | created | createFailed => exact absurd trivial hl
  | takeText hphase _ hqueue | failedTakeText hphase _ hqueue =>
      simp only [Room.load, hphase, HostLoop.load, Mpsc.pop_of_queue hqueue, hqueue,
        List.length_cons, Nat.mul_succ]
      omega
  | broadcast hphase =>
      -- each connection is charged for the message, and the loop had that much put by
      have hrelay := sum_le_add_card_mul conns
        fun c => (s.conns c).load_succ s.bcast.length
      simp only [Room.load, hphase, HostLoop.load, List.length_append, List.length_singleton]
      omega
  | takeMessage hphase _ _ _ hqueue =>
      simp only [Room.load, hphase, HostLoop.load, Mpsc.pop_of_queue hqueue, hqueue,
        List.length_cons]
      omega
  | spawnAccept hphase =>
      simp only [Room.load, hphase, HostLoop.load, AcceptLoop.load]
      omega
  | sendReady hphase | sendReadyClosed hphase | publishInvite hphase | shutdown hphase
  | sendClosed hphase | echo hphase | deliver hphase | close hphase | abortAccept hphase
  | joinAccept hphase | sendError hphase | sendErrorClosed hphase | failedShutdown hphase
  | failedSendClosed hphase | failedClose hphase =>
      simp only [Room.load, hphase, HostLoop.load, Mpsc.close]
      omega

/-- The load of all connections, when the tasks of one of them have taken some of theirs away. -/
theorem sum_load_add_le {n : ℕ} (hwithin : s.Within conns) (hbusy : (s.conns c).handler ≠ .idle)
    (hothers : ∀ d ≠ c, t.conns d = s.conns d) (hbcast : t.bcast = s.bcast)
    (hle : (t.conns c).load t.bcast.length + n ≤ (s.conns c).load s.bcast.length) :
    ∑ d ∈ conns, (t.conns d).load t.bcast.length + n ≤
      ∑ d ∈ conns, (s.conns d).load s.bcast.length := by
  have hmem : c ∈ conns := by
    by_contra hc
    exact hbusy (hwithin c hc)
  exact sum_add_le_of_part hmem (fun d hd => by rw [hothers d hd, hbcast]) hle

theorem HandlerStep.shared {l : HandlerLabel} (h : HandlerStep X c l s t) :
    t.bcast = s.bcast ∧ t.host = s.host ∧ t.accept = s.accept ∧ t.msgs = s.msgs ∧
      t.sendQ = s.sendQ := by
  cases h <;> exact ⟨rfl, rfl, rfl, rfl, rfl⟩

theorem ReaderStep.shared {l : ReaderLabel} (h : ReaderStep X c l s t) :
    t.bcast = s.bcast ∧ t.host = s.host ∧ t.accept = s.accept ∧ t.sendQ = s.sendQ := by
  cases h <;> exact ⟨rfl, rfl, rfl, rfl⟩

theorem WriterStep.shared {l : WriterLabel} (h : WriterStep X c l s t) :
    t.bcast = s.bcast ∧ t.host = s.host ∧ t.accept = s.accept ∧ t.msgs = s.msgs ∧
      t.sendQ = s.sendQ := by
  cases h <;> exact ⟨rfl, rfl, rfl, rfl, rfl⟩

/-- A connection whose reader or writer was spawned has a handler. -/
theorem Conn.Coherent.busy {k : Conn} (h : k.Coherent X)
    (hspawned : k.reader ≠ .unspawned ∨ k.writer ≠ .unspawned) : k.handler ≠ .idle := by
  intro hidle
  have hnone := h.spawned
  rw [hidle] at hnone
  exact hspawned.elim (· hnone.1) (· hnone.2)

/-- **Every step but new input takes some load away.** -/
theorem Step.load (h : Step X cfg l s t) (hl : ¬ l.Input) (hs : RoomReachable X cfg s)
    (hwithin : s.Within conns) : t.load conns < s.load conns := by
  cases h with
  | user | net | tick => exact absurd trivial hl
  | host h => exact h.load hl
  | accept h =>
      cases h with
      | accept | sourceEnded => exact absurd trivial hl
      | shutdown hphase | cancel hphase =>
          simp only [Room.load, hphase, AcceptLoop.load]
          omega
  | @handler c _ _ _ h =>
      obtain ⟨hbcast, hhost, haccept, hmsgs, hsendQ⟩ := h.shared
      have hbusy : (s.conns c).handler ≠ .idle := fun hidle =>
        h.not_over (by rw [hidle]; trivial)
      have hsum := sum_load_add_le hwithin hbusy (fun _ => h.conns_of_ne) hbcast (n := 1) h.load
      rw [Room.load, Room.load, hhost, haccept, hmsgs, hsendQ]
      omega
  | @reader c _ _ _ h =>
      obtain ⟨hbcast, hhost, haccept, hsendQ⟩ := h.shared
      have hbusy := (hs.coherent c).busy (.inl h.spawned.1)
      obtain ⟨n, hmsgs, hle⟩ := h.load
      have hsum := sum_load_add_le hwithin hbusy (fun _ => h.conns_of_ne) hbcast hle
      rw [Room.load, Room.load, hhost, haccept, hmsgs, hsendQ]
      omega
  | @writer c _ _ _ h =>
      obtain ⟨hbcast, hhost, haccept, hmsgs, hsendQ⟩ := h.shared
      have hbusy := (hs.coherent c).busy (.inr h.spawned.1)
      have hsum := sum_load_add_le hwithin hbusy (fun _ => h.conns_of_ne) hbcast (n := 1) h.load
      rw [Room.load, Room.load, hhost, haccept, hmsgs, hsendQ]
      omega

end Nullpipe

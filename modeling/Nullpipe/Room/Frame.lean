import Nullpipe.Room.Step

/-!
# What a step leaves alone

The frame of every relation of `Room/Step.lean`: which task may change which part
of the room.  Invariants about one connection then need the steps of that
connection only, and invariants about a shared queue the few steps that touch it.

* **Connections.**  `Step.conns_of_ne`: a step changes no connection but the one it is about
  (`Label.conn`).  What remains is a step of that connection, `ConnStep`, and `ReaderStep.frame`,
  `WriterStep.frame` and `NetStep.frame` say which of its fields each task leaves alone.
* **Handlers.**  Three steps go to a phase that is computed: `handshakeRead_cases`,
  `nameRead_cases` and `afterEmitJoin_cases` list where they lead, as elimination rules for any
  property of the phase.  `HandlerStep.standing` says once what a handler does to the peers
  map and to the events, and with them to its peer.  `Step.observe` is the rule for whatever
  depends on the phase only: no other task changes it.
* **Streams.**  What has arrived and what was written only grows (`Step.arrived_prefix`,
  `Step.written_prefix`).
* **Shared state.**  One lemma for each part, with the steps that touch it as exceptions:
  `Step.bcast`, `Step.used`, `Step.peers`, `Step.issued`, `Step.now`, `Step.host_eq`.

The invariants of the other modules follow one pattern: a case split on whether the step is
about connection `c`, then on `ConnStep`, and the frame for all tasks but one.
-/

namespace Nullpipe

open Channel Room

variable {X : Crates} {cfg : HostConfig} {s t : Room} {c d : ConnId}

/-! ## Labels -/

/-- The connection a step is about. -/
def Label.conn : Label → Option ConnId
  | .handler c _ | .reader c _ | .writer c _ | .net c _ => some c
  | .accept (.accept c) => some c
  | _ => none

/-- What a step puts on the broadcast channel. -/
def Label.broadcasts : Label → List WireMessage
  | .host (.broadcast msg) => [msg]
  | _ => []

/-- What a run puts on the broadcast channel. -/
def broadcasts (ls : List Label) : List WireMessage := ls.flatMap Label.broadcasts

@[simp] theorem broadcasts_nil : broadcasts [] = [] := rfl

@[simp] theorem broadcasts_append (ls ms : List Label) :
    broadcasts (ls ++ ms) = broadcasts ls ++ broadcasts ms := List.flatMap_append

@[simp] theorem broadcasts_singleton (l : Label) : broadcasts [l] = l.broadcasts :=
  List.flatMap_singleton ..

/-! ## Runs -/

theorem RoomReachable.run {ls : List Label} (hs : RoomReachable X cfg s)
    (hrun : RoomRun X cfg s ls t) : RoomReachable X cfg t := by
  obtain ⟨now, hreach⟩ := hs
  exact ⟨now, hreach.run hrun⟩

/-! ## Other connections -/

theorem HandlerStep.conns_of_ne {l : HandlerLabel} (h : HandlerStep X c l s t) (hne : d ≠ c) :
    t.conns d = s.conns d := by
  cases h <;> exact conns_setConn_of_ne _ _ _ _ hne

theorem ReaderStep.conns_of_ne {l : ReaderLabel} (h : ReaderStep X c l s t) (hne : d ≠ c) :
    t.conns d = s.conns d := by
  cases h <;> exact conns_setConn_of_ne _ _ _ _ hne

theorem WriterStep.conns_of_ne {l : WriterLabel} (h : WriterStep X c l s t) (hne : d ≠ c) :
    t.conns d = s.conns d := by
  cases h <;> exact conns_setConn_of_ne _ _ _ _ hne

theorem NetStep.conns_of_ne {l : NetLabel} (h : NetStep c l s t) (hne : d ≠ c) :
    t.conns d = s.conns d := by
  cases h <;> exact conns_setConn_of_ne _ _ _ _ hne

theorem HostStep.conns {l : HostLabel} (h : HostStep cfg l s t) : t.conns = s.conns := by
  cases h <;> rfl

theorem UserStep.conns {l : UserLabel} (h : UserStep X l s t) : t.conns = s.conns := by
  cases h <;> rfl

/-- A step changes no connection but the one it is about. -/
theorem Step.conns_of_ne {l : Label} (h : Step X cfg l s t) (hne : l.conn ≠ some c) :
    t.conns c = s.conns c := by
  cases h with
  | user h => rw [h.conns]
  | host h => rw [h.conns]
  | accept h =>
      cases h with
      | @accept _ d =>
          refine conns_setConn_of_ne _ _ _ _ fun heq => hne ?_
          rw [heq, Label.conn]
      | shutdown | sourceEnded | cancel => rfl
  | handler h => exact h.conns_of_ne fun heq => hne (by rw [heq, Label.conn])
  | reader h => exact h.conns_of_ne fun heq => hne (by rw [heq, Label.conn])
  | writer h => exact h.conns_of_ne fun heq => hne (by rw [heq, Label.conn])
  | net h => exact h.conns_of_ne fun heq => hne (by rw [heq, Label.conn])
  | tick => rfl

/-! ## Where a handler goes -/

section

variable {P : Handler → Prop}

/-- A full handshake buffer leads to the used nonces. -/
theorem handshakeRead_cases (hfull : ∀ nonce discriminator, P (.lockNonces nonce discriminator))
    (hmore : ∀ buf deadline, P (.readHandshake buf deadline)) (buf : List UInt8) (deadline : ℕ) :
    P (handshakeRead buf deadline) := by
  unfold handshakeRead
  split
  · exact hfull ..
  · exact hmore ..

/-- A complete name frame registers the peer or fails the handshake. -/
theorem nameRead_cases (hmore : ∀ id got deadline, P (.readName id got deadline))
    (hfailed : ∀ e, P (.failed e)) (hdone : ∀ info, P (.register info)) (json : SerdeJson)
    (id : PeerId) (got : List UInt8) (deadline now : ℕ) :
    P (nameRead json id got deadline now) := by
  unfold nameRead
  split
  · exact hmore ..
  · exact hfailed _
  · split
    · exact hfailed _
    · exact hdone _

/-- A join notice that does not fit a frame is not written. -/
theorem afterEmitJoin_cases {info : PeerInfo} (hfits : ∀ frame, P (.notifyJoin info frame))
    (hskip : P (.spawnReader info)) (json : SerdeJson) : P (afterEmitJoin json info) := by
  unfold afterEmitJoin
  split
  · exact hfits _
  · exact hskip

end

/-! ## The standing of a peer -/

/-- How far the peer of a handler has come: it is in the peers map, its join event was
emitted, it was taken out of the map, its leave event was emitted. -/
inductive Standing
  | outside
  | entered (info : PeerInfo)
  | announced (info : PeerInfo)
  | removed (info : PeerInfo)
  | left (info : PeerInfo)

def Handler.standing : Handler → Standing
  | .emitJoin info => .entered info
  | .notifyJoin info _ | .spawnReader info | .subscribe info | .serve info | .abortWriter info
  | .deregister info => .announced info
  | .emitLeave info => .removed info
  | .ended info => .left info
  | _ => .outside

theorem standing_handshakeRead (buf : List UInt8) (deadline : ℕ) :
    (handshakeRead buf deadline).standing = .outside :=
  handshakeRead_cases (P := fun h => h.standing = .outside) (fun _ _ => rfl) (fun _ _ => rfl) ..

theorem standing_nameRead (json : SerdeJson) (id : PeerId) (got : List UInt8)
    (deadline now : ℕ) : (nameRead json id got deadline now).standing = .outside :=
  nameRead_cases (P := fun h => h.standing = .outside) (fun _ _ _ => rfl) (fun _ => rfl)
    (fun _ => rfl) ..

theorem standing_afterEmitJoin (json : SerdeJson) (info : PeerInfo) :
    (afterEmitJoin json info).standing = .announced info :=
  afterEmitJoin_cases (P := fun h => h.standing = .announced info) (fun _ => rfl) rfl json

/-- What a step of a handler does to the standing of its peer, to the peers map and to
the events. -/
inductive StandingStep (c : ConnId) (s t : Room) : HandlerLabel → Prop
  | register {info : PeerInfo} (hphase : (s.conns c).handler = .register info)
      (hafter : (t.conns c).handler = .emitJoin info)
      (hpeers : t.peers = Function.update s.peers info.id (some info))
      (hevents : t.events = s.events) : StandingStep c s t .register
  | emitJoin {info : PeerInfo} (hphase : (s.conns c).handler = .emitJoin info)
      (hafter : (t.conns c).handler.standing = .announced info) (hpeers : t.peers = s.peers)
      (hevents : t.events = s.events.trySend eventChanCap (.peerJoin info)) :
      StandingStep c s t .emitJoin
  | deregister {info : PeerInfo} (hphase : (s.conns c).handler = .deregister info)
      (hafter : (t.conns c).handler = .emitLeave info)
      (hpeers : t.peers = Function.update s.peers info.id none)
      (hevents : t.events = s.events) : StandingStep c s t .deregister
  | emitLeave {info : PeerInfo} (hphase : (s.conns c).handler = .emitLeave info)
      (hafter : (t.conns c).handler = .ended info) (hpeers : t.peers = s.peers)
      (hevents : t.events = s.events.trySend eventChanCap (.peerLeave info.id)) :
      StandingStep c s t .emitLeave
  | keep {l : HandlerLabel} (hl : l ∉ [.register, .emitJoin, .deregister, .emitLeave])
      (hsame : (t.conns c).handler.standing = (s.conns c).handler.standing)
      (hpeers : t.peers = s.peers) (hevents : t.events = s.events) : StandingStep c s t l

theorem HandlerStep.standing {l : HandlerLabel} (h : HandlerStep X c l s t) :
    StandingStep c s t l := by
  cases h with
  | register hphase => exact .register hphase (by rw [conns_setConn_self]) rfl rfl
  | emitJoin hphase =>
      refine .emitJoin hphase ?_ rfl rfl
      rw [conns_setConn_self]
      exact standing_afterEmitJoin ..
  | deregister hphase => exact .deregister hphase (by rw [conns_setConn_self]) rfl rfl
  | emitLeave hphase => exact .emitLeave hphase (by rw [conns_setConn_self]) rfl rfl
  | writeReject hphase | writeAccept hphase | writeNotice hphase =>
      refine .keep (by simp) ?_ rfl rfl
      simp only [conns_setConn_self, hphase]
      split <;> rfl
  | readHandshake hphase | readName hphase =>
      refine .keep (by simp) ?_ rfl rfl
      simp only [conns_setConn_self, hphase, standing_handshakeRead, standing_nameRead]
      rfl
  | start hphase | handshakeReadFail hphase | handshakeReadTimeout hphase | insertNonce hphase
  | refuseNonce hphase | rejectFail hphase | acceptFail hphase | acceptTimeout hphase
  | flushAccept hphase | flushFail hphase | flushTimeout hphase | nameReadFail hphase
  | nameReadTimeout hphase | noticeFail hphase | spawnReader hphase | subscribe hphase
  | readerDone hphase | shutdown hphase | abortWriter hphase =>
      refine .keep (by simp) ?_ rfl rfl
      rw [conns_setConn_self, hphase]
      rfl

/-! ## The tasks of one connection -/

/-- The steps of connection `c`: its acceptance and the steps of its tasks and of its
client. -/
inductive ConnStep (X : Crates) (c : ConnId) : Label → Room → Room → Prop
  | accept {s : Room} (haccept : s.accept = .running) (hready : ¬ s.ShutdownReady s.acceptSeen)
      (hidle : (s.conns c).handler = .idle) :
      ConnStep X c (.accept (.accept c)) s
        (s.setConn c { s.conns c with handler := .spawned, watchSeen := s.acceptSeen })
  | handler {l : HandlerLabel} {s t : Room} (h : HandlerStep X c l s t) :
      ConnStep X c (.handler c l) s t
  | reader {l : ReaderLabel} {s t : Room} (h : ReaderStep X c l s t) :
      ConnStep X c (.reader c l) s t
  | writer {l : WriterLabel} {s t : Room} (h : WriterStep X c l s t) :
      ConnStep X c (.writer c l) s t
  | net {l : NetLabel} {s t : Room} (h : NetStep c l s t) : ConnStep X c (.net c l) s t

/-- A step about connection `c` is one of these. -/
theorem Step.connStep {l : Label} (h : Step X cfg l s t) (hconn : l.conn = some c) :
    ConnStep X c l s t := by
  cases h with
  | user | host | tick => cases hconn
  | accept h =>
      cases h with
      | accept haccept hready hidle =>
          cases hconn
          exact .accept haccept hready hidle
      | shutdown | sourceEnded | cancel => cases hconn
  | handler h =>
      cases hconn
      exact .handler h
  | reader h =>
      cases hconn
      exact .reader h
  | writer h =>
      cases hconn
      exact .writer h
  | net h =>
      cases hconn
      exact .net h

/-- A reader touches the inbox and its own task. -/
theorem ReaderStep.frame {l : ReaderLabel} (h : ReaderStep X c l s t) :
    (t.conns c).handler = (s.conns c).handler ∧ (t.conns c).watchSeen = (s.conns c).watchSeen ∧
      (t.conns c).readerAborted = (s.conns c).readerAborted ∧
      (t.conns c).writer = (s.conns c).writer ∧
      (t.conns c).writerAborted = (s.conns c).writerAborted ∧
      (t.conns c).cursor = (s.conns c).cursor ∧
      (t.conns c).sock.written = (s.conns c).sock.written := by
  cases h <;> simp

/-- A writer touches the outgoing side of the stream, its cursor and its own
task. -/
theorem WriterStep.frame {l : WriterLabel} (h : WriterStep X c l s t) :
    (t.conns c).handler = (s.conns c).handler ∧ (t.conns c).watchSeen = (s.conns c).watchSeen ∧
      (t.conns c).reader = (s.conns c).reader ∧
      (t.conns c).readerAborted = (s.conns c).readerAborted ∧
      (t.conns c).writerAborted = (s.conns c).writerAborted ∧
      (t.conns c).sock.read = (s.conns c).sock.read ∧
      (t.conns c).sock.inbox = (s.conns c).sock.inbox ∧
      (t.conns c).sock.readEnd = (s.conns c).sock.readEnd := by
  cases h <;> simp

/-- The network touches the incoming side of the stream. -/
theorem NetStep.frame {l : NetLabel} (h : NetStep c l s t) :
    (t.conns c).handler = (s.conns c).handler ∧ (t.conns c).watchSeen = (s.conns c).watchSeen ∧
      (t.conns c).reader = (s.conns c).reader ∧
      (t.conns c).readerAborted = (s.conns c).readerAborted ∧
      (t.conns c).writer = (s.conns c).writer ∧
      (t.conns c).writerAborted = (s.conns c).writerAborted ∧
      (t.conns c).cursor = (s.conns c).cursor ∧
      (t.conns c).sock.read = (s.conns c).sock.read ∧
      (t.conns c).sock.written = (s.conns c).sock.written := by
  cases h <;> simp

/-! ## The stream of one connection -/

theorem HandlerStep.readEnd {l : HandlerLabel} (h : HandlerStep X c l s t) :
    (t.conns c).sock.readEnd = (s.conns c).sock.readEnd := by
  cases h <;> simp

theorem HandlerStep.arrived {l : HandlerLabel} (h : HandlerStep X c l s t) :
    (t.conns c).sock.arrived = (s.conns c).sock.arrived := by
  cases h with
  | readHandshake _ htake | readName _ htake =>
      rw [conns_setConn_self]
      exact Socket.arrived_take htake
  | _ => simp

theorem ReaderStep.arrived {l : ReaderLabel} (h : ReaderStep X c l s t) :
    (t.conns c).sock.arrived = (s.conns c).sock.arrived ∧
      (t.conns c).sock.readEnd = (s.conns c).sock.readEnd := by
  cases h with
  | read _ htake | message _ htake | ping _ htake | badFrame _ htake | badMessage _ htake =>
      rw [conns_setConn_self]
      exact ⟨Socket.arrived_take htake, rfl⟩
  | _ => simp

/-- Only the client adds to what has arrived. -/
theorem Step.arrived {l : Label} (h : Step X cfg l s t) (hl : ∀ chunk, l ≠ .net c (.arrive chunk)) :
    (t.conns c).sock.arrived = (s.conns c).sock.arrived := by
  by_cases hconn : l.conn = some c
  · cases h.connStep hconn with
    | accept => rw [conns_setConn_self]
    | handler h => exact h.arrived
    | reader h => exact h.arrived.1
    | writer h =>
        obtain ⟨-, -, -, -, -, hread, hinbox, -⟩ := h.frame
        rw [Socket.arrived, hread, hinbox]
        rfl
    | net h =>
        cases h with
        | arrive => exact absurd rfl (hl _)
        | finish =>
            rw [conns_setConn_self]
            rfl
  · rw [h.conns_of_ne hconn]

/-- A connection only gets more bytes. -/
theorem Step.arrived_prefix {l : Label} (h : Step X cfg l s t) :
    (s.conns c).sock.arrived <+: (t.conns c).sock.arrived := by
  by_cases hnet : ∃ chunk, l = .net c (.arrive chunk)
  · obtain ⟨chunk, rfl⟩ := hnet
    cases h with
    | net h =>
        cases h with
        | arrive =>
            rw [conns_setConn_self, Socket.arrived_arrive]
            exact List.prefix_append ..
  · push Not at hnet
    rw [h.arrived hnet]

/-- What is written stays written. -/
theorem Step.written_prefix {l : Label} (h : Step X cfg l s t) :
    (s.conns c).sock.written <+: (t.conns c).sock.written := by
  by_cases hconn : l.conn = some c
  · cases h.connStep hconn with
    | accept =>
        rw [conns_setConn_self]
    | handler h => cases h <;> simp
    | reader h => rw [h.frame.2.2.2.2.2.2]
    | writer h => cases h <;> simp
    | net h => rw [h.frame.2.2.2.2.2.2.2.2]
  · rw [h.conns_of_ne hconn]

/-- Only its own steps and its acceptance move a handler: what does not tell an accepted
connection from an idle one stays as it is. -/
theorem Step.observe {α : Sort*} {l : Label} (h : Step X cfg l s t) (f : Handler → α)
    (hf : f .spawned = f .idle) (hl : ∀ l', l ≠ .handler c l') :
    f (t.conns c).handler = f (s.conns c).handler := by
  by_cases hconn : l.conn = some c
  · cases h.connStep hconn with
    | accept _ _ hidle =>
        rw [conns_setConn_self, hidle, hf]
    | handler h =>
        exact absurd rfl (hl _)
    | reader h =>
        rw [h.frame.1]
    | writer h =>
        rw [h.frame.1]
    | net h =>
        rw [h.frame.1]
  · rw [h.conns_of_ne hconn]

/-! ## Shared state -/

/-- Only the host loop broadcasts. -/
theorem Step.bcast {l : Label} (h : Step X cfg l s t) : t.bcast = s.bcast ++ l.broadcasts := by
  cases h with
  | user h => cases h <;> exact (List.append_nil _).symm
  | host h => cases h <;> first | rfl | exact (List.append_nil _).symm
  | accept h => cases h <;> exact (List.append_nil _).symm
  | handler h => cases h <;> exact (List.append_nil _).symm
  | reader h => cases h <;> exact (List.append_nil _).symm
  | writer h => cases h <;> exact (List.append_nil _).symm
  | net h => cases h <;> exact (List.append_nil _).symm
  | tick => exact (List.append_nil _).symm

/-- The broadcast log of a run. -/
theorem RoomRun.bcast {ls : List Label} (h : RoomRun X cfg s ls t) :
    t.bcast = s.bcast ++ broadcasts ls := by
  refine Transition.Run.history (I := fun ls t => t.bcast = s.bcast ++ broadcasts ls) h ?_ ?_
  · simp
  · intro ls l t u ih hstep
    rw [hstep.bcast, ih, broadcasts_append, broadcasts_singleton, List.append_assoc]

/-- Only a handler that inserts its nonce changes the used nonces. -/
theorem Step.used {l : Label} (h : Step X cfg l s t) (hl : ∀ c, l ≠ .handler c .insertNonce) :
    t.used = s.used := by
  cases h with
  | user h => cases h <;> rfl
  | host h => cases h <;> rfl
  | accept h => cases h <;> rfl
  | handler h => cases h <;> first | rfl | exact absurd rfl (hl _)
  | reader h => cases h <;> rfl
  | writer h => cases h <;> rfl
  | net h => cases h <;> rfl
  | tick => rfl

/-- Only a registration or a deregistration changes the peers map. -/
theorem Step.peers {l : Label} (h : Step X cfg l s t) (hreg : ∀ c, l ≠ .handler c .register)
    (hdereg : ∀ c, l ≠ .handler c .deregister) : t.peers = s.peers := by
  cases h with
  | user h => cases h <;> rfl
  | host h => cases h <;> rfl
  | accept h => cases h <;> rfl
  | handler h =>
      cases h <;> first | rfl | exact absurd rfl (hreg _) | exact absurd rfl (hdereg _)
  | reader h => cases h <;> rfl
  | writer h => cases h <;> rfl
  | net h => cases h <;> rfl
  | tick => rfl

/-- Only a call of `invite` issues an invite. -/
theorem Step.issued {l : Label} (h : Step X cfg l s t)
    (hl : ∀ nonce suggestedName, l ≠ .user (.invite nonce suggestedName)) :
    t.issued = s.issued := by
  cases h with
  | user h => cases h <;> first | rfl | exact absurd rfl (hl _ _)
  | host h => cases h <;> rfl
  | accept h => cases h <;> rfl
  | handler h => cases h <;> rfl
  | reader h => cases h <;> rfl
  | writer h => cases h <;> rfl
  | net h => cases h <;> rfl
  | tick => rfl

/-- Only the clock moves the clock. -/
theorem Step.now {l : Label} (h : Step X cfg l s t) (hl : ∀ d, l ≠ .tick d) : t.now = s.now := by
  cases h with
  | user h => cases h <;> rfl
  | host h => cases h <;> rfl
  | accept h => cases h <;> rfl
  | handler h => cases h <;> rfl
  | reader h => cases h <;> rfl
  | writer h => cases h <;> rfl
  | net h => cases h <;> rfl
  | tick => exact absurd rfl (hl _)

/-- Only the host loop moves the host loop. -/
theorem Step.host_eq {l : Label} (h : Step X cfg l s t) (hl : ∀ l', l ≠ .host l') :
    t.host = s.host := by
  cases h with
  | user h => cases h <;> rfl
  | host h => exact absurd rfl (hl _)
  | accept h => cases h <;> rfl
  | handler h => cases h <;> rfl
  | reader h => cases h <;> rfl
  | writer h => cases h <;> rfl
  | net h => cases h <;> rfl
  | tick => rfl

end Nullpipe

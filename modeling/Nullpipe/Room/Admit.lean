import Nullpipe.Room.Frame

/-!
# Runs that admit a client

What a well-behaved client can bring about, as runs from any state that meets the
preconditions.  The runs at the end of the other modules are put together from these.

* `run_open` leads from the initial state to a running room.
* `run_handshake`: a handshake with a nonce that is not used yet reaches registration.
* `run_settle`: a registered connection reaches the state in which its reader and writer serve
  it; `run_serve` is its part behind the join event.
* `run_text` and `run_write`: a text of the host is broadcast, and a writer passes it on.
* `run_message`, `run_take` and `step_deliver`: a message that is framed is read, comes to the
  host loop, and is delivered.
* `run_hangUp`: a peer that closes its stream is taken out of the map.

Each is stated with the labels of its steps and with the state it leads to, both by name, so
that two of them can be appended without looking inside.  Where a handler reads a frame the
labels have its bytes in two pieces, head and rest, as `read_frame` asks for them.

A step changes a connection with `setConn`, and a run of several steps of one connection ends
in as many nested updates.  The proofs collapse them step by step (`setConn_setConn`): each
step is followed by the state it is to have reached.
-/

namespace Nullpipe

open Channel Room Transition

variable {X : Crates} {cfg : HostConfig} {s : Room} {c : ConnId}

/-! ## Opening the room -/

/-- A room that has just started to accept connections. -/
def Room.opened (cfg : HostConfig) (now : ℕ) (addr : String) : Room :=
  { Room.init now with
    events := Mpsc.empty.push (.roomReady addr roomPort)
    invite := some ⟨addr, roomPort, cfg.inviteTtlSecs⟩
    accept := .running
    host := .select }

def openLabels (addr : String) : List Label :=
  [.host (.created addr), .host .sendReady, .host .publishInvite, .host .spawnAccept]

theorem run_open (X : Crates) (cfg : HostConfig) (now : ℕ) (addr : String) :
    RoomRun X cfg (Room.init now) (openLabels addr) (Room.opened cfg now addr) := by
  have hrun : RoomRun X cfg (Room.init now) _ (Room.init now) := .nil
  have hrun := hrun.snoc (.host (show HostStep cfg (.created addr) _ _ from .created rfl))
  have hrun := hrun.snoc (.host (.sendReady rfl ⟨rfl, Nat.zero_lt_succ _⟩))
  have hrun := hrun.snoc (.host (.publishInvite rfl))
  exact hrun.snoc (.host (.spawnAccept rfl))

theorem reachable_opened (X : Crates) (cfg : HostConfig) (now : ℕ) (addr : String) :
    RoomReachable X cfg (Room.opened cfg now addr) :=
  ⟨now, (run_open X cfg now addr).reachable⟩

/-! ## The handshake -/

/-- Sixteen equal bytes. -/
def Bytes16.fill (byte : UInt8) : Bytes16 := ⟨List.replicate 16 byte, List.length_replicate⟩

/-- The bytes of a client: nonce, discriminator, and the frame with its name. -/
def helloBytes (X : Crates) (nonce discriminator : Bytes16) (name : String) : List UInt8 :=
  nonce.val ++ discriminator.val ++ frameBytes X.json (.system name)

/-- A connection in the course of its handshake. -/
def Conn.greeting (watchSeen : ℕ) (sock : Socket) (handler : Handler) : Conn :=
  { Conn.fresh with sock := sock, watchSeen := watchSeen, handler := handler }

/-- The steps of a handshake, with the name frame read in two pieces. -/
def handshakeLabels (X : Crates) (c : ConnId) (nonce discriminator : Bytes16) (name : String) :
    List Label :=
  [.accept (.accept c), .net c (.arrive (helloBytes X nonce discriminator name)),
    .handler c .start, .handler c (.read (nonce.val ++ discriminator.val)),
    .handler c .insertNonce, .handler c (.write [0]), .handler c .flush,
    .handler c (.read (toBeBytes (X.json.toVec (.system name)).length)),
    .handler c (.read (X.json.toVec (.system name)))]

/-- Where the handshake with the given client ends: with a registration. -/
def Room.greeted (X : Crates) (s : Room) (c : ConnId) (nonce discriminator : Bytes16)
    (name : String) : Room :=
  setConn { s with used := insert nonce s.used } c
    (.greeting s.acceptSeen ⟨helloBytes X nonce discriminator name, [], none, [0], 1⟩
      (.register ⟨peerId X discriminator, name, s.now⟩))

theorem handshakeRead_full (nonce discriminator : Bytes16) (deadline : ℕ) :
    handshakeRead (nonce.val ++ discriminator.val) deadline = .lockNonces nonce discriminator := by
  have hlen : (nonce.val ++ discriminator.val).length = handshakeLen := by
    rw [List.length_append, nonce.property, discriminator.property]
    rfl
  rw [handshakeRead, dif_pos hlen]
  congr 1
  · exact Subtype.ext (List.take_left' nonce.property)
  · exact Subtype.ext (List.drop_left' nonce.property)

/-- The steps by which a client is accepted, when `bytes` have arrived from it. -/
def acceptLabels (c : ConnId) (nonce discriminator : Bytes16) (bytes : List UInt8) : List Label :=
  [.accept (.accept c), .net c (.arrive bytes), .handler c .start,
    .handler c (.read (nonce.val ++ discriminator.val)), .handler c .insertNonce,
    .handler c (.write [0]), .handler c .flush]

/-- The steps by which its name is read. -/
def nameLabels (X : Crates) (c : ConnId) (name : String) : List Label :=
  [.handler c (.read (toBeBytes (X.json.toVec (.system name)).length)),
    .handler c (.read (X.json.toVec (.system name)))]

/-- The room when a client has been accepted and `rest` is to be read as its name. -/
def Room.accepted (X : Crates) (s : Room) (c : ConnId) (nonce discriminator : Bytes16)
    (rest : List UInt8) : Room :=
  setConn { s with used := insert nonce s.used } c
    (.greeting s.acceptSeen ⟨nonce.val ++ discriminator.val, rest, none, [0], 1⟩
      (.readName (peerId X discriminator) [] (s.now + nameTimeout)))

/-- A new nonce is accepted. -/
theorem run_accept {nonce discriminator : Bytes16} (rest : List UInt8)
    (haccept : s.accept = .running) (hready : ¬ s.ShutdownReady s.acceptSeen)
    (hfresh : s.conns c = Conn.fresh) (hlock : s.nonceLock = none) (hnonce : nonce ∉ s.used) :
    RoomRun X cfg s (acceptLabels c nonce discriminator (nonce.val ++ discriminator.val ++ rest))
      (s.accepted X c nonce discriminator rest) := by
  have hlen : (nonce.val ++ discriminator.val).length = handshakeLen := by
    rw [List.length_append, nonce.property, discriminator.property]
    rfl
  have hhelloNil : nonce.val ++ discriminator.val ≠ [] := by
    intro hnil
    rw [hnil] at hlen
    cases hlen
  rw [Room.accepted, acceptLabels]
  have hfull := handshakeRead_full nonce discriminator (s.now + readTimeout)
  generalize nonce.val ++ discriminator.val = hello at *
  -- the state after each line of `acceptLabels`
  let conn (sock : Socket) (handler : Handler) : Room :=
    s.setConn c (.greeting s.acceptSeen sock handler)
  let admitted (sock : Socket) (handler : Handler) : Room :=
    setConn { s with used := insert nonce s.used } c (.greeting s.acceptSeen sock handler)
  have hconn (sock : Socket) (handler : Handler) :
      (conn sock handler).conns c = .greeting s.acceptSeen sock handler := by simp [conn]
  have hadmitted (sock : Socket) (handler : Handler) :
      (admitted sock handler).conns c = .greeting s.acceptSeen sock handler := by simp [admitted]
  have hrun : RoomRun X cfg s _ s := .nil
  have hrun := hrun.extend (.accept (.accept (c := c) haccept hready (by rw [hfresh]; rfl)))
    (show _ = conn ⟨[], [], none, [], 0⟩ .spawned by rw [hfresh]; rfl)
  have hrun := hrun.extend
    (.net (c := c) (l := .arrive (hello ++ rest)) (.arrive (by rw [hconn]; rfl)))
    (show _ = conn ⟨[], hello ++ rest, none, [], 0⟩ .spawned by
      rw [hconn]; simp [conn, Conn.greeting, Socket.arrive])
  have hrun := hrun.extend (.handler (c := c) (l := .start) (.start (by rw [hconn]; rfl)))
    (show _ = conn ⟨[], hello ++ rest, none, [], 0⟩ (.readHandshake [] (s.now + readTimeout)) by
      rw [hconn]; simp [conn, Conn.greeting])
  have hrun := hrun.extend
    (.handler (c := c) (l := .read hello) (.readHandshake (by rw [hconn]; rfl)
      (by rw [hconn]; exact ⟨hhelloNil, List.prefix_append _ _⟩) (by simp [hlen])))
    (show _ = conn ⟨hello, rest, none, [], 0⟩ (.lockNonces nonce discriminator) by
      rw [hconn]; simp [conn, Conn.greeting, hfull, Socket.take])
  have hrun := hrun.extend
    (.handler (c := c) (l := .insertNonce) (.insertNonce (by rw [hconn]; rfl) hlock hnonce))
    (show _ = admitted ⟨hello, rest, none, [], 0⟩
        (.writeAccept (peerId X discriminator) [0] (s.now + writeTimeout)) by
      rw [hconn]; simp only [conn, setConn_setConn]; rfl)
  have hrun := hrun.extend
    (.handler (c := c) (l := .write [0]) (.writeAccept
      (show _ = Handler.writeAccept _ ([0] ++ []) _ by rw [hadmitted]; rfl) (by simp)))
    (show _ = admitted ⟨hello, rest, none, [0], 0⟩
        (.flushAccept (peerId X discriminator) (s.now + writeTimeout)) by
      rw [hadmitted]; simp [admitted, Conn.greeting, Socket.write])
  exact hrun.extend
    (.handler (c := c) (l := .flush) (.flushAccept (by rw [hadmitted]; rfl)))
    (by rw [hadmitted]; simp [admitted, Conn.greeting, Socket.flush])

/-- The name of an accepted client is read. -/
theorem run_name {name : String} {id : PeerId} {seen deadline : ℕ} {hello : List UInt8}
    (hconn : s.conns c = .greeting seen ⟨hello, frameBytes X.json (.system name), none, [0], 1⟩
      (.readName id [] deadline)) (hname : Encodes X.json (.system name)) :
    RoomRun X cfg s (nameLabels X c name)
      (s.setConn c (.greeting seen
        ⟨hello ++ frameBytes X.json (.system name), [], none, [0], 1⟩
        (.register ⟨id, name, s.now⟩))) := by
  obtain ⟨hsplit, hheaderNil, hpayloadNil, hheader, hheaderLen, ⟨k, hpayload, hfit⟩, hframe,
    hdecode⟩ := hname.pieces
  rw [hsplit] at hconn ⊢
  rw [nameLabels]
  generalize toBeBytes (X.json.toVec (.system name)).length = header at *
  generalize X.json.toVec (.system name) = payload at *
  have hrun : RoomRun X cfg s _ s := .nil
  have hrun := hrun.extend
    (.handler (c := c) (l := .read header) (.readName (by rw [hconn]; rfl)
      (by rw [hconn]; exact ⟨hheaderNil, List.prefix_append _ _⟩) hheader hheaderLen))
    (show _ = s.setConn c
        (.greeting seen ⟨hello ++ header, payload, none, [0], 1⟩ (.readName id header deadline)) by
      rw [hconn]; simp [Conn.greeting, nameRead, hpayload, Socket.take])
  exact hrun.extend
    (.handler (c := c) (l := .read payload) (.readName (by rw [conns_setConn_self]; rfl)
      (by rw [conns_setConn_self]; exact ⟨hpayloadNil, List.prefix_rfl⟩) hpayload hfit))
    (by
      rw [conns_setConn_self]
      simp [Conn.greeting, nameRead, hframe, hdecode, Socket.take]
      rfl)

/-- **A new nonce is enough to be admitted.** -/
theorem run_handshake {nonce discriminator : Bytes16} {name : String}
    (haccept : s.accept = .running) (hready : ¬ s.ShutdownReady s.acceptSeen)
    (hfresh : s.conns c = Conn.fresh) (hlock : s.nonceLock = none) (hnonce : nonce ∉ s.used)
    (hname : Encodes X.json (.system name)) :
    RoomRun X cfg s (handshakeLabels X c nonce discriminator name)
      (s.greeted X c nonce discriminator name) := by
  have haccepted : RoomRun X cfg s _ (s.accepted X c nonce discriminator _) :=
    run_accept (frameBytes X.json (.system name)) haccept hready hfresh hlock hnonce
  have hnamed : RoomRun X cfg (s.accepted X c nonce discriminator _) _ _ :=
    run_name (by rw [Room.accepted, conns_setConn_self]) hname
  have hall := haccepted.append hnamed
  rwa [Room.accepted, setConn_setConn] at hall

/-! ## From registration to service -/

/-- The steps from registration to the join event. -/
def joinLabels (c : ConnId) : List Label := [.handler c .register, .handler c .emitJoin]

/-- The room when a peer is in the map and its join event is to be emitted. -/
def Room.registered (s : Room) (c : ConnId) (info : PeerInfo) : Room :=
  setConn { s with peers := Function.update s.peers info.id (some info) } c
    { s.conns c with handler := .emitJoin info }

/-- The room when the join notice of a peer is to be written. -/
def Room.announced (X : Crates) (s : Room) (c : ConnId) (info : PeerInfo) : Room :=
  setConn { s with events := s.events.trySend eventChanCap (.peerJoin info) } c
    { s.conns c with handler := .notifyJoin info (frameBytes X.json (joinNotice info)) }

theorem step_register {info : PeerInfo} (hphase : (s.conns c).handler = .register info) :
    Step X cfg (.handler c .register) s (s.registered c info) :=
  .handler (.register hphase)

theorem step_emitJoin {info : PeerInfo} (hphase : (s.conns c).handler = .emitJoin info)
    (hnotice : Encodes X.json (joinNotice info)) :
    Step X cfg (.handler c .emitJoin) s (s.announced X c info) := by
  have hafter : afterEmitJoin X.json info =
      .notifyJoin info (frameBytes X.json (joinNotice info)) := by
    rw [afterEmitJoin, hnotice.encodeMessage]
  rw [Room.announced, ← hafter]
  exact .handler (.emitJoin hphase)

/-- The steps from the join event to service, with the join notice written at once. -/
def serveLabels (X : Crates) (c : ConnId) (info : PeerInfo) : List Label :=
  [.handler c (.write (frameBytes X.json (joinNotice info))), .handler c .spawnReader,
    .handler c .subscribe]

/-- Where the join event leads: reader and writer are running. -/
def Room.served (X : Crates) (s : Room) (c : ConnId) (info : PeerInfo) : Room :=
  s.setConn c
    { s.conns c with
      sock := (s.conns c).sock.write (frameBytes X.json (joinNotice info))
      handler := .serve info
      reader := .spawned info.id
      writer := .recv
      cursor := s.bcast.length }

theorem run_serve {info : PeerInfo}
    (hphase : (s.conns c).handler = .notifyJoin info (frameBytes X.json (joinNotice info)))
    (hnotice : Encodes X.json (joinNotice info)) :
    RoomRun X cfg s (serveLabels X c info) (s.served X c info) := by
  have hne := frameBytes_ne_nil hnotice
  rw [Room.served, serveLabels]
  generalize frameBytes X.json (joinNotice info) = notice at *
  generalize hk : s.conns c = k at *
  have hrun : RoomRun X cfg s _ s := .nil
  have hrun := hrun.extend
    (.handler (c := c) (l := .write notice) (.writeNotice
      (show _ = Handler.notifyJoin info (notice ++ []) by rw [hk, hphase, List.append_nil]) hne))
    (show _ = s.setConn c
        { k with sock := k.sock.write notice, handler := .spawnReader info } by simp [hk])
  have hrun := hrun.extend
    (.handler (c := c) (l := .spawnReader) (.spawnReader (by rw [conns_setConn_self])))
    (show _ = s.setConn c
        { k with
          sock := k.sock.write notice
          reader := .spawned info.id
          handler := .subscribe info } by simp)
  exact hrun.extend
    (.handler (c := c) (l := .subscribe) (.subscribe (by rw [conns_setConn_self]))) (by simp)

/-- Where a registration leads in the end. -/
def Room.settled (X : Crates) (s : Room) (c : ConnId) (info : PeerInfo) : Room :=
  ((s.registered c info).announced X c info).served X c info

/-- **A registered connection comes to be served.** -/
theorem run_settle {info : PeerInfo} (hphase : (s.conns c).handler = .register info)
    (hnotice : Encodes X.json (joinNotice info)) :
    RoomRun X cfg s (joinLabels c ++ serveLabels X c info) (s.settled X c info) := by
  have hregister : Step X cfg (.handler c .register) s (s.registered c info) :=
    step_register hphase
  have hjoin : Step X cfg (.handler c .emitJoin) (s.registered c info)
      ((s.registered c info).announced X c info) :=
    step_emitJoin (by rw [Room.registered, conns_setConn_self]) hnotice
  exact (Run.cons hregister (.single hjoin)).append
    (run_serve (by rw [Room.announced, conns_setConn_self]) hnotice)

/-- The room with a further client, from its connection to its service. -/
def Room.admitted (X : Crates) (s : Room) (c : ConnId) (nonce discriminator : Bytes16)
    (name : String) : Room :=
  (s.greeted X c nonce discriminator name).settled X c ⟨peerId X discriminator, name, s.now⟩

/-- A reachable room can take in a further client. -/
theorem RoomReachable.admitted {nonce discriminator : Bytes16} {name : String}
    (hs : RoomReachable X cfg s) (haccept : s.accept = .running)
    (hready : ¬ s.ShutdownReady s.acceptSeen) (hfresh : s.conns c = Conn.fresh)
    (hlock : s.nonceLock = none) (hnonce : nonce ∉ s.used)
    (hname : Encodes X.json (.system name))
    (hnotice : Encodes X.json (.system (name ++ " joined"))) :
    RoomReachable X cfg (s.admitted X c nonce discriminator name) :=
  (hs.run (run_handshake haccept hready hfresh hlock hnonce hname)).run
    (run_settle (by rw [Room.greeted, conns_setConn_self]; rfl) hnotice)

theorem conns_admitted_of_ne {nonce discriminator : Bytes16} {name : String} {d : ConnId}
    (hne : d ≠ c) : (s.admitted X c nonce discriminator name).conns d = s.conns d := by
  rw [Room.admitted, Room.settled, Room.served, conns_setConn_of_ne _ _ _ _ hne, Room.announced,
    conns_setConn_of_ne _ _ _ _ hne, Room.registered, conns_setConn_of_ne _ _ _ _ hne,
    Room.greeted, conns_setConn_of_ne _ _ _ _ hne]

/-! ## A text of the host -/

/-- The steps by which a text of the host is broadcast. -/
def textLabels (cfg : HostConfig) (text : String) : List Label :=
  [.user (.send text), .host (.takeText text), .host .echo,
    .host (.broadcast (.chat cfg.name text))]

/-- The room after a text of the host. -/
def Room.told (cfg : HostConfig) (s : Room) (text : String) : Room :=
  { s with
    sendQ := ⟨s.sendQ.received ++ [text], [], true⟩
    events := s.events.trySend eventChanCap (.message hubId cfg.name text)
    bcast := s.bcast ++ [.chat cfg.name text] }

theorem run_text {text : String} (hhost : s.host = .select)
    (hready : ¬ s.ShutdownReady s.hostSeen) (hqueue : s.sendQ.queue = [])
    (hopen : s.sendQ.isOpen = true) (hsend : s.sendOpen = true) :
    RoomRun X cfg s (textLabels cfg text) (s.told cfg text) := by
  have hsendQ : s.sendQ = ⟨s.sendQ.received, [], true⟩ := by rw [← hqueue, ← hopen]
  rw [Room.told, textLabels]
  generalize s.sendQ.received = received at *
  have hrun : RoomRun X cfg s _ s := .nil
  have hrun := hrun.extend
    (.user (l := .send text) (.send hsend (by rw [hsendQ]; exact ⟨rfl, Nat.zero_lt_succ _⟩)))
    (show _ = { s with sendQ := ⟨received, [text], true⟩ } by rw [hsendQ]; rfl)
  have hrun := hrun.extend (.host (l := .takeText text) (.takeText hhost hready rfl))
    (show _ = { s with
      sendQ := ⟨received ++ [text], [], true⟩
      host := .echo text } by rfl)
  have hrun := hrun.snoc (.host (l := .echo) (.echo rfl))
  exact hrun.extend (.host (l := .broadcast (.chat cfg.name text)) (.broadcast rfl)) (by
    rw [← hhost])

/-- The steps by which the writer of a connection passes a message on. -/
def writeLabels (X : Crates) (c : ConnId) (msg : WireMessage) : List Label :=
  [.writer c (.recv msg), .writer c (.write (frameBytes X.json msg)), .writer c .flush]

/-- The room when the writer of a connection has passed on the next message. -/
def Room.passed (X : Crates) (s : Room) (c : ConnId) (msg : WireMessage) : Room :=
  s.setConn c { s.conns c with
    cursor := (s.conns c).cursor + 1
    sock := ((s.conns c).sock.write (frameBytes X.json msg)).flush }

/-- **A message of the log is written** by a writer that waits and does not lag. -/
theorem run_write {msg : WireMessage} (hphase : (s.conns c).writer = .recv)
    (hget : s.bcast[(s.conns c).cursor]? = some msg)
    (hcap : s.bcast.length ≤ (s.conns c).cursor + broadcastChanCap) (hmsg : Encodes X.json msg) :
    RoomRun X cfg s (writeLabels X c msg) (s.passed X c msg) := by
  let frame := frameBytes X.json msg
  rw [Room.passed, writeLabels]
  generalize hk : s.conns c = k at *
  have hafter : afterRecv X.json msg s.now = .writing frame (s.now + writeTimeout) := by
    rw [afterRecv, hmsg.encodeMessage]
  have hrun : RoomRun X cfg s _ s := .nil
  have hrun := hrun.extend
    (.writer (c := c) (l := .recv msg) (.recv (by rw [hk]; exact hphase)
      (by rw [hk]; exact Broadcast.recv_of_getElem? hget hcap)))
    (show _ = s.setConn c { k with
        cursor := k.cursor + 1
        writer := .writing (frame ++ []) (s.now + writeTimeout) } by
      rw [hafter, List.append_nil, hk])
  have hrun := hrun.extend
    (.writer (c := c) (l := .write frame) (.write (by rw [conns_setConn_self])
      (frameBytes_ne_nil hmsg)))
    (show _ = s.setConn c { k with
        cursor := k.cursor + 1
        sock := k.sock.write frame
        writer := .flushing (s.now + writeTimeout) } by
      simp only [conns_setConn_self, setConn_setConn, now_setConn, if_pos])
  exact hrun.extend (.writer (c := c) (l := .flush) (.flush (by rw [conns_setConn_self])))
    (by simp only [conns_setConn_self, setConn_setConn, hphase, frame])

/-! ## Reading one message -/

/-- The steps by which a reader with an empty buffer gets one message, with its
frame read in two pieces. -/
def messageLabels (X : Crates) (c : ConnId) (msg : WireMessage) : List Label :=
  [.net c (.arrive (frameBytes X.json msg)),
    .reader c (.read (toBeBytes (X.json.toVec msg).length)),
    .reader c (.message (X.json.toVec msg) msg)]

/-- **A message that is framed is read.** -/
theorem run_message {id : PeerId} {deadline : ℕ} {msg : WireMessage}
    (hphase : (s.conns c).reader = .reading id [] deadline)
    (hinbox : (s.conns c).sock.inbox = []) (hopen : (s.conns c).sock.readEnd = none)
    (hmsg : Encodes X.json msg) (hkind : msg.kind ≠ .ping) :
    RoomRun X cfg s (messageLabels X c msg)
      (s.setConn c { s.conns c with
        sock := { (s.conns c).sock with
          read := (s.conns c).sock.read ++ frameBytes X.json msg }
        reader := .sending id msg }) := by
  obtain ⟨hsplit, hheaderNil, hpayloadNil, hheader, hheaderLen, ⟨k, hpayload, hfit⟩, hframe,
    hdecode⟩ := hmsg.pieces
  rw [messageLabels, hsplit]
  generalize toBeBytes (X.json.toVec msg).length = header at *
  generalize X.json.toVec msg = payload at *
  generalize hk : s.conns c = conn at *
  have hrun : RoomRun X cfg s _ s := .nil
  have hrun := hrun.extend
    (.net (c := c) (l := .arrive (header ++ payload)) (.arrive (by rw [hk]; exact hopen)))
    (show _ = s.setConn c { conn with sock := { conn.sock with inbox := header ++ payload } } by
      simp [hk, Socket.arrive, hinbox])
  have hrun := hrun.extend
    (.reader (c := c) (l := .read header) (.read (by simp; exact hphase)
      (by simpa [Socket.CanTake] using hheaderNil) hheader hheaderLen hpayload))
    (show _ = s.setConn c
        { conn with
          sock := { conn.sock with read := conn.sock.read ++ header, inbox := payload }
          reader := .reading id header deadline } by simp [Socket.take])
  have hrun := hrun.extend
    (.reader (c := c) (l := .message payload msg) (.message (by rw [conns_setConn_self])
      (by simpa [Socket.CanTake] using hpayloadNil) hpayload hfit hframe hdecode hkind))
    (show _ = s.setConn c
        { conn with
          sock := { conn.sock with read := conn.sock.read ++ (header ++ payload) }
          reader := .sending id msg } by
      simp only [conns_setConn_self, setConn_setConn, Socket.take, List.drop_length,
        List.append_assoc, hinbox])
  exact hrun

/-! ## Delivering one message -/

/-- The steps by which one message goes from the stream of its sender to the host
loop. -/
def takeLabels (X : Crates) (c : ConnId) (id : PeerId) (msg : WireMessage) : List Label :=
  messageLabels X c msg ++ [.reader c .send, .host (.takeMessage id msg)]

/-- The steps by which it goes on to the event stream of the host. -/
def deliverLabels (X : Crates) (c : ConnId) (id : PeerId) (msg : WireMessage) : List Label :=
  takeLabels X c id msg ++ [.host .deliver]

/-- The room when the host loop holds a message and nothing else is on its way. -/
def Room.taken (X : Crates) (s : Room) (c : ConnId) (id : PeerId) (msg : WireMessage) : Room :=
  setConn
    { s with
      msgs := ⟨s.msgs.received ++ [(id, msg)], [], true⟩
      host := .deliver id msg }
    c
    { s.conns c with
      sock := { (s.conns c).sock with
        read := (s.conns c).sock.read ++ frameBytes X.json msg }
      reader := .reading id [] (s.now + readTimeout) }

/-- The room after it has delivered one message and nothing else. -/
def Room.delivered (X : Crates) (s : Room) (c : ConnId) (id : PeerId) (msg : WireMessage) : Room :=
  { s.taken X c id msg with
    events := deliverEvent s.events id msg
    host := .select }

/-- **A message that is framed reaches the host loop** if that and the message
channel are idle. -/
theorem run_take {id : PeerId} {deadline : ℕ} {msg : WireMessage}
    (hphase : (s.conns c).reader = .reading id [] deadline)
    (hinbox : (s.conns c).sock.inbox = []) (hopen : (s.conns c).sock.readEnd = none)
    (hmsg : Encodes X.json msg) (hkind : msg.kind ≠ .ping) (hhost : s.host = .select)
    (hready : ¬ s.ShutdownReady s.hostSeen) (htexts : s.sendQ.queue = [])
    (hsend : s.sendOpen = true) (hqueue : s.msgs.queue = []) (hmsgs : s.msgs.isOpen = true) :
    RoomRun X cfg s (takeLabels X c id msg) (s.taken X c id msg) := by
  have hrun : RoomRun X cfg s _ _ := run_message hphase hinbox hopen hmsg hkind
  have hreceived : s.msgs = ⟨s.msgs.received, [], true⟩ := by
    rw [← hqueue, ← hmsgs]
  rw [Room.taken, takeLabels]
  generalize messageLabels X c msg = front at *
  generalize hk : s.conns c = k at *
  generalize s.msgs.received = received at *
  let read : Conn := { k with
    sock := { k.sock with read := k.sock.read ++ frameBytes X.json msg }
    reader := .reading id [] (s.now + readTimeout) }
  have hrun := hrun.extend
    (.reader (c := c) (l := .send) (.send (by rw [conns_setConn_self])
      (by rw [msgs_setConn, hreceived]; exact ⟨rfl, Nat.zero_lt_succ _⟩)))
    (show _ = setConn { s with msgs := ⟨received, [(id, msg)], true⟩ } c read by
      simp only [conns_setConn_self, setConn_setConn, msgs_setConn, hreceived]
      rfl)
  have hrun := hrun.extend
    (.host (l := .takeMessage id msg) (.takeMessage hhost hready htexts hsend rfl))
    (show _ = setConn { s with
        msgs := ⟨received ++ [(id, msg)], [], true⟩
        host := .deliver id msg } c read by rfl)
  simpa only [List.append_assoc, List.cons_append, List.nil_append] using hrun

theorem step_deliver (X : Crates) (cfg : HostConfig) (s : Room) (c : ConnId) (id : PeerId)
    (msg : WireMessage) :
    Step X cfg (.host .deliver) (s.taken X c id msg) (s.delivered X c id msg) :=
  .host (.deliver rfl)

/-! ## Leaving -/

/-- The steps by which a peer that hangs up is taken out of the map. -/
def hangUpLabels (c : ConnId) : List Label :=
  [.net c (.finish .eof), .reader c .readFail, .handler c .readerDone, .handler c .abortWriter,
    .handler c .deregister]

/-- The room when the leave event of a peer that hung up is to be emitted. -/
def Room.leaving (s : Room) (c : ConnId) (info : PeerInfo) : Room :=
  setConn { s with peers := Function.update s.peers info.id none } c
    { s.conns c with
      sock := (s.conns c).sock.finish .eof
      handler := .emitLeave info
      reader := .ended .readError
      writerAborted := true }

theorem run_hangUp {info : PeerInfo} {id : PeerId} {got : List UInt8} {deadline : ℕ}
    (hphase : (s.conns c).handler = .serve info)
    (hreader : (s.conns c).reader = .reading id got deadline)
    (hinbox : (s.conns c).sock.inbox = []) (hopen : (s.conns c).sock.readEnd = none) :
    RoomRun X cfg s (hangUpLabels c) (s.leaving c info) := by
  rw [Room.leaving, hangUpLabels]
  generalize hk : s.conns c = k at *
  have hrun : RoomRun X cfg s _ s := .nil
  have hrun := hrun.extend
    (.net (c := c) (l := .finish .eof) (.finish (by rw [hk]; exact hopen)))
    (show _ = s.setConn c { k with sock := k.sock.finish .eof } by rw [hk])
  have hrun := hrun.extend
    (.reader (c := c) (l := .readFail) (.readFail (by rw [conns_setConn_self]; exact hreader)
      (by rw [conns_setConn_self]; exact ⟨hinbox, rfl⟩)))
    (show _ = s.setConn c
        { k with sock := k.sock.finish .eof, reader := .ended .readError } by simp)
  have hrun := hrun.extend
    (.handler (c := c) (l := .readerDone) (.readerDone
      (by rw [conns_setConn_self]; exact hphase) (by rw [conns_setConn_self])))
    (show _ = s.setConn c
        { k with
          sock := k.sock.finish .eof
          handler := .abortWriter info
          reader := .ended .readError } by simp)
  have hrun := hrun.extend
    (.handler (c := c) (l := .abortWriter) (.abortWriter (by rw [conns_setConn_self])))
    (show _ = s.setConn c
        { k with
          sock := k.sock.finish .eof
          handler := .deregister info
          reader := .ended .readError
          writerAborted := true } by simp)
  exact hrun.extend
    (.handler (c := c) (l := .deregister) (.deregister (by rw [conns_setConn_self])))
    (by simp only [conns_setConn_self, setConn_setConn, peers_setConn]; rfl)

end Nullpipe

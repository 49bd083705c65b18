import Nullpipe.Room.State
import Nullpipe.Lib.Transition

/-!
# The steps of a hosted room

One relation for each task of `room.rs`, indexed by labels that name the step and
carry what the environment decides: the bytes a read returns, the part of a
buffer a write accepts, the text of an I/O error.  `Step` is their union, so its
runs are the interleavings of the host loop, the accept loop, every handler,
reader and writer, the users of the handle and the clients.

Granularity: one step is one access to state that other tasks also touch.  A
`select!` is polled as a whole, which is where its `biased` order shows: the host
loop takes a text only while the shutdown signal is not ready, and a peer message
only while, besides, no text is queued.

Timeouts: a `timeout` may fire once the clock has reached its deadline; `tick`
moves the clock by any amount.
-/

namespace Nullpipe

open Channel Framing

/-! ## Labels -/

inductive HandlerLabel
  | start
  | read (chunk : List UInt8)
  | readFail (reason : String)
  | readTimeout
  | insertNonce
  | refuseNonce
  | write (chunk : List UInt8)
  | writeFail (reason : String)
  | writeTimeout
  | flush
  | flushFail (reason : String)
  | flushTimeout
  | register
  | emitJoin
  | spawnReader
  | subscribe
  | readerDone
  | shutdown
  | abortWriter
  | deregister
  | emitLeave
  deriving DecidableEq

inductive ReaderLabel
  | start
  /-- a read that does not complete the frame -/
  | read (chunk : List UInt8)
  /-- a read that completes a frame with a message other than a ping -/
  | message (chunk : List UInt8) (msg : WireMessage)
  | ping (chunk : List UInt8)
  | malformed (chunk : List UInt8)
  | readFail
  | readTimeout
  | send
  | sendClosed
  | cancel
  deriving DecidableEq

inductive WriterLabel
  | recv (msg : WireMessage)
  | lagged
  | closed
  | write (chunk : List UInt8)
  | writeFail
  | writeTimeout
  | flush
  | flushFail
  | flushTimeout
  | cancel
  deriving DecidableEq

inductive HostLabel
  | created (onionAddress : String)
  | createFailed (e : ChatError)
  | sendReady
  | publishInvite
  | spawnAccept
  | shutdown
  | takeText (text : String)
  | sendClosed
  | echo
  | broadcast (msg : WireMessage)
  | takeMessage (id : PeerId) (msg : WireMessage)
  | deliver
  | close
  | abortAccept
  | joinAccept
  | sendError
  deriving DecidableEq

inductive AcceptLabel
  | accept (c : ConnId)
  | shutdown
  | sourceEnded
  | cancel
  deriving DecidableEq

/-- What the holders of the room's handles and of its event stream do. -/
inductive UserLabel
  | send (text : String)
  | invite (nonce : Bytes16) (suggestedName : Option String)
  | quitFlag
  | quitSend
  | dropSend
  | dropWatch
  | takeEvent
  | closeEvents
  deriving DecidableEq

/-- What the client at the other end of a connection does. -/
inductive NetLabel
  | arrive (chunk : List UInt8)
  | finish (e : ReadEnd)
  deriving DecidableEq

inductive Label
  | user (l : UserLabel)
  | host (l : HostLabel)
  | accept (l : AcceptLabel)
  | handler (c : ConnId) (l : HandlerLabel)
  | reader (c : ConnId) (l : ReaderLabel)
  | writer (c : ConnId) (l : WriterLabel)
  | net (c : ConnId) (l : NetLabel)
  | tick (d : ℕ)
  deriving DecidableEq

/-! ## The handshake -/

/-- The handler after the handshake buffer has been filled up to `buf`. -/
def handshakeRead (buf : List UInt8) (deadline : ℕ) : Handler :=
  if h : buf.length = handshakeLen then
    .lockNonces (nonceBytes buf h) (discriminatorBytes buf h)
  else
    .readHandshake buf deadline

/-- The error `read_frame` makes of a failed `read_exact`. -/
def readFrameError (got : List UInt8) (reason : String) : ChatError :=
  .wire ((if got.length < 4 then "header" else "payload") ++ " read failed: " ++ reason)

/-- The handler after the bytes `got` of the name frame: the name is the text of
the message in it, and `joined_at` is read when the handshake returns. -/
def nameRead (json : SerdeJson) (id : PeerId) (got : List UInt8) (deadline now : ℕ) : Handler :=
  match readFrame got with
  | .needs _ => .readName id got deadline
  | .failed e => .failed (.connection ("handshake name read: " ++ e.display))
  | .frame frame =>
    match decodeMessage json frame with
    | .error e => .failed (.connection ("handshake name decode: " ++ e.display))
    | .ok msg => .register ⟨id, msg.text, now⟩

/-- The join notice for the peer. -/
def joinNotice (info : PeerInfo) : WireMessage := .system (info.name ++ " joined")

/-- The handler after the join event: it writes the join notice if that fits a
frame. -/
def afterEmitJoin (json : SerdeJson) (info : PeerInfo) : Handler :=
  match encodeMessage json (joinNotice info) with
  | .ok frame => .notifyJoin info frame
  | .error _ => .spawnReader info

section

variable (X : Crates) (c : ConnId)

/-- `handle_hub_connection` with `hub_handshake` inlined.  The check
`n != HANDSHAKE_LEN` of the source is left out: `read_exact` returns the length
of its buffer. -/
inductive HandlerStep : HandlerLabel → Room → Room → Prop
  | start {s : Room} (hphase : (s.conns c).handler = .spawned) :
      HandlerStep .start s
        (s.setConn c { s.conns c with handler := .readHandshake [] (s.now + readTimeout) })
  /-- `stream.read_exact(&mut buf)` -/
  | readHandshake {s : Room} {buf chunk : List UInt8} {deadline : ℕ}
      (hphase : (s.conns c).handler = .readHandshake buf deadline)
      (htake : (s.conns c).sock.CanTake chunk) (hfit : buf.length + chunk.length ≤ handshakeLen) :
      HandlerStep (.read chunk) s
        (s.setConn c { s.conns c with
          sock := (s.conns c).sock.take chunk
          handler := handshakeRead (buf ++ chunk) deadline })
  | handshakeReadFail {s : Room} {buf : List UInt8} {deadline : ℕ} {reason : String}
      (hphase : (s.conns c).handler = .readHandshake buf deadline)
      (hend : (s.conns c).sock.AtEnd) :
      HandlerStep (.readFail reason) s
        (s.setConn c { s.conns c with
          handler := .failed (.connection ("handshake read: " ++ reason)) })
  | handshakeReadTimeout {s : Room} {buf : List UInt8} {deadline : ℕ}
      (hphase : (s.conns c).handler = .readHandshake buf deadline) (hdue : deadline ≤ s.now) :
      HandlerStep .readTimeout s
        (s.setConn c { s.conns c with handler := .failed (.connection "handshake timed out") })
  /-- `nonces.lock().await`, and the nonce is new: it is inserted, and the lock is
  released before the next await point. -/
  | insertNonce {s : Room} {nonce discriminator : Bytes16}
      (hphase : (s.conns c).handler = .lockNonces nonce discriminator)
      (hlock : s.nonceLock = none) (hfresh : nonce ∉ s.used) :
      HandlerStep .insertNonce s
        { s.setConn c { s.conns c with
            handler := .writeAccept (peerId X discriminator) [0] (s.now + writeTimeout) } with
          used := insert nonce s.used }
  /-- `nonces.lock().await`, and the nonce was used: the lock is kept while the
  reject byte is written. -/
  | refuseNonce {s : Room} {nonce discriminator : Bytes16}
      (hphase : (s.conns c).handler = .lockNonces nonce discriminator)
      (hlock : s.nonceLock = none) (hused : nonce ∈ s.used) :
      HandlerStep .refuseNonce s
        { s.setConn c { s.conns c with handler := .rejectReused [1] } with nonceLock := some c }
  /-- `stream.write_all(&[1])` -/
  | writeReject {s : Room} {chunk rest : List UInt8}
      (hphase : (s.conns c).handler = .rejectReused (chunk ++ rest)) (hchunk : chunk ≠ []) :
      HandlerStep (.write chunk) s
        { s.setConn c { s.conns c with
            sock := (s.conns c).sock.write chunk
            handler := if rest = [] then .failed .nonceReused else .rejectReused rest } with
          nonceLock := if rest = [] then none else s.nonceLock }
  | rejectFail {s : Room} {rest : List UInt8} {reason : String}
      (hphase : (s.conns c).handler = .rejectReused rest) :
      HandlerStep (.writeFail reason) s
        { s.setConn c { s.conns c with handler := .failed .nonceReused } with nonceLock := none }
  /-- `stream.write_all(&[0])` -/
  | writeAccept {s : Room} {id : PeerId} {chunk rest : List UInt8} {deadline : ℕ}
      (hphase : (s.conns c).handler = .writeAccept id (chunk ++ rest) deadline)
      (hchunk : chunk ≠ []) :
      HandlerStep (.write chunk) s
        (s.setConn c { s.conns c with
          sock := (s.conns c).sock.write chunk
          handler := if rest = [] then .flushAccept id (s.now + writeTimeout)
            else .writeAccept id rest deadline })
  | acceptFail {s : Room} {id : PeerId} {rest : List UInt8} {deadline : ℕ} {reason : String}
      (hphase : (s.conns c).handler = .writeAccept id rest deadline) :
      HandlerStep (.writeFail reason) s
        (s.setConn c { s.conns c with
          handler := .failed (.connection ("handshake write: " ++ reason)) })
  | acceptTimeout {s : Room} {id : PeerId} {rest : List UInt8} {deadline : ℕ}
      (hphase : (s.conns c).handler = .writeAccept id rest deadline) (hdue : deadline ≤ s.now) :
      HandlerStep .writeTimeout s
        (s.setConn c { s.conns c with
          handler := .failed (.connection "handshake write timed out") })
  | flushAccept {s : Room} {id : PeerId} {deadline : ℕ}
      (hphase : (s.conns c).handler = .flushAccept id deadline) :
      HandlerStep .flush s
        (s.setConn c { s.conns c with
          sock := (s.conns c).sock.flush
          handler := .readName id [] (s.now + nameTimeout) })
  | flushFail {s : Room} {id : PeerId} {deadline : ℕ} {reason : String}
      (hphase : (s.conns c).handler = .flushAccept id deadline) :
      HandlerStep (.flushFail reason) s
        (s.setConn c { s.conns c with
          handler := .failed (.connection ("handshake flush: " ++ reason)) })
  | flushTimeout {s : Room} {id : PeerId} {deadline : ℕ}
      (hphase : (s.conns c).handler = .flushAccept id deadline) (hdue : deadline ≤ s.now) :
      HandlerStep .flushTimeout s
        (s.setConn c { s.conns c with
          handler := .failed (.connection "handshake flush timed out") })
  /-- `read_frame(stream)` for the name, and `decode_message` on its frame -/
  | readName {s : Room} {id : PeerId} {got chunk : List UInt8} {deadline k : ℕ}
      (hphase : (s.conns c).handler = .readName id got deadline)
      (htake : (s.conns c).sock.CanTake chunk) (hneeds : readFrame got = .needs k)
      (hfit : chunk.length ≤ k) :
      HandlerStep (.read chunk) s
        (s.setConn c { s.conns c with
          sock := (s.conns c).sock.take chunk
          handler := nameRead X.json id (got ++ chunk) deadline s.now })
  | nameReadFail {s : Room} {id : PeerId} {got : List UInt8} {deadline : ℕ} {reason : String}
      (hphase : (s.conns c).handler = .readName id got deadline)
      (hend : (s.conns c).sock.AtEnd) :
      HandlerStep (.readFail reason) s
        (s.setConn c { s.conns c with
          handler := .failed (.connection
            ("handshake name read: " ++ (readFrameError got reason).display)) })
  | nameReadTimeout {s : Room} {id : PeerId} {got : List UInt8} {deadline : ℕ}
      (hphase : (s.conns c).handler = .readName id got deadline) (hdue : deadline ≤ s.now) :
      HandlerStep .readTimeout s
        (s.setConn c { s.conns c with
          handler := .failed (.connection "handshake name read timed out") })
  /-- `map.insert(peer_id.clone(), peer_info.clone())` -/
  | register {s : Room} {info : PeerInfo} (hphase : (s.conns c).handler = .register info) :
      HandlerStep .register s
        { s.setConn c { s.conns c with handler := .emitJoin info } with
          peers := Function.update s.peers info.id (some info) }
  /-- `ctx.event_tx.try_send(ChatEvent::PeerJoin(..))`, then the join notice is
  encoded -/
  | emitJoin {s : Room} {info : PeerInfo} (hphase : (s.conns c).handler = .emitJoin info) :
      HandlerStep .emitJoin s
        { s.setConn c { s.conns c with handler := afterEmitJoin X.json info } with
          events := s.events.trySend eventChanCap (.peerJoin info) }
  | writeNotice {s : Room} {info : PeerInfo} {chunk rest : List UInt8}
      (hphase : (s.conns c).handler = .notifyJoin info (chunk ++ rest)) (hchunk : chunk ≠ []) :
      HandlerStep (.write chunk) s
        (s.setConn c { s.conns c with
          sock := (s.conns c).sock.write chunk
          handler := if rest = [] then .spawnReader info else .notifyJoin info rest })
  | noticeFail {s : Room} {info : PeerInfo} {rest : List UInt8} {reason : String}
      (hphase : (s.conns c).handler = .notifyJoin info rest) :
      HandlerStep (.writeFail reason) s
        (s.setConn c { s.conns c with handler := .spawnReader info })
  | spawnReader {s : Room} {info : PeerInfo} (hphase : (s.conns c).handler = .spawnReader info) :
      HandlerStep .spawnReader s
        (s.setConn c { s.conns c with
          reader := .spawned info.id
          handler := .subscribe info })
  /-- `ctx.wire_broadcast.subscribe()`, and the writer is spawned -/
  | subscribe {s : Room} {info : PeerInfo} (hphase : (s.conns c).handler = .subscribe info) :
      HandlerStep .subscribe s
        (s.setConn c { s.conns c with
          cursor := s.bcast.length
          writer := .recv
          handler := .serve info })
  | readerDone {s : Room} {info : PeerInfo} {reason : ReaderEnd}
      (hphase : (s.conns c).handler = .serve info)
      (hreader : (s.conns c).reader = .ended reason) :
      HandlerStep .readerDone s (s.setConn c { s.conns c with handler := .abortWriter info })
  | shutdown {s : Room} {info : PeerInfo} (hphase : (s.conns c).handler = .serve info)
      (hready : s.ShutdownReady (s.conns c).watchSeen) :
      HandlerStep .shutdown s
        (s.setConn c { s.conns c with
          watchSeen := s.watchVersion
          readerAborted := true
          handler := .abortWriter info })
  | abortWriter {s : Room} {info : PeerInfo} (hphase : (s.conns c).handler = .abortWriter info) :
      HandlerStep .abortWriter s
        (s.setConn c { s.conns c with
          writerAborted := true
          handler := .deregister info })
  /-- `map.remove(&peer_id)` -/
  | deregister {s : Room} {info : PeerInfo} (hphase : (s.conns c).handler = .deregister info) :
      HandlerStep .deregister s
        { s.setConn c { s.conns c with handler := .emitLeave info } with
          peers := Function.update s.peers info.id none }
  | emitLeave {s : Room} {info : PeerInfo} (hphase : (s.conns c).handler = .emitLeave info) :
      HandlerStep .emitLeave s
        { s.setConn c { s.conns c with handler := .ended info } with
          events := s.events.trySend eventChanCap (.peerLeave info.id) }

/-! ## Reader and writer -/

/-- `hub_reader_task`.  A ping is skipped; a send to a closed message channel is
ignored, and the loop goes on. -/
inductive ReaderStep : ReaderLabel → Room → Room → Prop
  | start {s : Room} {id : PeerId} (hphase : (s.conns c).reader = .spawned id) :
      ReaderStep .start s
        (s.setConn c { s.conns c with reader := .reading id [] (s.now + readTimeout) })
  | read {s : Room} {id : PeerId} {got chunk : List UInt8} {deadline k k' : ℕ}
      (hphase : (s.conns c).reader = .reading id got deadline)
      (htake : (s.conns c).sock.CanTake chunk) (hneeds : readFrame got = .needs k)
      (hfit : chunk.length ≤ k) (hmore : readFrame (got ++ chunk) = .needs k') :
      ReaderStep (.read chunk) s
        (s.setConn c { s.conns c with
          sock := (s.conns c).sock.take chunk
          reader := .reading id (got ++ chunk) deadline })
  | message {s : Room} {id : PeerId} {got chunk frame : List UInt8} {deadline k : ℕ}
      {msg : WireMessage} (hphase : (s.conns c).reader = .reading id got deadline)
      (htake : (s.conns c).sock.CanTake chunk) (hneeds : readFrame got = .needs k)
      (hfit : chunk.length ≤ k) (hframe : readFrame (got ++ chunk) = .frame frame)
      (hdecode : decodeMessage X.json frame = .ok msg) (hkind : msg.kind ≠ .ping) :
      ReaderStep (.message chunk msg) s
        (s.setConn c { s.conns c with
          sock := (s.conns c).sock.take chunk
          reader := .sending id msg })
  | ping {s : Room} {id : PeerId} {got chunk frame : List UInt8} {deadline k : ℕ}
      {msg : WireMessage} (hphase : (s.conns c).reader = .reading id got deadline)
      (htake : (s.conns c).sock.CanTake chunk) (hneeds : readFrame got = .needs k)
      (hfit : chunk.length ≤ k) (hframe : readFrame (got ++ chunk) = .frame frame)
      (hdecode : decodeMessage X.json frame = .ok msg) (hkind : msg.kind = .ping) :
      ReaderStep (.ping chunk) s
        (s.setConn c { s.conns c with
          sock := (s.conns c).sock.take chunk
          reader := .reading id [] (s.now + readTimeout) })
  | badFrame {s : Room} {id : PeerId} {got chunk : List UInt8} {deadline k : ℕ} {e : ChatError}
      (hphase : (s.conns c).reader = .reading id got deadline)
      (htake : (s.conns c).sock.CanTake chunk) (hneeds : readFrame got = .needs k)
      (hfit : chunk.length ≤ k) (hfailed : readFrame (got ++ chunk) = .failed e) :
      ReaderStep (.malformed chunk) s
        (s.setConn c { s.conns c with
          sock := (s.conns c).sock.take chunk
          reader := .ended .malformed })
  | badMessage {s : Room} {id : PeerId} {got chunk frame : List UInt8} {deadline k : ℕ}
      {e : ChatError} (hphase : (s.conns c).reader = .reading id got deadline)
      (htake : (s.conns c).sock.CanTake chunk) (hneeds : readFrame got = .needs k)
      (hfit : chunk.length ≤ k) (hframe : readFrame (got ++ chunk) = .frame frame)
      (hdecode : decodeMessage X.json frame = .error e) :
      ReaderStep (.malformed chunk) s
        (s.setConn c { s.conns c with
          sock := (s.conns c).sock.take chunk
          reader := .ended .malformed })
  | readFail {s : Room} {id : PeerId} {got : List UInt8} {deadline : ℕ}
      (hphase : (s.conns c).reader = .reading id got deadline)
      (hend : (s.conns c).sock.AtEnd) :
      ReaderStep .readFail s (s.setConn c { s.conns c with reader := .ended .readError })
  | readTimeout {s : Room} {id : PeerId} {got : List UInt8} {deadline : ℕ}
      (hphase : (s.conns c).reader = .reading id got deadline) (hdue : deadline ≤ s.now) :
      ReaderStep .readTimeout s (s.setConn c { s.conns c with reader := .ended .timedOut })
  /-- `msg_tx.send(..)` completes -/
  | send {s : Room} {id : PeerId} {msg : WireMessage}
      (hphase : (s.conns c).reader = .sending id msg) (hroom : s.msgs.HasRoom msgChanCap) :
      ReaderStep .send s
        { s.setConn c { s.conns c with reader := .reading id [] (s.now + readTimeout) } with
          msgs := s.msgs.push (id, msg) }
  | sendClosed {s : Room} {id : PeerId} {msg : WireMessage}
      (hphase : (s.conns c).reader = .sending id msg) (hclosed : s.msgs.isOpen = false) :
      ReaderStep .sendClosed s
        (s.setConn c { s.conns c with reader := .reading id [] (s.now + readTimeout) })
  /-- An aborted task ends at its next await point. -/
  | cancel {s : Room} (habort : (s.conns c).readerAborted = true)
      (hspawned : (s.conns c).reader ≠ .unspawned)
      (hlive : ∀ reason, (s.conns c).reader ≠ .ended reason) :
      ReaderStep .cancel s (s.setConn c { s.conns c with reader := .ended .cancelled })

/-- The writer after a broadcast message: one that does not fit a frame is
skipped. -/
def afterRecv (json : SerdeJson) (msg : WireMessage) (now : ℕ) : Writer :=
  match encodeMessage json msg with
  | .ok frame => .writing frame (now + writeTimeout)
  | .error _ => .recv

/-- The writer task.  Only a timeout ends it: the result inside the timeout is
not looked at, so after a failed write it goes on to flush, and after a failed
flush to the next message. -/
inductive WriterStep : WriterLabel → Room → Room → Prop
  | recv {s : Room} {msg : WireMessage} {next : ℕ} (hphase : (s.conns c).writer = .recv)
      (hrecv : Broadcast.recv broadcastChanCap s.bcast (s.conns c).cursor = (.value msg, next)) :
      WriterStep (.recv msg) s
        (s.setConn c { s.conns c with
          cursor := next
          writer := afterRecv X.json msg s.now })
  | lagged {s : Room} {skipped next : ℕ} (hphase : (s.conns c).writer = .recv)
      (hrecv : Broadcast.recv broadcastChanCap s.bcast (s.conns c).cursor =
        (.lagged skipped, next)) :
      WriterStep .lagged s (s.setConn c { s.conns c with cursor := next })
  | closed {s : Room} {next : ℕ} (hphase : (s.conns c).writer = .recv)
      (hrecv : Broadcast.recv broadcastChanCap s.bcast (s.conns c).cursor = (.empty, next))
      (hclosed : s.BroadcastClosed) :
      WriterStep .closed s (s.setConn c { s.conns c with writer := .ended })
  | write {s : Room} {chunk rest : List UInt8} {deadline : ℕ}
      (hphase : (s.conns c).writer = .writing (chunk ++ rest) deadline) (hchunk : chunk ≠ []) :
      WriterStep (.write chunk) s
        (s.setConn c { s.conns c with
          sock := (s.conns c).sock.write chunk
          writer := if rest = [] then .flushing (s.now + writeTimeout)
            else .writing rest deadline })
  | writeFail {s : Room} {rest : List UInt8} {deadline : ℕ}
      (hphase : (s.conns c).writer = .writing rest deadline) :
      WriterStep .writeFail s
        (s.setConn c { s.conns c with writer := .flushing (s.now + writeTimeout) })
  | writeTimeout {s : Room} {rest : List UInt8} {deadline : ℕ}
      (hphase : (s.conns c).writer = .writing rest deadline) (hdue : deadline ≤ s.now) :
      WriterStep .writeTimeout s (s.setConn c { s.conns c with writer := .ended })
  | flush {s : Room} {deadline : ℕ} (hphase : (s.conns c).writer = .flushing deadline) :
      WriterStep .flush s
        (s.setConn c { s.conns c with
          sock := (s.conns c).sock.flush
          writer := .recv })
  | flushFail {s : Room} {deadline : ℕ} (hphase : (s.conns c).writer = .flushing deadline) :
      WriterStep .flushFail s (s.setConn c { s.conns c with writer := .recv })
  | flushTimeout {s : Room} {deadline : ℕ} (hphase : (s.conns c).writer = .flushing deadline)
      (hdue : deadline ≤ s.now) :
      WriterStep .flushTimeout s (s.setConn c { s.conns c with writer := .ended })
  | cancel {s : Room} (habort : (s.conns c).writerAborted = true)
      (hspawned : (s.conns c).writer ≠ .unspawned) (hlive : (s.conns c).writer ≠ .ended) :
      WriterStep .cancel s (s.setConn c { s.conns c with writer := .ended })

/-! ## The network -/

/-- The client's end of the stream: any bytes, at any time, until it closes. -/
inductive NetStep : NetLabel → Room → Room → Prop
  | arrive {s : Room} {chunk : List UInt8} (hopen : (s.conns c).sock.readEnd = none) :
      NetStep (.arrive chunk) s
        (s.setConn c { s.conns c with sock := (s.conns c).sock.arrive chunk })
  | finish {s : Room} {e : ReadEnd} (hopen : (s.conns c).sock.readEnd = none) :
      NetStep (.finish e) s
        (s.setConn c { s.conns c with sock := (s.conns c).sock.finish e })

end

/-! ## The host loop -/

/-- `PeerId("[hub]")`. -/
def hubId : PeerId := ⟨"[hub]"⟩

/-- What the host loop does with a message from a peer: a chat message becomes an
event, any other is dropped. -/
def deliverEvent (events : Mpsc ChatEvent) (id : PeerId) (msg : WireMessage) : Mpsc ChatEvent :=
  if msg.kind = .chat then events.trySend eventChanCap (.message id msg.name msg.text) else events

/-- `run_host_loop`.  The branch for a closed message channel is left out: the
loop itself owns a sender of it. -/
inductive HostStep (cfg : HostConfig) : HostLabel → Room → Room → Prop
  | created {s : Room} {addr : String} (hphase : s.host = .creating) :
      HostStep cfg (.created addr) s { s with host := .sendReady addr }
  | createFailed {s : Room} {e : ChatError} (hphase : s.host = .creating) :
      HostStep cfg (.createFailed e) s { s with host := .sendError e }
  /-- `event_tx.send(..).await` waits for room -/
  | sendReady {s : Room} {addr : String} (hphase : s.host = .sendReady addr)
      (hroom : s.events.HasRoom eventChanCap) :
      HostStep cfg .sendReady s
        { s with events := s.events.push (.roomReady addr roomPort), host := .publishInvite addr }
  | sendReadyClosed {s : Room} {addr : String} (hphase : s.host = .sendReady addr)
      (hclosed : s.events.isOpen = false) :
      HostStep cfg .sendReady s { s with host := .publishInvite addr }
  | publishInvite {s : Room} {addr : String} (hphase : s.host = .publishInvite addr) :
      HostStep cfg .publishInvite s
        { s with invite := some ⟨addr, roomPort, cfg.inviteTtlSecs⟩, host := .spawnAccept }
  | spawnAccept {s : Room} (hphase : s.host = .spawnAccept) :
      HostStep cfg .spawnAccept s
        { s with accept := .running, acceptSeen := s.hostSeen, host := .select }
  | shutdown {s : Room} (hphase : s.host = .select) (hready : s.ShutdownReady s.hostSeen) :
      HostStep cfg .shutdown s { s with hostSeen := s.watchVersion, host := .closing }
  | takeText {s : Room} {text : String} {rest : List String} (hphase : s.host = .select)
      (hready : ¬ s.ShutdownReady s.hostSeen) (hqueue : s.sendQ.queue = text :: rest) :
      HostStep cfg (.takeText text) s { s with sendQ := s.sendQ.pop, host := .echo text }
  | sendClosed {s : Room} (hphase : s.host = .select) (hready : ¬ s.ShutdownReady s.hostSeen)
      (hqueue : s.sendQ.queue = []) (hclosed : s.sendOpen = false) :
      HostStep cfg .sendClosed s { s with host := .abortAccept }
  | echo {s : Room} {text : String} (hphase : s.host = .echo text) :
      HostStep cfg .echo s
        { s with
          events := s.events.trySend eventChanCap (.message hubId cfg.name text)
          host := .broadcast text }
  | broadcast {s : Room} {text : String} (hphase : s.host = .broadcast text) :
      HostStep cfg (.broadcast (.chat cfg.name text)) s
        { s with bcast := s.bcast ++ [.chat cfg.name text], host := .select }
  | takeMessage {s : Room} {id : PeerId} {msg : WireMessage}
      {rest : List (PeerId × WireMessage)} (hphase : s.host = .select)
      (hready : ¬ s.ShutdownReady s.hostSeen) (htexts : s.sendQ.queue = [])
      (hopen : s.sendOpen = true) (hqueue : s.msgs.queue = (id, msg) :: rest) :
      HostStep cfg (.takeMessage id msg) s { s with msgs := s.msgs.pop, host := .deliver id msg }
  | deliver {s : Room} {id : PeerId} {msg : WireMessage} (hphase : s.host = .deliver id msg) :
      HostStep cfg .deliver s { s with events := deliverEvent s.events id msg, host := .select }
  | close {s : Room} (hphase : s.host = .closing) :
      HostStep cfg .close s
        { s with events := s.events.trySend eventChanCap .roomClosed, host := .abortAccept }
  | abortAccept {s : Room} (hphase : s.host = .abortAccept) :
      HostStep cfg .abortAccept s { s with acceptAborted := true, host := .joinAccept }
  /-- `accept_handle.await`; on return the receivers of both channels are dropped -/
  | joinAccept {s : Room} (hphase : s.host = .joinAccept) (hended : s.accept = .ended) :
      HostStep cfg .joinAccept s
        { s with msgs := s.msgs.close, sendQ := s.sendQ.close, host := .ended }
  | sendError {s : Room} {e : ChatError} (hphase : s.host = .sendError e)
      (hroom : s.events.HasRoom eventChanCap) :
      HostStep cfg .sendError s { s with events := s.events.push (.error e), host := .failedSelect }
  | sendErrorClosed {s : Room} {e : ChatError} (hphase : s.host = .sendError e)
      (hclosed : s.events.isOpen = false) :
      HostStep cfg .sendError s { s with host := .failedSelect }
  | failedShutdown {s : Room} (hphase : s.host = .failedSelect)
      (hready : s.ShutdownReady s.hostSeen) :
      HostStep cfg .shutdown s { s with hostSeen := s.watchVersion, host := .failedClosing }
  | failedTakeText {s : Room} {text : String} {rest : List String}
      (hphase : s.host = .failedSelect) (hready : ¬ s.ShutdownReady s.hostSeen)
      (hqueue : s.sendQ.queue = text :: rest) :
      HostStep cfg (.takeText text) s { s with sendQ := s.sendQ.pop }
  | failedSendClosed {s : Room} (hphase : s.host = .failedSelect)
      (hready : ¬ s.ShutdownReady s.hostSeen) (hqueue : s.sendQ.queue = [])
      (hclosed : s.sendOpen = false) :
      HostStep cfg .sendClosed s { s with sendQ := s.sendQ.close, host := .ended }
  | failedClose {s : Room} (hphase : s.host = .failedClosing) :
      HostStep cfg .close s
        { s with
          events := s.events.trySend eventChanCap .roomClosed
          sendQ := s.sendQ.close
          host := .ended }

/-! ## The accept loop -/

/-- `accept_loop`: the handler of a new connection gets a clone of the loop's own
shutdown receiver. -/
inductive AcceptStep : AcceptLabel → Room → Room → Prop
  | accept {s : Room} {c : ConnId} (hphase : s.accept = .running)
      (hready : ¬ s.ShutdownReady s.acceptSeen) (hidle : (s.conns c).handler = .idle) :
      AcceptStep (.accept c) s
        (s.setConn c { s.conns c with handler := .spawned, watchSeen := s.acceptSeen })
  | shutdown {s : Room} (hphase : s.accept = .running) (hready : s.ShutdownReady s.acceptSeen) :
      AcceptStep .shutdown s { s with acceptSeen := s.watchVersion, accept := .ended }
  | sourceEnded {s : Room} (hphase : s.accept = .running)
      (hready : ¬ s.ShutdownReady s.acceptSeen) :
      AcceptStep .sourceEnded s { s with accept := .ended }
  | cancel {s : Room} (hphase : s.accept = .running) (habort : s.acceptAborted = true) :
      AcceptStep .cancel s { s with accept := .ended }

/-! ## The users -/

/-- The handles and the event stream.  `send` and `invite` read the quit flag
first and act later, so a call that has passed the check may act after `quit`;
`quit` sets the flag and then signals.  When the last handle is freed the sender
of `sendQ` goes first and the shutdown sender second. -/
inductive UserStep (X : Crates) : UserLabel → Room → Room → Prop
  | send {s : Room} {text : String} (hopen : s.sendOpen = true)
      (hroom : s.sendQ.HasRoom sendChanCap) :
      UserStep X (.send text) s { s with sendQ := s.sendQ.push text }
  | invite {s : Room} {nonce : Bytes16} {suggestedName : Option String} {info : InviteInfo}
      {code : String} (hopen : s.sendOpen = true) (hinfo : s.invite = some info)
      (hcode : encodeInvite X (s.invitePayload info nonce suggestedName) = .ok code) :
      UserStep X (.invite nonce suggestedName) s
        { s with issued := s.issued ++ [s.invitePayload info nonce suggestedName] }
  | quitFlag {s : Room} (hopen : s.sendOpen = true) :
      UserStep X .quitFlag s { s with quitFlag := true }
  | quitSend {s : Room} (hflag : s.quitFlag = true) (hopen : s.watchOpen = true)
      (hfirst : s.watchVersion = 0) :
      UserStep X .quitSend s { s with watchVersion := 1 }
  | dropSend {s : Room} (hopen : s.sendOpen = true) :
      UserStep X .dropSend s { s with sendOpen := false }
  | dropWatch {s : Room} (hclosed : s.sendOpen = false) (hopen : s.watchOpen = true) :
      UserStep X .dropWatch s { s with watchOpen := false }
  | takeEvent {s : Room} {event : ChatEvent} {rest : List ChatEvent}
      (hqueue : s.events.queue = event :: rest) :
      UserStep X .takeEvent s { s with events := s.events.pop }
  | closeEvents {s : Room} (hopen : s.events.isOpen = true) :
      UserStep X .closeEvents s { s with events := s.events.close }

/-! ## The room -/

/-- The steps of a hosted room. -/
inductive Step (X : Crates) (cfg : HostConfig) : Label → Room → Room → Prop
  | user {l : UserLabel} {s t : Room} (h : UserStep X l s t) : Step X cfg (.user l) s t
  | host {l : HostLabel} {s t : Room} (h : HostStep cfg l s t) : Step X cfg (.host l) s t
  | accept {l : AcceptLabel} {s t : Room} (h : AcceptStep l s t) : Step X cfg (.accept l) s t
  | handler {c : ConnId} {l : HandlerLabel} {s t : Room} (h : HandlerStep X c l s t) :
      Step X cfg (.handler c l) s t
  | reader {c : ConnId} {l : ReaderLabel} {s t : Room} (h : ReaderStep X c l s t) :
      Step X cfg (.reader c l) s t
  | writer {c : ConnId} {l : WriterLabel} {s t : Room} (h : WriterStep X c l s t) :
      Step X cfg (.writer c l) s t
  | net {c : ConnId} {l : NetLabel} {s t : Room} (h : NetStep c l s t) : Step X cfg (.net c l) s t
  | tick {s : Room} {d : ℕ} : Step X cfg (.tick d) s { s with now := s.now + d }

/-- The runs of a hosted room. -/
abbrev RoomRun (X : Crates) (cfg : HostConfig) : Room → List Label → Room → Prop :=
  Transition.Run (Step X cfg)

/-- The states a hosted room can reach; the clock starts anywhere. -/
def RoomReachable (X : Crates) (cfg : HostConfig) (s : Room) : Prop :=
  ∃ now, Transition.Reachable (Step X cfg) (Room.init now) s

end Nullpipe

import Nullpipe.Mock.Handshake
import Mathlib.Logic.Function.Basic

/-!
# The steps of the mock joiner

`joiner_task_mock` of `room.rs` with the reader and the writer it spawns.  The file is laid out
as `Joiner/Step.lean`, whose labels for the user it shares.

Where the two joiners differ in the source, the steps do.

* Neither `select!` of the main task nor a read or write of the other two has a deadline, and
  only the writer's `select!` is `biased`.
* The writer is a task of its own and owns the receiver of the texts, so nothing drains them
  when the mock closes, and a text that is sent is not shown to the user.
* The reader ends at the first frame that does not decode, and hands on chat messages only.
-/

namespace Nullpipe.Mock

open Channel Framing

/-! ## The state -/

/-- Where `joiner_task_mock` stands. -/
inductive Main
  | shaking (p : Handshake)
  /-- waits for the lock of the peers map -/
  | register (info : PeerInfo)
  | emitJoin (info : PeerInfo)
  | spawnReader
  | spawnWriter
  | select
  | abortWriter
  | deregister
  | emitClosed
  | ended
  /-- `joiner_handshake` returned `Err` -/
  | failed (e : ChatError)

/-- Where `joiner_reader_loop` stands. -/
inductive Reader
  | unspawned
  | reading (got : List UInt8)
  /-- waits for room on the event channel -/
  | emitting (event : ChatEvent)
  | ended
  deriving DecidableEq

/-- Where the task that writes stands. -/
inductive Writer
  | unspawned
  | select
  | writing (rest : List UInt8)
  | flushing
  | ended
  deriving DecidableEq

/-- A mock joiner.  The fields it shares with `Joiner` mean the same; nonce and discriminator
of `me` are the random ones of `joiner_handshake`. -/
structure State where
  now : ℕ
  me : Guest
  main : Main
  reader : Reader
  readerAborted : Bool
  writer : Writer
  writerAborted : Bool
  sock : Socket
  messages : Mpsc String
  sendOpen : Bool
  shutdown : Bool
  events : Mpsc ChatEvent
  peers : PeerId → Option PeerInfo

/-- The mock joiner as `join_with_mock` spawns it. -/
def State.init (now : ℕ) (me : Guest) : State where
  now := now
  me := me
  main := .shaking (.start me now)
  reader := .unspawned
  readerAborted := false
  writer := .unspawned
  writerAborted := false
  sock := .fresh
  messages := .empty
  sendOpen := true
  shutdown := false
  events := .empty
  peers := fun _ => none

/-! ## Labels -/

inductive MainLabel
  | handshake (l : HandshakeLabel)
  | handshook
  | register
  | emitJoin
  | spawnReader
  | spawnWriter
  | readerDone
  | shutdown
  | abortWriter
  | deregister
  | emitClosed
  | sendError

inductive ReaderLabel
  | read (chunk : List UInt8)
  /-- a read that completes a frame -/
  | frame (chunk : List UInt8)
  | malformed (chunk : List UInt8)
  | readFail
  | emit
  | cancel

inductive WriterLabel
  | shutdown
  | takeText (text : String)
  | inputClosed
  | write (chunk : List UInt8)
  | writeFail
  | flush
  | flushFail
  | cancel

inductive Label
  | main (l : MainLabel)
  | reader (l : ReaderLabel)
  | writer (l : WriterLabel)
  | user (l : JoinUserLabel)
  | net (chunk : List UInt8)
  | finish (e : ReadEnd)
  | tick (d : ℕ)

/-! ## The tasks -/

/-- What follows a frame: a chat message is handed on, other messages are passed over, and
anything else ends the loop. -/
def afterFrame (json : SerdeJson) (frame : List UInt8) : Reader :=
  match decodeMessage json frame with
  | .ok msg =>
    match msg.kind with
    | .chat => .emitting (.message ⟨"[peer]"⟩ msg.name msg.text)
    | .ping => .reading []
    | .pong => .reading []
    | .system => .reading []
  | .error _ => .ended

/-- What follows a text to send; one that does not fit a frame is dropped. -/
def afterText (json : SerdeJson) (me : Guest) (text : String) : Writer :=
  match encodeMessage json (.chat me.name text) with
  | .ok frame => .writing frame
  | .error _ => .select

section

variable (X : Crates)

/-- `joiner_task_mock`, with `joiner_handshake` inlined. -/
inductive MainStep : MainLabel → State → State → Prop
  | handshake {m : State} {p : Handshake} {l : HandshakeLabel} {t : Socket × Handshake}
      (hphase : m.main = .shaking p) (h : HandshakeStep X m.me m.now l (m.sock, p) t) :
      MainStep (.handshake l) m { m with sock := t.1, main := .shaking t.2 }
  /-- `Instant::now()`, for the peer that is registered and announced -/
  | handshook {m : State} (hphase : m.main = .shaking .entered) :
      MainStep .handshook m
        { m with main := .register ⟨peerId X m.me.discriminator, m.me.name, m.now⟩ }
  | register {m : State} {info : PeerInfo} (hphase : m.main = .register info) :
      MainStep .register m
        { m with peers := Function.update m.peers info.id (some info), main := .emitJoin info }
  | emitJoin {m : State} {info : PeerInfo} (hphase : m.main = .emitJoin info) :
      MainStep .emitJoin m
        { m with
          events := m.events.trySend eventChanCap (.peerJoin info)
          main := .spawnReader }
  | spawnReader {m : State} (hphase : m.main = .spawnReader) :
      MainStep .spawnReader m { m with reader := .reading [], main := .spawnWriter }
  | spawnWriter {m : State} (hphase : m.main = .spawnWriter) :
      MainStep .spawnWriter m { m with writer := .select, main := .select }
  | readerDone {m : State} (hphase : m.main = .select) (hended : m.reader = .ended) :
      MainStep .readerDone m { m with main := .abortWriter }
  | shutdown {m : State} (hphase : m.main = .select) (hshutdown : m.shutdown = true) :
      MainStep .shutdown m { m with readerAborted := true, main := .abortWriter }
  | abortWriter {m : State} (hphase : m.main = .abortWriter) :
      MainStep .abortWriter m { m with writerAborted := true, main := .deregister }
  | deregister {m : State} (hphase : m.main = .deregister) :
      MainStep .deregister m
        { m with
          peers := Function.update m.peers (peerId X m.me.discriminator) none
          main := .emitClosed }
  | emitClosed {m : State} (hphase : m.main = .emitClosed) :
      MainStep .emitClosed m
        { m with events := m.events.trySend eventChanCap .roomClosed, main := .ended }
  /-- `event_tx.send(..).await` waits for room -/
  | sendError {m : State} {e : ChatError} (hphase : m.main = .shaking (.failed e))
      (hroom : m.events.HasRoom eventChanCap) :
      MainStep .sendError m
        { m with
          events := m.events.push (.error e)
          messages := m.messages.close
          main := .failed e }
  | sendErrorClosed {m : State} {e : ChatError} (hphase : m.main = .shaking (.failed e))
      (hclosed : m.events.isOpen = false) :
      MainStep .sendError m { m with messages := m.messages.close, main := .failed e }

/-- `joiner_reader_loop`. -/
inductive ReaderStep : ReaderLabel → State → State → Prop
  | read {m : State} {got chunk : List UInt8} {k k' : ℕ}
      (hphase : m.reader = .reading got) (htake : m.sock.CanTake chunk)
      (hneeds : readFrame got = .needs k) (hfit : chunk.length ≤ k)
      (hmore : readFrame (got ++ chunk) = .needs k') :
      ReaderStep (.read chunk) m
        { m with sock := m.sock.take chunk, reader := .reading (got ++ chunk) }
  | frame {m : State} {got chunk frame : List UInt8} {k : ℕ}
      (hphase : m.reader = .reading got) (htake : m.sock.CanTake chunk)
      (hneeds : readFrame got = .needs k) (hfit : chunk.length ≤ k)
      (hframe : readFrame (got ++ chunk) = .frame frame) :
      ReaderStep (.frame chunk) m
        { m with sock := m.sock.take chunk, reader := afterFrame X.json frame }
  | malformed {m : State} {got chunk : List UInt8} {k : ℕ} {e : ChatError}
      (hphase : m.reader = .reading got) (htake : m.sock.CanTake chunk)
      (hneeds : readFrame got = .needs k) (hfit : chunk.length ≤ k)
      (hfailed : readFrame (got ++ chunk) = .failed e) :
      ReaderStep (.malformed chunk) m { m with sock := m.sock.take chunk, reader := .ended }
  | readFail {m : State} {got : List UInt8} (hphase : m.reader = .reading got)
      (hend : m.sock.AtEnd) :
      ReaderStep .readFail m { m with reader := .ended }
  /-- `events.send(..)` completes -/
  | emit {m : State} {event : ChatEvent} (hphase : m.reader = .emitting event)
      (hroom : m.events.HasRoom eventChanCap) :
      ReaderStep .emit m { m with events := m.events.push event, reader := .reading [] }
  | emitClosed {m : State} {event : ChatEvent} (hphase : m.reader = .emitting event)
      (hclosed : m.events.isOpen = false) :
      ReaderStep .emit m { m with reader := .ended }
  /-- An aborted task ends at its next await point. -/
  | cancel {m : State} (habort : m.readerAborted = true) (hspawned : m.reader ≠ .unspawned)
      (hlive : m.reader ≠ .ended) :
      ReaderStep .cancel m { m with reader := .ended }

/-- The task that writes; it owns the receiver of the texts. -/
inductive WriterStep : WriterLabel → State → State → Prop
  | shutdown {m : State} (hphase : m.writer = .select) (hshutdown : m.shutdown = true) :
      WriterStep .shutdown m { m with messages := m.messages.close, writer := .ended }
  | takeText {m : State} {text : String} {rest : List String} (hphase : m.writer = .select)
      (hshutdown : m.shutdown = false) (hqueue : m.messages.queue = text :: rest) :
      WriterStep (.takeText text) m
        { m with messages := m.messages.pop, writer := afterText X.json m.me text }
  | inputClosed {m : State} (hphase : m.writer = .select) (hshutdown : m.shutdown = false)
      (hqueue : m.messages.queue = []) (hclosed : m.sendOpen = false) :
      WriterStep .inputClosed m { m with messages := m.messages.close, writer := .ended }
  | write {m : State} {chunk rest : List UInt8} (hphase : m.writer = .writing (chunk ++ rest))
      (hchunk : chunk ≠ []) :
      WriterStep (.write chunk) m
        { m with
          sock := m.sock.write chunk
          writer := if rest = [] then .flushing else .writing rest }
  | writeFail {m : State} {rest : List UInt8} (hphase : m.writer = .writing rest) :
      WriterStep .writeFail m { m with messages := m.messages.close, writer := .ended }
  | flush {m : State} (hphase : m.writer = .flushing) :
      WriterStep .flush m { m with sock := m.sock.flush, writer := .select }
  | flushFail {m : State} (hphase : m.writer = .flushing) :
      WriterStep .flushFail m { m with messages := m.messages.close, writer := .ended }
  | cancel {m : State} (habort : m.writerAborted = true) (hspawned : m.writer ≠ .unspawned)
      (hlive : m.writer ≠ .ended) :
      WriterStep .cancel m { m with messages := m.messages.close, writer := .ended }

/-- The handles and the event stream. -/
inductive UserStep : JoinUserLabel → State → State → Prop
  | send {m : State} {text : String} (hopen : m.sendOpen = true)
      (hroom : m.messages.HasRoom sendChanCap) :
      UserStep (.send text) m { m with messages := m.messages.push text }
  | quit {m : State} : UserStep .quit m { m with shutdown := true }
  | dropSend {m : State} (hopen : m.sendOpen = true) :
      UserStep .dropSend m { m with sendOpen := false }
  | takeEvent {m : State} {event : ChatEvent} {rest : List ChatEvent}
      (hqueue : m.events.queue = event :: rest) :
      UserStep .takeEvent m { m with events := m.events.pop }
  | closeEvents {m : State} (hopen : m.events.isOpen = true) :
      UserStep .closeEvents m { m with events := m.events.close }

/-- The steps of a mock joiner. -/
inductive Step : Label → State → State → Prop
  | main {l : MainLabel} {m m' : State} (h : MainStep X l m m') : Step (.main l) m m'
  | reader {l : ReaderLabel} {m m' : State} (h : ReaderStep X l m m') : Step (.reader l) m m'
  | writer {l : WriterLabel} {m m' : State} (h : WriterStep X l m m') : Step (.writer l) m m'
  | user {l : JoinUserLabel} {m m' : State} (h : UserStep l m m') : Step (.user l) m m'
  | net {m : State} {chunk : List UInt8} (hopen : m.sock.readEnd = none) :
      Step (.net chunk) m { m with sock := m.sock.arrive chunk }
  | finish {m : State} {e : ReadEnd} (hopen : m.sock.readEnd = none) :
      Step (.finish e) m { m with sock := m.sock.finish e }
  | tick {m : State} {d : ℕ} : Step (.tick d) m { m with now := m.now + d }

end

end Nullpipe.Mock

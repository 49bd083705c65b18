import Nullpipe.Joiner.State
import Nullpipe.Lib.Transition

/-!
# The steps of a joiner

As in `Room/Step.lean`: one relation for each task, one step for each access to
what the tasks share, and labels that carry what the environment decides.  The
`select!` of the write loop is `biased`: it looks at the shutdown signal, then at
the reader, then for a text to send, and only then at the event channel.
-/

namespace Nullpipe

open Channel Framing

/-- How long an invite is good for, whatever the host was configured with. -/
def joinTtl : UInt64 := 300

/-! ## Labels -/

inductive JoinMainLabel
  | decode
  | connected (discriminator : Bytes16)
  | connectFailed (e : ChatError)
  | write (chunk : List UInt8)
  | writeFail (reason : String)
  | writeTimeout
  | flush
  | flushFail (reason : String)
  | flushTimeout
  | reply (byte : UInt8)
  | replyFail (reason : String)
  | replyTimeout
  | emitJoin
  | spawnReader
  | shutdown
  | readerDone
  | takeText (text : String)
  | inputClosed
  | eventsClosed
  | echo
  | drainText (text : String)
  | drained
  | flushEvent
  | flushed
  | abortReader
  | awaitReader
  | emitError
  | emitClosed
  | sendError
  deriving DecidableEq

inductive JoinReaderLabel
  | start
  /-- a read that does not complete the frame -/
  | read (chunk : List UInt8)
  /-- a read that completes a frame with a message -/
  | message (chunk : List UInt8)
  /-- a read that completes a frame that does not decode -/
  | skip (chunk : List UInt8)
  | malformed (chunk : List UInt8)
  | readFail
  | readTimeout
  | emit
  | done
  | cancel
  deriving DecidableEq

/-- What the holders of the joiner's handles and of its event stream do. -/
inductive JoinUserLabel
  | send (text : String)
  | quit
  | dropSend
  | takeEvent
  | closeEvents
  deriving DecidableEq

inductive JoinerLabel
  | main (l : JoinMainLabel)
  | reader (l : JoinReaderLabel)
  | user (l : JoinUserLabel)
  | net (chunk : List UInt8)
  | finish (e : ReadEnd)
  | tick (d : ℕ)
  deriving DecidableEq

/-! ## Connecting -/

/-- What follows the decoding of the invite. -/
def afterDecode : Option (Except ChatError InvitePayload) → JoinMain
  | none => .panicked
  | some (.error e) => .sendError e
  | some (.ok payload) => .connecting payload

/-- The bytes of the joiner's half of the handshake. -/
def Guest.hello (me : Guest) : List UInt8 := me.nonce.val ++ me.discriminator.val

/-- What follows the reply of the hub: the name is sent unless the hub refused or
the name does not fit a frame. -/
def afterReply (json : SerdeJson) (me : Guest) (byte : UInt8) (now : ℕ) : JoinMain :=
  if byte ≠ 0 then
    .sendError (.connection "handshake rejected by hub")
  else
    match encodeMessage json (.system me.name) with
    | .error e => .sendError e
    | .ok frame => .writing me .name frame (now + writeTimeout)

/-- What follows a flush. -/
def afterFlush (me : Guest) (now : ℕ) : JoinWrite → JoinMain
  | .hello => .readReply me (now + readTimeout)
  | .name => .emitJoin me
  | .text text => .echo me text

/-- What follows a failed write or flush: before the name is sent `connect` fails,
afterwards the write loop returns. -/
def afterFailure (e : ChatError) : JoinWrite → JoinMain
  | .hello | .name => .sendError e
  | .text _ => .abortReader (some e)

def writeTimedOut : JoinWrite → ChatError
  | .hello => .connection "handshake write timed out"
  | .name => .connection "handshake name write timed out"
  | .text _ => .connection "write timed out"

def writeFailed (reason : String) : JoinWrite → ChatError
  | .hello => .connection ("handshake write: " ++ reason)
  | .name => .connection ("handshake name write: " ++ reason)
  | .text _ => .connection ("write failed: " ++ reason)

def flushTimedOut : JoinWrite → ChatError
  | .hello => .connection "handshake flush timed out"
  | .name => .connection "handshake name flush timed out"
  | .text _ => .connection "flush timed out"

def flushFailed (reason : String) : JoinWrite → ChatError
  | .hello => .connection ("handshake flush: " ++ reason)
  | .name => .connection ("handshake name flush: " ++ reason)
  | .text _ => .connection ("flush failed: " ++ reason)

/-! ## Running -/

/-- What follows a text to send; one that does not fit a frame ends the write
loop. -/
def afterText (json : SerdeJson) (me : Guest) (text : String) (now : ℕ) : JoinMain :=
  match encodeMessage json (.chat me.name text) with
  | .error e => .abortReader (some e)
  | .ok frame => .writing me (.text text) frame (now + writeTimeout)

/-- `make_event`. -/
def makeEvent (X : Crates) (me : Guest) (text : String) : ChatEvent :=
  .message (peerId X me.discriminator) me.name text

/-- `try_emit`: what the event channel does not take is kept back. -/
def tryEmit (j : Joiner) (event : ChatEvent) : Joiner :=
  if j.events.HasRoom eventChanCap then
    { j with events := j.events.push event }
  else
    { j with pending := j.pending ++ [event] }

/-- What follows the write loop and the end of the reader. -/
def afterRun : Option ChatError → JoinMain
  | some e => .emitError e
  | none => .emitClosed

/-- The event the joiner makes of a message, whatever its kind. -/
def incomingEvent (msg : WireMessage) : ChatEvent := .message ⟨msg.name⟩ msg.name msg.text

section

variable (X : Crates)

/-- `joiner_task`, with `Joiner::connect` and `Joiner::run` inlined; `checks` says
whether the build checks additions for overflow. -/
inductive JoinMainStep (checks : Bool) : JoinMainLabel → Joiner → Joiner → Prop
  /-- `decode_invite(invite_code, Some(300))` -/
  | decode {j : Joiner} (hphase : j.main = .connect) :
      JoinMainStep checks .decode j
        { j with
          main := afterDecode
            (decodeInvite X checks j.config.inviteCode (some joinTtl) j.timestamp) }
  /-- `tor.connect(..)` returns a stream, and the discriminator is drawn -/
  | connected {j : Joiner} {payload : InvitePayload} {discriminator : Bytes16}
      (hphase : j.main = .connecting payload) :
      JoinMainStep checks (.connected discriminator) j
        { j with
          main := .writing ⟨effectiveName j.config payload, payload.nonce, discriminator⟩ .hello
            (payload.nonce.val ++ discriminator.val) (j.now + writeTimeout) }
  | connectFailed {j : Joiner} {payload : InvitePayload} {e : ChatError}
      (hphase : j.main = .connecting payload) :
      JoinMainStep checks (.connectFailed e) j { j with main := .sendError e }
  | write {j : Joiner} {me : Guest} {what : JoinWrite} {chunk rest : List UInt8} {deadline : ℕ}
      (hphase : j.main = .writing me what (chunk ++ rest) deadline) (hchunk : chunk ≠ []) :
      JoinMainStep checks (.write chunk) j
        { j with
          sock := j.sock.write chunk
          main := if rest = [] then .flushing me what (j.now + writeTimeout)
            else .writing me what rest deadline }
  | writeFail {j : Joiner} {me : Guest} {what : JoinWrite} {rest : List UInt8} {deadline : ℕ}
      {reason : String} (hphase : j.main = .writing me what rest deadline) :
      JoinMainStep checks (.writeFail reason) j
        { j with main := afterFailure (writeFailed reason what) what }
  | writeTimeout {j : Joiner} {me : Guest} {what : JoinWrite} {rest : List UInt8} {deadline : ℕ}
      (hphase : j.main = .writing me what rest deadline) (hdue : deadline ≤ j.now) :
      JoinMainStep checks .writeTimeout j
        { j with main := afterFailure (writeTimedOut what) what }
  | flush {j : Joiner} {me : Guest} {what : JoinWrite} {deadline : ℕ}
      (hphase : j.main = .flushing me what deadline) :
      JoinMainStep checks .flush j
        { j with sock := j.sock.flush, main := afterFlush me j.now what }
  | flushFail {j : Joiner} {me : Guest} {what : JoinWrite} {deadline : ℕ} {reason : String}
      (hphase : j.main = .flushing me what deadline) :
      JoinMainStep checks (.flushFail reason) j
        { j with main := afterFailure (flushFailed reason what) what }
  | flushTimeout {j : Joiner} {me : Guest} {what : JoinWrite} {deadline : ℕ}
      (hphase : j.main = .flushing me what deadline) (hdue : deadline ≤ j.now) :
      JoinMainStep checks .flushTimeout j
        { j with main := afterFailure (flushTimedOut what) what }
  /-- `stream.read_exact(&mut response)`, one byte -/
  | reply {j : Joiner} {me : Guest} {deadline : ℕ} {byte : UInt8}
      (hphase : j.main = .readReply me deadline) (htake : j.sock.CanTake [byte]) :
      JoinMainStep checks (.reply byte) j
        { j with sock := j.sock.take [byte], main := afterReply X.json me byte j.now }
  | replyFail {j : Joiner} {me : Guest} {deadline : ℕ} {reason : String}
      (hphase : j.main = .readReply me deadline) (hend : j.sock.AtEnd) :
      JoinMainStep checks (.replyFail reason) j
        { j with main := .sendError (.connection ("handshake read: " ++ reason)) }
  | replyTimeout {j : Joiner} {me : Guest} {deadline : ℕ}
      (hphase : j.main = .readReply me deadline) (hdue : deadline ≤ j.now) :
      JoinMainStep checks .replyTimeout j
        { j with main := .sendError (.connection "handshake read timed out") }
  | emitJoin {j : Joiner} {me : Guest} (hphase : j.main = .emitJoin me) :
      JoinMainStep checks .emitJoin j
        { j with
          events := j.events.trySend eventChanCap
            (.peerJoin ⟨peerId X me.discriminator, me.name, j.now⟩)
          main := .spawnReader me }
  | spawnReader {j : Joiner} {me : Guest} (hphase : j.main = .spawnReader me) :
      JoinMainStep checks .spawnReader j { j with reader := .spawned, main := .select me }
  | shutdown {j : Joiner} {me : Guest} (hphase : j.main = .select me)
      (hshutdown : j.shutdown = true) :
      JoinMainStep checks .shutdown j { j with main := .drain me }
  | readerDone {j : Joiner} {me : Guest} (hphase : j.main = .select me)
      (hshutdown : j.shutdown = false) (hdone : j.readerDone = true) :
      JoinMainStep checks .readerDone j { j with main := .drain me }
  | takeText {j : Joiner} {me : Guest} {text : String} {rest : List String}
      (hphase : j.main = .select me) (hshutdown : j.shutdown = false)
      (hdone : j.readerDone = false) (hqueue : j.messages.queue = text :: rest) :
      JoinMainStep checks (.takeText text) j
        { j with messages := j.messages.pop, main := afterText X.json me text j.now }
  | inputClosed {j : Joiner} {me : Guest} (hphase : j.main = .select me)
      (hshutdown : j.shutdown = false) (hdone : j.readerDone = false)
      (hqueue : j.messages.queue = []) (hclosed : j.sendOpen = false) :
      JoinMainStep checks .inputClosed j { j with main := .drain me }
  | eventsClosed {j : Joiner} {me : Guest} (hphase : j.main = .select me)
      (hshutdown : j.shutdown = false) (hdone : j.readerDone = false)
      (hqueue : j.messages.queue = []) (hopen : j.sendOpen = true)
      (hclosed : j.events.isOpen = false) :
      JoinMainStep checks .eventsClosed j
        { j with main := .abortReader (some (.connection "event receiver dropped")) }
  | echo {j : Joiner} {me : Guest} {text : String} (hphase : j.main = .echo me text) :
      JoinMainStep checks .echo j { tryEmit j (makeEvent X me text) with main := .select me }
  | drainText {j : Joiner} {me : Guest} {text : String} {rest : List String}
      (hphase : j.main = .drain me) (hqueue : j.messages.queue = text :: rest) :
      JoinMainStep checks (.drainText text) j
        { tryEmit j (makeEvent X me text) with messages := j.messages.pop }
  | drained {j : Joiner} {me : Guest} (hphase : j.main = .drain me)
      (hqueue : j.messages.queue = []) :
      JoinMainStep checks .drained j { j with main := .flushPending }
  /-- `pending.pop()` takes the event that was kept back last -/
  | flushEvent {j : Joiner} {event : ChatEvent} {rest : List ChatEvent}
      (hphase : j.main = .flushPending) (hpending : j.pending = rest ++ [event])
      (hroom : j.events.HasRoom eventChanCap) :
      JoinMainStep checks .flushEvent j
        { j with events := j.events.push event, pending := rest }
  /-- nothing is kept back, or the event channel does not take the next one -/
  | flushed {j : Joiner} (hphase : j.main = .flushPending)
      (hstop : j.pending = [] ∨ ¬ j.events.HasRoom eventChanCap) :
      JoinMainStep checks .flushed j { j with pending := [], main := .abortReader none }
  /-- the write loop has returned and dropped the receiver of the texts -/
  | abortReader {j : Joiner} {result : Option ChatError} (hphase : j.main = .abortReader result) :
      JoinMainStep checks .abortReader j
        { j with
          messages := j.messages.close
          readerAborted := true
          main := .awaitReader result }
  | awaitReader {j : Joiner} {result : Option ChatError} (hphase : j.main = .awaitReader result)
      (hended : j.reader = .ended) :
      JoinMainStep checks .awaitReader j { j with main := afterRun result }
  | emitError {j : Joiner} {e : ChatError} (hphase : j.main = .emitError e) :
      JoinMainStep checks .emitError j
        { j with events := j.events.trySend eventChanCap (.error e), main := .emitClosed }
  | emitClosed {j : Joiner} (hphase : j.main = .emitClosed) :
      JoinMainStep checks .emitClosed j
        { j with events := j.events.trySend eventChanCap .roomClosed, main := .ended }
  /-- `event_tx.send(..).await` waits for room -/
  | sendError {j : Joiner} {e : ChatError} (hphase : j.main = .sendError e)
      (hroom : j.events.HasRoom eventChanCap) :
      JoinMainStep checks .sendError j
        { j with
          events := j.events.push (.error e)
          messages := j.messages.close
          main := .failed e }
  | sendErrorClosed {j : Joiner} {e : ChatError} (hphase : j.main = .sendError e)
      (hclosed : j.events.isOpen = false) :
      JoinMainStep checks .sendError j { j with messages := j.messages.close, main := .failed e }

/-- `reader_loop`: a frame that does not decode is skipped, a malformed one ends
the loop. -/
inductive JoinReaderStep : JoinReaderLabel → Joiner → Joiner → Prop
  | start {j : Joiner} (hphase : j.reader = .spawned) :
      JoinReaderStep .start j { j with reader := .reading [] (j.now + readTimeout) }
  | read {j : Joiner} {got chunk : List UInt8} {deadline k k' : ℕ}
      (hphase : j.reader = .reading got deadline) (htake : j.sock.CanTake chunk)
      (hneeds : readFrame got = .needs k) (hfit : chunk.length ≤ k)
      (hmore : readFrame (got ++ chunk) = .needs k') :
      JoinReaderStep (.read chunk) j
        { j with sock := j.sock.take chunk, reader := .reading (got ++ chunk) deadline }
  | message {j : Joiner} {got chunk frame : List UInt8} {deadline k : ℕ} {msg : WireMessage}
      (hphase : j.reader = .reading got deadline) (htake : j.sock.CanTake chunk)
      (hneeds : readFrame got = .needs k) (hfit : chunk.length ≤ k)
      (hframe : readFrame (got ++ chunk) = .frame frame)
      (hdecode : decodeMessage X.json frame = .ok msg) :
      JoinReaderStep (.message chunk) j
        { j with sock := j.sock.take chunk, reader := .emitting (incomingEvent msg) }
  | skip {j : Joiner} {got chunk frame : List UInt8} {deadline k : ℕ} {e : ChatError}
      (hphase : j.reader = .reading got deadline) (htake : j.sock.CanTake chunk)
      (hneeds : readFrame got = .needs k) (hfit : chunk.length ≤ k)
      (hframe : readFrame (got ++ chunk) = .frame frame)
      (hdecode : decodeMessage X.json frame = .error e) :
      JoinReaderStep (.skip chunk) j
        { j with sock := j.sock.take chunk, reader := .reading [] (j.now + readTimeout) }
  | malformed {j : Joiner} {got chunk : List UInt8} {deadline k : ℕ} {e : ChatError}
      (hphase : j.reader = .reading got deadline) (htake : j.sock.CanTake chunk)
      (hneeds : readFrame got = .needs k) (hfit : chunk.length ≤ k)
      (hfailed : readFrame (got ++ chunk) = .failed e) :
      JoinReaderStep (.malformed chunk) j
        { j with sock := j.sock.take chunk, reader := .finished }
  | readFail {j : Joiner} {got : List UInt8} {deadline : ℕ}
      (hphase : j.reader = .reading got deadline) (hend : j.sock.AtEnd) :
      JoinReaderStep .readFail j { j with reader := .finished }
  | readTimeout {j : Joiner} {got : List UInt8} {deadline : ℕ}
      (hphase : j.reader = .reading got deadline) (hdue : deadline ≤ j.now) :
      JoinReaderStep .readTimeout j { j with reader := .finished }
  /-- `events.send(..)` completes -/
  | emit {j : Joiner} {event : ChatEvent} (hphase : j.reader = .emitting event)
      (hroom : j.events.HasRoom eventChanCap) :
      JoinReaderStep .emit j
        { j with
          events := j.events.push event
          reader := .reading [] (j.now + readTimeout) }
  | emitClosed {j : Joiner} {event : ChatEvent} (hphase : j.reader = .emitting event)
      (hclosed : j.events.isOpen = false) :
      JoinReaderStep .emit j { j with reader := .reading [] (j.now + readTimeout) }
  | done {j : Joiner} (hphase : j.reader = .finished) :
      JoinReaderStep .done j { j with readerDone := true, reader := .ended }
  /-- An aborted task ends at its next await point. -/
  | cancel {j : Joiner} (habort : j.readerAborted = true) (hspawned : j.reader ≠ .unspawned)
      (hlive : j.reader ≠ .ended) :
      JoinReaderStep .cancel j { j with reader := .ended }

/-- The handles and the event stream. -/
inductive JoinUserStep : JoinUserLabel → Joiner → Joiner → Prop
  | send {j : Joiner} {text : String} (hopen : j.sendOpen = true)
      (hroom : j.messages.HasRoom sendChanCap) :
      JoinUserStep (.send text) j { j with messages := j.messages.push text }
  /-- `quit`, or the shutdown sender is dropped with the last handle -/
  | quit {j : Joiner} : JoinUserStep .quit j { j with shutdown := true }
  | dropSend {j : Joiner} (hopen : j.sendOpen = true) :
      JoinUserStep .dropSend j { j with sendOpen := false }
  | takeEvent {j : Joiner} {event : ChatEvent} {rest : List ChatEvent}
      (hqueue : j.events.queue = event :: rest) :
      JoinUserStep .takeEvent j { j with events := j.events.pop }
  | closeEvents {j : Joiner} (hopen : j.events.isOpen = true) :
      JoinUserStep .closeEvents j { j with events := j.events.close }

/-- The steps of a joiner. -/
inductive JoinerStep (checks : Bool) : JoinerLabel → Joiner → Joiner → Prop
  | main {l : JoinMainLabel} {j j' : Joiner} (h : JoinMainStep X checks l j j') :
      JoinerStep checks (.main l) j j'
  | reader {l : JoinReaderLabel} {j j' : Joiner} (h : JoinReaderStep X l j j') :
      JoinerStep checks (.reader l) j j'
  | user {l : JoinUserLabel} {j j' : Joiner} (h : JoinUserStep l j j') :
      JoinerStep checks (.user l) j j'
  | net {j : Joiner} {chunk : List UInt8} (hopen : j.sock.readEnd = none) :
      JoinerStep checks (.net chunk) j { j with sock := j.sock.arrive chunk }
  | finish {j : Joiner} {e : ReadEnd} (hopen : j.sock.readEnd = none) :
      JoinerStep checks (.finish e) j { j with sock := j.sock.finish e }
  | tick {j : Joiner} {d : ℕ} : JoinerStep checks (.tick d) j { j with now := j.now + d }

end

end Nullpipe

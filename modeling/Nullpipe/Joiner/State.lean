import Nullpipe.Core.Wire
import Nullpipe.Core.Invite
import Nullpipe.Lib.Channel

/-!
# The state of a joiner

`joiner.rs` and the joiner's side of `room.rs`, from the moment the Tor client is
up.  A joiner is two tasks: `joiner_task`, which connects and then runs the write
loop, and the reader it spawns.  They share the stream, the event channel and the
channel on which the reader says that it is done.
-/

namespace Nullpipe

open Channel

/-! ## The main task -/

/-- What `Joiner::connect` knows when it has a stream. -/
structure Guest where
  name : String
  nonce : Bytes16
  discriminator : Bytes16
  deriving DecidableEq

/-- What the joiner writes: its half of the handshake, its name, and texts. -/
inductive JoinWrite
  | hello
  | name
  | text (text : String)
  deriving DecidableEq

/-- Where `joiner_task` stands: in `Joiner::connect`, in `Joiner::run` or after
them. -/
inductive JoinMain
  | connect
  /-- waits for `tor.connect(..)` -/
  | connecting (payload : InvitePayload)
  | writing (me : Guest) (what : JoinWrite) (rest : List UInt8) (deadline : ℕ)
  | flushing (me : Guest) (what : JoinWrite) (deadline : ℕ)
  | readReply (me : Guest) (deadline : ℕ)
  | emitJoin (me : Guest)
  | spawnReader (me : Guest)
  | select (me : Guest)
  /-- shows the user the text it has written -/
  | echo (me : Guest) (text : String)
  /-- `drain_and_flush` -/
  | drain (me : Guest)
  | flushPending
  /-- `stop_reader`, with the result of the write loop -/
  | abortReader (result : Option ChatError)
  | awaitReader (result : Option ChatError)
  | emitError (e : ChatError)
  | emitClosed
  | ended
  /-- `Joiner::connect` returned `Err` -/
  | sendError (e : ChatError)
  | failed (e : ChatError)
  /-- `decode` panicked: in its base58 decoder, or by an overflow in a build that checks -/
  | panicked
  deriving DecidableEq

/-! ## The reader -/

/-- Where `reader_loop` stands; after it the task reports that it is done. -/
inductive JoinReader
  | unspawned
  | spawned
  | reading (got : List UInt8) (deadline : ℕ)
  /-- waits for room on the event channel -/
  | emitting (event : ChatEvent)
  | finished
  | ended
  deriving DecidableEq

/-! ## The joiner -/

/-- A joiner.  `shutdown` says that the shutdown signal was sent or its last sender
dropped, `readerDone` that the reader has reported. -/
structure Joiner where
  now : ℕ
  config : JoinConfig
  main : JoinMain
  reader : JoinReader
  readerDone : Bool
  readerAborted : Bool
  sock : Socket
  messages : Mpsc String
  /-- some handle, hence some sender of `messages`, lives -/
  sendOpen : Bool
  shutdown : Bool
  events : Mpsc ChatEvent
  pending : List ChatEvent
  deriving DecidableEq

namespace Joiner

/-- The joiner as `join` leaves it when the Tor client is up; what the bootstrap has put on the
event channel has been taken. -/
def init (now : ℕ) (config : JoinConfig) : Joiner where
  now := now
  config := config
  main := .connect
  reader := .unspawned
  readerDone := false
  readerAborted := false
  sock := .fresh
  messages := .empty
  sendOpen := true
  shutdown := false
  events := .empty
  pending := []

/-- The wall clock in seconds, as `Utc::now().timestamp() as u64`. -/
def timestamp (j : Joiner) : UInt64 := UInt64.ofNat (j.now / 1000)

end Joiner

/-- The name a joiner goes by: the one it was given, else the suggested one. -/
def effectiveName (config : JoinConfig) (payload : InvitePayload) : String :=
  if config.name = "" then payload.suggestedName.getD "anonymous" else config.name

end Nullpipe

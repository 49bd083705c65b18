import Nullpipe.Core.Wire
import Nullpipe.Core.Invite
import Nullpipe.Core.SingleUse
import Mathlib.Logic.Function.Basic

/-!
# The state of a hosted room

`room.rs`, host side.  A hosted room is a set of tasks that share one state: the
host loop (`run_host_loop`), the accept loop, and for every accepted connection a
handler, a reader and a writer.  `Room` holds where each task stands, with the
local variables it still needs, and everything the tasks share.

A task stands at an await point or just before an access to shared state; the
steps between two such points are the transitions of `Room/Step.lean`.

* `Handler` has `hub_handshake` inlined in `handle_hub_connection`; `Reader` and `Writer` are
  the two tasks that a handler spawns.
* A task that was aborted goes on to exist until the runtime drops it.  So an abort is a flag
  beside the task (`readerAborted`), and the task ends in a step of its own.
* Bounded channels are `Mpsc`, with everything that was ever accepted or received kept as
  history; the broadcast channel is its log, with a cursor for each subscriber, and the
  watch channel is a version, with the version that each receiver has seen.
* Where the source locks a mutex and awaits under the lock, the holder is part of the state
  (`nonceLock`).  The other locks are taken and released within one step.

The state begins where `run_host_loop` begins.  The bootstrap of the Tor client before it has
a model of its own (`Bootstrap/`); what it leaves on the event channel is a parameter of
`Room.behind`.
-/

namespace Nullpipe

open Channel

/-! ## Constants -/

/-- The time a client has to send its name frame, 10 s. -/
def nameTimeout : ℕ := 10 * 1000
def msgChanCap : ℕ := 128
def broadcastChanCap : ℕ := 256
/-- The port of the onion service. -/
def roomPort : UInt16 := 80

/-! ## Tasks -/

/-- Where `handle_hub_connection` and the `hub_handshake` it calls stand.  A
`rest` is what a `write_all` still has to write, a `deadline` is when the
enclosing `timeout` fires. -/
inductive Handler
  /-- not accepted yet -/
  | idle
  | spawned
  | readHandshake (buf : List UInt8) (deadline : ℕ)
  | lockNonces (nonce discriminator : Bytes16)
  /-- writes the reject byte while it holds the lock on the used nonces -/
  | rejectReused (rest : List UInt8)
  | writeAccept (id : PeerId) (rest : List UInt8) (deadline : ℕ)
  | flushAccept (id : PeerId) (deadline : ℕ)
  | readName (id : PeerId) (got : List UInt8) (deadline : ℕ)
  | register (info : PeerInfo)
  | emitJoin (info : PeerInfo)
  | notifyJoin (info : PeerInfo) (rest : List UInt8)
  | spawnReader (info : PeerInfo)
  | subscribe (info : PeerInfo)
  /-- waits for the reader to end or for the shutdown signal -/
  | serve (info : PeerInfo)
  | abortWriter (info : PeerInfo)
  | deregister (info : PeerInfo)
  | emitLeave (info : PeerInfo)
  /-- returned `Ok` -/
  | ended (info : PeerInfo)
  /-- the handshake returned `Err` -/
  | failed (e : ChatError)
  deriving DecidableEq

/-- Why a reader stopped. -/
inductive ReaderEnd
  | malformed
  | readError
  | timedOut
  | cancelled
  deriving DecidableEq

/-- Where `hub_reader_task` stands; `got` is what the current `read_frame` has
received. -/
inductive Reader
  | unspawned
  | spawned (id : PeerId)
  | reading (id : PeerId) (got : List UInt8) (deadline : ℕ)
  /-- waits for room on the message channel -/
  | sending (id : PeerId) (msg : WireMessage)
  | ended (reason : ReaderEnd)
  deriving DecidableEq

/-- Where the writer task of a connection stands. -/
inductive Writer
  | unspawned
  /-- waits for the broadcast channel -/
  | recv
  | writing (rest : List UInt8) (deadline : ℕ)
  | flushing (deadline : ℕ)
  | ended
  deriving DecidableEq

/-- One accepted connection: its stream and its three tasks.  `cursor` is the
position of its broadcast receiver, `watchSeen` the version its clone of the
shutdown receiver has seen. -/
structure Conn where
  sock : Socket
  handler : Handler
  watchSeen : ℕ
  reader : Reader
  readerAborted : Bool
  writer : Writer
  writerAborted : Bool
  cursor : ℕ
  deriving DecidableEq

/-- A connection that does not exist yet. -/
def Conn.fresh : Conn := ⟨Socket.fresh, .idle, 0, .unspawned, false, .unspawned, false, 0⟩

/-- Where `run_host_loop` stands. -/
inductive HostLoop
  /-- `HostedRoom::new` -/
  | creating
  | sendReady (onionAddress : String)
  | publishInvite (onionAddress : String)
  | spawnAccept
  | select
  | echo (text : String)
  | broadcast (text : String)
  | deliver (id : PeerId) (msg : WireMessage)
  | closing
  | abortAccept
  | joinAccept
  | ended
  /-- the loop that is run when the onion service could not be created -/
  | sendError (e : ChatError)
  | failedSelect
  | failedClosing
  deriving DecidableEq

inductive AcceptLoop
  | unspawned
  | running
  | ended
  deriving DecidableEq

/-- `InviteInfo`: what `RoomHandle::invite` needs. -/
structure InviteInfo where
  onionAddress : String
  port : UInt16
  ttlSecs : UInt64
  deriving DecidableEq

/-! ## The room -/

/-- A hosted room.  The peers map is a function with finite support, the
broadcast channel is its log, and `nonceLock` is the holder of the mutex on the
used nonces.  `issued` is the history of the payloads `invite` has encoded. -/
structure Room where
  now : ℕ
  quitFlag : Bool
  /-- the shutdown watch: the version of its value, and whether its sender lives -/
  watchVersion : ℕ
  watchOpen : Bool
  sendQ : Mpsc String
  /-- some handle, hence some sender of `sendQ`, lives -/
  sendOpen : Bool
  invite : Option InviteInfo
  issued : List InvitePayload
  peers : PeerId → Option PeerInfo
  events : Mpsc ChatEvent
  msgs : Mpsc (PeerId × WireMessage)
  bcast : List WireMessage
  used : Finset Bytes16
  nonceLock : Option ConnId
  host : HostLoop
  hostSeen : ℕ
  accept : AcceptLoop
  acceptSeen : ℕ
  acceptAborted : Bool
  conns : ConnId → Conn

namespace Room

/-- The room as `host` leaves it when the Tor client is up.  The bootstrap has put events of
its own on the event channel before; here its users have taken them, and `events` has what is
sent from now on. -/
def init (now : ℕ) : Room where
  now := now
  quitFlag := false
  watchVersion := 0
  watchOpen := true
  sendQ := .empty
  sendOpen := true
  invite := none
  issued := []
  peers := fun _ => none
  events := .empty
  msgs := .empty
  bcast := []
  used := ∅
  nonceLock := none
  host := .creating
  hostSeen := 0
  accept := .unspawned
  acceptSeen := 0
  acceptAborted := false
  conns := fun _ => Conn.fresh

/-- The room behind a bootstrap that has left the event channel as `boot`. -/
def behind (boot : Mpsc ChatEvent) (now : ℕ) : Room := { init now with events := boot }

/-- Replace one connection. -/
def setConn (s : Room) (c : ConnId) (k : Conn) : Room :=
  { s with conns := Function.update s.conns c k }

section setConn

variable (s : Room) (c d : ConnId) (k : Conn)

@[simp] theorem conns_setConn_self : (s.setConn c k).conns c = k := Function.update_self ..

theorem conns_setConn_of_ne (h : d ≠ c) : (s.setConn c k).conns d = s.conns d :=
  Function.update_of_ne h ..

@[simp] theorem setConn_setConn (k' : Conn) : (s.setConn c k).setConn c k' = s.setConn c k' := by
  simp [setConn]

@[simp] theorem now_setConn : (s.setConn c k).now = s.now := rfl
@[simp] theorem quitFlag_setConn : (s.setConn c k).quitFlag = s.quitFlag := rfl
@[simp] theorem watchVersion_setConn : (s.setConn c k).watchVersion = s.watchVersion := rfl
@[simp] theorem watchOpen_setConn : (s.setConn c k).watchOpen = s.watchOpen := rfl
@[simp] theorem sendQ_setConn : (s.setConn c k).sendQ = s.sendQ := rfl
@[simp] theorem sendOpen_setConn : (s.setConn c k).sendOpen = s.sendOpen := rfl
@[simp] theorem invite_setConn : (s.setConn c k).invite = s.invite := rfl
@[simp] theorem issued_setConn : (s.setConn c k).issued = s.issued := rfl
@[simp] theorem peers_setConn : (s.setConn c k).peers = s.peers := rfl
@[simp] theorem events_setConn : (s.setConn c k).events = s.events := rfl
@[simp] theorem msgs_setConn : (s.setConn c k).msgs = s.msgs := rfl
@[simp] theorem bcast_setConn : (s.setConn c k).bcast = s.bcast := rfl
@[simp] theorem used_setConn : (s.setConn c k).used = s.used := rfl
@[simp] theorem nonceLock_setConn : (s.setConn c k).nonceLock = s.nonceLock := rfl
@[simp] theorem host_setConn : (s.setConn c k).host = s.host := rfl
@[simp] theorem hostSeen_setConn : (s.setConn c k).hostSeen = s.hostSeen := rfl
@[simp] theorem accept_setConn : (s.setConn c k).accept = s.accept := rfl
@[simp] theorem acceptSeen_setConn : (s.setConn c k).acceptSeen = s.acceptSeen := rfl
@[simp] theorem acceptAborted_setConn : (s.setConn c k).acceptAborted = s.acceptAborted := rfl

end setConn

/-- `shutdown_rx.changed()` is ready for a receiver that has seen `seen`. -/
def ShutdownReady (s : Room) (seen : ℕ) : Prop := s.watchVersion ≠ seen ∨ s.watchOpen = false

instance (s : Room) (seen : ℕ) : Decidable (s.ShutdownReady seen) :=
  inferInstanceAs (Decidable (_ ∨ _))

/-- The wall clock in seconds, as `Utc::now().timestamp() as u64`. -/
def timestamp (s : Room) : UInt64 := UInt64.ofNat (s.now / 1000)

/-- The payload a call of `RoomHandle::invite` encodes. -/
def invitePayload (s : Room) (info : InviteInfo) (nonce : Bytes16) (suggestedName : Option String) :
    InvitePayload :=
  ⟨info.onionAddress, nonce, s.timestamp, suggestedName⟩

/-- `RoomHandle::invite` with the nonce the generator returned.  The lock cannot
be poisoned, as nothing panics while it is held. -/
def inviteCode (X : Crates) (s : Room) (nonce : Bytes16) (suggestedName : Option String) :
    Except ChatError String :=
  if s.quitFlag then
    .error .shuttingDown
  else
    match s.invite with
    | none => .error (.connection "invite generation only available on hub")
    | some info => encodeInvite X (s.invitePayload info nonce suggestedName)

/-- Every sender of the broadcast channel is gone: those of the two loops, of
the handlers and of the readers. -/
def BroadcastClosed (s : Room) : Prop :=
  s.host = .ended ∧ s.accept = .ended ∧
    ∀ c, (∀ id, (s.conns c).reader ≠ .spawned id) ∧
      (∀ id got deadline, (s.conns c).reader ≠ .reading id got deadline) ∧
      (∀ id msg, (s.conns c).reader ≠ .sending id msg) ∧
      ((s.conns c).handler = .idle ∨ (∃ info, (s.conns c).handler = .ended info) ∨
        ∃ e, (s.conns c).handler = .failed e)

end Room

end Nullpipe

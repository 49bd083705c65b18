import Mathlib.Algebra.Group.Nat.Defs
import Mathlib.Data.List.Basic

/-!
# Shared types

The data types of `types.rs`, `error.rs` and `wire.rs`.  Rust strings are Lean strings, both
being sequences of Unicode scalar values in UTF-8; byte slices are `List UInt8`; a Rust
`Result` is `Except ChatError`.

Times are milliseconds on one clock that starts at the Unix epoch, so that a monotonic
`Instant` and the wall clock are both read off it.
-/

namespace Nullpipe

/-! ## Constants of the handshake, which `room.rs`, `hub.rs` and `joiner.rs` share -/

/-- Handshake size: nonce and peer discriminator. -/
def handshakeLen : ℕ := 32

/-- `READ_TIMEOUT`, 60 s. -/
def readTimeout : ℕ := 60 * 1000

/-- `WRITE_TIMEOUT`, 30 s. -/
def writeTimeout : ℕ := 30 * 1000

/-! ## Constants that host and joiner rooms share -/

def eventChanCap : ℕ := 256
def sendChanCap : ℕ := 64

/-! ## Data -/

/-- A `[u8; 16]`: nonces and discriminators. -/
abbrev Bytes16 := { bytes : List UInt8 // bytes.length = 16 }

/-- `buf[..16]` of a full handshake buffer. -/
def nonceBytes (buf : List UInt8) (hfull : buf.length = handshakeLen) : Bytes16 :=
  ⟨buf.take 16, by rw [List.length_take, hfull]; rfl⟩

/-- `buf[16..]` of a full handshake buffer. -/
def discriminatorBytes (buf : List UInt8) (hfull : buf.length = handshakeLen) : Bytes16 :=
  ⟨buf.drop 16, by rw [List.length_drop, hfull]; rfl⟩

/-- Opaque peer identifier: the base58 text of the discriminator. -/
structure PeerId where
  val : String
  deriving DecidableEq, Repr

/-- Metadata about a connected peer. -/
structure PeerInfo where
  id : PeerId
  name : String
  joinedAt : ℕ
  deriving DecidableEq, Repr

/-- `ChatError`; an `io::Error` is kept as its text. -/
inductive ChatError
  | invalidInvite (reason : String)
  | inviteExpired (timestamp : UInt64)
  | nonceReused
  | onionService (reason : String)
  | connection (reason : String)
  | channelClosed
  | wire (reason : String)
  | oversizedMessage (size limit : ℕ)
  | io (reason : String)
  | peerNotFound (id : String)
  | shuttingDown
  deriving DecidableEq, Repr

/-- The `Display` text of an error. -/
def ChatError.display : ChatError → String
  | .invalidInvite reason => "invite code invalid: " ++ reason
  | .inviteExpired timestamp => "invite expired (issued at " ++ toString timestamp.toNat ++ ")"
  | .nonceReused => "nonce already used"
  | .onionService reason => "onion service error: " ++ reason
  | .connection reason => "connection failed: " ++ reason
  | .channelClosed => "broadcast channel closed"
  | .wire reason => "wire protocol error: " ++ reason
  | .oversizedMessage size limit =>
    "message too large: " ++ toString size ++ " bytes (limit " ++ toString limit ++ ")"
  | .io reason => "I/O error: " ++ reason
  | .peerNotFound id => "peer not found: " ++ id
  | .shuttingDown => "shutdown in progress"

/-- Events emitted by the chat room. -/
inductive ChatEvent
  | message (sender : PeerId) (name text : String)
  | peerJoin (info : PeerInfo)
  | peerLeave (id : PeerId)
  | bootstrapProgress (percent : UInt8)
  | roomReady (onionAddress : String) (port : UInt16)
  | inviteCreated (code : String)
  | roomClosed
  | error (e : ChatError)
  deriving DecidableEq, Repr

/-- Configuration for hosting a room. -/
structure HostConfig where
  name : String
  inviteTtlSecs : UInt64
  deriving DecidableEq, Repr

/-- Configuration for joining a room. -/
structure JoinConfig where
  name : String
  inviteCode : String
  deriving DecidableEq, Repr

/-- Wire-level message type. -/
inductive MessageType
  | chat
  | system
  | ping
  | pong
  deriving DecidableEq, Repr

/-- Wire-level message exchanged between peers and hub. -/
structure WireMessage where
  kind : MessageType
  name : String
  text : String
  deriving DecidableEq, Repr

namespace WireMessage

def chat (name text : String) : WireMessage := ⟨.chat, name, text⟩

/-- A system message carries no name. -/
def system (text : String) : WireMessage := ⟨.system, "", text⟩

def ping : WireMessage := ⟨.ping, "", ""⟩

def pong : WireMessage := ⟨.pong, "", ""⟩

end WireMessage

/-! ## What is said -/

/-- What an event says, and under which name. -/
def ChatEvent.line : ChatEvent → Option (String × String)
  | .message _ name text => some (name, text)
  | _ => none

/-- What events say. -/
def said (events : List ChatEvent) : List (String × String) := events.filterMap ChatEvent.line

/-- What texts say under a name. -/
def linesOf (name : String) (texts : List String) : List (String × String) :=
  texts.map (Prod.mk name)

@[simp] theorem said_nil : said [] = [] := rfl

@[simp] theorem said_append (events more : List ChatEvent) :
    said (events ++ more) = said events ++ said more := List.filterMap_append

@[simp] theorem linesOf_nil (name : String) : linesOf name [] = [] := rfl

@[simp] theorem linesOf_append (name : String) (texts more : List String) :
    linesOf name (texts ++ more) = linesOf name texts ++ linesOf name more := List.map_append

end Nullpipe

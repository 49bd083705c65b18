import Nullpipe.Core.Crates
import Nullpipe.Core.SingleUse

/-!
# The handshake of `hub.rs`

`Hub::handshake` is a second implementation of the hub's side: it fills its
buffer with single reads, each under a timeout of its own, answers an early end
of the stream with the reject byte, and names the peer after its discriminator.
The state is that of any number of handshakes which share one set of used
nonces.  What the rest of a connection does with its stream after the handshake
is left open: it may read and write anything.
-/

namespace Nullpipe.Hub

open Channel Transition

/-- Where one `Hub::handshake` stands. -/
inductive Phase
  | idle
  | reading (buf : List UInt8) (deadline : ℕ)
  /-- writes the reject byte after an early end of the stream -/
  | rejectEof (rest : List UInt8)
  | lockNonces (nonce discriminator : Bytes16)
  /-- writes the reject byte while it holds the lock on the used nonces -/
  | rejectReused (rest : List UInt8)
  | writeAccept (discriminator : Bytes16) (rest : List UInt8) (deadline : ℕ)
  | flushAccept (discriminator : Bytes16) (deadline : ℕ)
  /-- returned `Ok` -/
  | admitted (id : PeerId) (name : String)
  | failed (e : ChatError)
  deriving DecidableEq

structure HubConn where
  sock : Socket
  phase : Phase
  deriving DecidableEq

/-- The handshakes of one hub. -/
structure HubState where
  now : ℕ
  used : Finset Bytes16
  nonceLock : Option ConnId
  conns : ConnId → HubConn

def HubState.init (now : ℕ) : HubState := ⟨now, ∅, none, fun _ => ⟨Socket.fresh, .idle⟩⟩

/-- Replace one connection. -/
def HubState.setConn (s : HubState) (c : ConnId) (k : HubConn) : HubState :=
  { s with conns := Function.update s.conns c k }

@[simp] theorem HubState.conns_setConn_self (s : HubState) (c : ConnId) (k : HubConn) :
    (s.setConn c k).conns c = k := Function.update_self ..

theorem HubState.conns_setConn_of_ne (s : HubState) {c d : ConnId} (k : HubConn) (h : d ≠ c) :
    (s.setConn c k).conns d = s.conns d := Function.update_of_ne h ..

@[simp] theorem HubState.setConn_setConn (s : HubState) (c : ConnId) (k k' : HubConn) :
    (s.setConn c k).setConn c k' = s.setConn c k' := by
  simp [setConn]

inductive PhaseLabel
  | start
  | read (chunk : List UInt8)
  | readEof
  | readFail (reason : String)
  | readTimeout
  | insertNonce
  | refuseNonce
  | write (chunk : List UInt8)
  | writeFail (reason : String)
  | writeTimeout
  | flush
  | flushFail (reason : String)
  | flushTimeout
  | use (readChunk writeChunk : List UInt8)
  deriving DecidableEq

inductive HubLabel
  | handshake (c : ConnId) (l : PhaseLabel)
  | arrive (c : ConnId) (chunk : List UInt8)
  | finish (c : ConnId) (e : ReadEnd)
  | tick (d : ℕ)
  deriving DecidableEq

/-- The phase after the buffer has been filled up to `buf`; the next read gets a
timeout of its own. -/
def afterRead (buf : List UInt8) (now : ℕ) : Phase :=
  if h : buf.length = handshakeLen then
    .lockNonces (nonceBytes buf h) (discriminatorBytes buf h)
  else
    .reading buf (now + readTimeout)

/-- The name derived from the discriminator, `peer-` and eight hex digits. -/
def peerName (X : Crates) (discriminator : Bytes16) : String :=
  "peer-" ++ X.hex.encode (discriminator.val.take 4)

/-- `Hub::handshake`. -/
inductive PhaseStep (X : Crates) (c : ConnId) : PhaseLabel → HubState → HubState → Prop
  | start {s : HubState} (hphase : (s.conns c).phase = .idle) :
      PhaseStep X c .start s
        (s.setConn c { s.conns c with phase := .reading [] (s.now + readTimeout) })
  | read {s : HubState} {buf chunk : List UInt8} {deadline : ℕ}
      (hphase : (s.conns c).phase = .reading buf deadline)
      (htake : (s.conns c).sock.CanTake chunk) (hfit : buf.length + chunk.length ≤ handshakeLen) :
      PhaseStep X c (.read chunk) s
        (s.setConn c ⟨(s.conns c).sock.take chunk, afterRead (buf ++ chunk) s.now⟩)
  /-- a read of no bytes -/
  | readEof {s : HubState} {buf : List UInt8} {deadline : ℕ}
      (hphase : (s.conns c).phase = .reading buf deadline)
      (hinbox : (s.conns c).sock.inbox = []) (hend : (s.conns c).sock.readEnd = some .eof) :
      PhaseStep X c .readEof s (s.setConn c { s.conns c with phase := .rejectEof [1] })
  | readFail {s : HubState} {buf : List UInt8} {deadline : ℕ} {reason : String}
      (hphase : (s.conns c).phase = .reading buf deadline)
      (hinbox : (s.conns c).sock.inbox = []) (hend : (s.conns c).sock.readEnd = some .error) :
      PhaseStep X c (.readFail reason) s
        (s.setConn c { s.conns c with
          phase := .failed (.connection ("handshake read: " ++ reason)) })
  | readTimeout {s : HubState} {buf : List UInt8} {deadline : ℕ}
      (hphase : (s.conns c).phase = .reading buf deadline) (hdue : deadline ≤ s.now) :
      PhaseStep X c .readTimeout s
        (s.setConn c { s.conns c with phase := .failed (.connection "handshake timed out") })
  | writeEof {s : HubState} {chunk rest : List UInt8}
      (hphase : (s.conns c).phase = .rejectEof (chunk ++ rest)) (hchunk : chunk ≠ []) :
      PhaseStep X c (.write chunk) s
        (s.setConn c ⟨(s.conns c).sock.write chunk,
          if rest = [] then .failed (.invalidInvite "handshake: unexpected EOF")
          else .rejectEof rest⟩)
  | eofFail {s : HubState} {rest : List UInt8} {reason : String}
      (hphase : (s.conns c).phase = .rejectEof rest) :
      PhaseStep X c (.writeFail reason) s
        (s.setConn c { s.conns c with
          phase := .failed (.invalidInvite "handshake: unexpected EOF") })
  | insertNonce {s : HubState} {nonce discriminator : Bytes16}
      (hphase : (s.conns c).phase = .lockNonces nonce discriminator)
      (hlock : s.nonceLock = none) (hfresh : nonce ∉ s.used) :
      PhaseStep X c .insertNonce s
        { s.setConn c { s.conns c with
            phase := .writeAccept discriminator [0] (s.now + writeTimeout) } with
          used := insert nonce s.used }
  /-- The lock is kept while the reject byte is written. -/
  | refuseNonce {s : HubState} {nonce discriminator : Bytes16}
      (hphase : (s.conns c).phase = .lockNonces nonce discriminator)
      (hlock : s.nonceLock = none) (hused : nonce ∈ s.used) :
      PhaseStep X c .refuseNonce s
        { s.setConn c { s.conns c with phase := .rejectReused [1] } with nonceLock := some c }
  | writeReject {s : HubState} {chunk rest : List UInt8}
      (hphase : (s.conns c).phase = .rejectReused (chunk ++ rest)) (hchunk : chunk ≠ []) :
      PhaseStep X c (.write chunk) s
        { s.setConn c ⟨(s.conns c).sock.write chunk,
            if rest = [] then .failed .nonceReused else .rejectReused rest⟩ with
          nonceLock := if rest = [] then none else s.nonceLock }
  | rejectFail {s : HubState} {rest : List UInt8} {reason : String}
      (hphase : (s.conns c).phase = .rejectReused rest) :
      PhaseStep X c (.writeFail reason) s
        { s.setConn c { s.conns c with phase := .failed .nonceReused } with nonceLock := none }
  | writeAccept {s : HubState} {discriminator : Bytes16} {chunk rest : List UInt8} {deadline : ℕ}
      (hphase : (s.conns c).phase = .writeAccept discriminator (chunk ++ rest) deadline)
      (hchunk : chunk ≠ []) :
      PhaseStep X c (.write chunk) s
        (s.setConn c ⟨(s.conns c).sock.write chunk,
          if rest = [] then .flushAccept discriminator (s.now + writeTimeout)
          else .writeAccept discriminator rest deadline⟩)
  | acceptFail {s : HubState} {discriminator : Bytes16} {rest : List UInt8} {deadline : ℕ}
      {reason : String} (hphase : (s.conns c).phase = .writeAccept discriminator rest deadline) :
      PhaseStep X c (.writeFail reason) s
        (s.setConn c { s.conns c with
          phase := .failed (.connection ("handshake write: " ++ reason)) })
  | acceptTimeout {s : HubState} {discriminator : Bytes16} {rest : List UInt8} {deadline : ℕ}
      (hphase : (s.conns c).phase = .writeAccept discriminator rest deadline)
      (hdue : deadline ≤ s.now) :
      PhaseStep X c .writeTimeout s
        (s.setConn c { s.conns c with
          phase := .failed (.connection "handshake write timed out") })
  | flushAccept {s : HubState} {discriminator : Bytes16} {deadline : ℕ}
      (hphase : (s.conns c).phase = .flushAccept discriminator deadline) :
      PhaseStep X c .flush s
        (s.setConn c ⟨(s.conns c).sock.flush,
          .admitted (peerId X discriminator) (peerName X discriminator)⟩)
  | flushFail {s : HubState} {discriminator : Bytes16} {deadline : ℕ} {reason : String}
      (hphase : (s.conns c).phase = .flushAccept discriminator deadline) :
      PhaseStep X c (.flushFail reason) s
        (s.setConn c { s.conns c with
          phase := .failed (.connection ("handshake flush: " ++ reason)) })
  | flushTimeout {s : HubState} {discriminator : Bytes16} {deadline : ℕ}
      (hphase : (s.conns c).phase = .flushAccept discriminator deadline)
      (hdue : deadline ≤ s.now) :
      PhaseStep X c .flushTimeout s
        (s.setConn c { s.conns c with
          phase := .failed (.connection "handshake flush timed out") })
  /-- the tasks of an admitted peer -/
  | use {s : HubState} {id : PeerId} {name : String} {readChunk writeChunk : List UInt8}
      (hphase : (s.conns c).phase = .admitted id name) :
      PhaseStep X c (.use readChunk writeChunk) s
        (s.setConn c { s.conns c with
          sock := ((s.conns c).sock.take readChunk).write writeChunk })

/-- The steps of all handshakes, of the network and of the clock. -/
inductive HubStep (X : Crates) : HubLabel → HubState → HubState → Prop
  | handshake {c : ConnId} {l : PhaseLabel} {s t : HubState} (h : PhaseStep X c l s t) :
      HubStep X (.handshake c l) s t
  | arrive {c : ConnId} {chunk : List UInt8} {s : HubState}
      (hopen : (s.conns c).sock.readEnd = none) :
      HubStep X (.arrive c chunk) s
        (s.setConn c { s.conns c with sock := (s.conns c).sock.arrive chunk })
  | finish {c : ConnId} {e : ReadEnd} {s : HubState} (hopen : (s.conns c).sock.readEnd = none) :
      HubStep X (.finish c e) s
        (s.setConn c { s.conns c with sock := (s.conns c).sock.finish e })
  | tick {s : HubState} {d : ℕ} : HubStep X (.tick d) s { s with now := s.now + d }

end Nullpipe.Hub

import Nullpipe.Hub.Server
import Nullpipe.Room.Step

/-!
# The steps of `hub.rs`

One relation for each task, as in `Room/Step.lean`, with one step for each access to
state that other tasks also touch.  The writer's `select!` is biased: it takes an event
from the broadcast channel only while its direct queue is empty.  A call of
`broadcast_hub` has two steps, the event and the frames; `run`, `next_event` and
`shutdown` need the `Hub` for themselves, so they start only when no such call is under
way.
-/

namespace Nullpipe.Hub

open Channel Framing

/-! ## Labels -/

/-- What the owner of the `Hub` does. -/
inductive OwnerLabel
  | run
  | accept (c : ConnId)
  /-- `accept_peer` returned `None`, and so does `run` -/
  | sourceEnded
  /-- the call of `run` is dropped -/
  | cancelRun
  | nextEvent (id : PeerId) (msg : WireMessage)
  | broadcastHub (text : String)
  | broadcastFrames (text : String)
  | broadcastPing
  | shutdown
  | drop
  deriving DecidableEq

inductive ConnLabel
  | register
  | announceJoin
  | spawnReader
  | subscribe
  | deregister
  | sendLeft
  | sendLeftClosed
  | broadcastLeave
  deriving DecidableEq

inductive ReaderLabel
  | start
  /-- a read that does not complete the frame -/
  | read (chunk : List UInt8)
  /-- a read that completes a frame with a message other than a ping -/
  | message (chunk : List UInt8) (msg : WireMessage)
  | ping (chunk : List UInt8)
  | malformed (chunk : List UInt8)
  | readFail
  | readTimeout
  | pong
  | send
  | sendClosed
  | relay
  deriving DecidableEq

inductive WriterLabel
  | takeFrame (frame : List UInt8)
  | rxClosed
  | takeEvent (event : ChatEvent)
  | lagged
  | broadcastClosed
  | write (chunk : List UInt8)
  | writeFail
  | writeTimeout
  deriving DecidableEq

inductive ServerLabel
  | owner (l : OwnerLabel)
  | shake (c : ConnId) (l : PhaseLabel)
  | conn (c : ConnId) (l : ConnLabel)
  | reader (c : ConnId) (l : ReaderLabel)
  | writer (c : ConnId) (l : WriterLabel)
  | arrive (c : ConnId) (chunk : List UInt8)
  | finish (c : ConnId) (e : ReadEnd)
  | tick (d : ℕ)
  deriving DecidableEq

/-! ## The owner -/

/-- `PeerId("[hub]")` as the sender of an announcement. -/
def announcement (text : String) : ChatEvent := .message ⟨"[hub]"⟩ "[system]" text

/-- The second half of `broadcast_hub` and all of `broadcast_ping`: the frame, if the
message fits one, goes to every registered peer. -/
def Server.broadcastMessage (json : SerdeJson) (s : Server) (msg : WireMessage) : Server :=
  match encodeMessage json msg with
  | .ok frame => s.broadcastToAll frame
  | .error _ => s

inductive OwnerStep (X : Crates) : OwnerLabel → Server → Server → Prop
  | run {s : Server} (hfree : s.owner = .free) (hcalls : s.calls = []) :
      OwnerStep X .run s { s with owner := .run, running := true }
  /-- `accept_next` spawns the task of a new connection -/
  | accept {s : Server} {c : ConnId} (hrun : s.owner = .run) (hroom : s.room = true)
      (hidle : (s.tasks c).conn = .idle) :
      OwnerStep X (.accept c) s (s.setTasks c { s.tasks c with conn := .shaking })
  | sourceEnded {s : Server} (hrun : s.owner = .run) :
      OwnerStep X .sourceEnded s { s with owner := .free, running := false }
  | cancelRun {s : Server} (hrun : s.owner = .run) :
      OwnerStep X .cancelRun s { s with owner := .free }
  | nextEvent {s : Server} {id : PeerId} {msg : WireMessage}
      {rest : List (PeerId × WireMessage)} (hfree : s.owner = .free) (hcalls : s.calls = [])
      (hrunning : s.running = true) (hqueue : s.msgs.queue = (id, msg) :: rest) :
      OwnerStep X (.nextEvent id msg) s { s with msgs := s.msgs.pop }
  | broadcastHub {s : Server} {text : String} (hfree : s.owner = .free) :
      OwnerStep X (.broadcastHub text) s
        { s with bcast := s.bcast ++ [announcement text], calls := s.calls ++ [text] }
  | broadcastFrames {s : Server} {text : String} (hcall : text ∈ s.calls) :
      OwnerStep X (.broadcastFrames text) s
        { s.broadcastMessage X.json (.system text) with calls := s.calls.erase text }
  | broadcastPing {s : Server} (hfree : s.owner = .free) :
      OwnerStep X .broadcastPing s (s.broadcastMessage X.json .ping)
  | shutdown {s : Server} (hfree : s.owner = .free) (hcalls : s.calls = []) :
      OwnerStep X .shutdown s { s with room := false, running := false }
  | drop {s : Server} (hfree : s.owner = .free) (hcalls : s.calls = []) :
      OwnerStep X .drop s { s with room := false, owner := .dropped, msgs := s.msgs.close }

section

variable (X : Crates) (c : ConnId)

/-! ## Connections -/

/-- `handle_connection` around the handshake and the writer loop. -/
inductive ConnStep : ConnLabel → Server → Server → Prop
  /-- `peers.register(..)` -/
  | register {s : Server} {id : PeerId} {name : String}
      (hphase : (s.tasks c).conn = .shaking) (hadmitted : s.Admitted c id name) :
      ConnStep .register s
        { s.setTasks c { s.tasks c with conn := .announceJoin } with
          peers := s.peers.register id ⟨name, s.now, c⟩ }
  | announceJoin {s : Server} {id : PeerId} {name : String}
      (hphase : (s.tasks c).conn = .announceJoin) (hadmitted : s.Admitted c id name) :
      ConnStep .announceJoin s
        { s.setTasks c { s.tasks c with conn := .spawnReader } with
          bcast := s.bcast ++ [.peerJoin ⟨id, name, s.now⟩] }
  | spawnReader {s : Server} (hphase : (s.tasks c).conn = .spawnReader) :
      ConnStep .spawnReader s
        (s.setTasks c { s.tasks c with reader := .spawned, conn := .subscribe })
  /-- `ctx.broadcast_tx.subscribe()`, and the writer loop begins -/
  | subscribe {s : Server} (hphase : (s.tasks c).conn = .subscribe) :
      ConnStep .subscribe s
        (s.setTasks c { s.tasks c with cursor := s.bcast.length, conn := .select })
  /-- `peers.deregister(peer_id)` -/
  | deregister {s : Server} {id : PeerId} {name : String}
      (hphase : (s.tasks c).conn = .deregister) (hadmitted : s.Admitted c id name) :
      ConnStep .deregister s
        { s.setTasks c { s.tasks c with conn := .sendLeft } with peers := s.peers.deregister id }
  /-- `msg_tx.send(..)` completes -/
  | sendLeft {s : Server} {id : PeerId} {name : String}
      (hphase : (s.tasks c).conn = .sendLeft) (hadmitted : s.Admitted c id name)
      (hroom : s.msgs.HasRoom msgChanCap) :
      ConnStep .sendLeft s
        { s.setTasks c { s.tasks c with conn := .broadcastLeave } with
          msgs := s.msgs.push (⟨"[system]"⟩, .system (name ++ " left")) }
  | sendLeftClosed {s : Server} (hphase : (s.tasks c).conn = .sendLeft)
      (hclosed : s.msgs.isOpen = false) :
      ConnStep .sendLeftClosed s (s.setTasks c { s.tasks c with conn := .broadcastLeave })
  | broadcastLeave {s : Server} {id : PeerId} {name : String}
      (hphase : (s.tasks c).conn = .broadcastLeave) (hadmitted : s.Admitted c id name) :
      ConnStep .broadcastLeave s
        { s.setTasks c { s.tasks c with conn := .ended } with bcast := s.bcast ++ [.peerLeave id] }

/-! ## Readers -/

/-- The reader after a message has gone to the message channel. -/
def afterSend (msg : WireMessage) (now : ℕ) : Reader :=
  if msg.kind = .chat then .relaying msg.text else .reading [] (now + readTimeout)

/-- `reader_task`.  A ping is answered over the direct queue of the connection itself; any
other message goes to the message channel, and a chat message then also to the broadcast
channel, under the registered name. -/
inductive ReaderStep : ReaderLabel → Server → Server → Prop
  | start {s : Server} (hphase : (s.tasks c).reader = .spawned) :
      ReaderStep .start s
        (s.setTasks c { s.tasks c with reader := .reading [] (s.now + readTimeout) })
  | read {s : Server} {got chunk : List UInt8} {deadline k k' : ℕ}
      (hphase : (s.tasks c).reader = .reading got deadline) (htake : (s.sock c).CanTake chunk)
      (hneeds : readFrame got = .needs k) (hfit : chunk.length ≤ k)
      (hmore : readFrame (got ++ chunk) = .needs k') :
      ReaderStep (.read chunk) s
        ((s.setSock c ((s.sock c).take chunk)).setTasks c
          { s.tasks c with reader := .reading (got ++ chunk) deadline })
  | message {s : Server} {got chunk frame : List UInt8} {deadline k : ℕ} {msg : WireMessage}
      (hphase : (s.tasks c).reader = .reading got deadline) (htake : (s.sock c).CanTake chunk)
      (hneeds : readFrame got = .needs k) (hfit : chunk.length ≤ k)
      (hframe : readFrame (got ++ chunk) = .frame frame)
      (hdecode : decodeMessage X.json frame = .ok msg) (hkind : msg.kind ≠ .ping) :
      ReaderStep (.message chunk msg) s
        ((s.setSock c ((s.sock c).take chunk)).setTasks c
          { s.tasks c with reader := .sending msg })
  | ping {s : Server} {got chunk frame : List UInt8} {deadline k : ℕ} {msg : WireMessage}
      (hphase : (s.tasks c).reader = .reading got deadline) (htake : (s.sock c).CanTake chunk)
      (hneeds : readFrame got = .needs k) (hfit : chunk.length ≤ k)
      (hframe : readFrame (got ++ chunk) = .frame frame)
      (hdecode : decodeMessage X.json frame = .ok msg) (hkind : msg.kind = .ping) :
      ReaderStep (.ping chunk) s
        ((s.setSock c ((s.sock c).take chunk)).setTasks c { s.tasks c with reader := .ponging })
  | badFrame {s : Server} {got chunk : List UInt8} {deadline k : ℕ} {e : ChatError}
      (hphase : (s.tasks c).reader = .reading got deadline) (htake : (s.sock c).CanTake chunk)
      (hneeds : readFrame got = .needs k) (hfit : chunk.length ≤ k)
      (hfailed : readFrame (got ++ chunk) = .failed e) :
      ReaderStep (.malformed chunk) s
        ((s.setSock c ((s.sock c).take chunk)).setTasks c
          { s.tasks c with reader := .ended .malformed })
  | badMessage {s : Server} {got chunk frame : List UInt8} {deadline k : ℕ} {e : ChatError}
      (hphase : (s.tasks c).reader = .reading got deadline) (htake : (s.sock c).CanTake chunk)
      (hneeds : readFrame got = .needs k) (hfit : chunk.length ≤ k)
      (hframe : readFrame (got ++ chunk) = .frame frame)
      (hdecode : decodeMessage X.json frame = .error e) :
      ReaderStep (.malformed chunk) s
        ((s.setSock c ((s.sock c).take chunk)).setTasks c
          { s.tasks c with reader := .ended .malformed })
  | readFail {s : Server} {got : List UInt8} {deadline : ℕ}
      (hphase : (s.tasks c).reader = .reading got deadline) (hend : (s.sock c).AtEnd) :
      ReaderStep .readFail s (s.setTasks c { s.tasks c with reader := .ended .readError })
  | readTimeout {s : Server} {got : List UInt8} {deadline : ℕ}
      (hphase : (s.tasks c).reader = .reading got deadline) (hdue : deadline ≤ s.now) :
      ReaderStep .readTimeout s (s.setTasks c { s.tasks c with reader := .ended .timedOut })
  /-- `writer_tx.send(pong_frame)`, if the pong can be encoded -/
  | pong {s : Server} (hphase : (s.tasks c).reader = .ponging) :
      ReaderStep .pong s
        (s.setTasks c { s.tasks c with
          direct := match encodeMessage X.json .pong with
            | .ok frame => (s.tasks c).direct.post frame
            | .error _ => (s.tasks c).direct
          reader := .reading [] (s.now + readTimeout) })
  /-- `msg_tx.send(..)` completes -/
  | send {s : Server} {msg : WireMessage} {id : PeerId} {name : String}
      (hphase : (s.tasks c).reader = .sending msg) (hadmitted : s.Admitted c id name)
      (hroom : s.msgs.HasRoom msgChanCap) :
      ReaderStep .send s
        { s.setTasks c { s.tasks c with reader := afterSend msg s.now } with
          msgs := s.msgs.push (id, msg) }
  | sendClosed {s : Server} {msg : WireMessage} (hphase : (s.tasks c).reader = .sending msg)
      (hclosed : s.msgs.isOpen = false) :
      ReaderStep .sendClosed s (s.setTasks c { s.tasks c with reader := afterSend msg s.now })
  | relay {s : Server} {text : String} {id : PeerId} {name : String}
      (hphase : (s.tasks c).reader = .relaying text) (hadmitted : s.Admitted c id name) :
      ReaderStep .relay s
        { s.setTasks c { s.tasks c with reader := .reading [] (s.now + readTimeout) } with
          bcast := s.bcast ++ [.message id name text] }

/-! ## Writers -/

/-- What a writer makes of an event; it skips those it has no message for. -/
def eventMessage : ChatEvent → Option WireMessage
  | .message _ name text => some (.chat name text)
  | .peerJoin info => some (.system (info.name ++ " joined"))
  | .peerLeave id => some (.system (id.val ++ " left"))
  | _ => none

/-- The writer after an event; a message that does not fit a frame is skipped. -/
def afterEvent (json : SerdeJson) (event : ChatEvent) (now : ℕ) : ConnTask :=
  match eventMessage event with
  | none => .select
  | some msg =>
    match encodeMessage json msg with
    | .ok frame => .writing frame (now + writeTimeout)
    | .error _ => .select

/-- `writer_task`.  The result inside the timeout is not looked at, so only a timeout
ends the loop, besides the closing of one of its two channels. -/
inductive WriterStep : WriterLabel → Server → Server → Prop
  | takeFrame {s : Server} {frame : List UInt8} {rest : List (List UInt8)}
      (hphase : (s.tasks c).conn = .select) (hqueue : (s.tasks c).direct.queue = frame :: rest) :
      WriterStep (.takeFrame frame) s
        (s.setTasks c { s.tasks c with
          direct := (s.tasks c).direct.pop
          conn := .writing frame (s.now + writeTimeout) })
  | rxClosed {s : Server} (hphase : (s.tasks c).conn = .select)
      (hqueue : (s.tasks c).direct.queue = []) (hclosed : ¬ s.TxHeld c) :
      WriterStep .rxClosed s
        (s.setTasks c { s.tasks c with direct := (s.tasks c).direct.close, conn := .deregister })
  | takeEvent {s : Server} {event : ChatEvent} {next : ℕ} (hphase : (s.tasks c).conn = .select)
      (hqueue : (s.tasks c).direct.queue = [])
      (hrecv : Broadcast.recv broadcastChanCap s.bcast (s.tasks c).cursor = (.value event, next)) :
      WriterStep (.takeEvent event) s
        (s.setTasks c { s.tasks c with cursor := next, conn := afterEvent X.json event s.now })
  | lagged {s : Server} {skipped next : ℕ} (hphase : (s.tasks c).conn = .select)
      (hqueue : (s.tasks c).direct.queue = [])
      (hrecv : Broadcast.recv broadcastChanCap s.bcast (s.tasks c).cursor =
        (.lagged skipped, next)) :
      WriterStep .lagged s (s.setTasks c { s.tasks c with cursor := next })
  | broadcastClosed {s : Server} {next : ℕ} (hphase : (s.tasks c).conn = .select)
      (hqueue : (s.tasks c).direct.queue = [])
      (hrecv : Broadcast.recv broadcastChanCap s.bcast (s.tasks c).cursor = (.empty, next))
      (hclosed : ¬ s.BroadcastHeld) :
      WriterStep .broadcastClosed s
        (s.setTasks c { s.tasks c with direct := (s.tasks c).direct.close, conn := .deregister })
  | write {s : Server} {chunk rest : List UInt8} {deadline : ℕ}
      (hphase : (s.tasks c).conn = .writing (chunk ++ rest) deadline) (hchunk : chunk ≠ []) :
      WriterStep (.write chunk) s
        ((s.setSock c ((s.sock c).write chunk)).setTasks c
          { s.tasks c with conn := if rest = [] then .select else .writing rest deadline })
  | writeFail {s : Server} {rest : List UInt8} {deadline : ℕ}
      (hphase : (s.tasks c).conn = .writing rest deadline) :
      WriterStep .writeFail s (s.setTasks c { s.tasks c with conn := .select })
  | writeTimeout {s : Server} {rest : List UInt8} {deadline : ℕ}
      (hphase : (s.tasks c).conn = .writing rest deadline) (hdue : deadline ≤ s.now) :
      WriterStep .writeTimeout s
        (s.setTasks c { s.tasks c with direct := (s.tasks c).direct.close, conn := .deregister })

end

/-! ## The hub -/

/-- The steps of the hub, its clients and the clock. -/
inductive ServerStep (X : Crates) : ServerLabel → Server → Server → Prop
  | owner {l : OwnerLabel} {s t : Server} (h : OwnerStep X l s t) : ServerStep X (.owner l) s t
  | shake {c : ConnId} {l : PhaseLabel} {s : Server} {k : HubState}
      (hphase : (s.tasks c).conn = .shaking) (huse : ∀ r w, l ≠ .use r w)
      (h : PhaseStep X c l s.shake k) : ServerStep X (.shake c l) s { s with shake := k }
  | conn {c : ConnId} {l : ConnLabel} {s t : Server} (h : ConnStep c l s t) :
      ServerStep X (.conn c l) s t
  | reader {c : ConnId} {l : ReaderLabel} {s t : Server} (h : ReaderStep X c l s t) :
      ServerStep X (.reader c l) s t
  | writer {c : ConnId} {l : WriterLabel} {s t : Server} (h : WriterStep X c l s t) :
      ServerStep X (.writer c l) s t
  | arrive {c : ConnId} {chunk : List UInt8} {s : Server} (hopen : (s.sock c).readEnd = none) :
      ServerStep X (.arrive c chunk) s (s.setSock c ((s.sock c).arrive chunk))
  | finish {c : ConnId} {e : ReadEnd} {s : Server} (hopen : (s.sock c).readEnd = none) :
      ServerStep X (.finish c e) s (s.setSock c ((s.sock c).finish e))
  | tick {s : Server} {d : ℕ} :
      ServerStep X (.tick d) s { s with shake := { s.shake with now := s.shake.now + d } }

/-- The runs of a hub. -/
abbrev ServerRun (X : Crates) : Server → List ServerLabel → Server → Prop :=
  Transition.Run (ServerStep X)

/-- The states a hub can reach; the clock starts anywhere. -/
def ServerReachable (X : Crates) (s : Server) : Prop :=
  ∃ now, Transition.Reachable (ServerStep X) (Server.init now) s

end Nullpipe.Hub

import Nullpipe.Hub.Handshake
import Nullpipe.Room.State
import Mathlib.Data.List.Nodup

/-!
# The hub of `hub.rs`

`Hub` with its registry, its channels and the tasks of its connections.  A
connection is one task that runs `handle_connection` from the handshake to the
deregistration, with the writer loop in the middle, and a second task for its
reader.  Besides the tasks there is the owner of the `Hub`, who may run it or
call its other methods, never both at once.

The handshakes are those of `Hub/Handshake.lean`: `shake` is their state, with the
sockets and the clock.
-/

namespace Nullpipe.Hub

open Channel

/-! ## The registry -/

/-- `PeerEntry`; `tx` is the sender of the direct queue of a connection. -/
structure PeerEntry where
  name : String
  joinedAt : ℕ
  tx : ConnId
  deriving DecidableEq

/-- `PeerRegistry`: a map from peers to entries. -/
structure PeerRegistry where
  inner : List (PeerId × PeerEntry)
  keys : (inner.map Prod.fst).Nodup

namespace PeerRegistry

def empty : PeerRegistry := ⟨[], List.nodup_nil⟩

/-- The entries of every other peer. -/
def others (r : PeerRegistry) (id : PeerId) : List (PeerId × PeerEntry) :=
  r.inner.filter fun p => p.1 ≠ id

theorem keys_others (r : PeerRegistry) (id : PeerId) : ((r.others id).map Prod.fst).Nodup :=
  r.keys.sublist (List.filter_sublist.map Prod.fst)

/-- `inner.write().await.insert(peer_id, entry)` -/
def register (r : PeerRegistry) (id : PeerId) (entry : PeerEntry) : PeerRegistry where
  inner := (id, entry) :: r.others id
  keys := by
    rw [List.map_cons, List.nodup_cons]
    refine ⟨fun hmem => ?_, r.keys_others id⟩
    obtain ⟨p, hp, hid⟩ := List.mem_map.mp hmem
    have hne := (List.mem_filter.mp hp).2
    simp only [hid, ne_eq, not_true_eq_false, decide_false, Bool.false_eq_true] at hne

/-- `inner.write().await.remove(peer_id)` -/
def deregister (r : PeerRegistry) (id : PeerId) : PeerRegistry := ⟨r.others id, r.keys_others id⟩

/-- Some entry holds the sender of the connection. -/
def Holds (r : PeerRegistry) (c : ConnId) : Prop := ∃ p ∈ r.inner, p.2.tx = c

instance (r : PeerRegistry) (c : ConnId) : Decidable (r.Holds c) :=
  inferInstanceAs (Decidable (∃ p ∈ r.inner, p.2.tx = c))

end PeerRegistry

/-! ## Tasks -/

/-- Where `handle_connection` stands; `select` and `writing` are the loop of
`writer_task`. -/
inductive ConnTask
  /-- not accepted yet -/
  | idle
  /-- in `handshake`, or about to register -/
  | shaking
  | announceJoin
  | spawnReader
  | subscribe
  | select
  | writing (rest : List UInt8) (deadline : ℕ)
  | deregister
  /-- waits for room on the message channel -/
  | sendLeft
  | broadcastLeave
  | ended
  deriving DecidableEq

/-- Where `reader_task` stands. -/
inductive Reader
  | unspawned
  | spawned
  | reading (got : List UInt8) (deadline : ℕ)
  /-- has read a ping -/
  | ponging
  /-- waits for room on the message channel -/
  | sending (msg : WireMessage)
  | relaying (text : String)
  | ended (reason : ReaderEnd)
  deriving DecidableEq

/-- The task holds a sender of its direct queue: from `register_peer` to the end of
`run_peer_io`. -/
def ConnTask.HoldsTx : ConnTask → Prop
  | .announceJoin | .spawnReader | .subscribe | .select | .writing .. => True
  | _ => False

/-- The reader has been spawned and has not returned. -/
def Reader.Lives : Reader → Prop
  | .unspawned | .ended _ => False
  | _ => True

/-- The tasks of one connection.  `direct` is the unbounded queue whose sender is
in the registry, `cursor` the position of the writer's broadcast receiver. -/
structure Tasks where
  conn : ConnTask
  reader : Reader
  direct : Mpsc (List UInt8)
  cursor : ℕ
  deriving DecidableEq

def Tasks.fresh : Tasks := ⟨.idle, .unspawned, .empty, 0⟩

/-- Who has the `Hub`: nobody uses it, a call of `run` is under way, or it was dropped. -/
inductive Owner
  | free
  | run
  | dropped
  deriving DecidableEq

/-! ## The hub -/

/-- A `Hub`, with the tasks it has spawned.  `calls` are the texts of the calls of
`broadcast_hub` that have sent their event and not yet their frames; `room` says
that the onion service still hands out streams. -/
structure Server where
  shake : HubState
  tasks : ConnId → Tasks
  peers : PeerRegistry
  bcast : List ChatEvent
  msgs : Mpsc (PeerId × WireMessage)
  running : Bool
  room : Bool
  owner : Owner
  calls : List String

namespace Server

/-- `Hub::new`. -/
def init (now : ℕ) : Server where
  shake := .init now
  tasks := fun _ => Tasks.fresh
  peers := .empty
  bcast := []
  msgs := .empty
  running := false
  room := true
  owner := .free
  calls := []

def now (s : Server) : ℕ := s.shake.now

def sock (s : Server) (c : ConnId) : Socket := (s.shake.conns c).sock

/-- Replace the tasks of one connection. -/
def setTasks (s : Server) (c : ConnId) (k : Tasks) : Server :=
  { s with tasks := Function.update s.tasks c k }

/-- Replace the stream of one connection. -/
def setSock (s : Server) (c : ConnId) (k : Socket) : Server :=
  { s with shake := s.shake.setConn c { s.shake.conns c with sock := k } }

section set

variable (s : Server) (c : ConnId) {d : ConnId} (k : Tasks) (k' : Socket)

@[simp] theorem tasks_setTasks_self : (s.setTasks c k).tasks c = k := Function.update_self ..

theorem tasks_setTasks_of_ne (h : d ≠ c) : (s.setTasks c k).tasks d = s.tasks d :=
  Function.update_of_ne h ..

@[simp] theorem setTasks_setTasks (l : Tasks) :
    (s.setTasks c k).setTasks c l = s.setTasks c l := by
  simp [setTasks]

@[simp] theorem shake_setTasks : (s.setTasks c k).shake = s.shake := rfl
@[simp] theorem sock_setTasks : (s.setTasks c k).sock = s.sock := rfl
@[simp] theorem now_setTasks : (s.setTasks c k).now = s.now := rfl
@[simp] theorem peers_setTasks : (s.setTasks c k).peers = s.peers := rfl
@[simp] theorem bcast_setTasks : (s.setTasks c k).bcast = s.bcast := rfl
@[simp] theorem msgs_setTasks : (s.setTasks c k).msgs = s.msgs := rfl
@[simp] theorem running_setTasks : (s.setTasks c k).running = s.running := rfl
@[simp] theorem room_setTasks : (s.setTasks c k).room = s.room := rfl
@[simp] theorem owner_setTasks : (s.setTasks c k).owner = s.owner := rfl
@[simp] theorem calls_setTasks : (s.setTasks c k).calls = s.calls := rfl

@[simp] theorem sock_setSock_self : (s.setSock c k').sock c = k' := by simp [setSock, sock]

@[simp] theorem phase_setSock (d : ConnId) :
    ((s.setSock c k').shake.conns d).phase = (s.shake.conns d).phase := by
  by_cases h : d = c
  · subst h
    simp [setSock]
  · rw [setSock, HubState.conns_setConn_of_ne _ _ h]

@[simp] theorem setSock_setSock (l : Socket) :
    (s.setSock c k').setSock c l = s.setSock c l := by
  simp [setSock]

/-- The two updates commute; the tasks are written last. -/
@[simp] theorem setSock_setTasks (e : ConnId) :
    (s.setTasks c k).setSock e k' = (s.setSock e k').setTasks c k := rfl

@[simp] theorem tasks_setSock : (s.setSock c k').tasks = s.tasks := rfl
@[simp] theorem now_setSock : (s.setSock c k').now = s.now := rfl
@[simp] theorem peers_setSock : (s.setSock c k').peers = s.peers := rfl
@[simp] theorem bcast_setSock : (s.setSock c k').bcast = s.bcast := rfl
@[simp] theorem msgs_setSock : (s.setSock c k').msgs = s.msgs := rfl
@[simp] theorem running_setSock : (s.setSock c k').running = s.running := rfl
@[simp] theorem room_setSock : (s.setSock c k').room = s.room := rfl
@[simp] theorem owner_setSock : (s.setSock c k').owner = s.owner := rfl
@[simp] theorem calls_setSock : (s.setSock c k').calls = s.calls := rfl

end set

/-- The handshake of the connection has returned this peer and this name. -/
def Admitted (s : Server) (c : ConnId) (id : PeerId) (name : String) : Prop :=
  (s.shake.conns c).phase = .admitted id name

/-! ### Who holds a sender -/

/-- Some clone of the sender of the direct queue lives: in the registry, in the frame
of `run_peer_io` or in the reader. -/
def TxHeld (s : Server) (c : ConnId) : Prop :=
  s.peers.Holds c ∨ (s.tasks c).conn.HoldsTx ∨ (s.tasks c).reader.Lives

/-- The task that runs `handle_connection` has not returned. -/
def TaskLives (s : Server) (c : ConnId) : Prop :=
  (s.tasks c).conn ≠ .idle ∧ (s.tasks c).conn ≠ .ended ∧
    ((s.tasks c).conn = .shaking → ∀ e, (s.shake.conns c).phase ≠ .failed e)

/-- Some clone of the sender of the broadcast channel lives. -/
def BroadcastHeld (s : Server) : Prop :=
  s.owner ≠ .dropped ∨ ∃ c, s.TaskLives c ∨ (s.tasks c).reader.Lives

/-! ### Sending to the direct queues -/

/-- `entry.tx.send(frame)` -/
def sendDirect (s : Server) (c : ConnId) (frame : List UInt8) : Server :=
  s.setTasks c { s.tasks c with direct := (s.tasks c).direct.post frame }

/-- `PeerRegistry::broadcast_to_all`. -/
def broadcastToAll (s : Server) (frame : List UInt8) : Server :=
  s.peers.inner.foldl (fun t p => t.sendDirect p.2.tx frame) s

end Server

end Nullpipe.Hub

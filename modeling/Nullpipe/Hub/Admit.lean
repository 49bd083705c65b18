import Nullpipe.Hub.Tasks
import Nullpipe.Room.Admit

/-!
# Runs of the hub of `hub.rs`

What a well-behaved client can bring about, as in `Room/Admit.lean`: each run is given with its
labels and with the state it leads to, both by name.

* `run_serve` takes a client with a new nonce in, to a reader and a writer that wait.  The
  handshake is that of `SingleUse.lean`; `run_shake` takes a run of the handshakes for one of
  the hub.
* `run_hear` and `run_relay`: a message that is framed is read, and a chat message goes to the
  message channel and the broadcast channel.
* `run_write`: a writer that waits writes the frame of the next event.

The runs of the other modules end in hubs at rest.  That a hub rests is said of its
connections one by one (`Server.Waits`): the writer has taken everything, and the reader waits
for bytes or has ended.  `quiescent_of_waits` is the rule.
-/

namespace Nullpipe.Hub

open Channel Framing Transition Server

variable {X : Crates} {s : Server} {c : ConnId}

/-! ## From the handshake to service -/

/-- The step of the hub that a step of a handshake or of the network is. -/
def HubLabel.server : HubLabel → ServerLabel
  | .handshake c l => .shake c l
  | .arrive c chunk => .arrive c chunk
  | .finish c e => .finish c e
  | .tick d => .tick d

/-- The handshake of a connection that has been accepted runs as it does alone. -/
theorem run_shake {u v : HubState} {ls : List HubLabel} (hrun : Run (HubStep X) u ls v)
    (hl : ∀ l ∈ ls, ∀ d l', l = .handshake d l' → d = c ∧ ∀ r w, l' ≠ .use r w)
    (hshake : s.shake = u) (hphase : (s.tasks c).conn = .shaking) :
    ServerRun X s (ls.map HubLabel.server) { s with shake := v } := by
  subst hshake
  apply hrun.relabel_map (fun u => ({ s with shake := u } : Server)) _ hl
  intro l u v hlast hstep
  cases hstep with
  | handshake h =>
      obtain ⟨rfl, huse⟩ := hlast _ _ rfl
      exact .shake (s := { s with shake := u }) hphase huse h
  | arrive hopen => exact .arrive (s := { s with shake := u }) hopen
  | finish hopen => exact .finish (s := { s with shake := u }) hopen
  | tick => exact .tick (s := { s with shake := u })

/-- The steps by which a client is taken in. -/
def serveLabels (c : ConnId) (nonce discriminator : Bytes16) : List ServerLabel :=
  [.owner (.accept c)] ++ (acceptLabels c nonce discriminator).map HubLabel.server ++
    [.conn c .register, .conn c .announceJoin, .conn c .spawnReader, .conn c .subscribe,
      .reader c .start]

/-- The hub when a client has been taken in: its reader and its writer wait. -/
def Server.served (X : Crates) (s : Server) (c : ConnId) (nonce discriminator : Bytes16) :
    Server :=
  { s with
    shake := s.shake.accepted X c nonce discriminator
    tasks := Function.update s.tasks c
      ⟨.select, .reading [] (s.now + readTimeout), .empty, s.bcast.length + 1⟩
    peers := s.peers.register (peerId X discriminator) ⟨peerName X discriminator, s.now, c⟩
    bcast := s.bcast ++
      [.peerJoin ⟨peerId X discriminator, peerName X discriminator, s.now⟩] }

/-- **A client with a new nonce comes to be served.** -/
theorem run_serve {nonce discriminator : Bytes16} (howner : s.owner = .run)
    (hroom : s.room = true) (hconn : s.shake.conns c = ⟨.fresh, .idle⟩)
    (htasks : s.tasks c = Tasks.fresh) (hlock : s.shake.nonceLock = none)
    (hnonce : nonce ∉ s.shake.used) :
    ServerRun X s (serveLabels c nonce discriminator) (s.served X c nonce discriminator) := by
  let id := peerId X discriminator
  let name := peerName X discriminator
  -- the hub from the return of the handshake on
  let base : Server := { s with shake := s.shake.accepted X c nonce discriminator }
  have hadm : base.Admitted c id name := by
    simp [Admitted, base, HubState.accepted, id, name]
  have hrun : ServerRun X s [] s := .nil
  have hrun := hrun.extend (v := s.setTasks c { Tasks.fresh with conn := .shaking })
    (.owner (l := .accept c) (.accept howner hroom (by rw [htasks]; rfl))) (by rw [htasks])
  have hshake : ServerRun X _ _ (base.setTasks c { Tasks.fresh with conn := .shaking }) :=
    run_shake (c := c) (s := s.setTasks c { Tasks.fresh with conn := .shaking })
      (run_accept (X := X) discriminator hconn hlock hnonce)
      (by simp [acceptLabels, checkLabels]) rfl (by rw [tasks_setTasks_self])
  have hrun := hrun.append hshake
  let joined : Server := { base with
    peers := s.peers.register id ⟨name, s.now, c⟩
    bcast := s.bcast ++ [.peerJoin ⟨id, name, s.now⟩] }
  have hrun := hrun.extend
    (v := Server.setTasks { base with peers := s.peers.register id ⟨name, s.now, c⟩ } c
      { Tasks.fresh with conn := .announceJoin })
    (.conn (c := c) (l := .register) (.register (by rw [tasks_setTasks_self]) hadm))
    (by simp only [tasks_setTasks_self, setTasks_setTasks]; rfl)
  have hrun := hrun.extend (v := joined.setTasks c { Tasks.fresh with conn := .spawnReader })
    (.conn (c := c) (l := .announceJoin) (.announceJoin (by rw [tasks_setTasks_self]) hadm))
    (by simp only [tasks_setTasks_self, setTasks_setTasks]; rfl)
  have hrun := hrun.extend
    (v := joined.setTasks c { Tasks.fresh with conn := .subscribe, reader := .spawned })
    (.conn (c := c) (l := .spawnReader) (.spawnReader (by rw [tasks_setTasks_self])))
    (by simp only [tasks_setTasks_self, setTasks_setTasks])
  have hrun := hrun.extend
    (v := joined.setTasks c ⟨.select, .spawned, .empty, s.bcast.length + 1⟩)
    (.conn (c := c) (l := .subscribe) (.subscribe (by rw [tasks_setTasks_self])))
    (by
      simp only [tasks_setTasks_self, setTasks_setTasks, bcast_setTasks, joined, Tasks.fresh,
        List.length_append, List.length_singleton])
  have hrun := hrun.extend (v := s.served X c nonce discriminator)
    (.reader (c := c) (l := .start) (.start (by rw [tasks_setTasks_self])))
    (by simp only [tasks_setTasks_self, setTasks_setTasks]; rfl)
  simpa only [serveLabels, List.append_assoc, List.nil_append, List.cons_append] using hrun

/-! ## Reading one message -/

/-- The steps by which a reader with an empty buffer gets one message, with its frame read
in two pieces. -/
def hearLabels (X : Crates) (c : ConnId) (msg : WireMessage) : List ServerLabel :=
  [.arrive c (frameBytes X.json msg), .reader c (.read (toBeBytes (X.json.toVec msg).length)),
    .reader c (.message (X.json.toVec msg) msg)]

/-- The hub when a reader has one message more. -/
def Server.heard (X : Crates) (s : Server) (c : ConnId) (msg : WireMessage) : Server :=
  (s.setSock c { s.sock c with read := (s.sock c).read ++ frameBytes X.json msg }).setTasks c
    { s.tasks c with reader := .sending msg }

/-- **A message that is framed is read.** -/
theorem run_hear {msg : WireMessage} {deadline : ℕ}
    (hphase : (s.tasks c).reader = .reading [] deadline) (hinbox : (s.sock c).inbox = [])
    (hopen : (s.sock c).readEnd = none) (hmsg : Encodes X.json msg) (hkind : msg.kind ≠ .ping) :
    ServerRun X s (hearLabels X c msg) (s.heard X c msg) := by
  obtain ⟨hsplit, hheaderNil, hpayloadNil, hheader, hheaderLen, ⟨k, hpayload, hfit⟩, hframe,
    hdecode⟩ := hmsg.pieces
  rw [hearLabels, Server.heard, hsplit]
  generalize toBeBytes (X.json.toVec msg).length = header at *
  generalize X.json.toVec msg = payload at *
  generalize hk : s.sock c = sock at *
  have hrun : ServerRun X s [] s := .nil
  have hrun := hrun.extend (v := s.setSock c { sock with inbox := header ++ payload })
    (.arrive (by rw [hk]; exact hopen) : ServerStep X (.arrive c (header ++ payload)) s _)
    (by simp [hk, Socket.arrive, hinbox])
  have hrun := hrun.extend
    (v := (s.setSock c { sock with read := sock.read ++ header, inbox := payload }).setTasks c
      { s.tasks c with reader := .reading header deadline })
    (.reader (c := c) (l := .read header) (.read (by rw [tasks_setSock]; exact hphase)
      (by rw [sock_setSock_self]; exact ⟨hheaderNil, List.prefix_append ..⟩) hheader hheaderLen
      hpayload))
    (by simp [Socket.take])
  have hrun := hrun.extend
    (v := (s.setSock c { sock with read := sock.read ++ (header ++ payload) }).setTasks c
      { s.tasks c with reader := .sending msg })
    (.reader (c := c) (l := .message payload msg) (.message (by rw [tasks_setTasks_self])
      (by rw [sock_setTasks, sock_setSock_self]; exact ⟨hpayloadNil, List.prefix_refl _⟩) hpayload
      hfit hframe hdecode hkind))
    (by simp [Socket.take, hinbox])
  exact hrun

/-- The steps by which a chat message goes from its sender to the two channels. -/
def relayLabels (X : Crates) (c : ConnId) (msg : WireMessage) : List ServerLabel :=
  hearLabels X c msg ++ [.reader c .send, .reader c .relay]

/-- The hub when a chat message has gone to the two channels. -/
def Server.relayed (X : Crates) (s : Server) (c : ConnId) (id : PeerId) (name : String)
    (msg : WireMessage) : Server :=
  { (s.heard X c msg).setTasks c
      { s.tasks c with reader := .reading [] (s.now + readTimeout) } with
    msgs := s.msgs.push (id, msg)
    bcast := s.bcast ++ [.message id name msg.text] }

section relayed

variable (s : Server) (c : ConnId) (id : PeerId) (name : String) (msg : WireMessage)

theorem sock_relayed : (s.relayed X c id name msg).sock c =
    { s.sock c with read := (s.sock c).read ++ frameBytes X.json msg } :=
  sock_setSock_self ..

theorem phase_relayed (d : ConnId) :
    ((s.relayed X c id name msg).shake.conns d).phase = (s.shake.conns d).phase :=
  phase_setSock ..

theorem tasks_relayed : (s.relayed X c id name msg).tasks c =
    { s.tasks c with reader := .reading [] (s.now + readTimeout) } :=
  Function.update_self ..

end relayed

/-- A reader passes a chat message on if the message channel has room. -/
theorem run_pass {msg : WireMessage} {id : PeerId} {name : String}
    (hadm : s.Admitted c id name) (hkind : msg.kind = .chat) (hroom : s.msgs.HasRoom msgChanCap) :
    ServerRun X (s.heard X c msg) [.reader c .send, .reader c .relay]
      (s.relayed X c id name msg) := by
  have hadm' : (s.heard X c msg).Admitted c id name := by
    rw [Admitted, Server.heard, shake_setTasks, phase_setSock]
    exact hadm
  have hrun : ServerRun X (s.heard X c msg) [] (s.heard X c msg) := .nil
  have hrun := hrun.extend
    (v := { (s.heard X c msg).setTasks c { s.tasks c with reader := .relaying msg.text } with
      msgs := s.msgs.push (id, msg) })
    (.reader (c := c) (l := .send) (.send (by rw [Server.heard, tasks_setTasks_self]) hadm' hroom))
    (by
      rw [Server.heard, tasks_setTasks_self, setTasks_setTasks, setTasks_setTasks, afterSend,
        if_pos hkind]
      rfl)
  exact hrun.extend
    (.reader (c := c) (l := .relay) (.relay (by rw [tasks_setTasks_self]) hadm'))
    (by
      simp only [Server.relayed, setTasks, Function.update_idem, Function.update_self]
      rfl)

/-- **A chat message that is framed is relayed** if the message channel has room. -/
theorem run_relay {msg : WireMessage} {deadline : ℕ} {id : PeerId} {name : String}
    (hphase : (s.tasks c).reader = .reading [] deadline) (hinbox : (s.sock c).inbox = [])
    (hopen : (s.sock c).readEnd = none) (hadm : s.Admitted c id name) (hmsg : Encodes X.json msg)
    (hkind : msg.kind = .chat) (hroom : s.msgs.HasRoom msgChanCap) :
    ServerRun X s (relayLabels X c msg) (s.relayed X c id name msg) :=
  (run_hear hphase hinbox hopen hmsg (by rw [hkind]; nofun)).append (run_pass hadm hkind hroom)

/-! ## Writing one event -/

/-- The steps by which a waiting writer writes the frame of the next event. -/
def writeLabels (json : SerdeJson) (c : ConnId) (event : ChatEvent) (msg : WireMessage) :
    List ServerLabel :=
  [.writer c (.takeEvent event), .writer c (.write (frameBytes json msg))]

/-- The hub when a writer has written one event more. -/
def Server.wrote (json : SerdeJson) (s : Server) (c : ConnId) (msg : WireMessage) : Server :=
  (s.setSock c ((s.sock c).write (frameBytes json msg))).setTasks c
    { s.tasks c with cursor := (s.tasks c).cursor + 1 }

/-- **A waiting writer writes the frame of the next event.** -/
theorem run_write {event : ChatEvent} {msg : WireMessage}
    (hphase : (s.tasks c).conn = .select) (hqueue : (s.tasks c).direct.queue = [])
    (hget : s.bcast[(s.tasks c).cursor]? = some event)
    (hcap : s.bcast.length ≤ (s.tasks c).cursor + broadcastChanCap)
    (hevent : eventMessage event = some msg) (hmsg : Encodes X.json msg) :
    ServerRun X s (writeLabels X.json c event msg) (s.wrote X.json c msg) := by
  have hrecv := Broadcast.recv_of_getElem? hget hcap
  have hafter : afterEvent X.json event s.now =
      .writing (frameBytes X.json msg ++ []) (s.now + writeTimeout) := by
    rw [afterEvent, hevent, List.append_nil]
    dsimp only
    rw [hmsg.encodeMessage]
  have hne := frameBytes_ne_nil hmsg
  rw [writeLabels, Server.wrote]
  generalize frameBytes X.json msg = frame at *
  generalize hk : s.tasks c = k at *
  have hrun : ServerRun X s [] s := .nil
  have hrun := hrun.extend
    (v := s.setTasks c { k with
      cursor := k.cursor + 1
      conn := .writing (frame ++ []) (s.now + writeTimeout) })
    (.writer (c := c) (l := .takeEvent event) (.takeEvent (by rw [hk]; exact hphase)
      (by rw [hk]; exact hqueue) (by rw [hk]; exact hrecv)))
    (by rw [hk, hafter])
  have hrun := hrun.extend
    (v := (s.setSock c ((s.sock c).write frame)).setTasks c { k with cursor := k.cursor + 1 })
    (.writer (c := c) (l := .write frame) (.write (by rw [tasks_setTasks_self]) hne))
    (by
      simp only [tasks_setTasks_self, setSock_setTasks, setTasks_setTasks, sock_setTasks, if_true]
      rw [← hphase])
  exact hrun

/-! ## Hubs at rest -/

/-- The tasks of a connection wait for outside input: the writer has taken everything, and
the reader, unless it has ended, has no bytes and time left. -/
structure Server.Waits (s : Server) (c : ConnId) : Prop where
  conn : (s.tasks c).conn = .select
  queue : (s.tasks c).direct.queue = []
  cursor : (s.tasks c).cursor = s.bcast.length
  reader : (∃ reason, (s.tasks c).reader = .ended reason) ∨
    ∃ got deadline, (s.tasks c).reader = .reading got deadline ∧ s.now < deadline ∧
      (s.sock c).inbox = [] ∧ (s.sock c).readEnd = none

theorem recv_end {α : Type*} (cap : ℕ) (log : List α) :
    Broadcast.recv cap log log.length = (.empty, log.length) := by
  simp [Broadcast.recv]

/-- A hub rests when every connection waits or was never accepted. -/
theorem quiescent_of_waits (h : ∀ c, s.tasks c = Tasks.fresh ∨ s.Waits c) : s.Quiescent X := by
  intro l t hstep
  cases hstep with
  | owner | arrive | finish | tick => trivial
  | @shake c _ _ _ hphase =>
      rcases h c with hfresh | hwaits
      · rw [hfresh] at hphase
        cases hphase
      · cases hwaits.conn.symm.trans hphase
  | @conn c _ _ _ hstep =>
      have hconn : (s.tasks c).conn = .idle ∨ (s.tasks c).conn = .select :=
        (h c).imp (fun hfresh => by rw [hfresh]; rfl) Server.Waits.conn
      cases hstep with
      | register hphase | announceJoin hphase | spawnReader hphase | subscribe hphase
      | deregister hphase | sendLeft hphase | sendLeftClosed hphase | broadcastLeave hphase =>
          rw [hphase] at hconn
          rcases hconn with hconn | hconn <;> cases hconn
  | @reader c _ _ _ hstep =>
      rcases h c with hfresh | hwaits
      · have hnone : (s.tasks c).reader = .unspawned := by
          rw [hfresh]
          rfl
        cases hstep with
        | start hphase | read hphase | message hphase | ping hphase | badFrame hphase
        | badMessage hphase | readFail hphase | readTimeout hphase | pong hphase | send hphase
        | sendClosed hphase | relay hphase => cases hnone.symm.trans hphase
      · rcases hwaits.reader with ⟨reason, hended⟩ | ⟨got, deadline, hreading, htime, hinbox, hopen⟩
        · cases hstep with
          | start hphase | read hphase | message hphase | ping hphase | badFrame hphase
          | badMessage hphase | readFail hphase | readTimeout hphase | pong hphase | send hphase
          | sendClosed hphase | relay hphase => cases hended.symm.trans hphase
        -- the reader waits for bytes that are not there
        · have hnothing : ∀ chunk, ¬ (s.sock c).CanTake chunk := fun chunk htake => by
            have hprefix := htake.2
            rw [hinbox, List.prefix_nil] at hprefix
            exact htake.1 hprefix
          cases hstep with
          | read _ htake | message _ htake | ping _ htake | badFrame _ htake
          | badMessage _ htake => exact absurd htake (hnothing _)
          | readFail _ hend =>
              have hsome := hend.2
              rw [hopen] at hsome
              cases hsome
          | readTimeout hphase hdue =>
              cases hreading.symm.trans hphase
              exact absurd hdue (Nat.not_le.mpr htime)
          | start hphase | pong hphase | send hphase | sendClosed hphase | relay hphase =>
              cases hreading.symm.trans hphase
  | @writer c _ _ _ hstep =>
      rcases h c with hfresh | hwaits
      · have hidle : (s.tasks c).conn = .idle := by
          rw [hfresh]
          rfl
        cases hstep with
        | takeFrame hphase | rxClosed hphase | takeEvent hphase | lagged hphase
        | broadcastClosed hphase | write hphase | writeFail hphase | writeTimeout hphase =>
            cases hidle.symm.trans hphase
      -- the writer has taken all there is, and somebody still holds every sender
      · have hruns : (s.tasks c).conn.Runs := by
          rw [hwaits.conn]
          trivial
        cases hstep with
        | takeFrame _ hqueue => cases hwaits.queue.symm.trans hqueue
        | rxClosed _ _ hclosed => exact absurd (senders_held hruns).1 hclosed
        | takeEvent _ _ hrecv | lagged _ _ hrecv =>
            rw [hwaits.cursor, recv_end] at hrecv
            cases hrecv
        | broadcastClosed _ _ _ hclosed => exact absurd (senders_held hruns).2 hclosed
        | write hphase | writeFail hphase | writeTimeout hphase =>
            cases hwaits.conn.symm.trans hphase

/-! ## A hub with one peer -/

/-- A hub whose `run` was just called. -/
def Server.opened (now : ℕ) : Server := { Server.init now with owner := .run, running := true }

/-- The hub with one client. -/
def Server.attended : Server := (Server.opened 0).served .standard 0 (.fill 0) (.fill 7)

def attendLabels : List ServerLabel := [.owner .run] ++ serveLabels 0 (.fill 0) (.fill 7)

theorem run_attend : ServerRun .standard (.init 0) attendLabels Server.attended := by
  have hopen : ServerRun .standard (.init 0) [.owner .run] (Server.opened 0) :=
    .single (.owner (.run rfl rfl))
  exact hopen.append (run_serve rfl rfl rfl rfl rfl (Finset.notMem_empty _))

end Nullpipe.Hub

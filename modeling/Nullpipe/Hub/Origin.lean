import Nullpipe.Hub.Relay
import Nullpipe.Room.Origin

/-!
# Where the chat of the hub comes from

What a `Hub` relays was framed by its peers: each of them has said a front part of what has
arrived on its stream, in its order, under the name that the handshake has made of its
discriminator (`hub_relays_accounted`).  The name in the message itself is not looked at.

Three invariants lead from the stream to the broadcast channel.

* `Phase.Granted`: a handshake that was granted has read nonce and discriminator, and no
  further, and the peer is named after the latter.  So the reader starts at byte 32
  (`Server.payload`).
* `Server.Reads`: what a reader has handed out, with what it has ahead of it, is what one pass
  over the bytes behind the handshake gives.  This is `Conn.Reads` of the room once more; what
  differs is where the reader waits, for its own direct queue and for the message channel.
  `ReaderStep.proceeds` goes through its steps, and `ServerStep.proceeds` adds the others.
* `Relayed`: what is said on the broadcast channel is on a log with the connections that said
  it, and the part of a connection is what its reader has relayed.  A reader holds one text
  between reading and relaying it (`Reader.untold`), so this is all it has handed out but the
  last.

An announcement of the owner is on the log with no connection (`none`).  `ServerStep.says`
lists the steps that say anything at all.
-/

namespace Nullpipe.Hub

open Channel Framing Transition Server

variable {X : Crates} {s t : Server} {c : ConnId} {l : ServerLabel} {done : List WireMessage}
  {u v : HubState}

/-! ## The greeting -/

/-- A handshake that was granted has read nonce and discriminator, and the peer is named
after the latter; behind them its reader reads on. -/
def Phase.Granted (X : Crates) (read : List UInt8) : Phase → Prop
  | .writeAccept discriminator .. | .flushAccept discriminator _ =>
    ∃ nonce : Bytes16, read = nonce.val ++ discriminator.val
  | .admitted id name => ∃ nonce discriminator : Bytes16,
    nonce.val ++ discriminator.val <+: read ∧ id = peerId X discriminator ∧
      name = peerName X discriminator
  | _ => True

theorem PhaseStep.granted {l : PhaseLabel} (h : PhaseStep X c l u v) (hu : (u.conns c).Coherent)
    (hgranted : (u.conns c).phase.Granted X (u.conns c).sock.read) :
    (v.conns c).phase.Granted X (v.conns c).sock.read := by
  unfold HubConn.Coherent at hu
  cases h with
  | insertNonce hphase =>
      rw [hphase] at hu
      simp only [HubState.conns_setConn_self]
      exact ⟨_, hu.1⟩
  | writeAccept hphase =>
      rw [hphase] at hgranted
      obtain ⟨nonce, hread⟩ := hgranted
      simp only [HubState.conns_setConn_self]
      split <;> exact ⟨nonce, hread⟩
  | @flushAccept _ discriminator _ hphase =>
      rw [hphase] at hgranted
      obtain ⟨nonce, hread⟩ := hgranted
      simp only [HubState.conns_setConn_self]
      refine ⟨nonce, discriminator, ?_, rfl, rfl⟩
      rw [Socket.read_flush, hread]
  | use hphase =>
      rw [hphase] at hgranted
      obtain ⟨nonce, discriminator, hread, hnames⟩ := hgranted
      simp only [HubState.conns_setConn_self, hphase]
      exact ⟨nonce, discriminator, hread.trans (List.prefix_append _ _), hnames⟩
  | read =>
      simp only [HubState.conns_setConn_self]
      unfold afterRead
      split <;> trivial
  | writeEof | writeReject =>
      simp only [HubState.conns_setConn_self]
      split <;> trivial
  | _ =>
      simp only [HubState.conns_setConn_self]
      trivial

theorem HubStep.granted {l : HubLabel} (h : HubStep X l u v) (hu : (u.conns c).Coherent)
    (hgranted : (u.conns c).phase.Granted X (u.conns c).sock.read) :
    (v.conns c).phase.Granted X (v.conns c).sock.read := by
  by_cases hl : ∃ l', l = .handshake c l'
  · obtain ⟨l', rfl⟩ := hl
    cases h with
    | handshake h => exact h.granted hu hgranted
  · push Not at hl
    obtain ⟨hphase, hread, -⟩ := h.frame hl
    rw [hphase, hread]
    exact hgranted

theorem ServerReachable.granted (hs : ServerReachable X s) (c : ConnId) :
    (s.shake.conns c).phase.Granted X (s.sock c).read := by
  obtain ⟨now, hreach⟩ := hs.shake
  have hall : (∀ c, (s.shake.conns c).Coherent) ∧
      ∀ c, (s.shake.conns c).phase.Granted X (s.shake.conns c).sock.read := by
    refine hreach.invariant (I := fun u => (∀ c, (u.conns c).Coherent) ∧
      ∀ c, (u.conns c).phase.Granted X (u.conns c).sock.read)
      ⟨fun _ => ⟨rfl, rfl⟩, fun _ => trivial⟩ ?_
    rintro l u v ⟨hcoherent, hgranted⟩ hstep
    exact ⟨hstep.coherent hcoherent, fun c => hstep.granted (hcoherent c) (hgranted c)⟩
  exact hall.2 c

/-- The last step of a handshake that is granted. -/
theorem PhaseStep.admits {l : PhaseLabel} {id : PeerId} {name : String} (h : PhaseStep X c l u v)
    (huse : ∀ r w, l ≠ .use r w) (hadm : (v.conns c).phase = .admitted id name) :
    ∃ discriminator deadline, (u.conns c).phase = .flushAccept discriminator deadline ∧
      (v.conns c).sock = (u.conns c).sock.flush := by
  cases h with
  | @flushAccept _ discriminator deadline hphase =>
      refine ⟨discriminator, deadline, hphase, ?_⟩
      rw [HubState.conns_setConn_self]
  | use => exact absurd rfl (huse _ _)
  | read =>
      simp only [HubState.conns_setConn_self] at hadm
      unfold afterRead at hadm
      split at hadm <;> cases hadm
  | writeEof | writeReject | writeAccept =>
      simp only [HubState.conns_setConn_self] at hadm
      split at hadm <;> cases hadm
  | _ =>
      simp only [HubState.conns_setConn_self] at hadm
      cases hadm

/-- At its end the handshake has read no further. -/
theorem PhaseStep.read_of_admitted {l : PhaseLabel} {id : PeerId} {name : String}
    (h : PhaseStep X c l u v) (huse : ∀ r w, l ≠ .use r w)
    (hgranted : (u.conns c).phase.Granted X (u.conns c).sock.read)
    (hadm : (v.conns c).phase = .admitted id name) :
    (v.conns c).sock.read.length = handshakeLen := by
  obtain ⟨discriminator, deadline, hphase, hsock⟩ := h.admits huse hadm
  rw [hphase] at hgranted
  obtain ⟨nonce, hread⟩ := hgranted
  rw [hsock, Socket.read_flush, hread, List.length_append, nonce.property,
    discriminator.property]
  rfl

/-! ## The place in the stream -/

/-- What the reader has of the current frame. -/
def Reader.buffer : Reader → List UInt8
  | .reading got _ => got
  | _ => []

/-- The texts of the chat messages. -/
def chatTexts (msgs : List WireMessage) : List String :=
  msgs.filterMap fun msg => if msg.kind = .chat then some msg.text else none

@[simp] theorem chatTexts_nil : chatTexts [] = [] := rfl

@[simp] theorem chatTexts_append (msgs more : List WireMessage) :
    chatTexts (msgs ++ more) = chatTexts msgs ++ chatTexts more := List.filterMap_append

/-- The text that the reader holds and has not relayed. -/
def Reader.untold : Reader → List String
  | .sending msg => chatTexts [msg]
  | .relaying text => [text]
  | _ => []

theorem untold_afterSend (msg : WireMessage) (now : ℕ) :
    (afterSend msg now).untold = chatTexts [msg] := by
  unfold afterSend
  split
  · rename_i hkind
    simp [Reader.untold, chatTexts, hkind]
  · rename_i hkind
    simp [Reader.untold, chatTexts, hkind]

theorem lives_afterSend (msg : WireMessage) (now : ℕ) :
    (afterSend msg now).Lives ∧ (afterSend msg now).buffer = [] := by
  unfold afterSend
  split <;> exact ⟨trivial, rfl⟩

/-- The bytes behind the handshake. -/
def Server.payload (s : Server) (c : ConnId) : List UInt8 :=
  (s.sock c).arrived.drop handshakeLen

/-- The reader of a connection has handed out `done`. -/
structure Server.Reads (X : Crates) (s : Server) (c : ConnId) (done : List WireMessage) :
    Prop where
  unread : (s.tasks c).reader = .unspawned →
    done = [] ∧ ∀ id name, s.Admitted c id name → (s.sock c).read.length = handshakeLen
  live : (s.tasks c).reader.Lives → handshakeLen ≤ (s.sock c).read.length ∧
    (∃ n, readFrame (s.tasks c).reader.buffer = .needs n) ∧
    wireFormat.Consumed (decoded X.json) (s.payload c) done
      ((s.tasks c).reader.buffer ++ (s.sock c).inbox)
  front : done <+: streamMessages X.json (s.payload c)

/-- A reader that lives. -/
theorem Server.Reads.of_live (hlives : (s.tasks c).reader.Lives)
    (hread : handshakeLen ≤ (s.sock c).read.length)
    (hneeds : ∃ n, readFrame (s.tasks c).reader.buffer = .needs n)
    (hconsumed : wireFormat.Consumed (decoded X.json) (s.payload c) done
      ((s.tasks c).reader.buffer ++ (s.sock c).inbox)) : s.Reads X c done where
  unread hnone := by
    rw [hnone] at hlives
    exact hlives.elim
  live _ := ⟨hread, hneeds, hconsumed⟩
  front := hconsumed.prefix_messages

/-- A step that leaves the reader and the incoming side of the stream alone. -/
theorem Server.Reads.congr (h : s.Reads X c done)
    (hreader : (t.tasks c).reader = (s.tasks c).reader)
    (hread : (t.sock c).read = (s.sock c).read) (hinbox : (t.sock c).inbox = (s.sock c).inbox)
    (hphase : (t.shake.conns c).phase = (s.shake.conns c).phase) : t.Reads X c done := by
  have hpayload : t.payload c = s.payload c := by
    rw [Server.payload, Socket.arrived, hread, hinbox]
    rfl
  refine ⟨fun hnone => ?_, fun hlives => ?_, ?_⟩
  · obtain ⟨hdone, hlen⟩ := h.unread (hreader.symm.trans hnone)
    refine ⟨hdone, fun id name hadm => ?_⟩
    rw [hread]
    exact hlen id name (hphase.symm.trans hadm)
  · rw [hreader] at hlives ⊢
    rw [hread, hinbox, hpayload]
    exact h.live hlives
  · rw [hpayload]
    exact h.front

/-- A reader between two frames goes on to another place between them. -/
theorem Server.Reads.next (h : s.Reads X c done) (hlives : (s.tasks c).reader.Lives)
    (hbuffer : (s.tasks c).reader.buffer = []) (hlives' : (t.tasks c).reader.Lives)
    (hbuffer' : (t.tasks c).reader.buffer = []) (hsock : t.sock c = s.sock c) :
    t.Reads X c done := by
  obtain ⟨hread, hneeds, hconsumed⟩ := h.live hlives
  have hpayload : t.payload c = s.payload c := by
    rw [Server.payload, hsock]
    rfl
  rw [hbuffer] at hneeds hconsumed
  apply Reads.of_live hlives'
  · rwa [hsock]
  · rwa [hbuffer']
  · rwa [hpayload, hbuffer', hsock]

/-- A reader that ends. -/
theorem Server.Reads.over (h : s.Reads X c done) {reason : ReaderEnd}
    (hreader : (t.tasks c).reader = .ended reason)
    (harrived : (t.sock c).arrived = (s.sock c).arrived) : t.Reads X c done where
  unread hnone := by
    rw [hreader] at hnone
    cases hnone
  live hlives := by
    rw [hreader] at hlives
    exact hlives.elim
  front := by
    rw [Server.payload, harrived]
    exact h.front

section

variable {got chunk frame : List UInt8} {deadline n : ℕ}

/-- What a reader has ahead of it after it has taken a chunk. -/
private theorem consumed_chunk (h : s.Reads X c done)
    (hphase : (s.tasks c).reader = .reading got deadline) (htake : (s.sock c).CanTake chunk) :
    handshakeLen ≤ ((s.sock c).take chunk).read.length ∧
      wireFormat.Consumed (decoded X.json) (((s.sock c).take chunk).arrived.drop handshakeLen) done
        (got ++ chunk ++ ((s.sock c).take chunk).inbox) := by
  obtain ⟨hread, -, hconsumed⟩ := h.live (by rw [hphase]; trivial)
  rw [hphase, Reader.buffer, Socket.inbox_take htake, ← List.append_assoc] at hconsumed
  rw [Socket.arrived_take htake, Socket.read_take, List.length_append]
  exact ⟨by omega, hconsumed⟩

/-- A chunk that completes a good frame hands out its message. -/
theorem Server.Reads.whole {msg : WireMessage} (h : s.Reads X c done)
    (hphase : (s.tasks c).reader = .reading got deadline) (htake : (s.sock c).CanTake chunk)
    (hneeds : readFrame got = .needs n) (hfit : chunk.length ≤ n)
    (hframe : readFrame (got ++ chunk) = .frame frame)
    (hdecode : decodeMessage X.json frame = .ok msg) (hlives : (t.tasks c).reader.Lives)
    (hbuffer : (t.tasks c).reader.buffer = []) (hsock : t.sock c = (s.sock c).take chunk) :
    t.Reads X c (done ++ [msg]) := by
  obtain ⟨hread, hconsumed⟩ := consumed_chunk h hphase htake
  have hexact := Format.progress_exact hneeds hfit hframe
  rw [← hexact] at hframe hconsumed
  apply Reads.of_live hlives
  · rwa [hsock]
  · rw [hbuffer]
    exact ⟨wireFormat.headerLen, Format.progress_nil⟩
  · rw [Server.payload, hbuffer, hsock]
    exact hconsumed.frame hframe (by rw [decoded, hdecode]; rfl)

end

/-! ## What is relayed -/

/-- The texts of connection `c` that a step relays. -/
def Server.tells (s : Server) (l : ServerLabel) (c : ConnId) : List String :=
  if l = .reader c .relay then (s.tasks c).reader.untold else []

theorem Server.tells_of_ne (hl : l ≠ .reader c .relay) : s.tells l c = [] := if_neg hl

/-- The reader of a connection goes on: what it relays is what it held, and it comes to hold
what it hands out. -/
def Proceeds (X : Crates) (c : ConnId) (s t : Server) (l : ServerLabel)
    (done : List WireMessage) : Prop :=
  ∃ more, t.Reads X c (done ++ more) ∧
    s.tells l c ++ (t.tasks c).reader.untold = (s.tasks c).reader.untold ++ chatTexts more

/-- The usual case: nothing is handed out or relayed. -/
theorem Proceeds.still (hl : l ≠ .reader c .relay) (hreads : t.Reads X c done)
    (huntold : (t.tasks c).reader.untold = (s.tasks c).reader.untold) :
    Proceeds X c s t l done := by
  refine ⟨[], by rwa [List.append_nil], ?_⟩
  rw [tells_of_ne hl, huntold, chatTexts_nil, List.append_nil]
  rfl

theorem ReaderStep.proceeds {l : ReaderLabel} (h : ReaderStep X c l s t)
    (hs : s.Reads X c done) : Proceeds X c s t (.reader c l) done := by
  cases h with
  | start hphase | pong hphase =>
      refine .still nofun (hs.next ?_ ?_ ?_ ?_ rfl) ?_ <;>
        simp [hphase, Reader.Lives, Reader.buffer, Reader.untold]
  | send hphase | sendClosed hphase =>
      obtain ⟨hlives, hbuffer⟩ := lives_afterSend _ s.now
      refine .still nofun (hs.next ?_ ?_ ?_ ?_ rfl) ?_
      · rw [hphase]
        trivial
      · rw [hphase]
        rfl
      · simpa only [tasks_setTasks_self] using hlives
      · simpa only [tasks_setTasks_self] using hbuffer
      · simp only [tasks_setTasks_self, hphase]
        exact untold_afterSend _ s.now
  | relay hphase =>
      refine ⟨[], ?_, ?_⟩
      · rw [List.append_nil]
        refine hs.next ?_ ?_ ?_ ?_ rfl <;> simp [hphase, Reader.Lives, Reader.buffer]
      · rw [tells, if_pos rfl, tasks_setTasks_self]
        rfl
  | @read _ _ chunk deadline _ n hphase htake _ _ hmore =>
      -- the frame is not complete yet
      obtain ⟨hread, hconsumed⟩ := consumed_chunk hs hphase htake
      refine .still nofun (.of_live ?_ ?_ ⟨n, ?_⟩ ?_) (by rw [tasks_setTasks_self, hphase]; rfl)
      · rw [tasks_setTasks_self]
        trivial
      · rwa [sock_setTasks, sock_setSock_self]
      · rw [tasks_setTasks_self]
        exact hmore
      · rw [tasks_setTasks_self, Server.payload, sock_setTasks, sock_setSock_self]
        exact hconsumed
  | @message _ _ chunk _ _ _ msg hphase htake hneeds hfit hframe hdecode =>
      -- one more message has been read
      refine ⟨[msg], hs.whole hphase htake hneeds hfit hframe hdecode ?_ ?_ ?_, ?_⟩
      · rw [tasks_setTasks_self]
        trivial
      · rw [tasks_setTasks_self]
        rfl
      · rw [sock_setTasks, sock_setSock_self]
      · have hother : ServerLabel.reader c (.message chunk msg) ≠ .reader c .relay := nofun
        rw [tells_of_ne hother, tasks_setTasks_self, hphase]
        rfl
  | @ping _ _ chunk _ _ _ msg hphase htake hneeds hfit hframe hdecode hkind =>
      refine ⟨[msg], hs.whole hphase htake hneeds hfit hframe hdecode ?_ ?_ ?_, ?_⟩
      · rw [tasks_setTasks_self]
        trivial
      · rw [tasks_setTasks_self]
        rfl
      · rw [sock_setTasks, sock_setSock_self]
      · have hother : ServerLabel.reader c (.ping chunk) ≠ .reader c .relay := nofun
        rw [tells_of_ne hother, tasks_setTasks_self, hphase]
        simp [Reader.untold, chatTexts, hkind]
  | badFrame hphase htake | badMessage hphase htake =>
      refine .still nofun (hs.over (by rw [tasks_setTasks_self]) ?_) ?_
      · rw [sock_setTasks, sock_setSock_self, Socket.arrived_take htake]
      · rw [tasks_setTasks_self, hphase]
        rfl
  | readFail hphase | readTimeout hphase =>
      refine .still nofun (hs.over (by rw [tasks_setTasks_self]) rfl) ?_
      rw [tasks_setTasks_self, hphase]
      rfl

/-- What arrives is ahead of the reader. -/
theorem Server.Reads.arrive (h : s.Reads X c done) (chunk : List UInt8) :
    (s.setSock c ((s.sock c).arrive chunk)).Reads X c done := by
  refine ⟨fun hnone => ?_, fun hlives => ?_, ?_⟩
  · obtain ⟨hdone, hlen⟩ := h.unread hnone
    refine ⟨hdone, fun id name hadm => ?_⟩
    rw [sock_setSock_self, Socket.read_arrive]
    exact hlen id name ((phase_setSock s c _ c).symm.trans hadm)
  · obtain ⟨hread, hneeds, hconsumed⟩ := h.live hlives
    have hlen : handshakeLen ≤ (s.sock c).arrived.length := by
      rw [Socket.arrived, List.length_append]
      omega
    rw [Server.payload, sock_setSock_self, Socket.arrived_arrive,
      List.drop_append_of_le_length hlen]
    exact ⟨hread, hneeds, (List.append_assoc .. ▸ hconsumed.arrive chunk :)⟩
  · have hpayload : s.payload c <+: ((s.sock c).arrived ++ chunk).drop handshakeLen :=
      (List.prefix_append _ _).drop handshakeLen
    obtain ⟨more, hmore⟩ := hpayload
    rw [Server.payload, sock_setSock_self, Socket.arrived_arrive, ← hmore]
    exact h.front.trans (Format.messages_prefix_append _ _)

/-- **The readers keep their places in the streams.** -/
theorem ServerStep.proceeds (h : ServerStep X l s t) (hs : ServerReachable X s)
    (hreads : s.Reads X c done) : Proceeds X c s t l done := by
  by_cases hreader : ∃ l', l = .reader c l'
  · obtain ⟨l', rfl⟩ := hreader
    cases h with
    | reader h => exact h.proceeds hreads
  · have hne : l ≠ .reader c .relay := fun heq => hreader ⟨_, heq⟩
    by_cases hl : l.of = some c
    · cases h.own hl with
      | reader => exact absurd ⟨_, rfl⟩ hreader
      | accept =>
          refine .still hne (hreads.congr ?_ rfl rfl rfl) ?_ <;> rw [tasks_setTasks_self]
      | shake hphase huse hshake =>
          -- the handshake runs before there is a reader
          have hnone : (s.tasks c).reader = .unspawned :=
            (hs.wellFormed.fits c).reader.mpr (by rw [hphase]; decide)
          obtain ⟨rfl, -⟩ := hreads.unread hnone
          refine .still hne ⟨fun _ => ⟨rfl, fun id name hadm => ?_⟩, fun hlives => ?_,
            List.nil_prefix⟩ rfl
          · exact hshake.read_of_admitted huse (hs.granted c) hadm
          · rw [show (s.tasks c).reader = _ from hnone] at hlives
            exact hlives.elim
      | conn hown =>
          cases hown with
          | spawnReader hphase =>
              have hnone : (s.tasks c).reader = .unspawned :=
                (hs.wellFormed.fits c).reader.mpr (by rw [hphase]; decide)
              obtain ⟨id, name, hadm⟩ := (hs.wellFormed.fits c).admitted (by rw [hphase]; decide)
              obtain ⟨rfl, hlen⟩ := hreads.unread hnone
              have hread := hlen id name hadm
              have hpayload : s.payload c = (s.sock c).inbox := by
                rw [Server.payload, Socket.arrived, ← hread, List.drop_left]
              refine .still hne (.of_live ?_ hread.ge ⟨wireFormat.headerLen, ?_⟩ ?_) ?_
              · rw [tasks_setTasks_self]
                trivial
              · rw [tasks_setTasks_self]
                exact Format.progress_nil
              · rw [tasks_setTasks_self, Server.payload, sock_setTasks]
                rw [Server.payload] at hpayload
                rw [hpayload]
                exact .start _
              · rw [tasks_setTasks_self, hnone]
                rfl
          | _ =>
              refine .still hne (hreads.congr ?_ rfl rfl rfl) ?_ <;>
                simp only [tasks_setTasks_self]
      | writer hown =>
          cases hown with
          | write =>
              refine .still hne (hreads.congr ?_ ?_ ?_ ?_) ?_ <;>
                simp only [tasks_setTasks_self, sock_setTasks, sock_setSock_self, shake_setTasks,
                  phase_setSock, Socket.read_write, Socket.inbox_write]
          | _ =>
              refine .still hne (hreads.congr ?_ rfl rfl rfl) ?_ <;>
                simp only [tasks_setTasks_self]
      | arrive => exact .still hne (hreads.arrive _) rfl
      | finish =>
          refine .still hne (hreads.congr rfl ?_ ?_ (phase_setSock ..)) rfl <;>
            rw [sock_setSock_self] <;> rfl
    · obtain ⟨htold, hconn⟩ := h.frame hl
      have hsock : t.sock c = s.sock c := congrArg HubConn.sock hconn
      exact .still hne (hreads.congr htold.reader (by rw [hsock]) (by rw [hsock]) (by rw [hconn]))
        (by rw [htold.reader])

/-! ## The log -/

/-- What connection `c` says on a log. -/
def saidBy (c : ConnId) (log : List (Option ConnId × String × String)) : List String :=
  log.filterMap fun entry => if entry.1 = some c then some entry.2.2 else none

theorem saidBy_append (c : ConnId) (log more : List (Option ConnId × String × String)) :
    saidBy c (log ++ more) = saidBy c log ++ saidBy c more := List.filterMap_append

/-- What is said on the broadcast channel is on a log, with the connections that said it;
what the owner of the `Hub` says comes from none. -/
structure Relayed (X : Crates) (s : Server) (log : List (Option ConnId × String × String)) :
    Prop where
  lines : said s.bcast = log.map Prod.snd
  hub : ∀ line, (none, line) ∈ log → line.1 = "[system]"
  peer : ∀ c line, (some c, line) ∈ log →
    2 ≤ (s.tasks c).conn.stage ∧ ∃ id, s.Admitted c id line.1
  conns : ∀ c, ∃ done, s.Reads X c done ∧
    saidBy c log ++ (s.tasks c).reader.untold = chatTexts done

/-- What a step says. -/
theorem ServerStep.says (h : ServerStep X l s t) :
    ((∀ c, l ≠ .reader c .relay) ∧ said t.bcast = said s.bcast) ∨
    ((∀ c, l ≠ .reader c .relay) ∧
      ∃ text, said t.bcast = said s.bcast ++ [("[system]", text)]) ∨
    ∃ c id name text, l = .reader c .relay ∧ (s.tasks c).reader = .relaying text ∧
      s.Admitted c id name ∧ said t.bcast = said s.bcast ++ [(name, text)] := by
  cases h with
  | owner h =>
      cases h with
      | @broadcastHub _ text => exact .inr (.inl ⟨nofun, text, said_append _ _⟩)
      | broadcastFrames | broadcastPing =>
          obtain ⟨tasks, heq, -⟩ := broadcastMessage_told X.json s _
          exact .inl ⟨nofun, by rw [heq]⟩
      | _ => exact .inl ⟨nofun, rfl⟩
  | conn h =>
      cases h with
      | announceJoin | broadcastLeave =>
          exact .inl ⟨nofun, (said_append _ _).trans (List.append_nil _)⟩
      | _ => exact .inl ⟨nofun, rfl⟩
  | @reader c _ _ _ h =>
      cases h with
      | @relay _ text id name hphase hadm =>
          exact .inr (.inr ⟨c, id, name, text, rfl, hphase, hadm, said_append _ _⟩)
      | _ => exact .inl ⟨by simp, rfl⟩
  | writer h => cases h <;> exact .inl ⟨nofun, rfl⟩
  | shake | arrive | finish | tick => exact .inl ⟨nofun, rfl⟩

/-- A step that says `new`. -/
theorem Relayed.extend {log new : List (Option ConnId × String × String)} (hlog : Relayed X s log)
    (h : ServerStep X l s t) (hs : ServerReachable X s)
    (hlines : said t.bcast = said s.bcast ++ new.map Prod.snd)
    (hhub : ∀ line, (none, line) ∈ new → line.1 = "[system]")
    (hpeer : ∀ c line, (some c, line) ∈ new →
      2 ≤ (s.tasks c).conn.stage ∧ ∃ id, s.Admitted c id line.1)
    (htells : ∀ c, saidBy c new = s.tells l c) : Relayed X t (log ++ new) where
  lines := by rw [hlines, hlog.lines, List.map_append]
  hub line hmem := (List.mem_append.mp hmem).elim (hlog.hub line) (hhub line)
  peer c line hmem := by
    obtain ⟨hstage, id, hadm⟩ := (List.mem_append.mp hmem).elim (hlog.peer c line) (hpeer c line)
    refine ⟨?_, id, h.admitted hadm hstage⟩
    rcases h.stage (c := c) with hsame | hnext <;> omega
  conns c := by
    obtain ⟨done, hreads, hsaid⟩ := hlog.conns c
    obtain ⟨more, hreads', huntold⟩ := h.proceeds hs hreads
    refine ⟨done ++ more, hreads', ?_⟩
    rw [saidBy_append, htells, List.append_assoc, huntold, ← List.append_assoc, hsaid,
      chatTexts_append]

theorem ServerStep.relayed {log : List (Option ConnId × String × String)}
    (h : ServerStep X l s t) (hs : ServerReachable X s) (hlog : Relayed X s log) :
    ∃ log, Relayed X t log := by
  rcases h.says with ⟨hl, hsame⟩ | ⟨hl, text, hmore⟩ | ⟨c, id, name, text, rfl, hphase, hadm, hmore⟩
  · refine ⟨log ++ [], hlog.extend h hs ?_ nofun nofun fun c => (tells_of_ne (hl c)).symm⟩
    rw [hsame, List.map_nil, List.append_nil]
  · refine ⟨log ++ [(none, "[system]", text)], hlog.extend h hs hmore ?_ ?_ fun c =>
      (tells_of_ne (hl c)).symm⟩
    · intro line hmem
      cases List.mem_singleton.mp hmem
      rfl
    · intro c line hmem
      cases List.mem_singleton.mp hmem
  · refine ⟨log ++ [(some c, name, text)], hlog.extend h hs hmore ?_ ?_ fun d => ?_⟩
    · intro line hmem
      cases List.mem_singleton.mp hmem
    · intro d line hmem
      cases List.mem_singleton.mp hmem
      refine ⟨?_, id, hadm⟩
      by_contra hlow
      have hnone := (hs.wellFormed.fits c).reader.mpr (by omega)
      rw [hphase] at hnone
      cases hnone
    · by_cases hd : c = d
      · subst hd
        simp [saidBy, tells, hphase, Reader.untold]
      · simp [saidBy, tells, hd]

theorem ServerReachable.relayed (hs : ServerReachable X s) : ∃ log, Relayed X s log := by
  obtain ⟨now, hreach⟩ := hs
  have hall : ServerReachable X s ∧ ∃ log, Relayed X s log := by
    refine hreach.invariant (I := fun r => ServerReachable X r ∧ ∃ log, Relayed X r log)
      ⟨⟨now, .refl _⟩, [], rfl, nofun, nofun, fun c => ⟨[], ⟨fun _ => ⟨rfl, nofun⟩, nofun,
        List.nil_prefix⟩, rfl⟩⟩ ?_
    rintro l r r' ⟨⟨now, hr⟩, log, hlog⟩ hstep
    exact ⟨⟨now, hr.snoc hstep⟩, hstep.relayed ⟨now, hr⟩ hlog⟩
  exact hall.2

/-- **What the hub relays is accounted for.**  Every line on the broadcast channel is an
announcement of the owner of the `Hub`, or was said by a peer, under the name made of the
discriminator it has presented; and what a peer has said is a front part of what it has
framed, in its order, all of it where its reader waits for bytes that have not come. -/
theorem hub_relays_accounted (X : Crates) (s : Server) (hs : ServerReachable X s) :
    ∃ log : List (Option ConnId × String × String), said s.bcast = log.map Prod.snd ∧
      (∀ line, (none, line) ∈ log → line.1 = "[system]") ∧
      ∀ c, (∀ line, (some c, line) ∈ log → ∃ nonce discriminator : Bytes16,
          nonce.val ++ discriminator.val <+: (s.sock c).arrived ∧
            line.1 = peerName X discriminator) ∧
        saidBy c log <+: chatTexts (streamMessages X.json (s.payload c)) ∧
        ((∃ got deadline, (s.tasks c).reader = .reading got deadline) → (s.sock c).inbox = [] →
          saidBy c log = chatTexts (streamMessages X.json (s.payload c))) := by
  obtain ⟨log, hlog⟩ := hs.relayed
  refine ⟨log, hlog.lines, hlog.hub, fun c => ⟨fun line hmem => ?_, ?_, ?_⟩⟩
  · obtain ⟨-, id, hadm⟩ := hlog.peer c line hmem
    have hgranted := hs.granted c
    rw [show (s.shake.conns c).phase = _ from hadm] at hgranted
    obtain ⟨nonce, discriminator, hread, -, hname⟩ := hgranted
    exact ⟨nonce, discriminator, hread.trans (List.prefix_append _ _), hname⟩
  · obtain ⟨done, hreads, hsaid⟩ := hlog.conns c
    have hfront : saidBy c log <+: chatTexts done := ⟨_, hsaid⟩
    exact hfront.trans (hreads.front.filterMap _)
  · rintro ⟨got, deadline, hreader⟩ hinbox
    obtain ⟨done, hreads, hsaid⟩ := hlog.conns c
    obtain ⟨-, ⟨n, hneeds⟩, hconsumed⟩ := hreads.live (by rw [hreader]; trivial)
    rw [hinbox, List.append_nil] at hconsumed
    rw [streamMessages, hconsumed.messages_eq hneeds, ← hsaid, hreader]
    exact (List.append_nil _).symm

theorem hub_relays_accounted_echoed : said Server.echoed.bcast =
      [(peerName .standard (.fill 7), "hi")] ∧
    ∃ log : List (Option ConnId × String × String),
      said Server.echoed.bcast = log.map Prod.snd ∧
      (∀ line, (none, line) ∈ log → line.1 = "[system]") ∧
      ∀ c, (∀ line, (some c, line) ∈ log → ∃ nonce discriminator : Bytes16,
          nonce.val ++ discriminator.val <+: (Server.echoed.sock c).arrived ∧
            line.1 = peerName .standard discriminator) ∧
        saidBy c log <+: chatTexts (streamMessages SerdeJson.standard (Server.echoed.payload c)) ∧
        ((∃ got deadline, (Server.echoed.tasks c).reader = .reading got deadline) →
          (Server.echoed.sock c).inbox = [] → saidBy c log =
            chatTexts (streamMessages SerdeJson.standard (Server.echoed.payload c))) :=
  ⟨rfl, hub_relays_accounted .standard _ ⟨0, (run_greet.append run_echo).reachable⟩⟩

end Nullpipe.Hub

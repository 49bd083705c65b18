import Nullpipe.Joiner.Echo
import Nullpipe.Session.Meeting

/-!
# A talk

What happens behind a meeting: the host says something, and the joiner does.  Both runs are
put together from runs of the two parties, as the meeting is:

* `run_tell`: a text of the host goes through the broadcast channel, is written to the
  connection, crosses the stream and is shown by the reader of the joiner;
* `run_say`: a text of the joiner is written and shown to its user, crosses the stream, is
  read by the reader of the connection, goes through the message channel and is shown to the
  host.

Both start where nothing is under way (`Session.Idle`): each side waits for something to say
or to hear, has read all that was written, and its channels are empty.  They end in such a
state, so that one talk follows another; only the event streams fill up, since nobody takes
from them.  Two parties that have met are idle (`idle_met`).
-/

namespace Nullpipe

open Channel Room Framing Transition

variable {X : Crates} {cfg : HostConfig} {checks : Bool} {c : ConnId} {id : PeerId} {s : Room}
  {j : Joiner} {me : Guest} {text : String}

/-! ## Nothing under way -/

/-- The room waits for something to say or to hear on connection `c`. -/
structure Room.Idle (s : Room) (c : ConnId) (id : PeerId) : Prop where
  host : s.host = .select
  watched : ¬ s.ShutdownReady s.hostSeen
  texts : s.sendQ.queue = []
  textsOpen : s.sendQ.isOpen = true
  sendOpen : s.sendOpen = true
  msgs : s.msgs.queue = []
  msgsOpen : s.msgs.isOpen = true
  writer : (s.conns c).writer = .recv
  caughtUp : (s.conns c).cursor = s.bcast.length
  reader : ∃ deadline, (s.conns c).reader = .reading id [] deadline
  inbox : (s.conns c).sock.inbox = []
  stream : (s.conns c).sock.readEnd = none

/-- The joiner waits for something to say or to hear. -/
structure Joiner.Idle (j : Joiner) (me : Guest) : Prop where
  main : j.main = .select me
  shutdown : j.shutdown = false
  readerDone : j.readerDone = false
  sendOpen : j.sendOpen = true
  texts : j.messages.queue = []
  textsOpen : j.messages.isOpen = true
  reader : ∃ deadline, j.reader = .reading [] deadline
  inbox : j.sock.inbox = []
  stream : j.sock.readEnd = none

/-- Both wait, and each has read what the other one has written. -/
structure Session.Idle (s : Session) (c : ConnId) (id : PeerId) (me : Guest) : Prop where
  room : s.room.Idle c id
  joiner : s.joiner.Idle me
  heard : s.joiner.sock.read = (s.room.conns c).sock.written
  said : (s.room.conns c).sock.read = s.joiner.sock.written

theorem Session.Idle.toHub {s : Session} (h : s.Idle c id me) :
    (s.room.conns c).sock.arrived = s.joiner.sock.written := by
  rw [Socket.arrived, h.room.inbox, List.append_nil, h.said]

theorem Session.Idle.toJoiner {s : Session} (h : s.Idle c id me) :
    s.joiner.sock.arrived = (s.room.conns c).sock.written := by
  rw [Socket.arrived, h.joiner.inbox, List.append_nil, h.heard]

/-- Two parties that have met wait, if nothing was under way in the room. -/
theorem idle_met {now : ℕ} {config : JoinConfig} (hhost : s.host = .select)
    (hwatched : ¬ s.ShutdownReady s.hostSeen) (htexts : s.sendQ = .empty)
    (hsend : s.sendOpen = true) (hmsgs : s.msgs = .empty) :
    (Session.met X s c now config me).Idle c (peerId X me.discriminator) me := by
  have hsock := sock_welcomed X s c me
  have hroom : (s.welcomed X c me).Idle c (peerId X me.discriminator) := by
    constructor
    case inbox => rw [hsock]
    case stream => rw [hsock]
    all_goals
      simp only [Room.ShutdownReady, Room.welcomed, Room.admitted, Room.settled, Room.served,
        Room.announced, Room.registered, Room.greeted, conns_setConn_self, host_setConn,
        watchVersion_setConn, watchOpen_setConn, hostSeen_setConn, sendQ_setConn,
        sendOpen_setConn, msgs_setConn, bcast_setConn, htexts, hmsgs]
    · exact hhost
    · exact hwatched
    · rfl
    · rfl
    · exact hsend
    · rfl
    · rfl
    · exact ⟨_, rfl⟩
  have hjoiner : (Session.met X s c now config me).joiner.Idle me :=
    ⟨rfl, rfl, rfl, rfl, rfl, rfl, ⟨_, rfl⟩, rfl, rfl⟩
  exact ⟨hroom, hjoiner, (congrArg Socket.written hsock).symm, congrArg Socket.read hsock⟩

/-! ## A text of the host -/

/-- The steps from a text of the host to the event stream of the joiner. -/
def tellLabels (X : Crates) (cfg : HostConfig) (c : ConnId) (text : String) : List SessionLabel :=
  (textLabels cfg text ++ writeLabels X c (.chat cfg.name text)).map (Label.lift c) ++
    (heardLabels X (.chat cfg.name text)).map JoinerLabel.lift

/-- A session in which the host has said something. -/
def Session.told (X : Crates) (cfg : HostConfig) (s : Session) (c : ConnId) (text : String) :
    Session :=
  ⟨(s.room.told cfg text).passed X c (.chat cfg.name text),
    s.joiner.heard X (.chat cfg.name text)⟩

/-- **A text of the host reaches the joiner.** -/
theorem run_tell {s : Session} (hs : s.Idle c id me)
    (hroom : s.joiner.events.HasRoom eventChanCap) (hmsg : Encodes X.json (.chat cfg.name text)) :
    Run (SessionStep X cfg checks c) s (tellLabels X cfg c text) (s.told X cfg c text) := by
  obtain ⟨deadline, hreader⟩ := hs.joiner.reader
  have hcursor : ((s.room.told cfg text).conns c).cursor = s.room.bcast.length := hs.room.caughtUp
  have hlog : (s.room.told cfg text).bcast = s.room.bcast ++ [.chat cfg.name text] := rfl
  -- the host broadcasts the text, its writer writes it, and the joiner reads it
  have htext : RoomRun X cfg s.room (textLabels cfg text) (s.room.told cfg text) :=
    run_text hs.room.host hs.room.watched hs.room.texts hs.room.textsOpen hs.room.sendOpen
  have hwrite : RoomRun X cfg (s.room.told cfg text)
      (writeLabels X c (.chat cfg.name text)) (s.told X cfg c text).room := by
    refine run_write (c := c) hs.room.writer ?_ ?_ hmsg
    · rw [hcursor, hlog]
      exact List.getElem?_concat_length
    · rw [hcursor, hlog, List.length_append]
      exact Nat.add_le_add_left (show 1 ≤ broadcastChanCap by decide) _
  have htold : Run (SessionStep X cfg checks c) s
      ((textLabels cfg text ++ writeLabels X c (.chat cfg.name text)).map (Label.lift c))
      ⟨(s.told X cfg c text).room, s.joiner⟩ := by
    refine run_room (htext.append hwrite) ?_ ?_
    · simp [textLabels, writeLabels, Label.Lifts, Label.AtHub]
    · rw [Session.told, Room.passed, conns_setConn_self]
      exact hs.toHub ▸ List.prefix_refl _
  refine htold.append (run_joiner (run_heard_message hreader hs.joiner.inbox hs.joiner.stream
    hroom hmsg) ?_ ?_)
  · simpa [heardLabels, JoinerLabel.Lifts, JoinerLabel.AtJoiner] using frameBytes_ne_nil hmsg
  · have hread : (s.told X cfg c text).joiner.sock.arrived =
        s.joiner.sock.read ++ frameBytes X.json (.chat cfg.name text) := by
      rw [Session.told, Socket.arrived, Joiner.heard, hs.joiner.inbox, List.append_nil]
    rw [show s.joiner.heard X _ = (s.told X cfg c text).joiner from rfl, hread, hs.heard,
      Session.told, Room.passed, conns_setConn_self]
    exact List.prefix_refl _

/-- The talk leaves nothing under way. -/
theorem Session.Idle.told {s : Session} (hs : s.Idle c id me) (text : String) :
    (s.told X cfg c text).Idle c id me := by
  obtain ⟨hroom, hjoiner, hheard, hsaid⟩ := hs
  have hconn : (s.told X cfg c text).room.conns c =
      { s.room.conns c with
        cursor := (s.room.conns c).cursor + 1
        sock := ((s.room.conns c).sock.write (frameBytes X.json (.chat cfg.name text))).flush } :=
    conns_setConn_self ..
  have hcaught : (s.room.conns c).cursor + 1 = (s.told X cfg c text).room.bcast.length := by
    have hlog : (s.told X cfg c text).room.bcast = s.room.bcast ++ [.chat cfg.name text] := rfl
    rw [hroom.caughtUp, hlog, List.length_append, List.length_singleton]
  refine ⟨⟨hroom.host, hroom.watched, rfl, rfl, hroom.sendOpen, hroom.msgs, hroom.msgsOpen, ?_,
    ?_, ?_, ?_, ?_⟩, ⟨hjoiner.main, hjoiner.shutdown, hjoiner.readerDone, hjoiner.sendOpen,
    hjoiner.texts, hjoiner.textsOpen, ⟨_, rfl⟩, hjoiner.inbox, hjoiner.stream⟩, ?_, ?_⟩
  all_goals rw [hconn]
  · exact hroom.writer
  · exact hcaught
  · exact hroom.reader
  · exact hroom.inbox
  · exact hroom.stream
  · exact congrArg (· ++ frameBytes X.json (.chat cfg.name text)) hheard
  · exact hsaid

/-! ## A text of the joiner -/

/-- The steps from a text in the queue of the joiner to the event stream of the host. -/
def answerLabels (X : Crates) (c : ConnId) (id : PeerId) (me : Guest) (text : String) :
    List SessionLabel :=
  (sentLabels X me text ++ [JoinerLabel.main .echo]).map JoinerLabel.lift ++
    (deliverLabels X c id (.chat me.name text)).map (Label.lift c)

/-- A session in which the joiner has said something. -/
def Session.said (X : Crates) (s : Session) (c : ConnId) (id : PeerId) (me : Guest)
    (text : String) : Session :=
  ⟨s.room.delivered X c id (.chat me.name text),
    { tryEmit (s.joiner.sending X me text) (makeEvent X me text) with main := .select me }⟩

/-- **A text in the queue of the joiner reaches the host.** -/
theorem run_answer {s : Session} (hs : s.Idle c id me)
    (hmsg : Encodes X.json (.chat me.name text)) :
    Run (SessionStep X cfg checks c) ⟨s.room, s.joiner.told text⟩ (answerLabels X c id me text)
      (s.said X c id me text) := by
  obtain ⟨deadline, hreader⟩ := hs.room.reader
  -- the joiner writes and echoes the text, the room reads it and tells its host
  have hsent : Run (JoinerStep X checks) (s.joiner.told text) (sentLabels X me text)
      (s.joiner.sending X me text) :=
    run_sent hs.joiner.main hs.joiner.shutdown hs.joiner.readerDone hs.joiner.texts hmsg
  have hecho : JoinerStep X checks (.main .echo) (s.joiner.sending X me text)
      (s.said X c id me text).joiner := .main (.echo rfl)
  have hsaid : Run (SessionStep X cfg checks c) ⟨s.room, s.joiner.told text⟩
      ((sentLabels X me text ++ [JoinerLabel.main .echo]).map JoinerLabel.lift)
      ⟨s.room, (s.said X c id me text).joiner⟩ := by
    refine run_joiner (hsent.snoc hecho) ?_ ?_
    · simp [sentLabels, JoinerLabel.Lifts, JoinerLabel.AtJoiner]
    · rw [Session.said]
      simp only [sock_tryEmit]
      exact hs.toJoiner ▸ List.prefix_refl _
  have htake : RoomRun X cfg s.room (takeLabels X c id (.chat me.name text)) _ :=
    run_take hreader hs.room.inbox hs.room.stream hmsg MessageType.noConfusion hs.room.host
      hs.room.watched hs.room.texts hs.room.sendOpen hs.room.msgs hs.room.msgsOpen
  have hdeliver : RoomRun X cfg s.room (deliverLabels X c id (.chat me.name text))
      (s.said X c id me text).room := htake.snoc (step_deliver ..)
  refine hsaid.append (run_room hdeliver ?_ ?_)
  · simpa [deliverLabels, takeLabels, messageLabels, Label.Lifts, Label.AtHub]
      using frameBytes_ne_nil hmsg
  · have hread : ((s.room.delivered X c id (.chat me.name text)).conns c).sock.arrived =
        (s.room.conns c).sock.read ++ frameBytes X.json (.chat me.name text) := by
      rw [Room.delivered, Room.taken, conns_setConn_self, Socket.arrived, hs.room.inbox,
        List.append_nil]
    rw [hread, hs.said, Session.said]
    simp only [sock_tryEmit]
    exact List.prefix_refl _

/-- The same from the call of `send` on. -/
def sayLabels (X : Crates) (c : ConnId) (id : PeerId) (me : Guest) (text : String) :
    List SessionLabel :=
  .joiner (.user (.send text)) :: answerLabels X c id me text

/-- **A text of the joiner reaches the host.** -/
theorem run_say {s : Session} (hs : s.Idle c id me) (hmsg : Encodes X.json (.chat me.name text)) :
    Run (SessionStep X cfg checks c) s (sayLabels X c id me text) (s.said X c id me text) := by
  have hfree : s.joiner.messages.HasRoom sendChanCap :=
    ⟨hs.joiner.textsOpen, by rw [hs.joiner.texts]; decide⟩
  exact .cons (.joiner (step_send hs.joiner.sendOpen hfree) trivial) (run_answer hs hmsg)

/-! ### Ann and her host talk -/

theorem idle_annMet (token : String) :
    (Session.met .standard (Room.hosting ⟨"host", 300⟩) 0 0 ⟨"", token⟩ annGuest).Idle 0
      (peerId .standard (.fill 7)) annGuest :=
  idle_met rfl (by decide) rfl rfl rfl

/-- The steps by which the host says `hi` and ann answers `yo`. -/
def annTalkLabels : List SessionLabel :=
  tellLabels .standard ⟨"host", 300⟩ 0 "hi" ++
    sayLabels .standard 0 (peerId .standard (.fill 7)) annGuest "yo"

/-- Ann and her host when they have talked. -/
def Session.annTalked (token : String) : Session :=
  let met := Session.met .standard (Room.hosting ⟨"host", 300⟩) 0 0 ⟨"", token⟩ annGuest
  (met.told .standard ⟨"host", 300⟩ 0 "hi").said .standard 0 (peerId .standard (.fill 7)) annGuest
    "yo"

theorem run_annTalk (token : String) :
    Run (SessionStep .standard ⟨"host", 300⟩ true 0)
      (Session.met .standard (Room.hosting ⟨"host", 300⟩) 0 0 ⟨"", token⟩ annGuest)
      annTalkLabels (Session.annTalked token) :=
  (run_tell (idle_annMet token) ⟨rfl, show 2 < eventChanCap by decide⟩ (by decide)).append
    (run_say ((idle_annMet token).told "hi") (by decide))

end Nullpipe

import Nullpipe.Session.Protocol

/-!
# The work left in a session

`Session.work` counts what is still to be done: the bytes that are to be written, are
under way or wait to be read, the texts and messages in the queues, and the places the
tasks have yet to pass.  Every step of a task or of the transport
leaves less work behind (`SessionStep.work`), so a session whose users are silent comes
to rest.

The load of a room (`Room/Load.lean`) does not do here, since it takes what arrives for input,
and in a session it comes from the other side.  So bytes are counted on their whole way: a byte
counts for less the further it has come, and for more than the steps it may cause where it is
read.

* What is still to be written is known, since both sides keep to a script: a handler before its
  greeting owes the bytes of it, and a joiner the frame of its name.
* A text of the joiner weighs its frame and the places that the write loop passes for it
  (`Guest.textWork`), and a message on the channel the two steps of the host loop.

Users and clock may add work or are no progress, so they are left out (`SessionLabel.Works`);
`length_le_work` bounds the length of a run by the work at its start.
-/

namespace Nullpipe

open Channel Room Framing Transition

variable {X : Crates} {cfg : HostConfig} {checks : Bool} {c : ConnId} {me : Guest} {r r' : Room}
  {j j' : Joiner} {s t : Session} {before : Room} {base : List (PeerId × WireMessage)}
  {msgs : List WireMessage}

/-! ## The measure -/

/-- The places before a handler whose greeting has `g` bytes. -/
def Handler.work (g : ℕ) : Handler → ℕ
  | .idle => 4 * g + 17
  | .spawned => 4 * g + 16
  | .readHandshake .. => 4 * g + 15
  | .lockNonces .. => 4 * g + 14
  | .writeAccept _ rest _ => 4 * g + 9 + 4 * rest.length
  | .flushAccept .. => 4 * g + 8
  | .readName .. => 4 * g + 7
  | .register _ => 4 * g + 6
  | .emitJoin _ => 4 * g + 5
  | .notifyJoin _ rest => 4 * rest.length + 4
  | .spawnReader _ => 3
  | .subscribe _ => 1
  | _ => 0

def Reader.work : Reader → ℕ
  | .spawned _ => 1
  | .sending .. => 5
  | _ => 0

def HostLoop.work : HostLoop → ℕ
  | .deliver .. => 3
  | _ => 0

/-- What the room has to do for connection `c` and with the messages of its peers. -/
def Room.work (g : ℕ) (c : ConnId) (r : Room) : ℕ :=
  (r.conns c).handler.work g + (r.conns c).reader.work + r.host.work +
    4 * r.msgs.queue.length + 6 * (r.conns c).sock.inbox.length

/-- The places behind a write of a joiner whose name frame has `n` bytes. -/
def JoinWrite.work (n : ℕ) : JoinWrite → ℕ
  | .hello => 8 * n + 7
  | .name => 4
  | .text _ => 2

def JoinMain.work (n : ℕ) : JoinMain → ℕ
  | .writing _ what rest _ => 8 * rest.length + what.work n + 1
  | .flushing _ what _ => what.work n
  | .readReply .. => 8 * n + 6
  | .emitJoin _ => 3
  | .spawnReader _ => 2
  | .echo .. => 1
  | _ => 0

def JoinReader.work : JoinReader → ℕ
  | .spawned | .emitting _ => 1
  | _ => 0

/-- What a text of the joiner's user costs. -/
def Guest.textWork (X : Crates) (me : Guest) (text : String) : ℕ :=
  8 * (frameBytes X.json (.chat me.name text)).length + 4

/-- What the joiner has to do. -/
def Joiner.work (X : Crates) (me : Guest) (j : Joiner) : ℕ :=
  j.main.work (frameBytes X.json (.system me.name)).length + j.reader.work +
    (j.messages.queue.map (me.textWork X)).sum + 2 * j.sock.inbox.length

/-- The work left in a session: that of the two parties, and the bytes under way. -/
def Session.work (X : Crates) (c : ConnId) (me : Guest) (s : Session) : ℕ :=
  s.room.work (me.greeting X).length c + s.joiner.work X me +
    7 * (s.joiner.sock.written.length - (s.room.conns c).sock.arrived.length) +
    3 * ((s.room.conns c).sock.written.length - s.joiner.sock.arrived.length)

/-! ## The room -/

theorem length_inbox_take {k : Socket} {chunk : List UInt8} (h : k.CanTake chunk) :
    (k.take chunk).inbox.length + chunk.length = k.inbox.length := by
  have hsplit := congrArg List.length (Socket.inbox_take h)
  rw [List.length_append] at hsplit
  omega

theorem length_inbox_arrive (k : Socket) (chunk : List UInt8) :
    (k.arrive chunk).inbox.length = k.inbox.length + chunk.length := List.length_append

theorem length_pos_of_canTake {k : Socket} {chunk : List UInt8} (h : k.CanTake chunk) :
    0 < chunk.length := List.length_pos_of_ne_nil h.1

theorem work_handshakeRead (g : ℕ) (buf : List UInt8) (deadline : ℕ) :
    (handshakeRead buf deadline).work g ≤ 4 * g + 15 :=
  handshakeRead_cases (P := fun h => h.work g ≤ 4 * g + 15)
    (fun _ _ => Nat.add_le_add_left (by decide) _) (fun _ _ => Nat.le_refl _) ..

theorem work_nameRead (json : SerdeJson) (g : ℕ) (id : PeerId) (got : List UInt8)
    (deadline now : ℕ) : (nameRead json id got deadline now).work g ≤ 4 * g + 7 :=
  nameRead_cases (P := fun h => h.work g ≤ 4 * g + 7) (fun _ _ _ => Nat.le_refl _)
    (fun _ => Nat.zero_le _) (fun _ => Nat.add_le_add_left (by decide) _) ..

/-- Behind the join event there is at most the greeting to write. -/
theorem work_afterEmitJoin {json : SerdeJson} {info : PeerInfo} {written : List UInt8}
    (hcourse : (afterEmitJoin json info).OnCourse X me written) :
    (afterEmitJoin json info).work (me.greeting X).length ≤ 4 * (me.greeting X).length + 4 := by
  unfold afterEmitJoin at hcourse ⊢
  split at hcourse
  · have hwritten := congrArg List.length hcourse.2
    rw [List.length_append] at hwritten
    dsimp only [Handler.work]
    omega
  · dsimp only [Handler.work]
    omega

/-- A handler on its course gets on. -/
theorem HandlerStep.work {l : HandlerLabel} (h : HandlerStep X c l r r')
    (hs : (r.conns c).handler.OnCourse X me (r.conns c).sock.written)
    (ht : (r'.conns c).handler.OnCourse X me (r'.conns c).sock.written) :
    r'.work (me.greeting X).length c + 3 * (r'.conns c).sock.written.length <
      r.work (me.greeting X).length c + 3 * (r.conns c).sock.written.length := by
  cases h with
  -- these places are off the course
  | rejectFail hphase | writeReject hphase | abortWriter hphase | deregister hphase
  | emitLeave hphase =>
      rw [hphase] at hs
      cases hs
  -- and these steps lead off it
  | refuseNonce | readerDone | shutdown | handshakeReadFail | handshakeReadTimeout | acceptFail
  | acceptTimeout | flushFail | flushTimeout | nameReadFail | nameReadTimeout =>
      simp only [conns_setConn_self] at ht
      cases ht
  | start hphase | flushAccept hphase | register hphase | subscribe hphase =>
      simp only [Room.work, conns_setConn_self, host_setConn, msgs_setConn, hphase, Handler.work,
        Socket.inbox_flush, Socket.written_flush]
      omega
  | insertNonce hphase =>
      simp only [Room.work, conns_setConn_self, host_setConn, msgs_setConn, hphase, Handler.work,
        List.length_singleton]
      omega
  | @readHandshake _ buf chunk deadline hphase htake =>
      have hinbox := length_inbox_take htake
      have hpos := length_pos_of_canTake htake
      have hnext := work_handshakeRead (me.greeting X).length (buf ++ chunk) deadline
      have hplace : (r.conns c).handler.work (me.greeting X).length =
          4 * (me.greeting X).length + 15 := by
        rw [hphase]
        rfl
      simp only [Room.work, conns_setConn_self, host_setConn, msgs_setConn, Socket.written_take]
      omega
  | @readName _ id got chunk deadline _ hphase htake =>
      have hinbox := length_inbox_take htake
      have hpos := length_pos_of_canTake htake
      have hnext := work_nameRead X.json (me.greeting X).length id (got ++ chunk) deadline r.now
      have hplace : (r.conns c).handler.work (me.greeting X).length =
          4 * (me.greeting X).length + 7 := by
        rw [hphase]
        rfl
      simp only [Room.work, conns_setConn_self, host_setConn, msgs_setConn, Socket.written_take]
      omega
  | @writeAccept _ _ chunk rest _ hphase hchunk =>
      have hpos := List.length_pos_of_ne_nil hchunk
      by_cases hrest : rest = []
      · simp only [Room.work, conns_setConn_self, host_setConn, msgs_setConn, hphase,
          if_pos hrest, Handler.work, Socket.written_write, Socket.inbox_write, List.length_append]
        omega
      · simp only [Room.work, conns_setConn_self, host_setConn, msgs_setConn, hphase,
          if_neg hrest, Handler.work, Socket.written_write, Socket.inbox_write, List.length_append]
        omega
  | @writeNotice _ _ chunk rest hphase hchunk =>
      have hpos := List.length_pos_of_ne_nil hchunk
      by_cases hrest : rest = []
      · simp only [Room.work, conns_setConn_self, host_setConn, msgs_setConn, hphase,
          if_pos hrest, Handler.work, Socket.written_write, Socket.inbox_write, List.length_append]
        omega
      · simp only [Room.work, conns_setConn_self, host_setConn, msgs_setConn, hphase,
          if_neg hrest, Handler.work, Socket.written_write, Socket.inbox_write, List.length_append]
        omega
  | emitJoin hphase =>
      simp only [conns_setConn_self] at ht
      have hnext := work_afterEmitJoin ht
      have hplace : (r.conns c).handler.work (me.greeting X).length =
          4 * (me.greeting X).length + 5 := by
        rw [hphase]
        rfl
      simp only [Room.work, conns_setConn_self, host_setConn, msgs_setConn]
      omega
  | noticeFail hphase =>
      simp only [Room.work, conns_setConn_self, host_setConn, msgs_setConn, hphase, Handler.work]
      omega
  | spawnReader hphase =>
      simp only [Room.work, conns_setConn_self, host_setConn, msgs_setConn, hphase, Handler.work,
        Reader.work]
      omega

/-- A reader gets on: each step but the first takes bytes or hands a message on. -/
theorem ReaderStep.work {l : ReaderLabel} (h : ReaderStep X c l r r') (hl : l.Healthy) (g : ℕ)
    (hopen : r.msgs.isOpen = true) (haborted : (r.conns c).readerAborted = false) :
    r'.work g c < r.work g c := by
  cases h with
  | readFail | readTimeout => cases hl
  | cancel habort =>
      rw [haborted] at habort
      cases habort
  | sendClosed _ hclosed =>
      rw [hopen] at hclosed
      cases hclosed
  | start hphase =>
      simp only [Room.work, conns_setConn_self, host_setConn, msgs_setConn, hphase, Reader.work]
      omega
  | read hphase htake | message hphase htake | ping hphase htake | badFrame hphase htake
  | badMessage hphase htake =>
      have hinbox := length_inbox_take htake
      have hpos := length_pos_of_canTake htake
      simp only [Room.work, conns_setConn_self, host_setConn, msgs_setConn, hphase, Reader.work]
      omega
  | send hphase =>
      simp only [Room.work, conns_setConn_self, host_setConn, hphase, Reader.work, Mpsc.push,
        List.length_append, List.length_singleton]
      omega

/-- The host loop of a room in service gets on. -/
theorem HostStep.work {l : HostLabel} (h : HostStep cfg l r r') (hsig : Signals r)
    (hs : r.InService) (g : ℕ) (c : ConnId) : r'.work g c < r.work g c := by
  obtain ⟨id, msg, rest, hphase, hqueue, rfl⟩ | ⟨id, msg, hphase, rfl⟩ := h.service_cases hsig hs
  · simp only [Room.work, hphase, HostLoop.work, Mpsc.pop_of_queue hqueue, hqueue,
      List.length_cons]
    omega
  · simp only [Room.work, hphase, HostLoop.work]
    omega

/-! ## The joiner -/

/-- The main task of a joiner on its course gets on. -/
theorem JoinMainStep.work {l : JoinMainLabel} (h : JoinMainStep X checks l j j')
    (hl : (JoinerLabel.main l).Quiet X me) (hname : Encodes X.json (.system me.name))
    (hs : GuestSide X me j) :
    j'.work X me + 7 * j'.sock.written.length < j.work X me + 7 * j.sock.written.length := by
  have hcourse := hs.course
  have hspoken := hs.spoken
  have hfits := hs.takesFitting h
  have hnext := (h.course hl hname hs).1
  rw [Joiner.Spoken] at hspoken
  cases h with
  | writeFail | writeTimeout | flushFail | flushTimeout => exact absurd trivial hl.1
  | replyTimeout => exact absurd rfl hl.2
  | replyFail | shutdown | readerDone | inputClosed | eventsClosed => cases hnext
  | @write _ _ what chunk rest _ hphase hchunk =>
      have hpos := List.length_pos_of_ne_nil hchunk
      by_cases hrest : rest = []
      · simp only [Joiner.work, hphase, if_pos hrest, JoinMain.work, Socket.written_write,
          Socket.inbox_write, List.length_append]
        omega
      · simp only [Joiner.work, hphase, if_neg hrest, JoinMain.work, Socket.written_write,
          Socket.inbox_write, List.length_append]
        omega
  | @flush _ _ what _ hphase =>
      cases what <;>
      · simp only [Joiner.work, hphase, JoinMain.work, JoinWrite.work, afterFlush,
          Socket.written_flush, Socket.inbox_flush]
        omega
  | reply hphase htake =>
      have hinbox := length_inbox_take htake
      -- the reply is the accept byte, so the joiner goes on to its name
      have hbyte := hs.reply_eq hphase htake
      rw [hphase] at hspoken
      obtain ⟨rfl, -, -⟩ := hspoken
      subst hbyte
      simp only [Joiner.work, hphase, afterReply_of_encodes hname, JoinMain.work, JoinWrite.work,
        Socket.written_take, List.length_singleton] at hinbox ⊢
      omega
  | emitJoin hphase =>
      simp only [Joiner.work, hphase, JoinMain.work]
      omega
  | spawnReader hphase =>
      simp only [Joiner.work, hphase, JoinMain.work, JoinReader.work]
      omega
  | takeText hphase _ _ hqueue =>
      have htext := hfits _ _ rfl hphase
      rw [hphase] at hspoken
      obtain ⟨rfl, -, -⟩ := hspoken
      simp only [Joiner.work, hphase, afterText, htext.encodeMessage, JoinMain.work, JoinWrite.work,
        Mpsc.pop_of_queue hqueue, hqueue, List.map_cons, List.sum_cons, Guest.textWork]
      omega
  | echo hphase =>
      unfold tryEmit
      split <;>
      · simp only [Joiner.work, hphase, JoinMain.work]
        omega
  | decode hphase | connected hphase | connectFailed hphase | drainText hphase | drained hphase
  | flushEvent hphase | flushed hphase | abortReader hphase | awaitReader hphase
  | emitError hphase | emitClosed hphase | sendError hphase | sendErrorClosed hphase =>
      rw [hphase] at hcourse
      cases hcourse

theorem JoinReaderStep.work {l : JoinReaderLabel} (h : JoinReaderStep X l j j')
    (hl : l ≠ .readTimeout) (hs : GuestSide X me j) : j'.work X me < j.work X me := by
  cases h with
  | start hphase | emit hphase | emitClosed hphase =>
      simp only [Joiner.work, hphase, JoinReader.work]
      omega
  | read hphase htake | message hphase htake | skip hphase htake | malformed hphase htake =>
      have hinbox := length_inbox_take htake
      have hpos := length_pos_of_canTake htake
      simp only [Joiner.work, hphase, JoinReader.work]
      omega
  | readFail _ hend =>
      have hclosed := hend.2
      rw [hs.stays.stream] at hclosed
      cases hclosed
  | readTimeout => exact absurd rfl hl
  | done hphase => exact absurd hphase hs.stays.live.1
  | cancel haborted =>
      rw [hs.stays.spared] at haborted
      cases haborted

/-! ## The session -/

/-- The steps that carry a session on, as opposed to those of its users and of the
clock. -/
def SessionLabel.Works : SessionLabel → Prop
  | .room (.accept _) | .room (.handler ..) | .room (.reader ..) | .room (.host _)
  | .joiner (.main _) | .joiner (.reader _) | .toHub _ | .toJoiner _ => True
  | _ => False

/-- The steps of an undisturbed session that are no user's. -/
abbrev WorkStep (X : Crates) (cfg : HostConfig) (checks : Bool) (c : ConnId) (me : Guest)
    (l : SessionLabel) (s t : Session) : Prop :=
  SessionStep X cfg checks c l s t ∧ l.Quiet X c me ∧ l.Works

/-- No text is added. -/
theorem WorkStep.sent {l : SessionLabel} (h : WorkStep X cfg checks c me l s t) :
    t.joiner.messages.sent = s.joiner.messages.sent := by
  obtain ⟨hstep, -, hworks⟩ := h
  cases hstep with
  | room | toHub | tick => rfl
  | hubEnd | joinerEnd => cases hworks
  | joiner h =>
      cases h with
      | main h => exact h.sent
      | reader h => cases h <;> rfl
      | user | net | finish | tick => cases hworks
  | toJoiner _ _ h =>
      cases h with
      | net => rfl

/-- The room gets on, whatever its task. -/
theorem Step.work {l : Label} (h : Step X cfg l r r') (hl : l.Quiet c)
    (hworks : (SessionLabel.room l).Works) (hs : HubSide X cfg c me base msgs r)
    (ht : HubSide X cfg c me base msgs r') :
    r'.work (me.greeting X).length c + 3 * (r'.conns c).sock.written.length <
      r.work (me.greeting X).length c + 3 * (r.conns c).sock.written.length := by
  have hcourse := ht.course
  cases h with
  | user | net | tick => cases hworks
  | writer => cases hl
  | host h =>
      have hless := h.work hs.reach.signals hs.service (me.greeting X).length c
      rw [h.conns]
      omega
  | accept h =>
      cases hl
      cases h with
      | accept _ _ hidle =>
          simp only [Room.work, conns_setConn_self, host_setConn, msgs_setConn, hidle, Handler.work]
          omega
  | handler h =>
      obtain ⟨rfl, -⟩ := hl
      exact h.work hs.course hcourse
  | reader h =>
      obtain ⟨rfl, hl⟩ := hl
      -- a reader writes nothing
      have hless := h.work hl (me.greeting X).length hs.msgs_open hs.not_aborted
      rw [h.frame.2.2.2.2.2.2]
      omega

theorem JoinerStep.work {l : JoinerLabel} (h : JoinerStep X checks l j j') (hl : l.Quiet X me)
    (hworks : (SessionLabel.joiner l).Works) (hname : Encodes X.json (.system me.name))
    (hs : GuestSide X me j) :
    j'.work X me + 7 * j'.sock.written.length < j.work X me + 7 * j.sock.written.length := by
  cases h with
  | main h => exact h.work hl hname hs
  | reader h =>
      have hstep : JoinerStep X checks _ j j' := .reader h
      have hless := h.work hl hs
      rw [(hstep.main_frame (by simp)).2.2]
      omega
  | user | net | finish | tick => cases hworks

/-- **Every step of a task or of the transport leaves less to do.** -/
theorem SessionStep.work {l : SessionLabel} (h : SessionStep X cfg checks c l s t)
    (hl : l.Quiet X c me) (hworks : l.Works) (hname : Encodes X.json (.system me.name))
    (hs : InSession X cfg c me before s) : t.work X c me < s.work X c me := by
  have ht := h.inSession hl hname hs
  have hhubLe := hs.toHub.length_le
  have hjoinerLe := hs.toJoiner.length_le
  cases h with
  | @room l _ r h hhub =>
      have hsame : (r.conns c).sock.arrived = (s.room.conns c).sock.arrived := by
        refine h.arrived ?_
        rintro chunk rfl
        cases hworks
      -- of the four units of a byte the hub writes, three are left for its way
      have hless := h.work hl hworks hs.hub ht.hub
      have hle := (h.written_prefix (c := c)).length_le
      simp only [Session.work, hsame]
      omega
  | @joiner l _ j h hhub =>
      have hsame : j.sock.arrived = s.joiner.sock.arrived := by
        refine h.arrived ?_
        rintro chunk rfl
        cases hworks
      have hless := h.work hl hworks hname hs.guest
      have hle := h.written_prefix.length_le
      simp only [Session.work, hsame]
      omega
  | @toHub chunk _ r hchunk hnext h =>
      have hpos := List.length_pos_of_ne_nil hchunk
      have hle := hnext.length_le
      cases h with
      | arrive =>
          rw [List.length_append] at hle
          simp only [Session.work, Room.work, conns_setConn_self, host_setConn, msgs_setConn,
            Socket.arrived_arrive, Socket.written_arrive, length_inbox_arrive, List.length_append]
          omega
  | @toJoiner chunk _ j hchunk hnext h =>
      have hpos := List.length_pos_of_ne_nil hchunk
      have hle := hnext.length_le
      cases h with
      | net =>
          rw [List.length_append] at hle
          simp only [Session.work, Joiner.work, Socket.arrived_arrive, Socket.written_arrive,
            length_inbox_arrive, List.length_append]
          omega
  | hubEnd | joinerEnd | tick => cases hworks

/-- **A session whose users are silent comes to rest**: as many steps as there is work
left, and no more. -/
theorem length_le_work {ls : List SessionLabel} (hname : Encodes X.json (.system me.name))
    (hs : InSession X cfg c me before s)
    (hrun : Run (WorkStep X cfg checks c me) s ls t) :
    ls.length + t.work X c me ≤ s.work X c me := by
  have hall : InSession X cfg c me before t ∧ ls.length + t.work X c me ≤ s.work X c me := by
    induction hrun with
    | nil => exact ⟨hs, Nat.le_of_eq (Nat.zero_add _)⟩
    | snoc _ hstep ih =>
        obtain ⟨hsession, hle⟩ := ih
        obtain ⟨hstep, hquiet, hworks⟩ := hstep
        have hless := hstep.work hquiet hworks hname hsession
        refine ⟨hstep.inSession hquiet hname hsession, ?_⟩
        rw [List.length_append, List.length_singleton]
        omega
  exact hall.2

end Nullpipe

import Nullpipe.Room.Buffered
import Nullpipe.Hub.Announce

/-!
# What a stream of `hub.rs` holds back

`Room/Buffered.lean` for the other hub.  Its handshake flushes the accept byte and neither
of its two reject bytes, and its `writer_task` flushes nothing at all.

The argument is the same, with invariants of its own.

* `Phase.Pushed`: a handshake that has not replied has written and flushed nothing; one that is
  granted has written one byte and flushed it.
* `Server.PushedAt`: behind that nothing is flushed any more, and up to the start of the writer
  nothing more is written.

So bytes are left behind in two places (`unstrandedAt_iff`): at the end of a failed handshake
whose reply was written, and where a writer waits behind more than the accept byte.
`OwnStep.unstranded_iff` and `PhaseStep.unstranded_iff` say which steps lead there, and
`Server.Flushes` excludes those: every write of a reject byte, every frame that is written to
its end, and every flush that fails.

`nothing_stranded_iff` has both hubs, and `bytes_stranded` a run of each.
-/

namespace Nullpipe.Hub

open Channel Transition Server

variable {X : Crates} {s t : Server} {c : ConnId}

/-! ## Bytes that are left behind -/

/-- The handshake has sent its reply. -/
def Phase.Replied : Phase → Prop
  | .admitted .. | .failed _ => True
  | _ => False

/-- No byte of a connection is left behind.  The reply is the first byte of the stream, and
an admitted peer is read from at once. -/
structure Server.UnstrandedAt (s : Server) (c : ConnId) : Prop where
  reply : (s.shake.conns c).phase.Replied → (s.sock c).written ≠ [] → 0 < (s.sock c).flushed
  handshake : ∀ buf deadline, (s.shake.conns c).phase = .reading buf deadline →
    (s.sock c).buffered = []
  writer : (s.tasks c).conn = .select → (s.sock c).buffered = []

def Server.Unstranded (s : Server) : Prop := ∀ c, s.UnstrandedAt c

/-- The handshake writes a reject byte. -/
def Phase.Rejects : Phase → Prop
  | .rejectEof _ | .rejectReused _ => True
  | _ => False

/-- The step leaves no byte behind: it writes no reject byte, no handshake fails to flush, no
frame is written to its end, and no write fails behind the first byte of a frame. -/
def Server.Flushes (s : Server) : ServerLabel → Prop
  | .shake c (.write _) => ¬ (s.shake.conns c).phase.Rejects
  | .shake _ (.flushFail _) | .shake _ .flushTimeout => False
  | .writer c (.write chunk) => ∀ deadline, (s.tasks c).conn ≠ .writing chunk deadline
  | .writer c .writeFail => (s.sock c).written.length = 1
  | _ => True

/-! ## How much was written and flushed -/

/-- What the phase of a handshake says about its stream.  Behind the flush of the accept
byte nothing is flushed. -/
def Phase.Pushed (k : Socket) : Phase → Prop
  | .idle | .reading .. | .lockNonces .. => k.written = [] ∧ k.flushed = 0
  | .rejectEof rest | .rejectReused rest => k.written = [] ∧ k.flushed = 0 ∧ rest = [1]
  | .writeAccept _ rest _ => k.written = [] ∧ k.flushed = 0 ∧ rest = [0]
  | .flushAccept .. => k.written = [0] ∧ k.flushed = 0
  | .admitted .. => k.written ≠ [] ∧ k.flushed = 1
  | .failed _ => True

/-- Up to the start of the writer only the accept byte was written. -/
structure Server.PushedAt (s : Server) (c : ConnId) : Prop where
  phase : (s.shake.conns c).phase.Pushed (s.sock c)
  accepted : (s.tasks c).conn.stage ≤ 4 → (∃ id name, s.Admitted c id name) →
    (s.sock c).written.length = 1

theorem pushed_afterRead {k : Socket} (buf : List UInt8) (now : ℕ) (hwritten : k.written = [])
    (hflushed : k.flushed = 0) : (afterRead buf now).Pushed k := by
  unfold afterRead
  split <;> exact ⟨hwritten, hflushed⟩

/-- The first chunk of a reply is all of it. -/
theorem chunk_of_reply {byte : UInt8} {chunk rest : List UInt8} (hchunk : chunk ≠ [])
    (hreply : chunk ++ rest = [byte]) : chunk = [byte] ∧ rest = [] := by
  cases chunk with
  | nil => exact absurd rfl hchunk
  | cons b more =>
      rw [List.cons_append, List.cons.injEq, List.append_eq_nil_iff] at hreply
      obtain ⟨rfl, rfl, rfl⟩ := hreply
      exact ⟨rfl, rfl⟩

theorem PhaseStep.pushed {l : PhaseLabel} {s t : HubState} (h : PhaseStep X c l s t)
    (huse : ∀ r w, l ≠ .use r w) (hs : (s.conns c).phase.Pushed (s.conns c).sock) :
    (t.conns c).phase.Pushed (t.conns c).sock ∧
      ((∃ id name, (t.conns c).phase = .admitted id name) →
        (t.conns c).sock.written.length = 1) := by
  cases h with
  | start hphase =>
      rw [hphase] at hs
      simp only [HubState.conns_setConn_self]
      exact ⟨hs, by simp⟩
  | read hphase =>
      rw [hphase] at hs
      simp only [HubState.conns_setConn_self]
      refine ⟨pushed_afterRead _ _ hs.1 hs.2, ?_⟩
      rintro ⟨id, name, hadm⟩
      unfold afterRead at hadm
      split at hadm <;> cases hadm
  | readEof hphase | insertNonce hphase | refuseNonce hphase =>
      rw [hphase] at hs
      simp only [HubState.conns_setConn_self]
      exact ⟨⟨hs.1, hs.2, rfl⟩, by simp⟩
  | readFail | readTimeout | eofFail | rejectFail | acceptFail | acceptTimeout | flushFail
  | flushTimeout =>
      simp only [HubState.conns_setConn_self]
      exact ⟨trivial, by simp⟩
  | writeEof hphase hchunk | writeReject hphase hchunk =>
      rw [hphase] at hs
      -- a rejection is written and not flushed, and then nothing is said of the stream
      obtain ⟨-, rfl⟩ := chunk_of_reply hchunk hs.2.2
      simp only [HubState.conns_setConn_self, if_true]
      exact ⟨trivial, by simp⟩
  | writeAccept hphase hchunk =>
      rw [hphase] at hs
      obtain ⟨rfl, rfl⟩ := chunk_of_reply hchunk hs.2.2
      simp only [HubState.conns_setConn_self, if_true]
      refine ⟨⟨?_, hs.2.1⟩, by simp⟩
      rw [Socket.written_write, hs.1]
      rfl
  | flushAccept hphase =>
      rw [hphase] at hs
      simp only [HubState.conns_setConn_self]
      -- the accept byte is the one byte written, and it is flushed
      refine ⟨⟨?_, ?_⟩, fun _ => ?_⟩
      · rw [Socket.written_flush, hs.1]
        exact List.cons_ne_nil _ _
      · rw [Socket.flushed_flush, hs.1]
        rfl
      · rw [Socket.written_flush, hs.1]
        rfl
  | use => exact absurd rfl (huse _ _)

theorem Phase.Pushed.congr {phase : Phase} {k k' : Socket} (h : phase.Pushed k)
    (hwritten : k'.written = k.written) (hflushed : k'.flushed = k.flushed) : phase.Pushed k' := by
  cases phase with
  | failed => trivial
  | _ =>
      unfold Phase.Pushed at h ⊢
      rw [hwritten, hflushed]
      exact h

/-- A step that leaves the phase and what was written and flushed. -/
theorem Server.PushedAt.keep (h : s.PushedAt c)
    (hphase : (t.shake.conns c).phase = (s.shake.conns c).phase)
    (hwritten : (t.sock c).written = (s.sock c).written)
    (hflushed : (t.sock c).flushed = (s.sock c).flushed)
    (hstage : (t.tasks c).conn.stage ≤ 4 → (s.tasks c).conn.stage ≤ 4) : t.PushedAt c := by
  refine ⟨?_, fun hlow hadm => ?_⟩
  · rw [hphase]
    exact h.phase.congr hwritten hflushed
  · rw [hwritten]
    unfold Admitted at hadm
    rw [hphase] at hadm
    exact h.accepted (hstage hlow) hadm

/-- The peer of a writer was admitted, and its stream has flushed one byte. -/
theorem Server.PushedAt.admitted (h : s.PushedAt c) (hs : s.WellFormed)
    (hstage : 2 ≤ (s.tasks c).conn.stage) :
    (∃ id name, s.Admitted c id name) ∧ (s.sock c).written ≠ [] ∧ (s.sock c).flushed = 1 := by
  obtain ⟨id, name, hadm⟩ := (hs.fits c).admitted hstage
  have hphase := h.phase
  rw [hadm] at hphase
  exact ⟨⟨id, name, hadm⟩, hphase⟩

/-- A reader touches the incoming side of the stream and its own task. -/
theorem ReaderStep.frame {l : ReaderLabel} (h : ReaderStep X c l s t) :
    (t.shake.conns c).phase = (s.shake.conns c).phase ∧
      (t.sock c).written = (s.sock c).written ∧ (t.sock c).flushed = (s.sock c).flushed ∧
      (t.tasks c).conn = (s.tasks c).conn := by
  cases h with
  | read | message | ping | badFrame | badMessage => simp
  | start | readFail | readTimeout | pong | send | sendClosed | relay =>
      exact ⟨rfl, rfl, rfl, by simp⟩

theorem OwnStep.pushed {l : ServerLabel} (h : OwnStep X c l s t) (hwell : s.WellFormed)
    (hs : s.PushedAt c) : t.PushedAt c := by
  cases h with
  | accept _ _ hidle =>
      refine hs.keep rfl rfl rfl fun _ => ?_
      rw [hidle]
      exact Nat.zero_le _
  | shake hphase huse h =>
      obtain ⟨hpushed, hlen⟩ := h.pushed huse hs.phase
      exact ⟨hpushed, fun _ hadm => hlen hadm⟩
  | conn h =>
      cases h with
      | register hphase | announceJoin hphase | spawnReader hphase | subscribe hphase
      | deregister hphase | sendLeft hphase | sendLeftClosed hphase | broadcastLeave hphase =>
          refine hs.keep rfl rfl rfl fun hlow => ?_
          simp only [tasks_setTasks_self, ConnTask.stage] at hlow
          first
            | omega
            | simp [hphase, ConnTask.stage]
  | reader h =>
      obtain ⟨hphase, hwritten, hflushed, hconn⟩ := h.frame
      exact hs.keep hphase hwritten hflushed (by rw [hconn]; exact id)
  | writer h =>
      cases h with
      | @write _ chunk _ _ hphase =>
          -- the writer comes behind the handshake, which has flushed its byte
          obtain ⟨⟨id, name, hadm⟩, hwritten, hflushed⟩ :=
            hs.admitted hwell (by rw [hphase]; simp [ConnTask.stage])
          refine ⟨?_, fun hlow => ?_⟩
          · simp only [shake_setTasks, phase_setSock, sock_setTasks, sock_setSock_self]
            rw [hadm]
            exact ⟨by simp [hwritten], hflushed⟩
          · rw [tasks_setTasks_self] at hlow
            dsimp only at hlow
            split at hlow <;> simp [ConnTask.stage] at hlow
      | takeEvent =>
          refine hs.keep rfl rfl rfl fun hlow => ?_
          rw [tasks_setTasks_self, stage_afterEvent] at hlow
          omega
      | lagged => exact hs.keep rfl rfl rfl (by rw [tasks_setTasks_self]; exact id)
      | takeFrame | rxClosed | broadcastClosed | writeFail | writeTimeout =>
          refine hs.keep rfl rfl rfl fun hlow => ?_
          simp [ConnTask.stage] at hlow
  | arrive | finish =>
      refine hs.keep (phase_setSock ..) ?_ ?_ id
      · rw [sock_setSock_self]
        rfl
      · rw [sock_setSock_self]
        rfl

/-- What the tasks of every connection say about its stream. -/
structure Server.Accounted (s : Server) : Prop where
  wellFormed : s.WellFormed
  pushed : ∀ c, s.PushedAt c

theorem accounted_init (now : ℕ) : (Server.init now).Accounted :=
  ⟨wellFormed_init now, fun _ => ⟨⟨rfl, rfl⟩, fun _ ⟨_, _, hadm⟩ => by cases hadm⟩⟩

theorem ServerStep.accounted {l : ServerLabel} (h : ServerStep X l s t) (hs : s.Accounted) :
    t.Accounted := by
  refine ⟨h.wellFormed hs.wellFormed, fun c => ?_⟩
  by_cases hl : l.of = some c
  · exact (h.own hl).pushed hs.wellFormed (hs.pushed c)
  · obtain ⟨htold, hconn⟩ := h.frame hl
    refine (hs.pushed c).keep (by rw [hconn]) (by rw [sock, hconn]; rfl)
      (by rw [sock, hconn]; rfl) ?_
    rw [htold.conn]
    exact id

/-! ## One step -/

/-- Bytes can be left behind at the end of a failed handshake, and where the writer waits
behind more than the accept byte. -/
theorem unstrandedAt_iff (hwell : s.WellFormed) (hs : s.PushedAt c) :
    s.UnstrandedAt c ↔
      ((∃ e, (s.shake.conns c).phase = .failed e) → (s.sock c).written ≠ [] →
        0 < (s.sock c).flushed) ∧
      ((s.tasks c).conn = .select → (s.sock c).written.length = 1) := by
  have hwriter : (s.tasks c).conn = .select →
      ((s.sock c).buffered = [] ↔ (s.sock c).written.length = 1) := by
    intro hselect
    obtain ⟨-, hwritten, hflushed⟩ := hs.admitted hwell (by rw [hselect]; simp [ConnTask.stage])
    have hpos := List.length_pos_iff.mpr hwritten
    rw [Socket.buffered_eq_nil, hflushed]
    omega
  constructor
  · rintro ⟨hreply, -, hselect⟩
    refine ⟨fun hfailed => ?_, fun heq => (hwriter heq).mp (hselect heq)⟩
    obtain ⟨e, he⟩ := hfailed
    exact hreply (he ▸ trivial)
  · rintro ⟨hfailed, hselect⟩
    have hphase := hs.phase
    refine ⟨fun hreplied => ?_, fun buf deadline hreading => ?_,
      fun heq => (hwriter heq).mpr (hselect heq)⟩
    · cases hk : (s.shake.conns c).phase with
      | failed e => exact hfailed ⟨e, hk⟩
      | admitted =>
          rw [hk] at hphase
          intro _
          rw [hphase.2]
          exact Nat.zero_lt_one
      | _ =>
          rw [hk] at hreplied
          cases hreplied
    · rw [hreading] at hphase
      rw [Socket.buffered_eq_nil, hphase.1]
      exact Nat.zero_le _

theorem PhaseStep.unstranded_iff {l : PhaseLabel} {k : HubState} (h : PhaseStep X c l s.shake k)
    (hs : (s.shake.conns c).phase.Pushed (s.sock c)) :
    ((∃ e, (k.conns c).phase = .failed e) → (k.conns c).sock.written ≠ [] →
      0 < (k.conns c).sock.flushed) ↔ s.Flushes (.shake c l) := by
  unfold sock at hs
  cases h with
  | start | readEof | insertNonce | refuseNonce | flushAccept =>
      simp [Server.Flushes]
  | read hphase =>
      refine iff_of_true ?_ trivial
      simp only [HubState.conns_setConn_self]
      rintro ⟨e, he⟩
      unfold afterRead at he
      split at he <;> cases he
  | readFail hphase | readTimeout hphase | eofFail hphase | rejectFail hphase | acceptFail hphase
  | acceptTimeout hphase =>
      rw [hphase] at hs
      refine iff_of_true (fun _ hne => absurd ?_ hne) trivial
      simp only [HubState.conns_setConn_self]
      exact hs.1
  | writeEof hphase hchunk | writeReject hphase hchunk =>
      rw [hphase] at hs
      -- the connection fails behind a rejection that was not flushed
      obtain ⟨rfl, rfl⟩ := chunk_of_reply hchunk hs.2.2
      refine iff_of_false (fun hleft => ?_) (fun hnot => hnot (by rw [hphase]; trivial))
      simp only [HubState.conns_setConn_self, if_true] at hleft
      have hflushed := hleft ⟨_, rfl⟩ (by simp)
      rw [Socket.flushed_write, hs.2.1] at hflushed
      cases hflushed
  | writeAccept hphase =>
      refine iff_of_true ?_ (by rw [Server.Flushes, hphase]; exact id)
      simp only [HubState.conns_setConn_self]
      split <;> simp
  | flushFail hphase | flushTimeout hphase =>
      rw [hphase] at hs
      -- the accept byte was written and its flush has failed
      refine iff_of_false (fun hleft => ?_) id
      simp only [HubState.conns_setConn_self] at hleft
      have hflushed := hleft ⟨_, rfl⟩ (by rw [hs.1]; simp)
      rw [hs.2] at hflushed
      cases hflushed
  | use hphase =>
      simp [Server.Flushes, hphase]

theorem OwnStep.unstranded_iff {l : ServerLabel} (h : OwnStep X c l s t) (hs : s.Accounted)
    (ht : t.Accounted) (hprop : s.UnstrandedAt c) : t.UnstrandedAt c ↔ s.Flushes l := by
  obtain ⟨hfailed, hselect⟩ := (unstrandedAt_iff hs.wellFormed (hs.pushed c)).mp hprop
  rw [unstrandedAt_iff ht.wellFormed (ht.pushed c)]
  cases h with
  | accept => exact iff_of_true ⟨hfailed, by rw [tasks_setTasks_self]; simp⟩ trivial
  | shake hphase _ h =>
      rw [and_iff_left (show (s.tasks c).conn = .select → _ by rw [hphase]; simp)]
      exact h.unstranded_iff (hs.pushed c).phase
  | conn h =>
      cases h with
      | subscribe hphase =>
          refine iff_of_true ⟨hfailed, fun _ => ?_⟩ trivial
          have hadm := (hs.pushed c).admitted hs.wellFormed (by rw [hphase]; decide)
          exact (hs.pushed c).accepted (by rw [hphase]; decide) hadm.1
      | register | announceJoin | spawnReader | deregister | sendLeft | sendLeftClosed
      | broadcastLeave =>
          refine iff_of_true ⟨hfailed, fun heq => absurd heq ?_⟩ trivial
          simp [tasks_setTasks_self]
  | reader h =>
      obtain ⟨hphase, hwritten, hflushed, hconn⟩ := h.frame
      refine iff_of_true ?_ trivial
      rw [hphase, hwritten, hflushed, hconn]
      exact ⟨hfailed, hselect⟩
  | writer h =>
      cases h with
      | takeFrame | rxClosed | broadcastClosed | writeTimeout =>
          refine iff_of_true ⟨hfailed, fun heq => absurd heq ?_⟩ trivial
          simp [tasks_setTasks_self]
      | takeEvent hphase | lagged hphase =>
          exact iff_of_true ⟨hfailed, fun _ => hselect hphase⟩ trivial
      | @write _ chunk rest deadline hphase hchunk =>
          obtain ⟨⟨id, name, hadm⟩, hwritten, -⟩ :=
            (hs.pushed c).admitted hs.wellFormed (by rw [hphase]; simp [ConnTask.stage])
          simp only [shake_setTasks, phase_setSock, sock_setTasks, sock_setSock_self,
            tasks_setTasks_self, Socket.written_write, List.length_append]
          rw [hadm]
          by_cases hrest : rest = []
          · subst hrest
            -- the frame is complete, and the writer does not flush it
            refine iff_of_false (fun hleft => ?_)
              (fun hnot => hnot deadline (by rw [hphase, List.append_nil]))
            have hlen := hleft.2 (if_pos rfl)
            have hpos := List.length_pos_iff.mpr hwritten
            have hpos' := List.length_pos_iff.mpr hchunk
            omega
          · rw [if_neg hrest]
            refine iff_of_true (by simp) fun d heq => ?_
            rw [hphase, ConnTask.writing.injEq, List.append_right_eq_self] at heq
            exact hrest heq.1
      | writeFail =>
          rw [shake_setTasks, sock_setTasks, tasks_setTasks_self, and_iff_right hfailed]
          exact ⟨fun hleft => hleft rfl, fun hone _ => hone⟩
  | arrive | finish =>
      refine iff_of_true ?_ trivial
      rw [phase_setSock, sock_setSock_self]
      exact ⟨hfailed, hselect⟩

/-- **A step leaves bytes behind exactly when it should have flushed.** -/
theorem ServerStep.unstranded_iff {l : ServerLabel} (h : ServerStep X l s t) (hs : s.Accounted)
    (hprop : s.Unstranded) : t.Unstranded ↔ s.Flushes l := by
  have hother : ∀ d, l.of ≠ some d → t.UnstrandedAt d := by
    intro d hd
    obtain ⟨htold, hconn⟩ := h.frame hd
    obtain ⟨hreply, hreading, hwriter⟩ := hprop d
    unfold sock at hreply hreading hwriter
    constructor
    · rw [sock, hconn]
      exact hreply
    · rw [sock, hconn]
      exact hreading
    · rw [sock, hconn, htold.conn]
      exact hwriter
  cases hof : l.of with
  | none =>
      refine iff_of_true (fun d => hother d (by simp [hof])) ?_
      cases l with
      | shake | writer => cases hof
      | _ => trivial
  | some c =>
      have hown := (h.own hof).unstranded_iff hs (h.accounted hs) (hprop c)
      refine ⟨fun ht => hown.mp (ht c), fun hflushes d => ?_⟩
      by_cases hd : d = c
      · rw [hd]
        exact hown.mpr hflushes
      · exact hother d (by rw [hof]; exact fun heq => hd (Option.some.inj heq).symm)

/-- **The runs of a hub that leave no byte behind** are those all of whose steps flush. -/
theorem serverRun_unstranded_iff {now : ℕ} {ls : List ServerLabel} :
    Run (Within (ServerStep X) Server.Unstranded) (.init now) ls s ↔
      Run (Guarded (ServerStep X) Server.Flushes) (.init now) ls s :=
  Run.within_iff (accounted_init now) (fun _ => ⟨False.elim, nofun, nofun⟩)
    (fun hs hstep => hstep.accounted hs) (fun hs hprop hstep => hstep.unstranded_iff hs hprop)

/-! ## Both hubs -/

/-- **The two hubs leave no byte behind in the runs all of whose steps flush, and in no
other.** -/
theorem nothing_stranded_iff (X : Crates) (cfg : HostConfig) (now : ℕ) :
    (∀ ls s, Run (Within (Step X cfg) Room.Unstranded) (.init now) ls s ↔
      Run (Guarded (Step X cfg) Room.Flushes) (.init now) ls s) ∧
    ∀ ls s, Run (Within (ServerStep X) Server.Unstranded) (.init now) ls s ↔
      Run (Guarded (ServerStep X) Server.Flushes) (.init now) ls s :=
  ⟨fun _ _ => roomRun_unstranded_iff, fun _ _ => serverRun_unstranded_iff⟩

/-- A writer of `room.rs` waits behind a join notice, and one of `hub.rs` behind all it has
written. -/
theorem bytes_stranded :
    (∃ s, RoomReachable .standard ⟨"host", 300⟩ s ∧ (s.conns 0).writer = .recv ∧
      Broadcast.recv broadcastChanCap s.bcast (s.conns 0).cursor = (.empty, (s.conns 0).cursor) ∧
      (s.conns 0).sock.buffered = frameBytes SerdeJson.standard (.system ("ann" ++ " joined"))) ∧
    ∃ s, ServerReachable .standard s ∧ s.Quiescent .standard ∧ (s.tasks 0).conn = .select ∧
      (s.sock 0).buffered = frameBytes SerdeJson.standard (.system "hi") ++
        frameBytes SerdeJson.standard (.chat "[system]" "hi") := by
  constructor
  · refine ⟨(Room.opened ⟨"host", 300⟩ 0 "room.onion").admitted .standard 0 (.fill 0) (.fill 7)
        "ann",
      (reachable_opened ..).admitted rfl (by decide) rfl rfl (by decide) (by decide) (by decide),
      ?_, ?_, ?_⟩
    all_goals rw [Room.admitted, Room.settled, Room.served, Room.conns_setConn_self]
    · exact recv_end ..
    · exact Socket.buffered_write rfl
  · refine ⟨Server.toldTwice, ⟨0, run_pause.reachable.run run_tellTwice⟩, quiescent_toldTwice, rfl,
      ?_⟩
    rw [Server.toldTwice, Server.wrote, sock_setTasks, sock_setSock_self, Server.told,
      sock_setTasks,
      sock_setSock_self, Socket.write_write]
    exact Socket.buffered_write rfl

end Nullpipe.Hub

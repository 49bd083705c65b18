import Nullpipe.Hub.Step
import Nullpipe.Hub.SingleUse

/-!
# What the steps of `hub.rs` touch

The frame of the relations of `Step.lean`, and the invariants that every other module about
the hub starts from.

* **Steps.**  `OwnStep` has the steps about one connection.  What the others leave to it is
  `ServerStep.frame`: everything, up to the frames that were sent to its direct queue
  (`Tasks.Told`), for which anybody may hold a sender.
* **One connection.**  `Tasks.Fits`: how far `handle_connection` has got (`ConnTask.stage`) says
  whether the handshake was granted, whether the reader exists, and whether the direct queue
  has been made; and the cursor of the writer is within the log.  `OwnStep.fits` keeps it.
* **The registry.**  `Server.Entries`: an entry belongs to a connection between its registration
  and its deregistration.  A second connection under the same id replaces the entry of the
  first, which does not get it back (`ServerStep.holds_of`).
* **Rest.**  `Server.Quiescent`: no task has a step to take.  A writer at rest has taken
  everything (`Server.Quiescent.writer`), since neither of its channels closes while its loop
  runs (`senders_held`).

`Server.WellFormed` has the invariants together.  With them, `ServerReachable.shake` finds the
handshakes of a running hub among those of `Hub/Handshake.lean`, with the traffic of the
later tasks as their `use` steps, so that what holds of the one holds of the other.
-/

namespace Nullpipe.Hub

open Channel Transition Server

variable {X : Crates} {s t : Server} {c d : ConnId} {l : ServerLabel}

/-! ## Frames for the direct queues -/

/-- The tasks of a connection before and after some frames were sent to it. -/
def Tasks.Told (k k' : Tasks) : Prop :=
  ∃ frames : List (List UInt8), k' = { k with direct := frames.foldl Mpsc.post k.direct }

namespace Tasks.Told

variable {k k' : Tasks}

theorem refl (k : Tasks) : k.Told k := ⟨[], rfl⟩

theorem conn (h : k.Told k') : k'.conn = k.conn := by
  obtain ⟨frames, rfl⟩ := h
  rfl

theorem reader (h : k.Told k') : k'.reader = k.reader := by
  obtain ⟨frames, rfl⟩ := h
  rfl

theorem cursor (h : k.Told k') : k'.cursor = k.cursor := by
  obtain ⟨frames, rfl⟩ := h
  rfl

end Tasks.Told

/-- What sending a frame to a list of connections changes. -/
private theorem foldl_sendDirect (frame : List UInt8) (entries : List (PeerId × PeerEntry))
    (s : Server) :
    ∃ tasks, entries.foldl (fun t p => t.sendDirect p.2.tx frame) s = { s with tasks := tasks } ∧
      ∀ c, (s.tasks c).Told (tasks c) := by
  induction entries generalizing s with
  | nil => exact ⟨s.tasks, rfl, fun c => .refl _⟩
  | cons p entries ih =>
      obtain ⟨tasks, heq, htold⟩ := ih (s.sendDirect p.2.tx frame)
      refine ⟨tasks, heq, fun c => ?_⟩
      obtain ⟨frames, hframes⟩ := htold c
      by_cases hc : c = p.2.tx
      · subst hc
        refine ⟨frame :: frames, ?_⟩
        rw [hframes, sendDirect, tasks_setTasks_self]
        rfl
      · refine ⟨frames, ?_⟩
        rw [hframes, sendDirect, tasks_setTasks_of_ne _ _ _ hc]

theorem broadcastMessage_told (json : SerdeJson) (s : Server) (msg : WireMessage) :
    ∃ tasks, s.broadcastMessage json msg = { s with tasks := tasks } ∧
      ∀ c, (s.tasks c).Told (tasks c) := by
  unfold broadcastMessage
  split
  · exact foldl_sendDirect ..
  · exact ⟨s.tasks, rfl, fun c => .refl _⟩

/-! ## The steps about one connection -/

/-- The connection a step is about. -/
def ServerLabel.of : ServerLabel → Option ConnId
  | .owner (.accept c) | .shake c _ | .conn c _ | .reader c _ | .writer c _ | .arrive c _
  | .finish c _ => some c
  | _ => none

inductive OwnStep (X : Crates) (c : ConnId) : ServerLabel → Server → Server → Prop
  | accept {s : Server} (hrun : s.owner = .run) (hroom : s.room = true)
      (hidle : (s.tasks c).conn = .idle) :
      OwnStep X c (.owner (.accept c)) s (s.setTasks c { s.tasks c with conn := .shaking })
  | shake {l : PhaseLabel} {s : Server} {k : HubState}
      (hphase : (s.tasks c).conn = .shaking) (huse : ∀ r w, l ≠ .use r w)
      (h : PhaseStep X c l s.shake k) : OwnStep X c (.shake c l) s { s with shake := k }
  | conn {l : ConnLabel} {s t : Server} (h : ConnStep c l s t) : OwnStep X c (.conn c l) s t
  | reader {l : ReaderLabel} {s t : Server} (h : ReaderStep X c l s t) :
      OwnStep X c (.reader c l) s t
  | writer {l : WriterLabel} {s t : Server} (h : WriterStep X c l s t) :
      OwnStep X c (.writer c l) s t
  | arrive {chunk : List UInt8} {s : Server} (hopen : (s.sock c).readEnd = none) :
      OwnStep X c (.arrive c chunk) s (s.setSock c ((s.sock c).arrive chunk))
  | finish {e : ReadEnd} {s : Server} (hopen : (s.sock c).readEnd = none) :
      OwnStep X c (.finish c e) s (s.setSock c ((s.sock c).finish e))

theorem ServerStep.own (h : ServerStep X l s t) (hl : l.of = some c) : OwnStep X c l s t := by
  cases h with
  | owner h =>
      cases h with
      | accept hrun hroom hidle =>
          cases hl
          exact .accept hrun hroom hidle
      | _ => cases hl
  | shake hphase huse h =>
      cases hl
      exact .shake hphase huse h
  | conn h =>
      cases hl
      exact .conn h
  | reader h =>
      cases hl
      exact .reader h
  | writer h =>
      cases hl
      exact .writer h
  | arrive hopen =>
      cases hl
      exact .arrive hopen
  | finish hopen =>
      cases hl
      exact .finish hopen
  | tick => cases hl

/-- A step about another connection, or about none, leaves a connection as it is, up to the
frames it may send it. -/
theorem ServerStep.frame (h : ServerStep X l s t) (hl : l.of ≠ some c) :
    (s.tasks c).Told (t.tasks c) ∧ t.shake.conns c = s.shake.conns c := by
  have hne : ∀ {d}, l.of = some d → c ≠ d := fun hd heq => hl (heq ▸ hd)
  cases h with
  | owner h =>
      cases h with
      | accept => exact ⟨by rw [tasks_setTasks_of_ne _ _ _ (hne rfl)]; exact .refl _, rfl⟩
      | broadcastFrames | broadcastPing =>
          obtain ⟨tasks, heq, htold⟩ := broadcastMessage_told X.json s _
          rw [heq]
          exact ⟨htold c, rfl⟩
      | _ => exact ⟨.refl _, rfl⟩
  | shake hphase huse h => exact ⟨.refl _, h.conns_of_ne (hne rfl)⟩
  | conn h =>
      cases h <;>
        exact ⟨by simp only [tasks_setTasks_of_ne _ _ _ (hne rfl)]; exact .refl _, rfl⟩
  | reader h =>
      cases h with
      | read | message | ping | badFrame | badMessage =>
          refine ⟨?_, HubState.conns_setConn_of_ne _ _ (hne rfl)⟩
          rw [tasks_setTasks_of_ne _ _ _ (hne rfl)]
          exact .refl _
      | _ => exact ⟨by simp only [tasks_setTasks_of_ne _ _ _ (hne rfl)]; exact .refl _, rfl⟩
  | writer h =>
      cases h with
      | write =>
          refine ⟨?_, HubState.conns_setConn_of_ne _ _ (hne rfl)⟩
          rw [tasks_setTasks_of_ne _ _ _ (hne rfl)]
          exact .refl _
      | _ => exact ⟨by simp only [tasks_setTasks_of_ne _ _ _ (hne rfl)]; exact .refl _, rfl⟩
  | arrive => exact ⟨.refl _, HubState.conns_setConn_of_ne _ _ (hne rfl)⟩
  | finish => exact ⟨.refl _, HubState.conns_setConn_of_ne _ _ (hne rfl)⟩
  | tick => exact ⟨.refl _, rfl⟩

/-- The broadcast log only grows. -/
theorem ServerStep.bcast (h : ServerStep X l s t) : s.bcast <+: t.bcast := by
  cases h with
  | owner h =>
      cases h with
      | broadcastHub => exact List.prefix_append ..
      | broadcastFrames | broadcastPing =>
          obtain ⟨tasks, heq, -⟩ := broadcastMessage_told X.json s _
          rw [heq]
      | _ => exact List.prefix_refl _
  | conn h =>
      cases h with
      | announceJoin | broadcastLeave => exact List.prefix_append ..
      | _ => exact List.prefix_refl _
  | reader h =>
      cases h with
      | relay => exact List.prefix_append ..
      | _ => exact List.prefix_refl _
  | writer h => cases h <;> exact List.prefix_refl _
  | shake | arrive | finish | tick => exact List.prefix_refl _

/-! ## Where a connection stands -/

/-- How far `handle_connection` has got. -/
def ConnTask.stage : ConnTask → ℕ
  | .idle => 0
  | .shaking => 1
  | .announceJoin => 2
  | .spawnReader => 3
  | .subscribe => 4
  | .select | .writing .. => 5
  | .deregister => 6
  | .sendLeft => 7
  | .broadcastLeave => 8
  | .ended => 9

/-- What the tasks of a connection say about each other, about its handshake and about the
length of the broadcast log. -/
structure Tasks.Fits (k : Tasks) (phase : Phase) (log : ℕ) : Prop where
  admitted : 2 ≤ k.conn.stage → ∃ id name, phase = .admitted id name
  reader : k.reader = .unspawned ↔ k.conn.stage ≤ 3
  rx : k.direct.isOpen = true ↔ k.conn.stage ≤ 5
  cursor : k.cursor ≤ log

theorem stage_afterEvent (json : SerdeJson) (event : ChatEvent) (now : ℕ) :
    (afterEvent json event now).stage = 5 := by
  unfold afterEvent
  repeat' split
  all_goals rfl

theorem afterSend_ne (msg : WireMessage) (now : ℕ) : afterSend msg now ≠ .unspawned := by
  unfold afterSend
  split <;> nofun

theorem isOpen_post (q : Mpsc (List UInt8)) (frame : List UInt8) :
    (q.post frame).isOpen = q.isOpen := by
  unfold Mpsc.post
  split <;> rfl

theorem received_post (q : Mpsc (List UInt8)) (frame : List UInt8) :
    (q.post frame).received = q.received := by
  unfold Mpsc.post
  split <;> rfl

theorem sent_prefix_post (q : Mpsc (List UInt8)) (frame : List UInt8) :
    q.sent <+: (q.post frame).sent := by
  unfold Mpsc.post
  split
  · rw [Mpsc.sent_push]
    exact List.prefix_append ..
  · exact List.prefix_refl _

theorem Tasks.Told.received {k k' : Tasks} (h : k.Told k') :
    k'.direct.received = k.direct.received := by
  obtain ⟨frames, rfl⟩ := h
  induction frames generalizing k with
  | nil => rfl
  | cons frame frames ih =>
      exact (ih (k := { k with direct := k.direct.post frame })).trans (received_post ..)

theorem Tasks.Told.sent_prefix {k k' : Tasks} (h : k.Told k') :
    k.direct.sent <+: k'.direct.sent := by
  obtain ⟨frames, rfl⟩ := h
  induction frames generalizing k with
  | nil => exact List.prefix_refl _
  | cons frame frames ih =>
      exact (sent_prefix_post ..).trans (ih (k := { k with direct := k.direct.post frame }))

theorem Tasks.Told.isOpen {k k' : Tasks} (h : k.Told k') :
    k'.direct.isOpen = k.direct.isOpen := by
  obtain ⟨frames, rfl⟩ := h
  induction frames generalizing k with
  | nil => rfl
  | cons frame frames ih =>
      exact (ih (k := { k with direct := k.direct.post frame })).trans (isOpen_post ..)

theorem Tasks.Fits.keep {k k' : Tasks} {phase : Phase} {log log' : ℕ} (h : k.Fits phase log)
    (hstage : k'.conn.stage = k.conn.stage)
    (hreader : k'.reader = .unspawned ↔ k.reader = .unspawned)
    (hopen : k'.direct.isOpen = k.direct.isOpen) (hcursor : k'.cursor ≤ log') :
    k'.Fits phase log' where
  admitted := by
    rw [hstage]
    exact h.admitted
  reader := by
    rw [hstage, hreader]
    exact h.reader
  rx := by
    rw [hstage, hopen]
    exact h.rx
  cursor := hcursor

theorem recv_cursor_le {cap : ℕ} {log : List ChatEvent} {cursor next : ℕ}
    {r : Broadcast.Recv ChatEvent} (h : Broadcast.recv cap log cursor = (r, next))
    (hcursor : cursor ≤ log.length) : next ≤ log.length := by
  unfold Broadcast.recv at h
  split at h
  · cases h
    omega
  · split at h
    · rename_i a hget
      cases h
      exact (List.getElem?_eq_some_iff.mp hget).1
    · cases h
      exact hcursor

/-- A step about a connection keeps its tasks in order. -/
theorem OwnStep.fits (h : OwnStep X c l s t)
    (hs : (s.tasks c).Fits (s.shake.conns c).phase s.bcast.length) :
    (t.tasks c).Fits (t.shake.conns c).phase t.bcast.length := by
  have hfits := hs
  obtain ⟨hadmitted, hreader, hrx, hcursor⟩ := hs
  cases h with
  | accept hrun hroom hidle =>
      rw [hidle] at hreader hrx
      rw [tasks_setTasks_self]
      refine ⟨fun h => ?_, by simpa [ConnTask.stage] using hreader,
        by simpa [ConnTask.stage] using hrx, hcursor⟩
      exact absurd h (show ¬ 2 ≤ 1 by decide)
  | shake hphase huse h =>
      refine ⟨fun h => ?_, hreader, hrx, hcursor⟩
      rw [hphase] at h
      exact absurd h (by decide)
  | conn h =>
      cases h with
      | register hphase hadm | announceJoin hphase hadm | deregister hphase hadm
      | sendLeft hphase hadm | broadcastLeave hphase hadm =>
          rw [hphase] at hreader hrx
          simp only [tasks_setTasks_self, shake_setTasks]
          refine ⟨fun _ => ⟨_, _, hadm⟩, ?_, ?_, ?_⟩
          · simpa [ConnTask.stage] using hreader
          · simpa [ConnTask.stage] using hrx
          · simp only [bcast_setTasks, List.length_append]
            omega
      | spawnReader hphase =>
          rw [hphase] at hadmitted hrx
          simp only [tasks_setTasks_self]
          exact ⟨fun _ => hadmitted (by decide), by simp [ConnTask.stage],
            by simpa [ConnTask.stage] using hrx, hcursor⟩
      | subscribe hphase | sendLeftClosed hphase =>
          rw [hphase] at hadmitted hreader hrx
          simp only [tasks_setTasks_self]
          exact ⟨fun _ => hadmitted (by decide), by simpa [ConnTask.stage] using hreader,
            by simpa [ConnTask.stage] using hrx, by first | exact hcursor | exact Nat.le_refl _⟩
  | reader h =>
      cases h with
      | start hphase | readFail hphase | readTimeout hphase | sendClosed hphase =>
          rw [tasks_setTasks_self]
          exact hfits.keep rfl (by simp [hphase, afterSend_ne]) rfl hcursor
      | read hphase | message hphase | ping hphase | badFrame hphase | badMessage hphase =>
          rw [tasks_setTasks_self, shake_setTasks, phase_setSock]
          exact hfits.keep rfl (by simp [hphase]) rfl hcursor
      | pong hphase =>
          rw [tasks_setTasks_self]
          refine hfits.keep rfl (by simp [hphase]) ?_ hcursor
          dsimp only
          split
          · exact isOpen_post ..
          · rfl
      | send hphase =>
          simp only [tasks_setTasks_self]
          exact hfits.keep rfl (by simp [hphase, afterSend_ne]) rfl hcursor
      | relay hphase =>
          simp only [tasks_setTasks_self]
          refine hfits.keep rfl (by simp [hphase]) rfl ?_
          simp only [List.length_append]
          omega
  | writer h =>
      cases h with
      | takeFrame hphase | writeFail hphase =>
          rw [tasks_setTasks_self]
          exact hfits.keep (by simp [hphase, ConnTask.stage]) Iff.rfl rfl hcursor
      | takeEvent hphase _ hrecv =>
          rw [tasks_setTasks_self]
          exact hfits.keep (by rw [hphase, stage_afterEvent]; rfl) Iff.rfl rfl
            (recv_cursor_le hrecv hcursor)
      | lagged hphase _ hrecv =>
          rw [tasks_setTasks_self]
          exact hfits.keep rfl Iff.rfl rfl (recv_cursor_le hrecv hcursor)
      | write hphase =>
          rw [tasks_setTasks_self, shake_setTasks, phase_setSock]
          refine hfits.keep ?_ Iff.rfl rfl hcursor
          dsimp only
          rw [hphase]
          split <;> rfl
      -- the receiver of the direct queue goes with the loop
      | rxClosed hphase | broadcastClosed hphase | writeTimeout hphase =>
          rw [hphase] at hadmitted hreader
          simp only [tasks_setTasks_self]
          exact ⟨fun _ => hadmitted (by simp [ConnTask.stage]),
            by simpa [ConnTask.stage] using hreader, by simp [ConnTask.stage, Mpsc.close], hcursor⟩
  | arrive =>
      rw [phase_setSock]
      exact ⟨hadmitted, hreader, hrx, hcursor⟩
  | finish =>
      rw [phase_setSock]
      exact ⟨hadmitted, hreader, hrx, hcursor⟩

/-- What was sent to a direct queue stays sent. -/
theorem ServerStep.sent_prefix (h : ServerStep X l s t) :
    (s.tasks c).direct.sent <+: (t.tasks c).direct.sent := by
  by_cases hl : l.of = some c
  · cases h.own hl with
    | accept => rw [tasks_setTasks_self]
    | shake | arrive | finish => exact List.prefix_refl _
    | conn h => cases h <;> simp only [tasks_setTasks_self, List.prefix_refl]
    | reader h =>
        cases h with
        | pong =>
            rw [tasks_setTasks_self]
            dsimp only
            split
            · exact sent_prefix_post ..
            · exact List.prefix_refl _
        | _ => simp only [tasks_setTasks_self, List.prefix_refl]
    | writer h =>
        cases h <;>
          simp only [tasks_setTasks_self, Mpsc.sent_pop, Mpsc.sent_close, List.prefix_refl]
  · obtain ⟨hconn, -⟩ := h.frame hl
    exact hconn.sent_prefix

/-! ## The hub as a whole -/

/-- An entry of the registry belongs to a connection between its registration and its
deregistration. -/
def Server.Entries (s : Server) : Prop :=
  ∀ p ∈ s.peers.inner, s.Admitted p.2.tx p.1 p.2.name ∧
    2 ≤ (s.tasks p.2.tx).conn.stage ∧ (s.tasks p.2.tx).conn.stage ≤ 6

structure Server.WellFormed (s : Server) : Prop where
  fits : ∀ c, (s.tasks c).Fits (s.shake.conns c).phase s.bcast.length
  entries : s.Entries

theorem Server.wellFormed_init (now : ℕ) : (Server.init now).WellFormed where
  fits c :=
    ⟨fun h => absurd h (show ¬ 2 ≤ 0 by decide), by simp [Server.init, Tasks.fresh, ConnTask.stage],
    by simp [Server.init, Tasks.fresh, Mpsc.empty, ConnTask.stage], Nat.le_refl 0⟩
  entries p hp := by cases hp

/-- The registry changes only where a task registers or deregisters its peer. -/
theorem ServerStep.peers (h : ServerStep X l s t) (hl : ∀ c, l ≠ .conn c .register)
    (hl' : ∀ c, l ≠ .conn c .deregister) : t.peers = s.peers := by
  cases h with
  | owner h =>
      cases h with
      | broadcastFrames | broadcastPing =>
          obtain ⟨tasks, heq, -⟩ := broadcastMessage_told X.json s _
          rw [heq]
      | _ => rfl
  | conn h =>
      cases h with
      | register => exact absurd rfl (hl _)
      | deregister => exact absurd rfl (hl' _)
      | _ => rfl
  | reader h => cases h <;> rfl
  | writer h => cases h <;> rfl
  | shake | arrive | finish | tick => rfl

/-- A registered connection that has lost its entry does not get it back. -/
theorem ServerStep.holds_of (h : ServerStep X l s t) (hstage : 2 ≤ (s.tasks c).conn.stage)
    (ht : t.peers.Holds c) : s.peers.Holds c := by
  by_cases hl : ∃ d, l = .conn d .register
  · obtain ⟨d, rfl⟩ := hl
    cases h with
    | conn h =>
        cases h with
        | register hphase =>
            obtain ⟨p, hp, htx⟩ := ht
            rcases List.mem_cons.mp hp with rfl | hp
            · cases htx
              rw [hphase] at hstage
              exact absurd hstage (by decide)
            · exact ⟨p, List.mem_of_mem_filter hp, htx⟩
  · by_cases hl' : ∃ d, l = .conn d .deregister
    · obtain ⟨d, rfl⟩ := hl'
      cases h with
      | conn h =>
          cases h with
          | deregister =>
              obtain ⟨p, hp, htx⟩ := ht
              exact ⟨p, List.mem_of_mem_filter hp, htx⟩
    · push Not at hl hl'
      rw [← h.peers hl hl']
      exact ht

/-- What was admitted stays admitted. -/
theorem ServerStep.admitted {id : PeerId} {name : String} (h : ServerStep X l s t)
    (hs : s.Admitted c id name) (hstage : 2 ≤ (s.tasks c).conn.stage) : t.Admitted c id name := by
  by_cases hl : l.of = some c
  · unfold Admitted at hs ⊢
    cases h.own hl with
    | accept => exact hs
    | shake hphase =>
        rw [hphase] at hstage
        exact absurd hstage (by decide)
    | conn h => cases h <;> exact hs
    | reader h => cases h <;> first | exact hs | (rw [shake_setTasks, phase_setSock]; exact hs)
    | writer h => cases h <;> first | exact hs | (rw [shake_setTasks, phase_setSock]; exact hs)
    | arrive | finish =>
        rw [phase_setSock]
        exact hs
  · rw [Admitted, (h.frame hl).2]
    exact hs

theorem Server.Admitted.unique {id id' : PeerId} {name name' : String}
    (h : s.Admitted c id name) (h' : s.Admitted c id' name') : id = id' ∧ name = name' :=
  Phase.admitted.inj (h.symm.trans h')

/-- A connection moves on, one stage at a time. -/
theorem ServerStep.stage (h : ServerStep X l s t) :
    (t.tasks c).conn.stage = (s.tasks c).conn.stage ∨
      (t.tasks c).conn.stage = (s.tasks c).conn.stage + 1 := by
  by_cases hl : l.of = some c
  · cases h.own hl with
    | accept _ _ hphase =>
        rw [tasks_setTasks_self, hphase]
        exact .inr rfl
    | shake => exact .inl rfl
    | conn h =>
        cases h with
        | register hphase | announceJoin hphase | spawnReader hphase | subscribe hphase
        | deregister hphase | sendLeft hphase | sendLeftClosed hphase | broadcastLeave hphase =>
            -- the task of the connection goes on to its next stage
            simp only [tasks_setTasks_self, hphase]
            exact .inr rfl
    | reader h => cases h <;> exact .inl (by simp only [tasks_setTasks_self])
    | writer h =>
        cases h with
        | takeEvent hphase =>
            rw [tasks_setTasks_self, stage_afterEvent, hphase]
            exact .inl rfl
        | write hphase =>
            simp only [tasks_setTasks_self, hphase]
            left
            split <;> rfl
        | lagged hphase =>
            rw [tasks_setTasks_self]
            exact .inl rfl
        | takeFrame hphase | writeFail hphase =>
            rw [tasks_setTasks_self, hphase]
            exact .inl rfl
        | rxClosed hphase | broadcastClosed hphase | writeTimeout hphase =>
            rw [tasks_setTasks_self, hphase]
            exact .inr rfl
    | arrive | finish => exact .inl rfl
  · rw [(h.frame hl).1.conn]
    exact .inl rfl

/-- Only its deregistration takes a connection past stage 6. -/
theorem ServerStep.stage_le (h : ServerStep X l s t) (hl : l ≠ .conn c .deregister)
    (hs : (s.tasks c).conn.stage ≤ 6) : (t.tasks c).conn.stage ≤ 6 := by
  rcases Nat.lt_or_eq_of_le hs with hlt | hsix
  · rcases h.stage (c := c) with hsame | hnext <;> omega
  · have hphase : (s.tasks c).conn = .deregister := by
      cases hk : (s.tasks c).conn with
      | deregister => rfl
      | _ =>
          rw [hk] at hsix
          cases hsix
    by_cases hof : l.of = some c
    · cases h.own hof with
      | accept _ _ hother => cases hphase.symm.trans hother
      | shake hother => cases hphase.symm.trans hother
      | conn h =>
          cases h with
          | deregister => exact absurd rfl hl
          | register hother | announceJoin hother | spawnReader hother | subscribe hother
          | sendLeft hother | sendLeftClosed hother | broadcastLeave hother =>
              cases hphase.symm.trans hother
      | reader h => cases h <;> simpa only [tasks_setTasks_self] using hs
      | writer h =>
          cases h with
          | takeFrame hother | rxClosed hother | takeEvent hother | lagged hother
          | broadcastClosed hother | write hother | writeFail hother | writeTimeout hother =>
              cases hphase.symm.trans hother
      | arrive | finish => exact hs
    · rw [(h.frame hof).1.conn]
      exact hs

theorem ServerStep.entries (h : ServerStep X l s t) (hs : s.WellFormed) : t.Entries := by
  have hkeep : ∀ p ∈ s.peers.inner, (∀ c, l = .conn c .deregister → p.2.tx ≠ c) →
      t.Admitted p.2.tx p.1 p.2.name ∧
        2 ≤ (t.tasks p.2.tx).conn.stage ∧ (t.tasks p.2.tx).conn.stage ≤ 6 := by
    intro p hp hne
    obtain ⟨hadm, hlow, hhigh⟩ := hs.entries p hp
    refine ⟨h.admitted hadm hlow, ?_, h.stage_le (fun heq => hne _ heq rfl) hhigh⟩
    rcases h.stage (c := p.2.tx) with hsame | hnext <;> omega
  by_cases hl : ∃ c, l = .conn c .register
  · obtain ⟨c, rfl⟩ := hl
    cases h with
    | conn h =>
        cases h with
        | register hphase hadm =>
            intro p hp
            rcases List.mem_cons.mp hp with rfl | hp
            · simp only [tasks_setTasks_self]
              exact ⟨hadm, Nat.le_refl 2, by simp [ConnTask.stage]⟩
            · exact hkeep p (List.mem_of_mem_filter hp) nofun
  · by_cases hl' : ∃ c, l = .conn c .deregister
    · obtain ⟨c, rfl⟩ := hl'
      cases h with
      | conn h =>
          cases h with
          | deregister hphase hadm =>
              intro p hp
              obtain ⟨hp, hother⟩ := List.mem_filter.mp hp
              refine hkeep p hp fun d heq htx => ?_
              -- an entry of the connection itself would be under its own peer
              cases heq
              have hown := (hs.entries p hp).1
              rw [htx] at hown
              cases hown.symm.trans hadm
              simp at hother
    · push Not at hl hl'
      have hpeers := h.peers hl hl'
      intro p hp
      exact hkeep p (hpeers ▸ hp) fun c heq => absurd heq (hl' c)

theorem ServerStep.wellFormed (h : ServerStep X l s t) (hs : s.WellFormed) : t.WellFormed where
  fits c := by
    by_cases hl : l.of = some c
    · exact (h.own hl).fits (hs.fits c)
    · obtain ⟨htold, hconn⟩ := h.frame hl
      rw [hconn]
      refine (hs.fits c).keep (by rw [htold.conn]) (by rw [htold.reader]) htold.isOpen ?_
      rw [htold.cursor]
      exact (hs.fits c).cursor.trans h.bcast.length_le
  entries := h.entries hs

theorem ServerReachable.wellFormed (hs : ServerReachable X s) : s.WellFormed := by
  obtain ⟨now, hreach⟩ := hs
  exact hreach.invariant (I := Server.WellFormed) (wellFormed_init now)
    fun hs h => ServerStep.wellFormed h hs

/-! ## A hub at rest -/

/-- The step is taken from outside: by a client, by the owner of the `Hub` or by the clock. -/
def ServerLabel.Outside : ServerLabel → Prop
  | .owner _ | .arrive .. | .finish .. | .tick _ => True
  | _ => False

/-- No task has a step to take. -/
def Server.Quiescent (X : Crates) (s : Server) : Prop :=
  ∀ l t, ServerStep X l s t → l.Outside

/-- The writer loop runs. -/
def ConnTask.Runs : ConnTask → Prop
  | .select | .writing .. => True
  | _ => False

theorem ConnTask.Runs.stage {k : ConnTask} (h : k.Runs) : k.stage = 5 := by
  cases k with
  | select | writing => rfl
  | _ => cases h

/-- Neither channel of a writer closes while its loop runs: the task itself holds a sender
of each. -/
theorem senders_held (h : (s.tasks c).conn.Runs) : s.TxHeld c ∧ s.BroadcastHeld := by
  unfold TxHeld BroadcastHeld TaskLives
  cases hk : (s.tasks c).conn with
  | select | writing =>
      refine ⟨.inr (.inl trivial), .inr ⟨c, .inl ?_⟩⟩
      rw [hk]
      exact ⟨nofun, nofun, nofun⟩
  | _ =>
      rw [hk] at h
      cases h

theorem exists_recv_value {α : Type*} (cap : ℕ) {log : List α} {cursor : ℕ}
    (hcursor : cursor < log.length) :
    (∃ a next, Broadcast.recv cap log cursor = (.value a, next)) ∨
      ∃ skipped next, Broadcast.recv cap log cursor = (.lagged skipped, next) := by
  unfold Broadcast.recv
  split
  · exact .inr ⟨_, _, rfl⟩
  · rw [List.getElem?_eq_getElem hcursor]
    exact .inl ⟨_, _, rfl⟩

/-- A writer at rest has taken everything. -/
theorem Server.Quiescent.writer (h : s.Quiescent X) (hruns : (s.tasks c).conn.Runs)
    (hcursor : (s.tasks c).cursor ≤ s.bcast.length) :
    (s.tasks c).conn = .select ∧ (s.tasks c).direct.queue = [] ∧
      (s.tasks c).cursor = s.bcast.length := by
  have hselect : (s.tasks c).conn = .select := by
    cases hk : (s.tasks c).conn with
    | select => rfl
    | writing => cases h _ _ (.writer (.writeFail hk))
    | _ =>
        rw [hk] at hruns
        cases hruns
  have hqueue : (s.tasks c).direct.queue = [] := by
    cases hk : (s.tasks c).direct.queue with
    | nil => rfl
    | cons frame rest => cases h _ _ (.writer (.takeFrame hselect hk))
  refine ⟨hselect, hqueue, ?_⟩
  by_contra hne
  have hbehind : (s.tasks c).cursor < s.bcast.length := by omega
  rcases exists_recv_value broadcastChanCap hbehind with
    ⟨event, next, hrecv⟩ | ⟨skipped, next, hrecv⟩
  · cases h _ _ (.writer (.takeEvent hselect hqueue hrecv))
  · cases h _ _ (.writer (.lagged hselect hqueue hrecv))

/-! ## The handshakes of a running hub -/

/-- A step of the hub is a step of the handshakes or leaves them as they are. -/
theorem ServerStep.handshakes (h : ServerStep X l s t) (hs : s.WellFormed) :
    t.shake = s.shake ∨ ∃ l', HubStep X l' s.shake t.shake := by
  -- behind the handshake the stream is in the hands of the reader and the writer
  have huse : ∀ {c : ConnId} (r w : List UInt8), 2 ≤ (s.tasks c).conn.stage →
      HubStep X (.handshake c (.use r w)) s.shake
        (s.setSock c (((s.sock c).take r).write w)).shake := by
    intro c r w hstage
    obtain ⟨id, name, hadm⟩ := (hs.fits c).admitted hstage
    exact .handshake (.use hadm)
  cases h with
  | owner h =>
      cases h with
      | broadcastFrames | broadcastPing =>
          obtain ⟨tasks, heq, -⟩ := broadcastMessage_told X.json s _
          rw [heq]
          exact .inl rfl
      | _ => exact .inl rfl
  | shake hphase hnot h => exact .inr ⟨_, .handshake h⟩
  | conn h => cases h <;> exact .inl rfl
  | @reader c _ _ _ h =>
      cases h with
      | read hphase | message hphase | ping hphase | badFrame hphase | badMessage hphase =>
          have hstage : 2 ≤ (s.tasks c).conn.stage := by
            by_contra hlow
            have hnone := (hs.fits c).reader.mpr (by omega)
            rw [hphase] at hnone
            cases hnone
          have hread : ∀ chunk, HubStep X (.handshake c (.use chunk [])) s.shake
              (s.setSock c ((s.sock c).take chunk)).shake := fun chunk => by
            have hnil : ∀ k : Socket, k.write [] = k := fun k => by simp [Socket.write]
            have hstep := huse chunk [] hstage
            rwa [hnil] at hstep
          exact .inr ⟨_, hread _⟩
      | _ => exact .inl rfl
  | @writer c _ _ _ h =>
      cases h with
      | @write _ chunk _ _ hphase =>
          have hstep := huse (c := c) [] chunk (by rw [hphase]; simp [ConnTask.stage])
          have hnil : ∀ k : Socket, k.take [] = k := fun k => by simp [Socket.take]
          rw [hnil] at hstep
          exact .inr ⟨_, hstep⟩
      | _ => exact .inl rfl
  | arrive hopen => exact .inr ⟨_, .arrive hopen⟩
  | finish hopen => exact .inr ⟨_, .finish hopen⟩
  | tick => exact .inr ⟨_, .tick⟩

/-- **The handshakes of a running hub are the handshakes of `Hub/Handshake.lean`.** -/
theorem ServerReachable.shake (hs : ServerReachable X s) :
    ∃ now, Reachable (HubStep X) (HubState.init now) s.shake := by
  obtain ⟨now, hreach⟩ := hs
  refine ⟨now, (hreach.invariant (I := fun s => s.WellFormed ∧
    Reachable (HubStep X) (HubState.init now) s.shake) ⟨wellFormed_init now, .refl _⟩ ?_).2⟩
  rintro l s t ⟨hwell, hshake⟩ hstep
  refine ⟨hstep.wellFormed hwell, ?_⟩
  rcases hstep.handshakes hwell with hsame | ⟨l', h⟩
  · rw [hsame]
    exact hshake
  · exact hshake.snoc h

end Nullpipe.Hub

import Nullpipe.Hub.Announce

/-!
# Clean-up after a peer

`handle_connection` deregisters its peer when the writer loop has ended.  The reader ends
with the stream of its peer, but nothing tells the writer: both of its channels have a
sender in the task itself, and a failed write is not looked at.  So the loop ends by a
write timeout alone, and `cleaned_iff` says what is left of a peer in a hub at rest.

* `ServerStep.way_out` is the inversion lemma: only a write timeout ends the writer loop, only
  the deregistration removes the entry, and only the last step of the task broadcasts the
  leave event.
* `WayOut` turns it into a history of each connection, kept by every run (`wayOut_of_run`): a
  task that is past its writer loop has a write timeout behind it, and one that has ended has
  broadcast the event.
* `Server.Quiescent.conn`: in a hub at rest a task that has spawned its reader is in its writer
  loop or has ended.

So in a hub at rest there is no third case, and a peer whose reader has ended is cleaned up
exactly if its writer has timed out.  `peer_stays` is a client that has gone: every write to it
fails at once, none times out, and the peer stays.
-/

namespace Nullpipe.Hub

open Channel Transition Server

variable {X : Crates} {s t : Server} {c : ConnId} {l : ServerLabel} {ls : List ServerLabel}

/-! ## The way out -/

/-- Only a write timeout ends the writer loop, and only the last step of the task broadcasts
its leave event. -/
theorem ServerStep.way_out (h : ServerStep X l s t) :
    (6 ≤ (t.tasks c).conn.stage ↔
      6 ≤ (s.tasks c).conn.stage ∨ l = .writer c .writeTimeout) ∧
    ((t.tasks c).conn.stage = 9 ↔
      (s.tasks c).conn.stage = 9 ∨ l = .conn c .broadcastLeave) := by
  by_cases hof : l.of = some c
  · cases h.own hof with
    | accept _ _ hphase => simp [hphase, ConnTask.stage]
    | shake | arrive | finish => simp
    | conn h =>
        cases h with
        | register hphase | announceJoin hphase | spawnReader hphase | subscribe hphase
        | deregister hphase | sendLeft hphase | sendLeftClosed hphase | broadcastLeave hphase =>
            simp [hphase, ConnTask.stage]
    | reader h => cases h <;> simp
    | writer h =>
        cases h with
        | takeFrame hphase | writeFail hphase | writeTimeout hphase =>
            simp [hphase, ConnTask.stage]
        | takeEvent hphase =>
            simp only [tasks_setTasks_self, stage_afterEvent, hphase]
            simp [ConnTask.stage]
        | lagged hphase => simp
        | rxClosed hphase _ hclosed =>
            -- a connection at work holds a sender of each channel
            exact absurd (senders_held (by rw [hphase]; trivial)).1 hclosed
        | broadcastClosed hphase _ _ hclosed =>
            exact absurd (senders_held (by rw [hphase]; trivial)).2 hclosed
        | @write _ chunk rest _ hphase =>
            by_cases hrest : rest = [] <;> simp [hphase, hrest, ConnTask.stage]
  · have htimeout : l ≠ .writer c .writeTimeout := by
      rintro rfl
      exact hof rfl
    have hleave : l ≠ .conn c .broadcastLeave := by
      rintro rfl
      exact hof rfl
    rw [(h.frame hof).1.conn]
    simp [htimeout, hleave]

/-- The history of a connection on its way out. -/
structure WayOut (ls : List ServerLabel) (s : Server) (c : ConnId) : Prop where
  timeout : 6 ≤ (s.tasks c).conn.stage ↔ .writer c .writeTimeout ∈ ls
  leave : (s.tasks c).conn.stage = 9 ↔ .conn c .broadcastLeave ∈ ls

theorem wayOut_of_run {now : ℕ} (hrun : ServerRun X (.init now) ls s) (c : ConnId) :
    WayOut ls s c := by
  refine Run.history (I := fun ls s => WayOut ls s c) hrun ⟨by simp [Server.init, Tasks.fresh,
    ConnTask.stage], by simp [Server.init, Tasks.fresh, ConnTask.stage]⟩ ?_
  rintro ls l s t ⟨htimeout, hleave⟩ hstep
  obtain ⟨hout, hlast⟩ := hstep.way_out (c := c)
  constructor
  · rw [hout, htimeout, List.mem_append, List.mem_singleton, eq_comm (a := l)]
  · rw [hlast, hleave, List.mem_append, List.mem_singleton, eq_comm (a := l)]

/-! ## Hubs at rest -/

/-- Where a task stands in a hub at rest when it has spawned its reader. -/
theorem Server.Quiescent.conn (h : s.Quiescent X) (hs : s.WellFormed)
    (hreader : (s.tasks c).reader ≠ .unspawned) :
    (s.tasks c).conn = .select ∨ (s.tasks c).conn = .sendLeft ∨ (s.tasks c).conn = .ended := by
  have hstage : ¬ (s.tasks c).conn.stage ≤ 3 := hreader ∘ (hs.fits c).reader.mpr
  obtain ⟨id, name, hadm⟩ := (hs.fits c).admitted (by omega)
  cases hk : (s.tasks c).conn with
  | select => exact .inl rfl
  | sendLeft => exact .inr (.inl rfl)
  | ended => exact .inr (.inr rfl)
  | subscribe => cases h _ _ (.conn (.subscribe hk))
  | writing => cases h _ _ (.writer (.writeFail hk))
  | deregister => cases h _ _ (.conn (.deregister hk hadm))
  | broadcastLeave => cases h _ _ (.conn (.broadcastLeave hk hadm))
  | idle | shaking | announceJoin | spawnReader =>
      rw [hk] at hstage
      exact absurd (by simp [ConnTask.stage]) hstage

/-- The peer is out of the registry, and its leave event has been broadcast. -/
def Server.Cleaned (s : Server) (ls : List ServerLabel) (c : ConnId) : Prop :=
  ¬ s.peers.Holds c ∧ .conn c .broadcastLeave ∈ ls

/-- **In a hub at rest a peer whose reader has ended is cleaned up exactly when its writer ran
into a write timeout** and its leave notice does not wait for room in the message channel. -/
theorem cleaned_iff {now : ℕ} {reason : ReaderEnd} (hrun : ServerRun X (.init now) ls s)
    (hrest : s.Quiescent X) (hended : (s.tasks c).reader = .ended reason) :
    s.Cleaned ls c ↔ .writer c .writeTimeout ∈ ls ∧ (s.tasks c).conn ≠ .sendLeft := by
  have hwell := (show ServerReachable X s from ⟨now, hrun.reachable⟩).wellFormed
  obtain ⟨htimeout, hleave⟩ := wayOut_of_run hrun c
  constructor
  · rintro ⟨-, hleft⟩
    have hstage := hleave.mpr hleft
    refine ⟨htimeout.mp (by omega), fun hwaits => ?_⟩
    rw [hwaits] at hstage
    cases hstage
  · rintro ⟨htimed, hsent⟩
    have hstage := htimeout.mpr htimed
    rcases hrest.conn hwell (by rw [hended]; nofun) with hconn | hconn | hconn
    · rw [hconn] at hstage
      exact absurd hstage (by decide)
    · exact absurd hconn hsent
    · refine ⟨?_, hleave.mp (by rw [hconn]; rfl)⟩
      rintro ⟨entry, hentry, rfl⟩
      have hlow := (hwell.entries entry hentry).2.2
      rw [hconn] at hlow
      exact absurd hlow (by decide)

/-! ### A peer that stays -/

/-- The writer writes nothing to a client that has gone: every write returns an error. -/
def WritesFail (s : Server) (l : ServerLabel) : Prop :=
  ∀ c chunk, l = .writer c (.write chunk) → (s.sock c).readEnd = none

/-- The one client of the hub has gone. -/
def Server.lonely : Server :=
  (Server.paused.setSock 0 ((Server.paused.sock 0).finish .eof)).setTasks 0
    { Server.paused.tasks 0 with reader := .ended .readError }

/-- The hub has said something since, and the writer has failed to write both frames. -/
def Server.haunted : Server :=
  Server.setTasks { Server.lonely with bcast := Server.lonely.bcast ++ [announcement "hi"] } 0
    { Server.lonely.tasks 0 with
      direct := ⟨[frameBytes SerdeJson.standard (.system "hi")], [], true⟩
      cursor := Server.lonely.bcast.length + 1 }

/-- The steps after `run` was dropped. -/
def hauntLabels : List ServerLabel :=
  [.finish 0 .eof, .reader 0 .readFail, .owner (.broadcastHub "hi"), .owner (.broadcastFrames "hi"),
    .writer 0 (.takeFrame (frameBytes SerdeJson.standard (.system "hi"))), .writer 0 .writeFail,
    .writer 0 (.takeEvent (announcement "hi")), .writer 0 .writeFail]

theorem run_haunt : ServerRun .standard Server.paused hauntLabels Server.haunted := by
  let frame := frameBytes SerdeJson.standard (.system "hi")
  let hailed : Server :=
    { Server.lonely with bcast := Server.lonely.bcast ++ [announcement "hi"] }
  let k := Server.lonely.tasks 0
  have hrun : ServerRun .standard Server.paused [] Server.paused := .nil
  have hrun := hrun.snoc (.finish (c := 0) (e := .eof) rfl)
  have hrun := hrun.extend (v := Server.lonely)
    (.reader (c := 0) (l := .readFail) (.readFail rfl ⟨rfl, by rw [sock_setSock_self]; rfl⟩))
    (by rw [tasks_setSock]; rfl)
  have hrun := hrun.snoc (.owner (.broadcastHub rfl : OwnerStep .standard (.broadcastHub "hi") _ _))
  have hframes : encodeMessage Crates.standard.json (.system "hi") = .ok frame :=
    encodes_hi.encodeMessage
  have hrun := hrun.extend (v := hailed.setTasks 0 { k with direct := ⟨[], [frame], true⟩ })
    (.owner (.broadcastFrames (List.mem_singleton_self "hi")))
    (by rw [broadcastMessage, hframes]; rfl)
  have hrun := hrun.extend
    (v := hailed.setTasks 0 { k with
      direct := ⟨[frame], [], true⟩
      conn := .writing frame (0 + writeTimeout) })
    (.writer (c := 0) (l := .takeFrame frame) (.takeFrame (by rw [tasks_setTasks_self]; rfl)
      (by rw [tasks_setTasks_self])))
    (by rw [tasks_setTasks_self, setTasks_setTasks]; rfl)
  have hrun := hrun.extend
    (v := hailed.setTasks 0 { k with direct := ⟨[frame], [], true⟩, conn := .select })
    (.writer (c := 0) (l := .writeFail) (.writeFail (by rw [tasks_setTasks_self])))
    (by rw [tasks_setTasks_self, setTasks_setTasks])
  -- the event is still there, and its frame is lost as well
  have hrun := hrun.extend
    (v := hailed.setTasks 0 { k with
      direct := ⟨[frame], [], true⟩
      cursor := Server.lonely.bcast.length + 1
      conn := afterEvent SerdeJson.standard (announcement "hi") 0 })
    (.writer (c := 0) (l := .takeEvent (announcement "hi")) (.takeEvent
      (by rw [tasks_setTasks_self]) (by rw [tasks_setTasks_self])
      (by rw [tasks_setTasks_self]; exact Broadcast.recv_of_getElem? rfl (by decide))))
    (by rw [tasks_setTasks_self, setTasks_setTasks]; rfl)
  obtain ⟨rest, deadline, hafter⟩ : ∃ rest deadline,
      afterEvent SerdeJson.standard (announcement "hi") 0 = .writing rest deadline := ⟨_, _, rfl⟩
  exact hrun.extend (.writer (c := 0) (l := .writeFail)
      (.writeFail (by rw [tasks_setTasks_self]; exact hafter)))
    (by rw [tasks_setTasks_self, setTasks_setTasks]; rfl)

theorem run_haunted : ServerRun .standard (.init 0)
    (attendLabels ++ [.owner .cancelRun] ++ hauntLabels) Server.haunted :=
  run_pause.append run_haunt

theorem quiescent_haunted : Server.haunted.Quiescent .standard := by
  refine quiescent_of_waits fun c => ?_
  by_cases hc : c = 0
  · subst hc
    exact .inr ⟨rfl, rfl, rfl, .inl ⟨_, rfl⟩⟩
  · left
    simp [Server.haunted, Server.lonely, paused, attended, served, setTasks, hc, opened,
      Server.init]

/-- The peer of a client that has gone stays in the registry, and nobody hears that it left. -/
theorem peer_stays :
    Run (Guarded (ServerStep .standard) WritesFail) (.init 0)
        (attendLabels ++ [.owner .cancelRun] ++ hauntLabels) Server.haunted ∧
      Server.haunted.Quiescent .standard ∧
      (Server.haunted.tasks 0).reader = .ended .readError ∧ Server.haunted.peers.Holds 0 ∧
      .conn 0 .broadcastLeave ∉ attendLabels ++ [.owner .cancelRun] ++ hauntLabels := by
  refine ⟨run_haunted.guard fun l hl s c chunk heq => ?_, quiescent_haunted, rfl,
    ⟨_, List.mem_cons_self .., rfl⟩, by decide⟩
  subst heq
  exact absurd hl (by
    simp [attendLabels, serveLabels, acceptLabels, checkLabels, hauntLabels, HubLabel.server])

theorem cleaned_iff_haunted :
    ¬ Server.haunted.Cleaned (attendLabels ++ [.owner .cancelRun] ++ hauntLabels) 0 :=
  fun hcleaned => absurd ((cleaned_iff run_haunted quiescent_haunted
    (show (Server.haunted.tasks 0).reader = .ended .readError from rfl)).mp hcleaned).1 (by decide)

end Nullpipe.Hub

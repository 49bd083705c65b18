import Nullpipe.Room.Service
import Nullpipe.Room.Closing

/-!
# Shutdown reaches every handler

The shutdown signal is a watch channel, and a receiver is ready when the version it has seen
is not the current one.  A receiver that was cloned after the signal could have seen it
already and would then wait for ever; the handlers are spawned by a loop that may be
accepting while `quit` is under way.  That this does not happen is the first half of the
module.

* `Unseen`: a handler that has not left its select has seen version 0.  It inherits that from
  the accept loop, which returns in the step in which it sees the signal, and only the
  shutdown branch of the handler's own select looks at it.
* `LockHeld`: who holds the lock on the used nonces is writing a reject byte, so no handler
  waits at the lock for ever in a room at rest.

The second half counts.  `Handler.milestone` says how far a handler has got: it has
registered its peer, deregistered it, emitted its leave event.  Handlers pass the milestones
one by one (`HandlerStep.milestone`), and so in every run each step that passes one is there
as often as the phase of the handler says (`Milestones`, an invariant on histories).

In a room at rest that was told to shut down every handler has returned, unless it reads a
handshake (`Quiescent.over_or_reads`).  `quit_clears_the_room` is what follows for the states
after `quit` in which every task has done what it can: the map is empty, and every connection
that was registered has been deregistered and has emitted its leave event, once each.
-/

namespace Nullpipe

open Channel Room Transition

variable {X : Crates} {cfg : HostConfig} {s t : Room} {c : ConnId} {l : Label}

/-! ## Receivers -/

/-- A handler that has not left its select has seen no signal. -/
def Unseen (s : Room) : Prop := ∀ c, ¬ (s.conns c).handler.Gone → (s.conns c).watchSeen = 0

/-- Only the shutdown branch of a handler looks at the signal, and then it leaves. -/
theorem HandlerStep.unseen {l : HandlerLabel} (h : HandlerStep X c l s t)
    (hs : ¬ (s.conns c).handler.Gone → (s.conns c).watchSeen = 0)
    (hgone : ¬ (t.conns c).handler.Gone) : (t.conns c).watchSeen = 0 := by
  cases h with
  | shutdown | readerDone | abortWriter | deregister | emitLeave =>
      rw [conns_setConn_self] at hgone
      exact absurd trivial hgone
  | start hphase | readHandshake hphase | handshakeReadFail hphase | handshakeReadTimeout hphase
  | insertNonce hphase | refuseNonce hphase | writeReject hphase | rejectFail hphase
  | writeAccept hphase | acceptFail hphase | acceptTimeout hphase | flushAccept hphase
  | flushFail hphase | flushTimeout hphase | readName hphase | nameReadFail hphase
  | nameReadTimeout hphase | register hphase | emitJoin hphase | writeNotice hphase
  | noticeFail hphase | spawnReader hphase | subscribe hphase =>
      simp only [conns_setConn_self]
      apply hs
      rw [hphase]
      exact id

theorem Step.unseen (h : Step X cfg l s t) (hsig : Signals s) (hs : Unseen s) : Unseen t := by
  intro c hgone
  by_cases hconn : l.conn = some c
  · cases h.connStep hconn with
    | accept hphase =>
        rw [conns_setConn_self]
        exact hsig.accept hphase
    | handler h =>
        exact h.unseen (hs c) hgone
    | reader h =>
        rw [h.frame.1] at hgone
        rw [h.frame.2.1]
        exact hs c hgone
    | writer h =>
        rw [h.frame.1] at hgone
        rw [h.frame.2.1]
        exact hs c hgone
    | net h =>
        rw [h.frame.1] at hgone
        rw [h.frame.2.1]
        exact hs c hgone
  · rw [h.conns_of_ne hconn] at hgone ⊢
    exact hs c hgone

theorem RoomReachable.unseen (hs : RoomReachable X cfg s) : Unseen s := by
  obtain ⟨now, hreach⟩ := hs
  refine (hreach.invariant (I := fun s => RoomReachable X cfg s ∧ Unseen s)
    ⟨⟨now, .refl _⟩, fun _ _ => rfl⟩ fun hs hstep => ?_).2
  exact ⟨hs.1.run (.single hstep), hstep.unseen hs.1.signals hs.2⟩

/-! ## The lock on the used nonces -/

/-- Who holds the lock is writing a reject byte. -/
def LockHeld (s : Room) : Prop :=
  ∀ c, s.nonceLock = some c → ∃ rest, (s.conns c).handler = .rejectReused rest

/-- A handler that does not hold the lock takes it only to reject. -/
theorem HandlerStep.lockHeld {l : HandlerLabel} (h : HandlerStep X c l s t) (hs : LockHeld s) :
    LockHeld t := by
  intro d hlock
  have hother : s.nonceLock = some d → d ≠ c →
      ∃ rest, (t.conns d).handler = .rejectReused rest := fun hbefore hd => by
    rw [h.conns_of_ne hd]
    exact hs d hbefore
  have hphase : s.nonceLock = some d → d = c →
      ∃ rest, (s.conns c).handler = .rejectReused rest := fun hbefore hd => hd ▸ hs d hbefore
  cases h with
  | refuseNonce =>
      cases hlock
      exact ⟨_, by rw [conns_setConn_self]⟩
  -- the last chunk of the reject byte releases the lock
  | @writeReject _ chunk rest =>
      dsimp only at hlock
      split at hlock
      · cases hlock
      · rename_i hrest
        by_cases hd : d = c
        · refine ⟨rest, ?_⟩
          rw [hd, conns_setConn_self]
          exact if_neg hrest
        · exact hother hlock hd
  | rejectFail => cases hlock
  | start hhandler | readHandshake hhandler | handshakeReadFail hhandler
  | handshakeReadTimeout hhandler | insertNonce hhandler | writeAccept hhandler
  | acceptFail hhandler | acceptTimeout hhandler | flushAccept hhandler | flushFail hhandler
  | flushTimeout hhandler | readName hhandler | nameReadFail hhandler | nameReadTimeout hhandler
  | register hhandler | emitJoin hhandler | writeNotice hhandler | noticeFail hhandler
  | spawnReader hhandler | subscribe hhandler | readerDone hhandler | shutdown hhandler
  | abortWriter hhandler | deregister hhandler | emitLeave hhandler =>
      by_cases hd : d = c
      · obtain ⟨rest, hreject⟩ := hphase hlock hd
        rw [hreject] at hhandler
        cases hhandler
      · exact hother hlock hd

/-- Only handlers touch the lock. -/
theorem Step.nonceLock {l : Label} (h : Step X cfg l s t) (hl : ∀ c l', l ≠ .handler c l') :
    t.nonceLock = s.nonceLock := by
  cases h with
  | user h => cases h <;> rfl
  | host h => cases h <;> rfl
  | accept h => cases h <;> rfl
  | handler => exact absurd rfl (hl _ _)
  | reader h => cases h <;> rfl
  | writer h => cases h <;> rfl
  | net h => cases h <;> rfl
  | tick => rfl

theorem Step.lockHeld (h : Step X cfg l s t) (hs : LockHeld s) : LockHeld t := by
  by_cases hl : ∃ c l', l = .handler c l'
  · obtain ⟨c, l', rfl⟩ := hl
    cases h with
    | handler h => exact h.lockHeld hs
  · push Not at hl
    intro c hlock
    rw [h.nonceLock hl] at hlock
    -- a connection that is being accepted holds no lock
    rw [h.observe (fun handler => ∃ rest, handler = .rejectReused rest) (by simp) (hl c)]
    exact hs c hlock

theorem RoomReachable.lockHeld (hs : RoomReachable X cfg s) : LockHeld s := by
  obtain ⟨now, hreach⟩ := hs
  exact hreach.invariant (I := LockHeld) (fun _ hlock => by cases hlock)
    fun hs hstep => hstep.lockHeld hs

/-! ## Milestones -/

/-- How far a handler has got: it has registered its peer, deregistered it, and
emitted its leave event. -/
def Handler.milestone : Handler → ℕ
  | .emitJoin _ | .notifyJoin .. | .spawnReader _ | .subscribe _ | .serve _ | .abortWriter _
  | .deregister _ => 1
  | .emitLeave _ => 2
  | .ended _ => 3
  | _ => 0

theorem Handler.milestone_eq (h : Handler) :
    h.milestone = match h.standing with
      | .outside => 0
      | .entered _ | .announced _ => 1
      | .removed _ => 2
      | .left _ => 3 := by
  cases h <;> rfl

theorem Handler.Over.registered {h : Handler} (hover : h.Over) : h.registered = none := by
  cases h with
  | idle | ended | failed => rfl
  | _ => cases hover

theorem Handler.Over.milestone {h : Handler} (hover : h.Over) :
    h.milestone = 0 ∨ h.milestone = 3 := by
  cases h with
  | idle | failed => exact .inl rfl
  | ended => exact .inr rfl
  | _ => cases hover

/-- The steps by which a handler gets further, with the milestone before them. -/
def HandlerLabel.milestone : HandlerLabel → Option ℕ
  | .register => some 0
  | .deregister => some 1
  | .emitLeave => some 2
  | _ => none

/-- A handler passes its milestones one by one. -/
theorem HandlerStep.milestone {l : HandlerLabel} (h : HandlerStep X c l s t) :
    (∃ n, l.milestone = some n ∧ (s.conns c).handler.milestone = n ∧
      (t.conns c).handler.milestone = n + 1) ∨
    (l.milestone = none ∧ (t.conns c).handler.milestone = (s.conns c).handler.milestone) := by
  cases h.standing with
  | register hphase hafter =>
      exact .inl ⟨0, rfl, by rw [hphase]; rfl, by rw [hafter]; rfl⟩
  | deregister hphase hafter =>
      exact .inl ⟨1, rfl, by rw [hphase]; rfl, by rw [hafter]; rfl⟩
  | emitLeave hphase hafter =>
      exact .inl ⟨2, rfl, by rw [hphase]; rfl, by rw [hafter]; rfl⟩
  | emitJoin hphase hafter =>
      refine .inr ⟨rfl, ?_⟩
      rw [Handler.milestone_eq, hafter, hphase]
      rfl
  | keep hl hsame =>
      refine .inr ⟨?_, by rw [Handler.milestone_eq, Handler.milestone_eq, hsame]⟩
      cases l with
      | register | deregister | emitLeave => exact absurd hl (by simp)
      | _ => rfl

/-- The history of a connection: each milestone it has passed was one step of its
handler. -/
structure Milestones (ls : List Label) (s : Room) (c : ConnId) : Prop where
  register : ls.count (.handler c .register) = min 1 (s.conns c).handler.milestone
  deregister : ls.count (.handler c .deregister) = min 1 ((s.conns c).handler.milestone - 1)
  emitLeave : ls.count (.handler c .emitLeave) = min 1 ((s.conns c).handler.milestone - 2)

theorem Step.milestones {ls : List Label} (h : Step X cfg l s t) (hs : Milestones ls s c) :
    Milestones (ls ++ [l]) t c := by
  have hcount : ∀ k, (ls ++ [l]).count (.handler c k) =
      ls.count (.handler c k) + if l = .handler c k then 1 else 0 := fun k => by
    rw [List.count_append, List.count_singleton]
    simp only [beq_iff_eq]
  by_cases hl : ∃ l', l = .handler c l'
  · obtain ⟨l', rfl⟩ := hl
    cases h with
    | handler h =>
        obtain ⟨hregister, hderegister, hemitLeave⟩ := hs
        rcases h.milestone with ⟨n, hpass, hbefore, hafter⟩ | ⟨hnone, hsame⟩
        · -- the counter of the milestone that is passed goes up with it
          cases l' with
          | register | deregister | emitLeave =>
              cases hpass
              constructor <;> rw [hcount] <;> simp <;> omega
          | _ => cases hpass
        · -- no counter goes up without a milestone
          have hne : ∀ k, k.milestone ≠ none →
              (Label.handler c l' = .handler c k ↔ False) := fun k hk => by
            constructor
            · intro heq
              cases heq
              exact hk hnone
            · exact False.elim
          constructor <;> rw [hcount, hsame,
            if_neg (by rw [hne _ (by simp [HandlerLabel.milestone])]; exact id)]
            <;> assumption
  · push Not at hl
    have hsame : (t.conns c).handler.milestone = (s.conns c).handler.milestone :=
      h.observe Handler.milestone rfl hl
    obtain ⟨hregister, hderegister, hemitLeave⟩ := hs
    constructor <;> rw [hcount, hsame, if_neg (hl _)] <;> assumption

theorem milestones_of_run {now : ℕ} {ls : List Label} (hrun : RoomRun X cfg (Room.init now) ls s)
    (c : ConnId) : Milestones ls s c :=
  Run.history (I := fun ls s => Milestones ls s c) hrun ⟨rfl, rfl, rfl⟩
    fun hs hstep => hstep.milestones hs

/-! ## Rooms that have quit -/

/-- No task of the room has a step to take, nor has a call of `quit`. -/
structure Halted (X : Crates) (cfg : HostConfig) (s : Room) : Prop where
  quiescent : Quiescent X cfg s
  quit : ∀ t, ¬ Step X cfg (.user .quitSend) s t

/-- The handler waits for bytes of the handshake. -/
def Handler.ReadsHandshake : Handler → Prop
  | .readHandshake .. | .readName .. => True
  | _ => False

/-- A call of `quit` that is not under way any more has raised the signal. -/
theorem Halted.signalled (h : Halted X cfg s) (hquit : s.quitFlag = true) : s.Signalled := by
  by_contra hcalm
  simp only [Room.Signalled, Room.ShutdownReady, not_or, not_not, Bool.not_eq_false] at hcalm
  exact h.quit _ (.user (.quitSend hquit hcalm.2 hcalm.1))

/-- **In a room at rest that was told to shut down every handler has returned**, unless it
waits for the handshake of its client. -/
theorem Quiescent.over_or_reads (hrest : Quiescent X cfg s) (hs : RoomReachable X cfg s)
    (hsignal : s.Signalled) (c : ConnId) :
    (s.conns c).handler.Over ∨ (s.conns c).handler.ReadsHandshake := by
  have hlock : s.nonceLock = none := by
    cases hholder : s.nonceLock with
    | none => rfl
    | some d =>
        obtain ⟨rest, hreject⟩ := hs.lockHeld d hholder
        cases hrest _ _ (.handler (l := .writeFail "") (.rejectFail hreject))
  cases hphase : (s.conns c).handler with
  | idle | ended | failed => exact .inl trivial
  | readHandshake | readName => exact .inr trivial
  | spawned => cases hrest _ _ (.handler (.start hphase))
  | lockNonces nonce discriminator =>
      by_cases hused : nonce ∈ s.used
      · cases hrest _ _ (.handler (.refuseNonce hphase hlock hused))
      · cases hrest _ _ (.handler (.insertNonce hphase hlock hused))
  | rejectReused => cases hrest _ _ (.handler (l := .writeFail "") (.rejectFail hphase))
  | writeAccept => cases hrest _ _ (.handler (l := .writeFail "") (.acceptFail hphase))
  | flushAccept => cases hrest _ _ (.handler (.flushAccept hphase))
  | register => cases hrest _ _ (.handler (.register hphase))
  | emitJoin => cases hrest _ _ (.handler (.emitJoin hphase))
  | notifyJoin => cases hrest _ _ (.handler (l := .writeFail "") (.noticeFail hphase))
  | spawnReader => cases hrest _ _ (.handler (.spawnReader hphase))
  | subscribe => cases hrest _ _ (.handler (.subscribe hphase))
  | serve =>
      -- the handler has seen no signal, and there is one
      have hseen := hs.unseen c (by rw [hphase]; exact id)
      have hready : s.ShutdownReady (s.conns c).watchSeen := by
        rw [hseen]
        exact hsignal
      cases hrest _ _ (.handler (.shutdown hphase hready))
  | abortWriter => cases hrest _ _ (.handler (.abortWriter hphase))
  | deregister => cases hrest _ _ (.handler (.deregister hphase))
  | emitLeave => cases hrest _ _ (.handler (.emitLeave hphase))

/-- **When a room that has quit comes to rest every handler has returned.** -/
theorem Halted.over (h : Halted X cfg s) (hs : RoomReachable X cfg s) (hquit : s.quitFlag = true)
    (hreads : ∀ c, ¬ (s.conns c).handler.ReadsHandshake) (c : ConnId) :
    (s.conns c).handler.Over :=
  (h.quiescent.over_or_reads hs (h.signalled hquit) c).resolve_right (hreads c)

/-- The step of the handler that takes its peer off the map. -/
theorem Step.deregistered {s t : Room} (h : Step X cfg (.handler c .deregister) s t) :
    ∃ info, (s.conns c).handler = .deregister info ∧ (t.conns c).handler = .emitLeave info ∧
      t.peers = Function.update s.peers info.id none := by
  cases h with
  | handler h =>
      cases h with
      | deregister hphase => exact ⟨_, hphase, congrArg Conn.handler (conns_setConn_self ..), rfl⟩

/-- The step of the handler that tells the host: the event is on the stream, unless that is full
or closed. -/
theorem Step.leftTold {s t : Room} (h : Step X cfg (.handler c .emitLeave) s t) :
    ∃ info, (s.conns c).handler = .emitLeave info ∧ (t.conns c).handler = .ended info ∧
      t.events = s.events.trySend eventChanCap (.peerLeave info.id) := by
  cases h with
  | handler h =>
      cases h with
      | emitLeave hphase => exact ⟨_, hphase, congrArg Conn.handler (conns_setConn_self ..), rfl⟩

/-- **Shutdown is never missed by a peer handler.**  In a room at rest that has quit the map is
empty, and every connection that was registered has taken the step that deregisters it, and
then the step that sends its leave event, once each. -/
theorem quit_clears_the_room (now : ℕ) (ls : List Label)
    (hrun : RoomRun X cfg (Room.init now) ls s) (hquit : s.quitFlag = true)
    (hhalted : Halted X cfg s) (hreads : ∀ c, ¬ (s.conns c).handler.ReadsHandshake) :
    (∀ p, s.peers p = none) ∧
      (∀ c, .handler c .register ∈ ls →
        ls.count (.handler c .register) = 1 ∧ ls.count (.handler c .deregister) = 1 ∧
          ls.count (.handler c .emitLeave) = 1) ∧
      (∀ c u v, Step X cfg (.handler c .deregister) u v → ∃ info,
        (u.conns c).handler = .deregister info ∧ (v.conns c).handler = .emitLeave info ∧
          v.peers = Function.update u.peers info.id none) ∧
      ∀ c u v, Step X cfg (.handler c .emitLeave) u v → ∃ info,
        (u.conns c).handler = .emitLeave info ∧ (v.conns c).handler = .ended info ∧
          v.events = u.events.trySend eventChanCap (.peerLeave info.id) := by
  have hs : RoomReachable X cfg s := ⟨now, hrun.reachable⟩
  have hover := hhalted.over hs hquit hreads
  refine ⟨?_, ?_, fun c u v h => h.deregistered, fun c u v h => h.leftTold⟩
  · intro p
    -- an entry would belong to a registered handler, and all of them have returned
    cases hentry : s.peers p with
    | none => rfl
    | some info =>
        obtain ⟨-, c, hreg⟩ := hs.backed p info hentry
        rw [(hover c).registered] at hreg
        cases hreg
  · intro c hmem
    obtain ⟨hregister, hderegister, hemitLeave⟩ := milestones_of_run hrun c
    have hpos := List.count_pos_iff.mpr hmem
    -- a handler that has returned and has registered has passed all milestones
    have hended : (s.conns c).handler.milestone = 3 := by
      rcases (hover c).milestone with hnone | hall
      · rw [hregister, hnone] at hpos
        cases hpos
      · exact hall
    rw [hended] at hregister hderegister hemitLeave
    exact ⟨hregister, hderegister, hemitLeave⟩

/-! ### Ann's room quits -/

/-- A room whose loops have ended and whose connections are done halts. -/
theorem halted_of_over (hhost : s.host = .ended) (haccept : s.accept = .ended)
    (hwatch : s.watchVersion ≠ 0) (hhandlers : ∀ c, (s.conns c).handler.Over)
    (hreaders : ∀ c, (s.conns c).reader = .unspawned ∨ ∃ reason, (s.conns c).reader = .ended reason)
    (hwriters : ∀ c, (s.conns c).writer = .unspawned ∨ (s.conns c).writer = .ended) :
    Halted X cfg s := by
  constructor
  · intro l t h
    cases h with
    | user | net | tick => trivial
    | host h =>
        cases h with
        | created | createFailed => trivial
        | sendReady hphase | sendReadyClosed hphase | publishInvite hphase | spawnAccept hphase
        | shutdown hphase | takeText hphase | sendClosed hphase | echo hphase | broadcast hphase
        | takeMessage hphase | deliver hphase | close hphase | abortAccept hphase
        | joinAccept hphase | sendError hphase | sendErrorClosed hphase | failedShutdown hphase
        | failedTakeText hphase | failedSendClosed hphase | failedClose hphase =>
            rw [hhost] at hphase
            cases hphase
    | accept h =>
        cases h with
        | accept | sourceEnded => trivial
        | shutdown hphase | cancel hphase =>
            rw [haccept] at hphase
            cases hphase
    | handler h => exact absurd (hhandlers _) h.not_over
    | reader h =>
        rcases hreaders _ with hnone | ⟨reason, hended⟩
        · exact absurd hnone h.spawned.1
        · exact absurd hended (h.not_ended reason)
    | writer h =>
        rcases hwriters _ with hnone | hended
        · exact absurd hnone h.spawned.1
        · exact absurd hended h.not_ended
  · intro t h
    cases h with
    | user h =>
        cases h with
        | quitSend _ _ hfirst => exact hwatch hfirst

/-- The steps by which Ann's room winds up. -/
def vacateLabels : List Label :=
  quitLabels ++ [.host .close, .accept .shutdown, .host .abortAccept, .host .joinAccept,
    .handler 0 .shutdown, .handler 0 .abortWriter, .handler 0 .deregister,
    .handler 0 .emitLeave, .reader 0 .cancel, .writer 0 .cancel]

/-- Ann's room when everything has ended. -/
def Room.vacated : Room :=
  setConn
    { Room.visited.closed with
      accept := .ended
      acceptSeen := 1
      acceptAborted := true
      msgs := Room.visited.msgs.close
      sendQ := Room.visited.sendQ.close
      host := .ended
      peers := Function.update Room.visited.peers ann.id none
      events := Room.visited.closed.events.trySend eventChanCap (.peerLeave ann.id) }
    0
    { Room.visited.conns 0 with
      watchSeen := 1
      readerAborted := true
      writerAborted := true
      handler := .ended ann
      reader := .ended .cancelled
      writer := .ended }

theorem run_vacate : RoomRun .standard ⟨"host", 300⟩ Room.visited vacateLabels Room.vacated := by
  have hrun : RoomRun .standard ⟨"host", 300⟩ Room.visited _ _ :=
    run_quit rfl rfl rfl rfl rfl
  have hrun := hrun.snoc (step_close .standard ⟨"host", 300⟩ _)
  have hrun := hrun.snoc (.accept (.shutdown rfl (.inl (by decide))))
  have hrun := hrun.snoc (.host (.abortAccept rfl))
  have hrun := hrun.snoc (.host (.joinAccept rfl rfl))
  have hrun := hrun.snoc (.handler (c := 0) (.shutdown (show _ = Handler.serve ann from rfl)
    (.inl (by decide))))
  have hrun := hrun.snoc
    (.handler (c := 0) (.abortWriter (show _ = Handler.abortWriter ann from rfl)))
  have hrun := hrun.snoc
    (.handler (c := 0) (.deregister (show _ = Handler.deregister ann from rfl)))
  have hrun := hrun.snoc (.handler (c := 0) (.emitLeave (show _ = Handler.emitLeave ann from rfl)))
  have hrun := hrun.snoc (.reader (c := 0)
    (.cancel rfl Reader.noConfusion fun _ => Reader.noConfusion))
  refine hrun.extend (.writer (c := 0) (.cancel rfl Writer.noConfusion Writer.noConfusion)) ?_
  simp [setConn, Room.vacated]
  exact ⟨rfl, rfl, rfl, rfl, rfl⟩

theorem quit_clears_the_room_vacated :
    (∀ p, Room.vacated.peers p = none) ∧
      (arriveLabels ++ [Label.handler 0 .emitJoin] ++ visitLabels ++ vacateLabels).count
        (Label.handler 0 .emitLeave) = 1 ∧ .peerLeave ann.id ∈ Room.vacated.events.sent := by
  have hothers : ∀ c ≠ 0, Room.vacated.conns c = Conn.fresh := fun c hc => by
    rw [Room.vacated, conns_setConn_of_ne _ _ _ _ hc]
    exact conns_visited hc
  have hconns : ∀ P : Conn → Prop, P (Room.vacated.conns 0) → P Conn.fresh →
      ∀ c, P (Room.vacated.conns c) := fun P hann hfresh c => by
    by_cases hc : c = 0
    · exact hc ▸ hann
    · rw [hothers c hc]
      exact hfresh
  have hrun := ((run_arrive.append (.single step_arrive)).append run_visit).append run_vacate
  have hhalted : Halted .standard ⟨"host", 300⟩ Room.vacated :=
    halted_of_over rfl rfl (by decide)
      (hconns (fun k : Conn => k.handler.Over) trivial trivial)
      (hconns (fun k : Conn => k.reader = .unspawned ∨ ∃ reason, k.reader = .ended reason)
        (.inr ⟨_, rfl⟩) (.inl rfl))
      (hconns (fun k : Conn => k.writer = .unspawned ∨ k.writer = .ended) (.inr rfl) (.inl rfl))
  have hlaw := quit_clears_the_room 0 _ hrun rfl hhalted
    (hconns (fun k : Conn => ¬ k.handler.ReadsHandshake) id id)
  exact ⟨hlaw.1, (hlaw.2.1 0 (by decide)).2.2, by decide⟩

end Nullpipe

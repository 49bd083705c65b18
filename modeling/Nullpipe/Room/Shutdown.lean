import Nullpipe.Room.Handshake

/-!
# Shutdown

The shutdown signal is a watch channel: it is raised once, by `quit` or by freeing
the last handle, and never lowered (`Step.signalled`).  Every task has a receiver of its own,
and none of them sees a signal that was not raised.

* `Signals` is the invariant of the receivers: what the host loop, the accept loop and every
  handler have seen is the initial version unless the signal was raised, and no reader is
  aborted and no accept loop cancelled without it.  `Step.receivers` covers all tasks but the
  host loop, which has a lemma of its own.
* `Room.Ceased`: the host loop takes no further message, since it has left its select or will
  see the signal first, by the `biased` order of its branches (`Signals.not_ceased`).
* `RoomReachable.msgs_open`: the message channel is closed only by a host loop that has
  stopped.

The last section is about the other end of a session: a handler that has left its select has
seen its reader end or has aborted it (`Conn.LeftBy`), and tasks that have ended do not come
back (`Step.reader_ended`).  With that, a peer that has left puts nothing more on a channel
anybody reads.
-/

namespace Nullpipe

open Channel Room Transition

variable {X : Crates} {cfg : HostConfig} {s t : Room} {c : ConnId} {l : Label}

/-! ## The signal -/

/-- The shutdown signal has been raised: a receiver that has seen nothing yet is
ready. -/
def Room.Signalled (s : Room) : Prop := s.ShutdownReady 0

/-- The host loop has left its select for good. -/
def HostLoop.Stopped : HostLoop → Prop
  | .closing | .abortAccept | .joinAccept | .ended | .failedClosing => True
  | _ => False

/-- The host loop takes no more messages: it has stopped, or the signal comes
first. -/
def Room.Ceased (s : Room) : Prop := s.Signalled ∨ s.host.Stopped

instance (s : Room) : Decidable s.Signalled := inferInstanceAs (Decidable (s.ShutdownReady 0))

instance : DecidablePred HostLoop.Stopped
  | .closing | .abortAccept | .joinAccept | .ended | .failedClosing => .isTrue trivial
  | .creating | .sendReady _ | .publishInvite _ | .spawnAccept | .select | .echo _
  | .broadcast _ | .deliver .. | .sendError _ | .failedSelect => .isFalse id

instance (s : Room) : Decidable s.Ceased := inferInstanceAs (Decidable (_ ∨ _))

theorem Step.signalled (h : Step X cfg l s t) (hs : s.Signalled) : t.Signalled := by
  cases h with
  | user h =>
      cases h with
      | quitSend => exact .inl (by simp)
      | dropWatch => exact .inr rfl
      | _ => exact hs
  | host h => cases h <;> exact hs
  | accept h => cases h <;> exact hs
  | handler h => cases h <;> exact hs
  | reader h => cases h <;> exact hs
  | writer h => cases h <;> exact hs
  | net h => cases h <;> exact hs
  | tick => exact hs

/-- A user quits or drops the last handle. -/
def UserLabel.Leaves : UserLabel → Prop
  | .quitSend | .dropSend | .dropWatch => True
  | _ => False

/-- Without that nobody raises the signal or closes the queue of texts. -/
theorem Step.calm (h : Step X cfg l s t) (hl : ∀ l', l = .user l' → ¬ l'.Leaves)
    (hcalm : ¬ s.Signalled) (hopen : s.sendOpen = true) : ¬ t.Signalled ∧ t.sendOpen = true := by
  cases h with
  | user h =>
      have hstays := hl _ rfl
      cases h with
      | quitSend | dropSend | dropWatch => exact absurd trivial hstays
      | _ => exact ⟨hcalm, hopen⟩
  | host h => cases h <;> exact ⟨hcalm, hopen⟩
  | accept h => cases h <;> exact ⟨hcalm, hopen⟩
  | handler h => cases h <;> exact ⟨hcalm, hopen⟩
  | reader h => cases h <;> exact ⟨hcalm, hopen⟩
  | writer h => cases h <;> exact ⟨hcalm, hopen⟩
  | net h => cases h <;> exact ⟨hcalm, hopen⟩
  | tick => exact ⟨hcalm, hopen⟩

theorem Step.stopped (h : Step X cfg l s t) (hs : s.host.Stopped) : t.host.Stopped := by
  by_cases hl : ∃ l', l = .host l'
  · obtain ⟨l', rfl⟩ := hl
    cases h with
    | host h =>
        cases h with
        | close | abortAccept | joinAccept | failedClose | sendClosed | failedSendClosed
        | shutdown | failedShutdown => trivial
        | created hphase | createFailed hphase | sendReady hphase | sendReadyClosed hphase
        | publishInvite hphase | spawnAccept hphase | takeText hphase | echo hphase
        | broadcast hphase | takeMessage hphase | deliver hphase | sendError hphase
        | sendErrorClosed hphase | failedTakeText hphase =>
            rw [hphase] at hs
            cases hs
  · rw [h.host_eq fun l' heq => hl ⟨l', heq⟩]
    exact hs

theorem Step.ceased (h : Step X cfg l s t) (hs : s.Ceased) : t.Ceased :=
  hs.imp h.signalled h.stopped

/-! ## The receivers -/

/-- No receiver has seen a signal that was not raised, and no reader is aborted
without one. -/
structure Signals (s : Room) : Prop where
  host : s.hostSeen = 0 ∨ s.host.Stopped
  accept : s.accept = .running → s.acceptSeen = 0
  conn : ∀ c, (s.conns c).watchSeen = 0 ∨ s.Signalled
  aborted : ∀ c, (s.conns c).readerAborted = true → s.Signalled

theorem Signals.init (now : ℕ) : Signals (Room.init now) :=
  ⟨.inl rfl, fun _ => rfl, fun _ => .inl rfl, nofun⟩

theorem HostStep.signals {l : HostLabel} (h : HostStep cfg l s t) (hs : Signals s) :
    (t.hostSeen = 0 ∨ t.host.Stopped) ∧ (t.accept = .running → t.acceptSeen = 0) := by
  cases h with
  | shutdown | failedShutdown | sendClosed => exact ⟨.inr trivial, hs.accept⟩
  | spawnAccept hphase =>
      have hseen : s.hostSeen = 0 := hs.host.resolve_right fun hstopped => by
        rw [hphase] at hstopped
        cases hstopped
      exact ⟨.inl hseen, fun _ => hseen⟩
  | close | abortAccept | joinAccept | failedClose | failedSendClosed =>
      exact ⟨.inr trivial, hs.accept⟩
  | created hphase | createFailed hphase | sendReady hphase | sendReadyClosed hphase
  | publishInvite hphase | takeText hphase | echo hphase | broadcast hphase
  | takeMessage hphase | deliver hphase | sendError hphase | sendErrorClosed hphase
  | failedTakeText hphase =>
      refine ⟨.inl (hs.host.resolve_right fun hstopped => ?_), hs.accept⟩
      rw [hphase] at hstopped
      cases hstopped

/-- What a step does to the shutdown receivers outside the host loop. -/
theorem Step.receivers (h : Step X cfg l s t) (hl : ∀ l', l ≠ .host l') (hs : Signals s) :
    t.hostSeen = s.hostSeen ∧ (t.accept = .running → t.acceptSeen = 0) ∧
      ∀ c, ((t.conns c).watchSeen = 0 ∨ s.Signalled) ∧
        ((t.conns c).readerAborted = true → s.Signalled) := by
  have hkeep : ∀ d, t.conns d = s.conns d → ((t.conns d).watchSeen = 0 ∨ s.Signalled) ∧
      ((t.conns d).readerAborted = true → s.Signalled) := fun d hsame => by
    rw [hsame]
    exact ⟨hs.conn d, hs.aborted d⟩
  cases h with
  | user h =>
      refine ⟨by cases h <;> rfl, ?_, fun d => hkeep d (by rw [h.conns])⟩
      cases h <;> exact hs.accept
  | host h => exact absurd rfl (hl _)
  | accept h =>
      cases h with
      | @accept _ c hphase =>
          refine ⟨rfl, hs.accept, fun d => ?_⟩
          by_cases hd : d = c
          · rw [hd, conns_setConn_self]
            exact ⟨.inl (hs.accept hphase), hs.aborted c⟩
          · exact hkeep d (conns_setConn_of_ne _ _ _ _ hd)
      | shutdown | sourceEnded | cancel => exact ⟨rfl, nofun, fun d => hkeep d rfl⟩
  | @handler c _ _ _ h =>
      refine ⟨by cases h <;> rfl, by cases h <;> exact hs.accept, fun d => ?_⟩
      by_cases hd : d = c
      · rw [hd]
        cases h with
        | shutdown _ hready =>
            -- the receiver was ready, and it had seen nothing before
            have hsignal : s.Signalled := by
              rcases hs.conn c with hseen | hsignal
              · rwa [hseen] at hready
              · exact hsignal
            exact ⟨.inr hsignal, fun _ => hsignal⟩
        | _ =>
            rw [conns_setConn_self]
            exact ⟨hs.conn c, hs.aborted c⟩
      · exact hkeep d (h.conns_of_ne hd)
  | @reader c _ _ _ h =>
      refine ⟨by cases h <;> rfl, by cases h <;> exact hs.accept, fun d => ?_⟩
      by_cases hd : d = c
      · rw [hd, h.frame.2.1, h.frame.2.2.1]
        exact ⟨hs.conn c, hs.aborted c⟩
      · exact hkeep d (h.conns_of_ne hd)
  | @writer c _ _ _ h =>
      refine ⟨by cases h <;> rfl, by cases h <;> exact hs.accept, fun d => ?_⟩
      by_cases hd : d = c
      · rw [hd, h.frame.2.1, h.frame.2.2.2.1]
        exact ⟨hs.conn c, hs.aborted c⟩
      · exact hkeep d (h.conns_of_ne hd)
  | @net c _ _ _ h =>
      refine ⟨by cases h <;> rfl, by cases h <;> exact hs.accept, fun d => ?_⟩
      by_cases hd : d = c
      · rw [hd, h.frame.2.1, h.frame.2.2.2.1]
        exact ⟨hs.conn c, hs.aborted c⟩
      · exact hkeep d (h.conns_of_ne hd)
  | tick => exact ⟨rfl, hs.accept, fun d => hkeep d rfl⟩

/-- One step keeps the receivers honest. -/
theorem Step.signals (h : Step X cfg l s t) (hs : Signals s) : Signals t := by
  by_cases hl : ∃ l', l = .host l'
  · obtain ⟨l', rfl⟩ := hl
    have hsignalled := h.signalled
    cases h with
    | host h =>
        -- the host loop has no part in what the connections have seen
        obtain ⟨hhost, haccept⟩ := h.signals hs
        refine ⟨hhost, haccept, fun c => ?_, fun c => ?_⟩
        · rw [h.conns]
          exact (hs.conn c).imp_right hsignalled
        · rw [h.conns]
          exact fun haborted => hsignalled (hs.aborted c haborted)
  · push Not at hl
    obtain ⟨hseen, haccept, hconns⟩ := h.receivers hl hs
    exact ⟨by rw [hseen, h.host_eq hl]; exact hs.host, haccept,
      fun c => (hconns c).1.imp_right h.signalled,
      fun c haborted => h.signalled ((hconns c).2 haborted)⟩

theorem RoomReachable.signals (hs : RoomReachable X cfg s) : Signals s := by
  obtain ⟨now, hreach⟩ := hs
  exact hreach.invariant (.init now) fun hs hstep => hstep.signals hs

/-- A host loop that takes a message has not ceased. -/
theorem Signals.not_ceased (hs : Signals s) (hhost : s.host = .select)
    (hready : ¬ s.ShutdownReady s.hostSeen) : ¬ s.Ceased := by
  have hstopped : ¬ s.host.Stopped := by
    rw [hhost]
    exact id
  rintro (hsignalled | hhostStopped)
  · rw [hs.host.resolve_right hstopped] at hready
    exact hready hsignalled
  · exact hstopped hhostStopped

/-- The message channel is closed only by a host loop that has stopped. -/
theorem Step.msgs_open (h : Step X cfg l s t)
    (hs : s.msgs.isOpen = true ∨ s.host.Stopped) : t.msgs.isOpen = true ∨ t.host.Stopped := by
  refine hs.elim (fun hopen => ?_) fun hstopped => .inr (h.stopped hstopped)
  cases h with
  | user h => cases h <;> exact .inl hopen
  | host h =>
      cases h with
      | joinAccept => exact .inr trivial
      | _ => exact .inl hopen
  | accept h => cases h <;> exact .inl hopen
  | handler h => cases h <;> exact .inl hopen
  | reader h => cases h <;> exact .inl hopen
  | writer h => cases h <;> exact .inl hopen
  | net h => cases h <;> exact .inl hopen
  | tick => exact .inl hopen

theorem RoomReachable.msgs_open (hs : RoomReachable X cfg s) :
    s.msgs.isOpen = true ∨ s.host.Stopped := by
  obtain ⟨now, hreach⟩ := hs
  exact hreach.invariant (I := fun s => s.msgs.isOpen = true ∨ s.host.Stopped) (.inl rfl)
    fun hs hstep => hstep.msgs_open hs

/-! ## Handlers that leave -/

/-- A handler that has left its select has seen its reader end or aborted it. -/
def Conn.LeftBy (k : Conn) : Prop :=
  k.handler.Gone → k.readerAborted = true ∨ ∃ reason, k.reader = .ended reason

theorem HandlerStep.leftBy {l : HandlerLabel} (h : HandlerStep X c l s t)
    (hs : (s.conns c).LeftBy) : (t.conns c).LeftBy := by
  cases h with
  -- the two ways out of the select
  | readerDone hphase hreader =>
      exact fun _ => .inr ⟨_, by rw [conns_setConn_self]; exact hreader⟩
  | shutdown => exact fun _ => .inl (by rw [conns_setConn_self])
  | abortWriter hphase | deregister hphase | emitLeave hphase =>
      have hbefore := hs (by rw [hphase]; trivial)
      intro _
      rw [conns_setConn_self]
      exact hbefore
  | writeReject | writeAccept | writeNotice =>
      intro hgone
      rw [conns_setConn_self] at hgone
      dsimp only at hgone
      split at hgone <;> cases hgone
  | readHandshake =>
      intro hgone
      rw [conns_setConn_self] at hgone
      exact (handshakeRead_cases (P := fun h => ¬ h.Gone) (fun _ _ => id) (fun _ _ => id)
        _ _ hgone).elim
  | readName =>
      intro hgone
      rw [conns_setConn_self] at hgone
      exact (nameRead_cases (P := fun h => ¬ h.Gone) (fun _ _ _ => id) (fun _ => id)
        (fun _ => id) _ _ _ _ _ hgone).elim
  | emitJoin =>
      intro hgone
      rw [conns_setConn_self] at hgone
      exact (afterEmitJoin_cases (P := fun h => ¬ h.Gone) (fun _ => id) id _ hgone).elim
  | start | handshakeReadFail | handshakeReadTimeout | insertNonce | refuseNonce | rejectFail
  | acceptFail | acceptTimeout | flushAccept | flushFail | flushTimeout | nameReadFail
  | nameReadTimeout | register | noticeFail | spawnReader | subscribe =>
      intro hgone
      rw [conns_setConn_self] at hgone
      cases hgone

/-- A reader that has ended does not step. -/
theorem ReaderStep.not_ended {l : ReaderLabel} (h : ReaderStep X c l s t) (reason : ReaderEnd) :
    (s.conns c).reader ≠ .ended reason := by
  cases h with
  | start hphase | read hphase | message hphase | ping hphase | badFrame hphase
  | badMessage hphase | readFail hphase | readTimeout hphase | send hphase | sendClosed hphase =>
      rw [hphase]
      exact Reader.noConfusion
  | cancel _ _ hlive => exact hlive reason

/-- A writer that has ended does not step. -/
theorem WriterStep.not_ended {l : WriterLabel} (h : WriterStep X c l s t) :
    (s.conns c).writer ≠ .ended := by
  cases h with
  | recv hphase | lagged hphase | closed hphase | write hphase | writeFail hphase
  | writeTimeout hphase | flush hphase | flushFail hphase | flushTimeout hphase =>
      rw [hphase]
      exact Writer.noConfusion
  | cancel _ _ hlive => exact hlive

/-- A reader that has ended is not spawned again. -/
theorem Step.reader_ended (h : Step X cfg l s t) (hs : (s.conns c).Coherent X)
    {reason : ReaderEnd} (hended : (s.conns c).reader = .ended reason) :
    (t.conns c).reader = .ended reason := by
  by_cases hconn : l.conn = some c
  · cases h.connStep hconn with
    | accept =>
        rwa [conns_setConn_self]
    | handler h =>
        cases h with
        -- a handler that is about to spawn its reader has none yet
        | spawnReader hphase =>
            have hspawned := hs.spawned
            rw [hphase] at hspawned
            rw [hspawned.1] at hended
            cases hended
        | _ => rwa [conns_setConn_self]
    | reader h =>
        exact absurd hended (h.not_ended reason)
    | writer h =>
        rwa [h.frame.2.2.1]
    | net h =>
        rwa [h.frame.2.2.1]
  · rwa [h.conns_of_ne hconn]

theorem Step.leftBy (h : Step X cfg l s t) (hs : ∀ c, (s.conns c).LeftBy) (c : ConnId) :
    (t.conns c).LeftBy := by
  by_cases hconn : l.conn = some c
  · have hc := hs c
    cases h.connStep hconn with
    | accept =>
        intro hgone
        rw [conns_setConn_self] at hgone
        cases hgone
    | handler h =>
        exact h.leftBy hc
    | reader h =>
        -- a reader that has ended does not step, and an abort stays
        intro hgone
        rw [h.frame.1] at hgone
        rcases hc hgone with haborted | ⟨reason, hended⟩
        · exact .inl (by rw [h.frame.2.2.1]; exact haborted)
        · exact absurd hended (h.not_ended reason)
    | writer h =>
        intro hgone
        rw [h.frame.1] at hgone
        rw [h.frame.2.2.1, h.frame.2.2.2.1]
        exact hc hgone
    | net h =>
        intro hgone
        rw [h.frame.1] at hgone
        rw [h.frame.2.2.1, h.frame.2.2.2.1]
        exact hc hgone
  · rw [h.conns_of_ne hconn]
    exact hs c

theorem RoomReachable.leftBy (hs : RoomReachable X cfg s) (c : ConnId) :
    (s.conns c).LeftBy := by
  obtain ⟨now, hreach⟩ := hs
  exact hreach.invariant (I := fun s => ∀ c, (s.conns c).LeftBy) (fun _ => nofun)
    (fun hs hstep => hstep.leftBy hs) c

end Nullpipe

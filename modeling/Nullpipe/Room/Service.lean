import Nullpipe.Room.Peers
import Nullpipe.Room.Causality

/-!
# Registered peers are served

Reader and writer of a connection are tasks of their own, and its handler waits for
the reader only.  So a reader that ends, for whatever reason, leads to the clean-up
of the connection, but a writer that ends by a timeout leads to nothing: the peer
stays in the map while nothing is written to it.  `registered_is_served` is about
rooms at rest, `Quiescent`, which wait for new input.

Three steps lead from an entry in the map to two running tasks.

* `Backed`: an entry belongs to a connection whose handler is registered.
* `Quiescent.serves`: at rest such a handler is in its select, and its reader runs.  Every
  other phase has a step to take, and a select whose reader has ended has one, too.
* `EndsTogether`: where the writer of a served peer has ended, so has its reader.  This is the
  invariant of the runs that meet `KeepsWriters`; `WriterStep.ended` shows that a write
  timeout is the only way in which a writer ends by itself.

A room at rest is described from the other side by `quiescent_of_atRest`, which the runs at
the end use: ann is served and says nothing, and ann does not read what is written to her.
-/

namespace Nullpipe

open Channel Room Framing Transition

variable {X : Crates} {cfg : HostConfig} {s t : Room} {c : ConnId} {l : Label}

/-! ## Entries -/

/-- An entry of the peers map belongs to a connection that is registered. -/
def Backed (s : Room) : Prop :=
  ∀ p info, s.peers p = some info →
    info.id = p ∧ ∃ c, (s.conns c).handler.registered = some info

theorem Step.backed (h : Step X cfg l s t) (hs : Backed s) : Backed t := by
  intro p info hentry
  rcases h.registered_cases with ⟨c, info', -, hphase, hafter, hpeers, hothers⟩ |
    ⟨c, info', -, hphase, hafter, hpeers, hothers⟩ | ⟨-, -, hsame, hpeers⟩
  · rw [hpeers, Function.update_apply] at hentry
    split at hentry
    · rename_i hp
      cases hentry
      -- the new entry is that of the handler that registers
      exact ⟨hp.symm, c, by rw [hafter]; rfl⟩
    -- it belonged to a handler that was registered before, so not to this one
    · obtain ⟨hid, d, hd⟩ := hs p info hentry
      refine ⟨hid, d, ?_⟩
      rwa [hothers d]
      rintro rfl
      rw [hphase] at hd
      cases hd
  · rw [hpeers, Function.update_apply] at hentry
    split at hentry
    · cases hentry
    · rename_i hp
      -- the handler that deregisters had the id that is gone
      obtain ⟨hid, d, hd⟩ := hs p info hentry
      refine ⟨hid, d, ?_⟩
      rwa [hothers d]
      rintro rfl
      rw [hphase] at hd
      cases hd
      exact hp hid.symm
  · rw [hpeers] at hentry
    obtain ⟨hid, d, hd⟩ := hs p info hentry
    exact ⟨hid, d, (hsame d).trans hd⟩

theorem RoomReachable.backed (hs : RoomReachable X cfg s) : Backed s := by
  obtain ⟨now, hreach⟩ := hs
  exact hreach.invariant (I := Backed) (fun _ _ hentry => by cases hentry)
    fun hs hstep => hstep.backed hs

/-! ## Rooms at rest -/

/-- The steps by which a room gets new input: from its users, its clients, the onion
service and the clock. -/
def Label.Input : Label → Prop
  | .user _ | .net .. | .tick _ | .accept (.accept _) | .accept .sourceEnded
  | .host (.created _) | .host (.createFailed _) => True
  | _ => False

/-- No task of the room has a step to take before new input comes. -/
def Quiescent (X : Crates) (cfg : HostConfig) (s : Room) : Prop :=
  ∀ l t, Step X cfg l s t → l.Input

/-- A connection whose tasks have nothing to do: it is not in use, or its peer is
served, has said nothing and has been told everything. -/
inductive Conn.AtRest (s : Room) (k : Conn) : Prop
  | idle (hhandler : k.handler = .idle) (hreader : k.reader = .unspawned)
      (hwriter : k.writer = .unspawned)
  | serving {info : PeerInfo} {id : PeerId} {deadline : ℕ} (hhandler : k.handler = .serve info)
      (hready : ¬ s.ShutdownReady k.watchSeen) (hreader : k.reader = .reading id [] deadline)
      (hdue : s.now < deadline) (hinbox : k.sock.inbox = []) (hend : k.sock.readEnd = none)
      (habort : k.readerAborted = false) (hwriterAbort : k.writerAborted = false)
      (hwriter : k.writer = .ended ∨ k.writer = .recv ∧ k.cursor = s.bcast.length)

/-- A handler that serves its peer moves only when the reader has ended or the
signal is there. -/
theorem HandlerStep.of_serve {l : HandlerLabel} (h : HandlerStep X c l s t) {info : PeerInfo}
    (hserve : (s.conns c).handler = .serve info) :
    (∃ reason, (s.conns c).reader = .ended reason) ∨ s.ShutdownReady (s.conns c).watchSeen := by
  cases h with
  | readerDone _ hreader => exact .inl ⟨_, hreader⟩
  | shutdown _ hready => exact .inr hready
  | start hphase | readHandshake hphase | handshakeReadFail hphase | handshakeReadTimeout hphase
  | insertNonce hphase | refuseNonce hphase | writeReject hphase | rejectFail hphase
  | writeAccept hphase | acceptFail hphase | acceptTimeout hphase | flushAccept hphase
  | flushFail hphase | flushTimeout hphase | readName hphase | nameReadFail hphase
  | nameReadTimeout hphase | register hphase | emitJoin hphase | writeNotice hphase
  | noticeFail hphase | spawnReader hphase | subscribe hphase | abortWriter hphase
  | deregister hphase | emitLeave hphase =>
      rw [hphase] at hserve
      cases hserve

/-- The handler has not started or has returned. -/
def Handler.Over : Handler → Prop
  | .idle | .ended _ | .failed _ => True
  | _ => False

theorem HandlerStep.not_over {l : HandlerLabel} (h : HandlerStep X c l s t) :
    ¬ (s.conns c).handler.Over := by
  intro hover
  cases h with
  | start hphase | readHandshake hphase | handshakeReadFail hphase | handshakeReadTimeout hphase
  | insertNonce hphase | refuseNonce hphase | writeReject hphase | rejectFail hphase
  | writeAccept hphase | acceptFail hphase | acceptTimeout hphase | flushAccept hphase
  | flushFail hphase | flushTimeout hphase | readName hphase | nameReadFail hphase
  | nameReadTimeout hphase | register hphase | emitJoin hphase | writeNotice hphase
  | noticeFail hphase | spawnReader hphase | subscribe hphase | readerDone hphase
  | shutdown hphase | abortWriter hphase | deregister hphase | emitLeave hphase =>
      rw [hphase] at hover
      cases hover

theorem HandlerStep.not_atRest {l : HandlerLabel} (h : HandlerStep X c l s t) :
    ¬ (s.conns c).AtRest s := by
  intro hrest
  cases hrest with
  | idle hhandler => exact h.not_over (by rw [hhandler]; trivial)
  -- the reader waits for bytes and there is no signal
  | serving hhandler hready hreader =>
      rcases h.of_serve hhandler with ⟨reason, hended⟩ | hshutdown
      · rw [hreader] at hended
        cases hended
      · exact hready hshutdown

theorem ReaderStep.not_atRest {l : ReaderLabel} (h : ReaderStep X c l s t) :
    ¬ (s.conns c).AtRest s := by
  intro hrest
  cases hrest with
  | idle _ hreader => exact h.spawned.1 hreader
  | serving _ _ hreader hdue hinbox hend habort =>
      cases h with
      | read _ htake | message _ htake | ping _ htake | badFrame _ htake | badMessage _ htake =>
          rw [Socket.CanTake, hinbox, List.prefix_nil] at htake
          exact htake.1 htake.2
      | readFail _ hatEnd =>
          rw [Socket.AtEnd, hend] at hatEnd
          cases hatEnd.2
      | readTimeout hphase hover =>
          rw [hreader] at hphase
          cases hphase
          exact Nat.not_le.mpr hdue hover
      | cancel haborted =>
          rw [habort] at haborted
          cases haborted
      | start hphase | send hphase | sendClosed hphase =>
          rw [hreader] at hphase
          cases hphase

/-- A subscriber that has been told everything has nothing to receive. -/
theorem recv_of_length (cap : ℕ) {α : Type*} (log : List α) :
    Broadcast.recv cap log log.length = (.empty, log.length) := by
  rw [Broadcast.recv, if_neg (by omega), List.getElem?_eq_none (Nat.le_refl _)]

theorem WriterStep.not_atRest {l : WriterLabel} (h : WriterStep X c l s t)
    (hhost : s.host ≠ .ended) : ¬ (s.conns c).AtRest s := by
  intro hrest
  cases hrest with
  | idle _ _ hwriter => exact h.spawned.1 hwriter
  | serving _ _ _ _ _ _ _ hwriterAbort hwriter =>
      cases h with
      -- the cursor is at the end of the log
      | recv hphase hrecv | lagged hphase hrecv =>
          rcases hwriter with hended | ⟨-, hcursor⟩
          · rw [hended] at hphase
            cases hphase
          · rw [hcursor, recv_of_length] at hrecv
            cases hrecv
      | closed _ _ hclosed => exact hhost hclosed.1
      | cancel haborted =>
          rw [hwriterAbort] at haborted
          cases haborted
      | write hphase | writeFail hphase | writeTimeout hphase | flush hphase | flushFail hphase
      | flushTimeout hphase =>
          rcases hwriter with hended | ⟨hrecv, -⟩
          · rw [hended] at hphase
            cases hphase
          · rw [hrecv] at hphase
            cases hphase

/-- A room whose queues are empty and whose connections are at rest is quiescent. -/
theorem quiescent_of_atRest (hhost : s.host = .select) (hready : ¬ s.ShutdownReady s.hostSeen)
    (htexts : s.sendQ.queue = []) (hopen : s.sendOpen = true) (hmsgs : s.msgs.queue = [])
    (haccept : ¬ s.ShutdownReady s.acceptSeen) (habort : s.acceptAborted = false)
    (hconns : ∀ c, (s.conns c).AtRest s) : Quiescent X cfg s := by
  intro l t h
  cases h with
  | user | net | tick => trivial
  | host h =>
      cases h with
      | shutdown _ hsignal => exact absurd hsignal hready
      | takeText _ _ hqueue =>
          rw [htexts] at hqueue
          cases hqueue
      | sendClosed _ _ _ hclosed =>
          rw [hopen] at hclosed
          cases hclosed
      | takeMessage _ _ _ _ hqueue =>
          rw [hmsgs] at hqueue
          cases hqueue
      | created | createFailed => trivial
      -- news from the onion service is input
      | sendReady hphase | sendReadyClosed hphase | publishInvite hphase | spawnAccept hphase
      | echo hphase | broadcast hphase | deliver hphase | close hphase | abortAccept hphase
      | joinAccept hphase | sendError hphase | sendErrorClosed hphase | failedShutdown hphase
      | failedTakeText hphase | failedSendClosed hphase | failedClose hphase =>
          rw [hhost] at hphase
          cases hphase
  | accept h =>
      cases h with
      | accept | sourceEnded => trivial
      | shutdown _ hsignal => exact absurd hsignal haccept
      | cancel _ haborted =>
          rw [habort] at haborted
          cases haborted
  | handler h => exact absurd (hconns _) h.not_atRest
  | reader h => exact absurd (hconns _) h.not_atRest
  | writer h =>
      refine absurd (hconns _) (h.not_atRest ?_)
      rw [hhost]
      exact HostLoop.noConfusion

/-! ## Writers that end -/

/-- No write or flush of the writer of a served peer times out while the reader of
the peer is running. -/
def KeepsWriters (s : Room) (l : Label) : Prop :=
  ∀ c info, (s.conns c).handler = .serve info →
    l = .writer c .writeTimeout ∨ l = .writer c .flushTimeout →
    ∃ reason, (s.conns c).reader = .ended reason

/-- When the writer of a served peer has ended, so has its reader. -/
def EndsTogether (s : Room) : Prop :=
  ∀ c info, (s.conns c).handler = .serve info → (s.conns c).writer = .ended →
    ∃ reason, (s.conns c).reader = .ended reason

/-- The writer of a served peer ends by a timeout only. -/
theorem WriterStep.ended {l : WriterLabel} (h : WriterStep X c l s t)
    (hs : (s.conns c).Coherent X) {info : PeerInfo} (hserve : (s.conns c).handler = .serve info)
    (hended : (t.conns c).writer = .ended) : l = .writeTimeout ∨ l = .flushTimeout := by
  cases h with
  | writeTimeout => exact .inl rfl
  | flushTimeout => exact .inr rfl
  | closed _ _ hclosed =>
      -- the handler itself holds a sender of the broadcast channel
      rcases (hclosed.2.2 c).2.2.2 with h | ⟨_, h⟩ | ⟨_, h⟩ <;> rw [hserve] at h <;> cases h
  | cancel haborted =>
      have haborts := hs.aborts
      rw [hserve] at haborts
      rw [haborts.2] at haborted
      cases haborted
  | recv =>
      rw [conns_setConn_self] at hended
      dsimp only [afterRecv] at hended
      split at hended <;> cases hended
  | write =>
      rw [conns_setConn_self] at hended
      dsimp only at hended
      split at hended <;> cases hended
  | lagged hphase =>
      rw [conns_setConn_self] at hended
      dsimp only at hended
      rw [hphase] at hended
      cases hended
  | writeFail | flush | flushFail =>
      rw [conns_setConn_self] at hended
      cases hended

/-- A handler that comes to serve its peer has just spawned the writer. -/
theorem HandlerStep.served {l : HandlerLabel} (h : HandlerStep X c l s t) {info : PeerInfo}
    (hserve : (t.conns c).handler = .serve info) :
    (t.conns c).writer = .recv := by
  cases h with
  | subscribe => rw [conns_setConn_self]
  | readHandshake =>
      rw [conns_setConn_self] at hserve
      exact (handshakeRead_cases (P := fun h => h ≠ .serve info) (fun _ _ => Handler.noConfusion)
        (fun _ _ => Handler.noConfusion) _ _ hserve).elim
  | readName =>
      rw [conns_setConn_self] at hserve
      exact (nameRead_cases (P := fun h => h ≠ .serve info) (fun _ _ _ => Handler.noConfusion)
        (fun _ => Handler.noConfusion) (fun _ => Handler.noConfusion) _ _ _ _ _ hserve).elim
  | emitJoin =>
      rw [conns_setConn_self] at hserve
      exact (afterEmitJoin_cases (P := fun h => h ≠ .serve info) (fun _ => Handler.noConfusion)
        Handler.noConfusion _ hserve).elim
  | writeReject | writeAccept | writeNotice =>
      rw [conns_setConn_self] at hserve
      dsimp only at hserve
      split at hserve <;> cases hserve
  | start | handshakeReadFail | handshakeReadTimeout | insertNonce | refuseNonce | rejectFail
  | acceptFail | acceptTimeout | flushAccept | flushFail | flushTimeout | nameReadFail
  | nameReadTimeout | register | noticeFail | spawnReader | readerDone | shutdown | abortWriter
  | deregister | emitLeave =>
      rw [conns_setConn_self] at hserve
      cases hserve

theorem Step.endsTogether (h : Step X cfg l s t) (hok : KeepsWriters s l)
    (hs : RoomReachable X cfg s) (hends : EndsTogether s) : EndsTogether t := by
  intro c info hserve hwriter
  have hkeep : (s.conns c).handler = .serve info → (s.conns c).writer = .ended →
      ∃ reason, (t.conns c).reader = .ended reason := fun hserve hwriter => by
    obtain ⟨reason, hended⟩ := hends c info hserve hwriter
    exact ⟨reason, h.reader_ended (hs.coherent c) hended⟩
  by_cases hconn : l.conn = some c
  · cases h.connStep hconn with
    | accept =>
        rw [conns_setConn_self] at hserve
        cases hserve
    | handler h =>
        -- the handler has just spawned the writer, which runs
        rw [h.served hserve] at hwriter
        cases hwriter
    | reader h =>
        rw [h.frame.1] at hserve
        rw [h.frame.2.2.2.1] at hwriter
        exact hkeep hserve hwriter
    | writer h =>
        -- only a timeout ends a writer, and then the reader has ended
        rw [h.frame.1] at hserve
        obtain ⟨reason, hended⟩ := hok c info hserve (by
          rcases h.ended (hs.coherent c) hserve hwriter with rfl | rfl
          · exact .inl rfl
          · exact .inr rfl)
        exact ⟨reason, by rw [h.frame.2.2.1, hended]⟩
    | net h =>
        rw [h.frame.1] at hserve
        rw [h.frame.2.2.2.2.1] at hwriter
        exact hkeep hserve hwriter
  · rw [h.conns_of_ne hconn] at hserve hwriter
    exact hkeep hserve hwriter

/-! ## Peers that are served -/

/-- Both tasks of the connection are running. -/
structure Conn.Served (k : Conn) : Prop where
  readerSpawned : k.reader ≠ .unspawned
  readerRuns : ∀ reason, k.reader ≠ .ended reason
  writerSpawned : k.writer ≠ .unspawned
  writerRuns : k.writer ≠ .ended

/-- In a room at rest a registered peer is being served, and its reader runs. -/
theorem Quiescent.serves (h : Quiescent X cfg s) {info : PeerInfo}
    (hreg : (s.conns c).handler.registered = some info) :
    (s.conns c).handler = .serve info ∧ ∀ reason, (s.conns c).reader ≠ .ended reason := by
  cases hphase : (s.conns c).handler with
  | serve info' =>
      rw [hphase] at hreg
      cases hreg
      refine ⟨rfl, fun reason hended => ?_⟩
      cases h _ _ (.handler (.readerDone hphase hended))
  | emitJoin => cases h _ _ (.handler (.emitJoin hphase))
  | notifyJoin =>
      cases h _ _ (.handler (l := .writeFail "") (.noticeFail hphase))
  | spawnReader => cases h _ _ (.handler (.spawnReader hphase))
  | subscribe => cases h _ _ (.handler (.subscribe hphase))
  | abortWriter => cases h _ _ (.handler (.abortWriter hphase))
  | deregister => cases h _ _ (.handler (.deregister hphase))
  | _ =>
      rw [hphase] at hreg
      cases hreg

/-- **A registered peer is a served peer**, as long as no writer times out under a
running reader. -/
theorem registered_is_served (now : ℕ) (ls : List Label)
    (hrun : Run (Guarded (Step X cfg) KeepsWriters) (Room.init now) ls s)
    (hrest : Quiescent X cfg s) {p : PeerId} {info : PeerInfo} (hentry : s.peers p = some info) :
    ∃ c, (s.conns c).handler = .serve info ∧ info.id = p ∧ (s.conns c).Served := by
  obtain ⟨hreach, hends⟩ := hrun.invariant
    (I := fun s => RoomReachable X cfg s ∧ EndsTogether s)
    ⟨⟨now, .refl _⟩, fun _ _ hserve => by cases hserve⟩
    fun hs hstep => ⟨hs.1.run (.single hstep.1), hstep.1.endsTogether hstep.2 hs.1 hs.2⟩
  obtain ⟨hid, c, hreg⟩ := hreach.backed p info hentry
  obtain ⟨hserve, hruns⟩ := hrest.serves hreg
  have hspawned := (hreach.coherent c).spawned
  rw [hserve] at hspawned
  refine ⟨c, hserve, hid, hspawned.1, hruns, hspawned.2, fun hended => ?_⟩
  obtain ⟨reason, hreader⟩ := hends c info hserve hended
  exact hruns reason hreader

/-! ## A peer that does not read -/

theorem peers_visited : Room.visited.peers ann.id = some ann := by
  simp [Room.visited, Room.served, Room.announced, Room.arriving, Room.registered]

/-- Ann is served and says nothing. -/
theorem atRest_visited (c : ConnId) : (Room.visited.conns c).AtRest Room.visited := by
  by_cases hc : c = 0
  · subst hc
    exact .serving rfl (by decide) rfl (by decide) rfl rfl rfl rfl (.inr ⟨rfl, rfl⟩)
  · rw [conns_visited hc]
    exact .idle rfl rfl rfl

theorem registered_is_served_visited :
    ∃ c, (Room.visited.conns c).handler = .serve ann ∧ ann.id = peerId .standard (.fill 7) ∧
      (Room.visited.conns c).Served := by
  have hrun : Run (Guarded (Step .standard ⟨"host", 300⟩) KeepsWriters) (Room.init 0) _
      Room.visited :=
    ((run_arrive.append (.single step_arrive)).append run_visit).guard (by
      simp [arriveLabels, openLabels, handshakeLabels, visitLabels, serveLabels, KeepsWriters])
  exact registered_is_served 0 _ hrun
    (quiescent_of_atRest rfl (by decide) rfl rfl rfl (by decide) rfl atRest_visited)
    peers_visited

/-- Ann's writer has got a text of the host. -/
def Room.toldAnn : Room :=
  let told := Room.visited.told ⟨"host", 300⟩ "hi"
  told.setConn 0 { told.conns 0 with
    cursor := 1
    writer := .writing (frameBytes SerdeJson.standard (.chat "host" "hi")) writeTimeout }

/-- Her client reads none of it, and the write times out. -/
def Room.stalled : Room :=
  let waited := { Room.toldAnn with now := writeTimeout }
  waited.setConn 0 { waited.conns 0 with writer := .ended }

theorem run_stall : RoomRun .standard ⟨"host", 300⟩ Room.visited
    (textLabels ⟨"host", 300⟩ "hi" ++ [.writer 0 (.recv (.chat "host" "hi"))] ++
      [.tick writeTimeout] ++ [.writer 0 .writeTimeout]) Room.stalled := by
  have hafter : afterRecv SerdeJson.standard (.chat "host" "hi") 0 =
      .writing (frameBytes SerdeJson.standard (.chat "host" "hi")) writeTimeout := by
    rw [afterRecv, Encodes.encodeMessage (by decide)]
    rfl
  have htold : RoomRun .standard ⟨"host", 300⟩ Room.visited (textLabels ⟨"host", 300⟩ "hi") _ :=
    run_text rfl (by decide) rfl rfl rfl
  have hheard := htold.extend
    (.writer (c := 0) (l := .recv (.chat "host" "hi"))
      (.recv rfl (Broadcast.recv_of_getElem? rfl (by decide))))
    (v := Room.toldAnn) (by rw [Room.toldAnn, ← hafter]; rfl)
  have hwaited := hheard.extend (.tick (d := writeTimeout))
    (v := { Room.toldAnn with now := writeTimeout }) rfl
  exact hwaited.snoc (.writer (c := 0) (.writeTimeout rfl (Nat.le_refl _)))

/-- Ann does not read what is written to her: her writer times out, and the room
comes to rest with her in the map. -/
theorem registered_not_served :
    ∃ s, RoomReachable .standard ⟨"host", 300⟩ s ∧ Quiescent .standard ⟨"host", 300⟩ s ∧
      s.peers ann.id = some ann ∧ (s.conns 0).handler = .serve ann ∧
      (s.conns 0).writer = .ended ∧ ∀ c ≠ 0, (s.conns c).handler = .idle := by
  have hothers : ∀ c ≠ 0, Room.stalled.conns c = Conn.fresh := fun c hc => by
    have hstalled : Room.stalled.conns c = Room.visited.conns c := by
      rw [Room.stalled, conns_setConn_of_ne _ _ _ _ hc]
      exact conns_setConn_of_ne _ _ _ _ hc
    rw [hstalled, conns_visited hc]
  refine ⟨Room.stalled, ⟨0, ?_⟩, ?_, ?_, rfl, rfl, fun c hc => by rw [hothers c hc]; rfl⟩
  · exact ((run_arrive.append (.single step_arrive)).append
      (run_visit.append run_stall)).reachable
  · refine quiescent_of_atRest rfl (by decide) rfl rfl rfl (by decide) rfl fun c => ?_
    by_cases hc : c = 0
    · subst hc
      exact .serving rfl (by decide) rfl (by decide) rfl rfl rfl rfl (.inl rfl)
    · rw [hothers c hc]
      exact .idle rfl rfl rfl
  · exact peers_visited

end Nullpipe

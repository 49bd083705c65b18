import Nullpipe.Room.Admission
import Nullpipe.Room.Causality

/-!
# What happens after `RoomClosed`

The host loop announces the end of the room as soon as it sees the shutdown signal.
The accept loop then takes no further connection, but a handler that is still in
its handshake looks at the signal only when it has come to serve its peer: it goes
on to admit, register and announce it in the closed room.  `closed_admits_nobody`
says that these handlers are the only leak: if none is under way when the end is
announced (`ClosesSettled`), nobody is admitted after it.

The invariant behind the announcement is `Shut`: the signal is raised, the host loop has
stopped, and no handler is `Admitting`, which is between its acceptance and its join event.

* The signal was raised before the loop closes (`Step.closing`), and it stays raised.
* No handler goes back to its handshake (`HandlerStep.not_admitting`), and none starts one,
  since a room that is signalled accepts no connection (`Step.not_admitting`).

`Step.admitsNobody` reads off what a shut room cannot do: write an accept byte
(`Step.accepted_of_settled`, by the coherence of its connections), enter a peer in the map
(`Step.inserts_of_settled`), or emit `PeerJoin` or `Message`.

Two runs stand at the end: `closed_admits_eve`, whose handshake is complete when the room
closes, and ann's visit, which is served when it does.
-/

namespace Nullpipe

open Channel Room Transition

variable {X : Crates} {cfg : HostConfig} {s t : Room} {c : ConnId} {l : Label}

/-! ## Handlers under way -/

/-- The connection has been accepted and may still come to join the room. -/
def Handler.Admitting : Handler → Prop
  | .spawned | .readHandshake .. | .lockNonces .. | .writeAccept .. | .flushAccept ..
  | .readName .. | .register _ | .emitJoin _ => True
  | _ => False

/-- No handler goes back to its handshake. -/
theorem HandlerStep.not_admitting {l : HandlerLabel} (h : HandlerStep X c l s t)
    (hs : ¬ (s.conns c).handler.Admitting) : ¬ (t.conns c).handler.Admitting := by
  cases h with
  | start hphase | readHandshake hphase | handshakeReadFail hphase | handshakeReadTimeout hphase
  | insertNonce hphase | refuseNonce hphase | writeAccept hphase | acceptFail hphase
  | acceptTimeout hphase | flushAccept hphase | flushFail hphase | flushTimeout hphase
  | readName hphase | nameReadFail hphase | nameReadTimeout hphase | register hphase
  | emitJoin hphase =>
      rw [hphase] at hs
      exact absurd trivial hs
  | writeReject | writeNotice =>
      rw [conns_setConn_self]
      dsimp only
      split <;> exact id
  | rejectFail | noticeFail | spawnReader | subscribe | readerDone | shutdown | abortWriter
  | deregister | emitLeave =>
      rw [conns_setConn_self]
      exact id

/-- Once the signal is raised no connection is accepted, so no handler starts its
handshake. -/
theorem Step.not_admitting (h : Step X cfg l s t) (hsig : Signals s) (hsignalled : s.Signalled)
    (hs : ∀ c, ¬ (s.conns c).handler.Admitting) (c : ConnId) :
    ¬ (t.conns c).handler.Admitting := by
  by_cases hconn : l.conn = some c
  · cases h.connStep hconn with
    -- the accept loop looks at the signal before it takes a connection
    | accept hphase hready =>
        rw [hsig.accept hphase] at hready
        exact absurd hsignalled hready
    | handler h =>
        exact h.not_admitting (hs c)
    | reader h =>
        rw [h.frame.1]
        exact hs c
    | writer h =>
        rw [h.frame.1]
        exact hs c
    | net h =>
        rw [h.frame.1]
        exact hs c
  · rw [h.conns_of_ne hconn]
    exact hs c

/-! ## The announcement -/

/-- The host loop is about to announce the end. -/
def HostLoop.Closing : HostLoop → Prop
  | .closing | .failedClosing => True
  | _ => False

/-- The host loop announces the end only when the signal was raised. -/
theorem Step.closing (h : Step X cfg l s t) (hsig : Signals s)
    (hs : s.host.Closing → s.Signalled) (hclosing : t.host.Closing) : t.Signalled := by
  apply h.signalled
  by_cases hl : ∃ l', l = .host l'
  · obtain ⟨l', rfl⟩ := hl
    cases h with
    | host h =>
        cases h with
        -- the loop had not seen the signal before it stopped
        | shutdown hphase hready | failedShutdown hphase hready =>
            have hseen : s.hostSeen = 0 := hsig.host.resolve_right fun hstopped => by
              rw [hphase] at hstopped
              cases hstopped
            rwa [hseen] at hready
        | failedTakeText => exact hs hclosing
        | _ => cases hclosing
  · rw [h.host_eq fun l' heq => hl ⟨l', heq⟩] at hclosing
    exact hs hclosing

theorem RoomReachable.closing (hs : RoomReachable X cfg s) (hclosing : s.host.Closing) :
    s.Signalled := by
  obtain ⟨now, hreach⟩ := hs
  refine (hreach.invariant (I := fun s => RoomReachable X cfg s ∧ (s.host.Closing → s.Signalled))
    ⟨⟨now, .refl _⟩, fun hclosing => by cases hclosing⟩ fun hs hstep => ?_).2 hclosing
  exact ⟨hs.1.run (.single hstep), hstep.closing hs.1.signals hs.2⟩

/-! ## A closed room -/

/-- The end of the room is announced when no connection is on its way into it. -/
def ClosesSettled (s : Room) (l : Label) : Prop :=
  l = .host .close → ∀ c, ¬ (s.conns c).handler.Admitting

/-- A room after its end: the signal is raised, the host loop has stopped and no
connection is on its way in. -/
structure Shut (s : Room) : Prop where
  signalled : s.Signalled
  stopped : s.host.Stopped
  settled : ∀ c, ¬ (s.conns c).handler.Admitting

theorem Step.shut (h : Step X cfg l s t) (hok : ClosesSettled s l) (hs : RoomReachable X cfg s)
    (hshut : .roomClosed ∈ s.events.sent → Shut s) (hclosed : .roomClosed ∈ t.events.sent) :
    Shut t := by
  have hsettled : s.Signalled → (∀ c, ¬ (s.conns c).handler.Admitting) →
      ∀ c, ¬ (t.conns c).handler.Admitting := h.not_admitting hs.signals
  rcases h.events with hsame | ⟨ev, hemit, -, hsent⟩
  · rw [hsame] at hclosed
    obtain ⟨hsignalled, hstopped, hnone⟩ := hshut hclosed
    exact ⟨h.signalled hsignalled, h.stopped hstopped, hsettled hsignalled hnone⟩
  · rw [hsent, List.mem_append, List.mem_singleton] at hclosed
    rcases hclosed with hbefore | heq
    · obtain ⟨hsignalled, hstopped, hnone⟩ := hshut hbefore
      exact ⟨h.signalled hsignalled, h.stopped hstopped, hsettled hsignalled hnone⟩
    · -- this step is the announcement
      subst heq
      cases hemit with
      | roomClosed =>
          have hnone := hok rfl
          cases h with
          | host h =>
              cases h with
              | close hphase | failedClose hphase =>
                  exact ⟨hs.closing (by rw [hphase]; trivial), trivial, hnone⟩

/-- Every stream of a handler that is past its handshake starts with the accept
byte, and no other handler writes it. -/
theorem Step.accepted_of_settled (h : Step X cfg l s t) (hs : RoomReachable X cfg s)
    (hsettled : ¬ (s.conns c).handler.Admitting) (haccepted : Accepted (t.conns c).sock) :
    Accepted (s.conns c).sock := by
  have hcoherent := hs.coherent c
  have hfits := hcoherent.fits
  have hspawned := hcoherent.spawned
  have hpast : (s.conns c).handler.stage = .granted → Accepted (s.conns c).sock := by
    intro hstage
    cases hphase : (s.conns c).handler with
    | notifyJoin =>
        rw [hphase] at hfits
        obtain ⟨-, sent, hwritten, -⟩ := hfits
        rw [Accepted, hwritten]
        rfl
    | spawnReader | subscribe | serve | abortWriter | deregister | emitLeave | ended =>
        rw [hphase] at hfits
        exact hfits.2
    | writeAccept | flushAccept | readName | register | emitJoin =>
        rw [hphase] at hsettled
        exact absurd trivial hsettled
    | idle | spawned | readHandshake | lockNonces | rejectReused | failed =>
        rw [hphase] at hstage
        cases hstage
  by_cases hconn : l.conn = some c
  · cases h.connStep hconn with
    | accept =>
        rwa [conns_setConn_self] at haccepted
    | handler h =>
        exact (h.accepted hcoherent haccepted).elim id hpast
    | reader h =>
        rwa [Accepted, h.frame.2.2.2.2.2.2] at haccepted
    -- only the handler of an accepted peer has a writer
    | writer h =>
        exact hpast (hspawned.granted h.spawned.1)
    | net h =>
        rwa [Accepted, h.frame.2.2.2.2.2.2.2.2] at haccepted
  · rwa [h.conns_of_ne hconn] at haccepted

/-- An event that tells of a peer in the room. -/
def ChatEvent.OfPeer : ChatEvent → Prop
  | .peerJoin _ | .message .. => True
  | _ => False

/-- No connection is sent the accept byte, no entry is inserted in the peers map,
and neither `PeerJoin` nor `Message` is put on the event stream. -/
structure AdmitsNobody (s t : Room) : Prop where
  accepts : ∀ c, Accepted (t.conns c).sock → Accepted (s.conns c).sock
  inserts : ∀ p info, t.peers p = some info → s.peers p = some info
  emits : ∃ new, t.events.sent = s.events.sent ++ new ∧ ∀ ev ∈ new, ¬ ev.OfPeer

theorem Step.inserts_of_settled (h : Step X cfg l s t)
    (hsettled : ∀ c, ¬ (s.conns c).handler.Admitting) {p : PeerId} {info : PeerInfo}
    (hentry : t.peers p = some info) : s.peers p = some info := by
  by_cases hreg : ∃ c, l = .handler c .register
  · obtain ⟨c, rfl⟩ := hreg
    cases h with
    | handler h =>
        cases h with
        | register hphase =>
            have hc := hsettled c
            rw [hphase] at hc
            exact absurd trivial hc
  by_cases hdereg : ∃ c, l = .handler c .deregister
  · obtain ⟨c, rfl⟩ := hdereg
    cases h with
    | handler h =>
        cases h with
        | deregister =>
            dsimp only at hentry
            rw [Function.update_apply] at hentry
            split at hentry
            · cases hentry
            · exact hentry
  · rwa [h.peers (fun c heq => hreg ⟨c, heq⟩) fun c heq => hdereg ⟨c, heq⟩] at hentry

theorem Step.admitsNobody (h : Step X cfg l s t) (hs : RoomReachable X cfg s) (hshut : Shut s) :
    AdmitsNobody s t where
  accepts c := h.accepted_of_settled hs (hshut.settled c)
  inserts _ _ := h.inserts_of_settled hshut.settled
  emits := by
    rcases h.events with hsame | ⟨ev, hemit, -, hsent⟩
    · exact ⟨[], by rw [hsame, List.append_nil], nofun⟩
    · refine ⟨[ev], hsent, fun ev' hmem => ?_⟩
      cases List.mem_singleton.mp hmem
      have hstopped := hshut.stopped
      cases hemit with
      -- a host loop that has stopped emits no message
      | echo hphase | deliver hphase =>
          rw [hphase] at hstopped
          cases hstopped
      | @join c _ hphase =>
          have hc := hshut.settled c
          rw [hphase] at hc
          exact absurd trivial hc
      | leave | roomReady | roomClosed | error => exact id

/-- **A room that is announced closed with no connection on its way in admits nobody
any more.** -/
theorem closed_admits_nobody (now : ℕ) (ls : List Label)
    (hrun : Run (Guarded (Step X cfg) ClosesSettled) (Room.init now) ls s)
    (hclosed : .roomClosed ∈ s.events.sent) (hstep : Step X cfg l s t) : AdmitsNobody s t := by
  obtain ⟨hreach, hshut⟩ := hrun.invariant
    (I := fun s => RoomReachable X cfg s ∧ (.roomClosed ∈ s.events.sent → Shut s))
    ⟨⟨now, .refl _⟩, nofun⟩
    fun hs hstep => ⟨hs.1.run (.single hstep.1), hstep.1.shut hstep.2 hs.1 hs.2⟩
  exact hstep.admitsNobody hreach (hshut hclosed)

/-! ## A peer that joins a closed room -/

/-- The steps by which a room comes to see that it is shut down. -/
def quitLabels : List Label := [.user .quitFlag, .user .quitSend, .host .shutdown]

/-- A room that is about to announce its end. -/
def Room.quitting (s : Room) : Room :=
  { s with quitFlag := true, watchVersion := 1, hostSeen := 1, host := .closing }

theorem run_quit (hopen : s.sendOpen = true) (hwatch : s.watchOpen = true)
    (hfirst : s.watchVersion = 0) (hhost : s.host = .select) (hseen : s.hostSeen = 0) :
    RoomRun X cfg s quitLabels s.quitting := by
  have hrun : RoomRun X cfg s _ s := .nil
  have hrun := hrun.snoc (.user (.quitFlag hopen))
  have hrun := hrun.snoc (.user (.quitSend rfl hwatch hfirst))
  exact hrun.snoc (.host (.shutdown hhost (.inl (by simp [hseen]))))

/-- A room that has just announced its end. -/
def Room.closed (s : Room) : Room :=
  { s.quitting with
    events := s.events.trySend eventChanCap .roomClosed
    host := .abortAccept }

theorem step_close (X : Crates) (cfg : HostConfig) (s : Room) :
    Step X cfg (.host .close) s.quitting s.closed :=
  .host (.close rfl)

/-- Eve's handshake is complete when the room closes; she is registered and
announced all the same. -/
theorem closed_admits_eve :
    ∃ s t, RoomReachable .standard ⟨"host", 300⟩ s ∧ .roomClosed ∈ s.events.sent ∧
      RoomRun .standard ⟨"host", 300⟩ s (joinLabels 0) t ∧
      s.peers (peerId .standard (.fill 7)) = none ∧
      t.peers (peerId .standard (.fill 7)) = some ⟨peerId .standard (.fill 7), "eve", 0⟩ ∧
      t.events.sent = s.events.sent ++ [.peerJoin ⟨peerId .standard (.fill 7), "eve", 0⟩] := by
  have hquit : RoomRun .standard ⟨"host", 300⟩ Room.uninvited quitLabels Room.uninvited.quitting :=
    run_quit rfl rfl rfl rfl rfl
  have hclose := hquit.snoc (step_close .standard ⟨"host", 300⟩ Room.uninvited)
  have hregister : Step .standard ⟨"host", 300⟩ (.handler 0 .register) Room.uninvited.closed
      (Room.uninvited.closed.registered 0 ⟨peerId .standard (.fill 7), "eve", 0⟩) :=
    step_register rfl
  have hjoin : Step .standard ⟨"host", 300⟩ (.handler 0 .emitJoin) _
      ((Room.uninvited.closed.registered 0 ⟨peerId .standard (.fill 7), "eve", 0⟩).announced
        .standard 0 ⟨peerId .standard (.fill 7), "eve", 0⟩) :=
    step_emitJoin (by rw [Room.registered, conns_setConn_self]) (by decide)
  refine ⟨Room.uninvited.closed, _, Room.reachable_uninvited.run hclose, ?_,
    Run.cons hregister (.single hjoin), rfl, ?_, rfl⟩
  · exact List.mem_cons_of_mem _ (List.mem_singleton_self _)
  · simp [Room.announced, Room.registered]

/-- Ann is served when her room announces its end, and what her handler does about it admits
nobody. -/
theorem closed_admits_nobody_visited :
    ∃ ls s t, Run (Guarded (Step .standard ⟨"host", 300⟩) ClosesSettled) (Room.init 0) ls s ∧
      .roomClosed ∈ s.events.sent ∧ s.peers ann.id = some ann ∧ Accepted (s.conns 0).sock ∧
      Step .standard ⟨"host", 300⟩ (.handler 0 .shutdown) s t ∧ AdmitsNobody s t := by
  have hrun := ((run_arrive.append (.single step_arrive)).append run_visit).append
    (run_quit rfl rfl rfl rfl rfl)
  have hguarded : Run (Guarded (Step .standard ⟨"host", 300⟩) ClosesSettled) (Room.init 0) _ _ :=
    hrun.guard (by simp [arriveLabels, openLabels, handshakeLabels, visitLabels, serveLabels,
      quitLabels, ClosesSettled])
  -- ann is past her handshake, and nobody else has come
  have hsettled : ∀ c, ¬ (Room.visited.quitting.conns c).handler.Admitting := by
    intro c
    by_cases hc : c = 0
    · rw [hc]
      exact id
    · rw [show Room.visited.quitting.conns c = Conn.fresh from conns_visited hc]
      exact id
  have hclosed := hguarded.snoc ⟨step_close .standard ⟨"host", 300⟩ _, fun _ => hsettled⟩
  have hsent : ChatEvent.roomClosed ∈ Room.visited.closed.events.sent := by decide
  have hnext : Step .standard ⟨"host", 300⟩ (.handler 0 .shutdown) Room.visited.closed _ :=
    .handler (.shutdown (show _ = Handler.serve ann from rfl) (.inl (by decide)))
  refine ⟨_, _, _, hclosed, hsent, ?_, ?_, hnext, closed_admits_nobody 0 _ hclosed hsent hnext⟩
  · rfl
  · rfl

end Nullpipe

import Nullpipe.Session.Meeting
import Nullpipe.Session.Oversized

/-!
# Silence

Both readers give up when no frame has come in for a minute, and neither side sends
anything while its user is silent.  So a session lasts only as long as both users
talk: `session_lasts` says that it does last that long, and `silence_ends_it` that a
silent minute is enough to end it on both sides.

Talk is stated as a condition on steps (`KeepsTalking`): when the clock moves, no reader that
waits for a frame has its timer run out (`Early`).  Everything else that ends a session is
excluded by `SessionLabel.Steady`: nobody quits, no write of the joiner fails, and the frames
of both sides are well formed.

* `Room.Keeps`: the hub keeps its peer.  Its handler leaves the select only when the reader has
  ended or the room is told to shut down, and the reader ends, apart from its timer, only for
  a reason that is excluded.
* `Joiner.Keeps`: the joiner keeps its session, since its write loop ends with its reader, with
  a write that fails, or with its user.

The room may have any other clients, and they may do what they like: `Step.keeps` is about
every step of the room.
-/

namespace Nullpipe

open Channel Room Transition

variable {X : Crates} {cfg : HostConfig} {checks : Bool} {c : ConnId} {s t : Room}
  {j j' : Joiner} {now : ℕ}

/-! ## Timers -/

/-- A timer that is off or has time left. -/
def Early (now : ℕ) (timer : Option ℕ) : Prop := ∀ deadline ∈ timer, now < deadline

/-- The timer under which the hub's reader waits for a frame. -/
def Reader.timer : Reader → Option ℕ
  | .reading _ _ deadline => some deadline
  | _ => none

/-- The timer under which the joiner's reader waits for a frame. -/
def JoinReader.timer : JoinReader → Option ℕ
  | .reading _ deadline => some deadline
  | _ => none

theorem Early.off (now : ℕ) : Early now none := fun _ hmem => nomatch hmem

/-- A timer that is just set has time left. -/
theorem Early.set (now : ℕ) : Early now (some (now + readTimeout)) := by
  intro deadline hmem
  cases hmem
  have hpos : 0 < readTimeout := by decide
  omega

theorem Early.not_due {deadline : ℕ} (h : Early now (some deadline)) : ¬ deadline ≤ now :=
  Nat.not_le.mpr (h deadline rfl)

/-! ## The hub -/

/-- Nobody quits, and the frames of connection `c` are well formed. -/
def Label.Steady (c : ConnId) : Label → Prop
  | .user l => ¬ l.Leaves
  | .reader d (.malformed _) => d ≠ c
  | _ => True

/-- The hub keeps peer `c`, as long as its reader has time left. -/
structure Room.Keeps (X : Crates) (cfg : HostConfig) (c : ConnId) (r : Room) : Prop where
  reach : RoomReachable X cfg r
  calm : ¬ r.Signalled
  handles : r.sendOpen = true
  stream : (r.conns c).sock.readEnd = none
  live : ∀ reason, (r.conns c).reader ≠ .ended reason
  early : Early r.now (r.conns c).reader.timer

/-- A handler leaves only after its reader has ended or the room is told to shut down. -/
theorem Room.Keeps.not_gone (hs : s.Keeps X cfg c) : ¬ (s.conns c).handler.Gone := by
  intro hgone
  rcases hs.reach.leftBy c hgone with haborted | ⟨reason, hended⟩
  · exact hs.calm (hs.reach.signals.aborted c haborted)
  · exact hs.live reason hended

theorem ReaderStep.keeps {l : ReaderLabel} (h : ReaderStep X c l s t)
    (hl : (Label.reader c l).Steady c) (hs : s.Keeps X cfg c) :
    (t.conns c).sock.readEnd = none ∧ (∀ reason, (t.conns c).reader ≠ .ended reason) ∧
      Early t.now (t.conns c).reader.timer := by
  have hearly := hs.early
  cases h with
  | start | ping | send | sendClosed =>
      simp only [conns_setConn_self]
      exact ⟨hs.stream, fun _ => Reader.noConfusion, .set _⟩
  | read hphase =>
      rw [hphase] at hearly
      simp only [conns_setConn_self]
      exact ⟨hs.stream, fun _ => Reader.noConfusion, hearly⟩
  | message =>
      simp only [conns_setConn_self]
      exact ⟨hs.stream, fun _ => Reader.noConfusion, .off _⟩
  | badFrame | badMessage => exact absurd rfl hl
  | readFail _ hend =>
      have hclosed := hend.2
      rw [hs.stream] at hclosed
      cases hclosed
  | readTimeout hphase hdue =>
      rw [hphase] at hearly
      exact absurd hdue hearly.not_due
  -- only a shutdown aborts a reader
  | cancel haborted => exact absurd (hs.reach.signals.aborted c haborted) hs.calm

theorem HandlerStep.keeps {l : HandlerLabel} (h : HandlerStep X c l s t)
    (hs : s.Keeps X cfg c) :
    (t.conns c).sock.readEnd = none ∧ (∀ reason, (t.conns c).reader ≠ .ended reason) ∧
      Early t.now (t.conns c).reader.timer := by
  have hstream := h.readEnd.trans hs.stream
  refine ⟨hstream, ?_⟩
  cases h with
  | spawnReader =>
      simp only [conns_setConn_self]
      exact ⟨fun _ => Reader.noConfusion, .off _⟩
  | _ =>
      simp only [conns_setConn_self]
      exact ⟨hs.live, hs.early⟩

/-- **The hub keeps a peer through every steady step.** -/
theorem Step.keeps {l : Label} (h : Step X cfg l s t) (hl : l.Steady c) (hhub : l.AtHub c)
    (hs : s.Keeps X cfg c) : t.Keeps X cfg c := by
  have hreach := hs.reach.run (.single h)
  have hstays : ∀ l', l = .user l' → ¬ l'.Leaves := by
    rintro l' rfl
    exact hl
  obtain ⟨hcalm, hhandles⟩ := h.calm hstays hs.calm hs.handles
  have hrest : (t.conns c).sock.readEnd = none ∧ (∀ reason, (t.conns c).reader ≠ .ended reason) ∧
      Early t.now (t.conns c).reader.timer := by
    by_cases hconn : l.conn = some c
    · cases h.connStep hconn with
      | accept =>
          simp only [conns_setConn_self]
          exact ⟨hs.stream, hs.live, hs.early⟩
      | handler h =>
          exact h.keeps hs
      | reader h =>
          exact h.keeps hl hs
      | writer h =>
          cases h <;> simp only [conns_setConn_self, Socket.readEnd_write, Socket.readEnd_flush] <;>
            exact ⟨hs.stream, hs.live, hs.early⟩
      | net h =>
          exact absurd rfl hhub
    · -- the clock of the room stands still, and so do the timers
      have hnow : t.now = s.now := by
        refine h.now ?_
        rintro d rfl
        exact hhub
      rw [h.conns_of_ne hconn, hnow]
      exact ⟨hs.stream, hs.live, hs.early⟩
  exact ⟨hreach, hcalm, hhandles, hrest.1, hrest.2.1, hrest.2.2⟩

/-! ## The joiner -/

/-- The joiner keeps its session, as long as its reader has time left. -/
structure Joiner.Keeps (j : Joiner) : Prop where
  stays : j.Stays
  early : Early j.now j.reader.timer

/-- The joiner's user stays, no write fails and the frames of the hub are well formed. -/
def JoinerLabel.Steady : JoinerLabel → Prop
  | .user l => l = .closeEvents ∨ ¬ l.Leaves
  | .main l => ¬ l.Fails
  | .reader (.malformed _) => False
  | _ => True

theorem JoinReaderStep.keeps {l : JoinReaderLabel} (h : JoinReaderStep X l j j')
    (hl : (JoinerLabel.reader l).Steady) (hs : j.Keeps) : j'.Keeps := by
  have hearly := hs.early
  have hgoes : ¬ l.GivesUp := by
    cases h with
    | malformed => cases hl
    | readTimeout hphase hdue =>
        rw [hphase] at hearly
        exact absurd hdue hearly.not_due
    | _ => exact id
  refine ⟨h.stays hgoes hs.stays, ?_⟩
  cases h with
  | start | skip | emit | emitClosed => exact .set _
  | read hphase =>
      rw [hphase] at hearly
      exact hearly
  | message | malformed | readFail | readTimeout | done | cancel => exact .off _

/-- **The joiner keeps its session through every steady step.** -/
theorem JoinerStep.keeps {l : JoinerLabel} (h : JoinerStep X checks l j j') (hl : l.Steady)
    (hjoiner : l.AtJoiner) (hfits : ∀ l', l = .main l' → TakesFitting X j l')
    (hlistens : l ≠ .user .closeEvents) (hs : j.Keeps) : j'.Keeps := by
  cases h with
  | main h =>
      refine ⟨h.stays hl (hfits _ rfl) hs.stays, ?_⟩
      rw [h.frame.1]
      -- the main task spawns its reader once and leaves it alone after that
      rcases (h.runs hl (hfits _ rfl) hs.stays).2.2 with hsame | hspawned
      · rw [hsame]
        exact hs.early
      · rw [hspawned]
        exact .off _
  | reader h => exact h.keeps hl hs
  | user h =>
      have hleaves := hl.resolve_left fun heq => hlistens (heq ▸ rfl)
      refine ⟨h.stays hleaves hs.stays, ?_⟩
      cases h <;> exact hs.early
  | net | finish | tick => cases hjoiner

/-! ## Both -/

/-- Nobody quits, no write of the joiner fails, no frame is malformed, and the transport
never closes. -/
def SessionLabel.Steady (c : ConnId) : SessionLabel → Prop
  | .room l => l.Steady c
  | .joiner l => l.Steady
  | .toHub _ | .toJoiner _ | .tick _ => True
  | .hubEnd _ | .joinerEnd _ => False

/-- Both sides talk: no reader waits for a frame until its timer has run out, the joiner
sends what fits a frame, and its user listens. -/
def KeepsTalking (X : Crates) (c : ConnId) (s : Session) : SessionLabel → Prop
  | .tick d => Early (s.room.now + d) (s.room.conns c).reader.timer ∧
      Early (s.joiner.now + d) s.joiner.reader.timer
  | .joiner (.main l) => TakesFitting X s.joiner l
  | .joiner l => l ≠ .user .closeEvents
  | _ => True

/-- The session goes on. -/
structure Session.Lasts (X : Crates) (cfg : HostConfig) (c : ConnId) (s : Session) : Prop where
  room : s.room.Keeps X cfg c
  joiner : s.joiner.Keeps

theorem SessionStep.lasts {l : SessionLabel} {s t : Session}
    (h : SessionStep X cfg checks c l s t) (hl : l.Steady c) (htalk : KeepsTalking X c s l)
    (hs : s.Lasts X cfg c) : t.Lasts X cfg c := by
  obtain ⟨hroom, hjoiner⟩ := hs
  have hreach := h.reachable hroom.reach
  cases h with
  | room h hhub => exact ⟨h.keeps hl hhub hroom, hjoiner⟩
  | @joiner l _ _ h hhub =>
      refine ⟨hroom, h.keeps hl hhub ?_ ?_ hjoiner⟩
      · rintro l' rfl
        exact htalk
      · rintro rfl
        exact htalk rfl
  | toHub _ _ h =>
      refine ⟨?_, hjoiner⟩
      cases h with
      | arrive =>
          refine ⟨hreach, hroom.calm, hroom.handles, ?_, ?_, ?_⟩ <;>
            simp only [conns_setConn_self]
          · exact hroom.stream
          · exact hroom.live
          · exact hroom.early
  | toJoiner _ _ h =>
      refine ⟨hroom, ?_⟩
      cases h with
      | net => exact ⟨{ hjoiner.stays with }, hjoiner.early⟩
  | hubEnd | joinerEnd => cases hl
  | tick =>
      exact ⟨{ hroom with reach := hreach, early := htalk.1 },
        ⟨{ hjoiner.stays with }, htalk.2⟩⟩

/-- **A session lasts as long as both sides talk.**  The room may have any other
clients. -/
theorem session_lasts (X : Crates) (cfg : HostConfig) (checks : Bool) (c : ConnId) (now now' : ℕ)
    (config : JoinConfig) (ls : List SessionLabel) (s : Session)
    (hrun : Run (Guarded (fun l s t => SessionStep X cfg checks c l s t ∧ l.Steady c)
      (KeepsTalking X c)) ⟨Room.init now, Joiner.init now' config⟩ ls s) :
    .room (.handler c .deregister) ∉ ls ∧ ¬ (s.room.conns c).handler.Gone ∧
      ¬ s.joiner.main.Over := by
  have hstart : Session.Lasts X cfg c ⟨Room.init now, Joiner.init now' config⟩ :=
    ⟨⟨⟨now, .refl _⟩, fun h => h.elim (fun hne => hne rfl) nofun, rfl, rfl, nofun, .off _⟩,
      ⟨.init .., .off _⟩⟩
  have hall : s.Lasts X cfg c ∧ .room (.handler c .deregister) ∉ ls := by
    refine hrun.history (I := fun ls s => s.Lasts X cfg c ∧ .room (.handler c .deregister) ∉ ls)
      ⟨hstart, List.not_mem_nil⟩ fun {ls l t u} hs hstep => ?_
    obtain ⟨⟨hstep, hl⟩, htalk⟩ := hstep
    refine ⟨hstep.lasts hl htalk hs.1, ?_⟩
    rw [List.mem_append, List.mem_singleton, not_or]
    refine ⟨hs.2, ?_⟩
    rintro rfl
    -- to deregister its peer a handler must have left its select
    have hkept := hs.1.room.not_gone
    cases hstep with
    | room h =>
        cases h with
        | handler h =>
            cases h with
            | deregister hphase =>
                rw [hphase] at hkept
                exact hkept trivial
  exact ⟨hall.2, hall.1.room.not_gone, hall.1.joiner.stays.runs⟩

/-! ### Ann and her host -/

/-- The steps of ann's arrival, from the start. -/
def arrivalLabels : List SessionLabel :=
  hostingLabels.map (Label.lift 0) ++ annMeetLabels 0

/-- Ann and her host have met, and nobody has said anything yet. -/
def Session.quiet (token : String) : Session :=
  Session.met .standard (Room.hosting ⟨"host", 300⟩) 0 0 ⟨"", token⟩ annGuest

theorem run_arrival {token : String} (hencode : encodeInvite .standard annInvite = .ok token) :
    Run (SessionStep .standard ⟨"host", 300⟩ checks 0) ⟨Room.init 0, Joiner.init 0 ⟨"", token⟩⟩
      arrivalLabels (Session.quiet token) := by
  have hhosting : Run (SessionStep .standard ⟨"host", 300⟩ checks 0) _ _ _ :=
    run_room (run_hosting hencode) (j := Joiner.init 0 ⟨"", token⟩) (c := 0)
      (by simp [hostingLabels, openLabels, Label.Lifts, Label.AtHub]) List.nil_prefix
  exact hhosting.append (run_annMeets hencode (Nat.zero_le _))

theorem steady_arrival : ∀ l ∈ arrivalLabels, l.Steady 0 := by
  simp only [arrivalLabels, hostingLabels, openLabels, annMeetLabels, meetLabels, hailLabels,
    acceptLabels, replyLabels, enteredLabels, welcomeLabels, nameLabels, joinLabels, serveLabels,
    heardLabels, List.map_append, List.map_cons, List.map_nil, List.forall_mem_append,
    List.forall_mem_cons]
  simp [Label.lift, JoinerLabel.lift, SessionLabel.Steady, Label.Steady, JoinerLabel.Steady,
    UserLabel.Leaves, JoinMainLabel.Fails]

theorem talks_arrival (X : Crates) : ∀ l ∈ arrivalLabels, ∀ s, KeepsTalking X 0 s l := by
  simp only [arrivalLabels, hostingLabels, openLabels, annMeetLabels, meetLabels, hailLabels,
    acceptLabels, replyLabels, enteredLabels, welcomeLabels, nameLabels, joinLabels, serveLabels,
    heardLabels, List.map_append, List.map_cons, List.map_nil, List.forall_mem_append,
    List.forall_mem_cons]
  simp [Label.lift, JoinerLabel.lift, KeepsTalking, TakesFitting]

/-- A session in which nobody has said anything for `d` milliseconds. -/
def Session.waited (d : ℕ) (s : Session) : Session :=
  ⟨{ s.room with now := s.room.now + d }, { s.joiner with now := s.joiner.now + d }⟩

/-- Both readers wait, each with a minute left. -/
theorem timers_quiet (token : String) :
    ((Session.quiet token).room.conns 0).reader.timer = some (0 + readTimeout) ∧
      (Session.quiet token).joiner.reader.timer = some (0 + readTimeout) :=
  ⟨rfl, rfl⟩

/-- Ann and her host are silent for fifty-nine seconds. -/
theorem session_lasts_quiet :
    ∃ token ls s, Run (Guarded
        (fun l s t => SessionStep .standard ⟨"host", 300⟩ true 0 l s t ∧ l.Steady 0)
        (KeepsTalking .standard 0)) ⟨Room.init 0, Joiner.init 0 ⟨"", token⟩⟩ ls s ∧
      s.room.now = 59000 ∧ ¬ (s.room.conns 0).handler.Gone ∧ ¬ s.joiner.main.Over := by
  obtain ⟨token, hencode⟩ := exists_annToken .standard
  have hsteady : Run (fun l s t => SessionStep .standard ⟨"host", 300⟩ true 0 l s t ∧ l.Steady 0)
      ⟨Room.init 0, Joiner.init 0 ⟨"", token⟩⟩ arrivalLabels (Session.quiet token) :=
    (run_arrival hencode).guard fun l hl _ => steady_arrival l hl
  have htick : SessionStep .standard ⟨"host", 300⟩ true 0 (.tick 59000) (Session.quiet token)
      ((Session.quiet token).waited 59000) := .tick
  have hearly : KeepsTalking .standard 0 (Session.quiet token) (.tick 59000) := by
    have hleft : Early (0 + 59000) (some (0 + readTimeout)) := by
      intro deadline hmem
      cases hmem
      decide
    exact ⟨(timers_quiet token).1 ▸ hleft, (timers_quiet token).2 ▸ hleft⟩
  have hrun := (hsteady.guard (talks_arrival .standard)).snoc ⟨⟨htick, trivial⟩, hearly⟩
  obtain ⟨-, hhub, hjoiner⟩ := session_lasts .standard ⟨"host", 300⟩ true 0 0 0 ⟨"", token⟩ _ _ hrun
  exact ⟨token, _, _, hrun, Nat.zero_add _, hhub, hjoiner⟩

/-- The steps by which the hub takes a silent peer out of the map. -/
def giveUpLabels (c : ConnId) : List Label :=
  [.reader c .readTimeout, .handler c .readerDone, .handler c .abortWriter, .handler c .deregister]

/-- The room without its silent peer. -/
def Room.givenUp (s : Room) (c : ConnId) (info : PeerInfo) : Room :=
  setConn { s with peers := Function.update s.peers info.id none } c
    { s.conns c with
      handler := .emitLeave info
      reader := .ended .timedOut
      writerAborted := true }

theorem run_giveUp {info : PeerInfo} {id : PeerId} {got : List UInt8} {deadline : ℕ}
    (hphase : (s.conns c).handler = .serve info)
    (hreader : (s.conns c).reader = .reading id got deadline) (hdue : deadline ≤ s.now) :
    RoomRun X cfg s (giveUpLabels c) (s.givenUp c info) := by
  rw [Room.givenUp, giveUpLabels]
  generalize hk : s.conns c = k at *
  have hrun : RoomRun X cfg s _ s := .nil
  have hrun := hrun.extend
    (.reader (c := c) (l := .readTimeout) (.readTimeout (by rw [hk]; exact hreader) hdue))
    (show _ = s.setConn c { k with reader := .ended .timedOut } by rw [hk])
  have hrun := hrun.extend
    (.handler (c := c) (l := .readerDone) (.readerDone
      (by rw [conns_setConn_self]; exact hphase) (by rw [conns_setConn_self])))
    (show _ = s.setConn c { k with reader := .ended .timedOut, handler := .abortWriter info } by
      simp)
  have hrun := hrun.extend
    (.handler (c := c) (l := .abortWriter) (.abortWriter (by rw [conns_setConn_self])))
    (show _ = s.setConn c
        { k with
          reader := .ended .timedOut
          writerAborted := true
          handler := .deregister info } by simp)
  exact hrun.extend
    (.handler (c := c) (l := .deregister) (.deregister (by rw [conns_setConn_self])))
    (by simp only [conns_setConn_self, setConn_setConn, peers_setConn]; rfl)

/-- The steps by which the joiner's write loop ends when its reader gives up. -/
def hangLabels : List JoinerLabel :=
  [.reader .readTimeout, .reader .done, .main .readerDone]

theorem run_hang {me : Guest} {got : List UInt8} {deadline : ℕ} (hphase : j.main = .select me)
    (hreader : j.reader = .reading got deadline) (hdue : deadline ≤ j.now)
    (hshutdown : j.shutdown = false) :
    Run (JoinerStep X checks) j hangLabels
      { j with reader := .ended, readerDone := true, main := .drain me } := by
  have htimeout : JoinerStep X checks (.reader .readTimeout) j { j with reader := .finished } :=
    .reader (.readTimeout hreader hdue)
  have hdone : JoinerStep X checks (.reader .done) { j with reader := .finished }
      { j with reader := .ended, readerDone := true } := .reader (.done rfl)
  have hend : JoinerStep X checks (.main .readerDone)
      { j with reader := .ended, readerDone := true }
      { j with reader := .ended, readerDone := true, main := .drain me } :=
    .main (.readerDone hphase hshutdown rfl)
  exact ((Run.single htimeout).snoc hdone).snoc hend

/-- A minute of silence: all bytes have been delivered, and the session is over on both
sides. -/
theorem silence_ends_it :
    ∃ token ls s, Run (fun l s t => SessionStep .standard ⟨"host", 300⟩ true 0 l s t ∧ l.Steady 0)
        ⟨Room.init 0, Joiner.init 0 ⟨"", token⟩⟩ ls s ∧
      (s.room.conns 0).sock.arrived = s.joiner.sock.written ∧
      s.joiner.sock.arrived = (s.room.conns 0).sock.written ∧
      .room (.handler 0 .deregister) ∈ ls ∧ s.joiner.main.Over := by
  obtain ⟨token, hencode⟩ := exists_annToken .standard
  let waited := (Session.quiet token).waited readTimeout
  let info : PeerInfo := ⟨peerId .standard (.fill 7), "ann", 0⟩
  have hsock : ((waited.room.givenUp 0 info).conns 0).sock =
      ⟨annGuest.script .standard [], [], none,
        0 :: frameBytes SerdeJson.standard (.system (annGuest.name ++ " joined")), 1⟩ := by
    rw [Room.givenUp, conns_setConn_self]
    exact sock_welcomed ..
  -- nothing is left on the wire in either direction
  have hall : ((waited.room.givenUp 0 info).conns 0).sock.arrived = waited.joiner.sock.written := by
    rw [hsock, Socket.arrived, List.append_nil]
    rfl
  have hheard : waited.joiner.sock.arrived =
      ((waited.room.givenUp 0 info).conns 0).sock.written := by
    rw [hsock, Socket.arrived]
    exact List.append_nil _
  have htick : SessionStep .standard ⟨"host", 300⟩ true 0 (.tick readTimeout) (Session.quiet token)
      waited := .tick
  have hhub : Run (SessionStep .standard ⟨"host", 300⟩ true 0) waited
      ((giveUpLabels 0).map (Label.lift 0)) ⟨waited.room.givenUp 0 info, waited.joiner⟩ := by
    refine run_room (run_giveUp rfl rfl (Nat.le_refl _)) ?_ ?_
    · simp [giveUpLabels, Label.Lifts, Label.AtHub]
    · exact hall ▸ List.prefix_refl _
  have hjoiner : Run (SessionStep .standard ⟨"host", 300⟩ true 0)
      ⟨waited.room.givenUp 0 info, waited.joiner⟩ (hangLabels.map JoinerLabel.lift)
      ⟨waited.room.givenUp 0 info,
        { waited.joiner with reader := .ended, readerDone := true, main := .drain annGuest }⟩ := by
    refine run_joiner (run_hang rfl rfl (Nat.le_refl _) rfl) ?_ ?_
    · simp [hangLabels, JoinerLabel.Lifts, JoinerLabel.AtJoiner]
    · exact hheard ▸ List.prefix_refl _
  have hrun := (((run_arrival hencode).snoc htick).append hhub).append hjoiner
  refine ⟨token, _, _, hrun.guard fun l hl _ => ?_, hall, hheard, ?_, trivial⟩
  · have hsteady : ∀ l ∈ (giveUpLabels 0).map (Label.lift 0) ++ hangLabels.map JoinerLabel.lift,
        l.Steady 0 := by
      simp [giveUpLabels, hangLabels, Label.lift, JoinerLabel.lift, SessionLabel.Steady,
        Label.Steady, JoinerLabel.Steady, JoinMainLabel.Fails]
    rw [List.append_assoc, List.append_assoc] at hl
    rcases List.mem_append.mp hl with harrival | hrest
    · exact steady_arrival l harrival
    · rcases List.mem_cons.mp hrest with rfl | hsilent
      · trivial
      · exact hsteady l hsilent
  · simp [giveUpLabels, Label.lift]

end Nullpipe

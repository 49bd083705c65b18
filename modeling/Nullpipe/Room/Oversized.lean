import Nullpipe.Room.Quit
import Nullpipe.Room.Subscription
import Nullpipe.Room.Delivery

/-!
# Texts that do not fit a frame, on the host

The host loop shows a text to its user before it broadcasts it, and each peer's
writer encodes it on its own: a text that does not fit a frame is passed over there,
and the session goes on.  `host_refuses_iff` says that this is all as it should be,
except that the text is shown whenever the event channel has room.

Three things are to be shown of a run in which nothing ends the session for another reason
(`Label.Harmless`).

* **The session goes on.**  `Room.Serves` is the invariant: no signal, a handle that is left,
  and host loop, handler and reader of the peer at work.
* **The stream gets the other texts, in order.**  `Feeds` of `Subscription.lean`, where a
  message without a frame adds nothing (`Step.feeds`).
* **The user is shown no such text.**  This is where it fails: `Step.shownOversized_iff` says
  that a step adds to the texts shown exactly if it is the echo of one and the event channel
  has room.

The first two hold in every such run, so the equivalence comes from the third.
-/

namespace Nullpipe

open Channel Room Transition

variable {X : Crates} {cfg : HostConfig} {s t u : Room} {c : ConnId} {l : Label}
  {info : PeerInfo} {base got : List WireMessage} {front rest : List UInt8}

/-! ## What would end a session for another reason -/

/-- The steps in which a reader ends. -/
def ReaderLabel.Ends : ReaderLabel → Prop
  | .malformed _ | .readFail | .readTimeout | .cancel => True
  | _ => False

/-- Nothing happens that is to end the session of peer `c` or to disturb its outgoing
stream: no handle quits or is freed last, and neither half of the stream fails. -/
def Label.Harmless (c : ConnId) : Label → Prop
  | .user l => ¬ l.Leaves
  | .reader d l => d = c → ¬ l.Ends
  | l => l.Clean c

/-- The host loop is at work. -/
def HostLoop.AtWork : HostLoop → Prop
  | .select | .echo _ | .broadcast _ | .deliver .. => True
  | _ => False

/-! ## The session goes on -/

/-- Host loop, handler and both halves of the stream of peer `c` are at work. -/
structure Room.Serves (c : ConnId) (info : PeerInfo) (s : Room) : Prop where
  calm : ¬ s.Signalled
  handles : s.sendOpen = true
  host : s.host.AtWork
  handler : (s.conns c).handler = .serve info
  reader : ∀ reason, (s.conns c).reader ≠ .ended reason

theorem HostStep.atWork {l : HostLabel} (h : HostStep cfg l s t) (hsig : Signals s)
    (hs : s.Serves c info) : t.host.AtWork := by
  have hhost := hs.host
  cases h with
  | takeText | echo | broadcast | takeMessage | deliver => trivial
  | shutdown hphase hready =>
      have hseen : s.hostSeen = 0 := hsig.host.resolve_right fun hstopped => by
        rw [hphase] at hstopped
        cases hstopped
      rw [hseen] at hready
      exact absurd hready hs.calm
  | sendClosed _ _ _ hclosed =>
      rw [hs.handles] at hclosed
      cases hclosed
  | created hphase | createFailed hphase | sendReady hphase | sendReadyClosed hphase
  | publishInvite hphase | spawnAccept hphase | close hphase | abortAccept hphase
  | joinAccept hphase | sendError hphase | sendErrorClosed hphase | failedShutdown hphase
  | failedTakeText hphase | failedSendClosed hphase | failedClose hphase =>
      rw [hphase] at hhost
      cases hhost

/-- While a peer is served its handler does nothing. -/
theorem Step.conn_cases (h : Step X cfg l s t) (hs : RoomReachable X cfg s)
    (hserves : s.Serves c info) :
    (∃ l', ReaderStep X c l' s t ∧ l = .reader c l') ∨
      (∃ l', WriterStep X c l' s t ∧ l = .writer c l') ∨
      (∃ l', NetStep c l' s t) ∨ t.conns c = s.conns c := by
  have hserve := hserves.handler
  by_cases hconn : l.conn = some c
  · cases h.connStep hconn with
    | accept _ _ hidle =>
        rw [hserve] at hidle
        cases hidle
    | handler h =>
        rcases h.of_serve hserve with ⟨reason, hended⟩ | hready
        · exact absurd hended (hserves.reader reason)
        · have hseen : (s.conns c).watchSeen = 0 := hs.unseen c (by rw [hserve]; exact id)
          rw [hseen] at hready
          exact absurd hready hserves.calm
    | reader h =>
        exact .inl ⟨_, h, rfl⟩
    | writer h =>
        exact .inr (.inl ⟨_, h, rfl⟩)
    | net h =>
        exact .inr (.inr (.inl ⟨_, h⟩))
  · exact .inr (.inr (.inr (h.conns_of_ne hconn)))

theorem ReaderStep.not_ended_of_harmless {l : ReaderLabel} (h : ReaderStep X c l s t)
    (hl : ¬ l.Ends) (reason : ReaderEnd) : (t.conns c).reader ≠ .ended reason := by
  cases h with
  | badFrame | badMessage | readFail | readTimeout | cancel => exact absurd trivial hl
  | start | read | message | ping | send | sendClosed =>
      rw [conns_setConn_self]
      exact Reader.noConfusion

/-- **Nothing harmless ends the session.** -/
theorem Step.serves (h : Step X cfg l s t) (hl : l.Harmless c) (hs : RoomReachable X cfg s)
    (hserves : s.Serves c info) : t.Serves c info := by
  have hstay : ∀ l', l = .user l' → ¬ l'.Leaves := by
    rintro l' rfl
    exact hl
  obtain ⟨hcalm, hopen⟩ := h.calm hstay hserves.calm hserves.handles
  -- the host loop stays at work
  have hhost : t.host.AtWork := by
    by_cases hown : ∃ l', l = .host l'
    · obtain ⟨l', rfl⟩ := hown
      cases h with
      | host h => exact h.atWork hs.signals hserves
    · push Not at hown
      rw [h.host_eq hown]
      exact hserves.host
  -- the step is one of the writer, the reader or the client, or about another connection
  rcases h.conn_cases hs hserves with ⟨l', hstep, rfl⟩ | ⟨l', hstep, rfl⟩ | ⟨l', hstep⟩ | hsame
  · exact ⟨hcalm, hopen, hhost, hstep.frame.1.trans hserves.handler,
      hstep.not_ended_of_harmless (hl rfl)⟩
  · refine ⟨hcalm, hopen, hhost, hstep.frame.1.trans hserves.handler, ?_⟩
    rw [hstep.frame.2.2.1]
    exact hserves.reader
  · refine ⟨hcalm, hopen, hhost, hstep.frame.1.trans hserves.handler, ?_⟩
    rw [hstep.frame.2.2.1]
    exact hserves.reader
  · refine ⟨hcalm, hopen, hhost, ?_, ?_⟩
    · rw [hsame]
      exact hserves.handler
    · rw [hsame]
      exact hserves.reader

/-- The writer goes on with the log, whatever its entries are. -/
theorem Step.feeds (h : Step X cfg l s t) (hl : l.Harmless c) (hs : RoomReachable X cfg s)
    (hserves : s.Serves c info) (hfeeds : Feeds X base got front rest s.bcast (s.conns c)) :
    ∃ got' rest', Feeds X base got' front rest' t.bcast (t.conns c) := by
  have hgrown : ∀ {k : Conn}, k.cursor = (s.conns c).cursor → k.writer = (s.conns c).writer →
      k.sock.written = (s.conns c).sock.written →
      Feeds X base got front rest t.bcast k := by
    intro k hcursor hwriter hwritten
    obtain ⟨hle, htaken, hholds, hbytes⟩ := hfeeds
    rw [← hcursor] at hle htaken
    have hbcast := h.bcast
    refine ⟨?_, ?_, hwriter ▸ hholds, hwritten ▸ hbytes⟩
    · rw [hbcast, List.length_append]
      omega
    · rw [hbcast, List.take_append_of_le_length hle, htaken]
  rcases h.conn_cases hs hserves with ⟨l', hstep, rfl⟩ | ⟨l', hstep, rfl⟩ | ⟨l', hstep⟩ | hsame
  · obtain ⟨-, -, -, hwriter, -, hcursor, hwritten⟩ := hstep.frame
    exact ⟨got, rest, hgrown hcursor hwriter hwritten⟩
  · have haborts := (hs.coherent c).aborts
    rw [hserves.handler] at haborts
    exact hstep.feeds hl hserves.handler haborts.2 hfeeds
  · obtain ⟨-, -, -, -, hwriter, -, hcursor, -, hwritten⟩ := hstep.frame
    exact ⟨got, rest, hgrown hcursor hwriter hwritten⟩
  · rw [hsame]
    exact ⟨got, rest, hgrown rfl rfl rfl⟩

/-! ## What the host's user is shown -/

/-- A text of the host that does not fit a frame. -/
def ChatEvent.IsOversized (X : Crates) : ChatEvent → Prop
  | .message id name text => id = hubId ∧ ¬ Encodes X.json (.chat name text)
  | _ => False

instance (X : Crates) : DecidablePred (ChatEvent.IsOversized X)
  | .message id name text =>
    inferInstanceAs (Decidable (id = hubId ∧ ¬ Encodes X.json (.chat name text)))
  | .peerJoin _ | .peerLeave _ | .bootstrapProgress _ | .roomReady .. | .inviteCreated _
  | .roomClosed | .error _ => .isFalse id

/-- The texts the host's user was shown as sent although no peer can get them. -/
def Room.shownOversized (X : Crates) (s : Room) : List ChatEvent :=
  s.events.sent.filter (ChatEvent.IsOversized X)

/-- The host loop does not show a text that does not fit: the event channel has no
room. -/
def EchoHidden (X : Crates) (cfg : HostConfig) (s : Room) (l : Label) : Prop :=
  l = .host .echo → ∀ text, s.host = .echo text → ¬ Encodes X.json (.chat cfg.name text) →
    ¬ s.events.HasRoom eventChanCap

/-- A text that the event channel takes is shown. -/
theorem shownOversized_trySend {ev : ChatEvent} (hroom : s.events.HasRoom eventChanCap)
    (hsent : t.events = s.events.trySend eventChanCap ev) (hover : ev.IsOversized X) :
    t.shownOversized X = s.shownOversized X ++ [ev] := by
  rw [Room.shownOversized, hsent, Mpsc.trySend_of_hasRoom hroom, Mpsc.sent_push,
    List.filter_append, List.filter_singleton, decide_eq_true hover, cond_true]
  rfl

/-- A step shows no such text exactly if it is not the echo of one. -/
theorem Step.shownOversized_iff (h : Step X cfg l s t) (hs : RoomReachable X cfg s) :
    t.shownOversized X = s.shownOversized X ↔ EchoHidden X cfg s l := by
  constructor
  · rintro hsame rfl text hhost hfits hroom
    cases h with
    | host h =>
        cases h with
        | echo hphase =>
            rw [hhost] at hphase
            cases hphase
            have hshown : ChatEvent.IsOversized X (.message hubId cfg.name text) := ⟨rfl, hfits⟩
            rw [shownOversized_trySend hroom rfl hshown] at hsame
            exact List.cons_ne_nil _ _ (List.append_right_eq_self.mp hsame)
  · intro hhidden
    unfold Room.shownOversized
    rcases h.events with hsame | ⟨ev, hemits, hroom, hsent⟩
    · rw [hsame]
    · rw [hsent, List.filter_append]
      have hother : ¬ ev.IsOversized X := by
        cases hemits with
        | echo hphase => exact fun hshown => hhidden rfl _ hphase hshown.2 hroom
        | deliver hphase =>
            -- what peers have said comes under their own ids
            intro hshown
            obtain ⟨d, peer, hjoined, hid⟩ := hs.owned.deliver _ _ hphase
            exact hs.joined_ne_hubId hjoined (hid.trans hshown.1)
        | _ => exact id
      simp [hother]

/-! ## The host -/

/-- The host has refused what does not fit since `s`: the session with peer `c` goes
on, its stream has got the other texts in order, and the user was shown none. -/
structure HostRefuses (X : Crates) (c : ConnId) (info : PeerInfo) (base : List WireMessage)
    (front : List UInt8) (s t : Room) : Prop where
  serves : t.Serves c info
  feeds : ∃ got rest, Feeds X base got front rest t.bcast (t.conns c)
  hidden : t.shownOversized X = s.shownOversized X

/-- **On the host texts that do not fit are refused throughout a run if and only if
none of them is echoed while the event channel has room.**  Peer `c` is served at the
start, and nothing else happens to its session. -/
theorem host_refuses_iff (hs : RoomReachable X cfg s) (hserves : s.Serves c info)
    (hfeeds : Feeds X base got front rest s.bcast (s.conns c)) (ls : List Label) (t : Room) :
    Run (fun l u v => (Step X cfg l u v ∧ l.Harmless c) ∧ HostRefuses X c info base front s v)
        s ls t ↔
      Run (Guarded (fun l u v => Step X cfg l u v ∧ l.Harmless c) (EchoHidden X cfg)) s ls t := by
  have hstart : RoomReachable X cfg s ∧ HostRefuses X c info base front s s :=
    ⟨hs, hserves, ⟨got, rest, hfeeds⟩, rfl⟩
  refine Run.congr_on (I := fun u => RoomReachable X cfg u ∧ HostRefuses X c info base front s u)
    hstart (fun {l u v} hu => ?_) fun hu h => ⟨hu.1.run (.single h.1.1), h.2⟩
  obtain ⟨hreach, hbefore⟩ := hu
  constructor
  · rintro ⟨hstep, hafter⟩
    have hsame := hafter.hidden.trans hbefore.hidden.symm
    exact ⟨hstep, (hstep.1.shownOversized_iff hreach).mp hsame⟩
  · rintro ⟨⟨hstep, hharmless⟩, hhidden⟩
    obtain ⟨got', rest', hfeeds'⟩ := hbefore.feeds
    exact ⟨⟨hstep, hharmless⟩, hstep.serves hharmless hreach hbefore.serves,
      hstep.feeds hharmless hreach hbefore.serves hfeeds',
      ((hstep.shownOversized_iff hreach).mpr hhidden).trans hbefore.hidden⟩

end Nullpipe

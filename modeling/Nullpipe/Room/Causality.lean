import Nullpipe.Room.Messages
import Nullpipe.Room.Shutdown
import Nullpipe.Room.Admit
import Nullpipe.Core.Standard

/-!
# The order of the events about a peer

A handler puts the join and the leave event of its peer on the event channel
itself; the messages of the peer take the way over the message channel and the
host loop.  Neither waits for the other, and no event waits for room.
`causal_of_inOrder` says which steps must not occur for the events to come in
causal order nevertheless (`InOrder`): a join event that is dropped, and a leave event that
overtakes a message.

`Causal` is stated event by event, as a `Chronicle` in which each entry may follow what is in
front of it (`MayFollow`).  The invariant `Ordered` ties the log to the connections.

* A peer that has joined has its join event on the log.  So a message may come, since
  whatever is on its way belongs to a joined peer (`Owned`, of `Room/Messages.lean`).
* A peer with a leave event has `Departed`: its connection is past its select, its reader
  puts nothing more on the channel that the host loop would take, and none of its messages is
  on the way.  A peer that has departed does not come back (`Step.departed`), which takes
  distinct ids: another connection under the same id would bring it back.

`Ordered.mayFollow` is the heart: whatever a step emits may follow the log.  The other side is
`causal_fails`, in which ann says something and hangs up at once.
-/

namespace Nullpipe

open Channel Room Transition

variable {X : Crates} {cfg : HostConfig} {s t : Room} {c : ConnId} {l : Label} {p : PeerId}

/-! ## Causal order -/

/-- The log has the join event of `p`. -/
def HasJoin (p : PeerId) (log : List ChatEvent) : Prop :=
  ∃ info, .peerJoin info ∈ log ∧ info.id = p

/-- The event may follow `front` as far as `p` is concerned: a message of `p`
comes after its join event and before its leave event, and the leave event after
the join event. -/
def MayFollow (p : PeerId) (front : List ChatEvent) : ChatEvent → Prop
  | .message sender _ _ => sender = p → HasJoin p front ∧ .peerLeave p ∉ front
  | .peerLeave id => id = p → HasJoin p front
  | _ => True

/-- The events about `p` are in causal order. -/
def Causal (p : PeerId) (log : List ChatEvent) : Prop := Chronicle (MayFollow p) log

/-! ## The condition -/

/-- No chat message of `p` is on its way to the event stream any more: the host
loop delivers none, and it will take none. -/
def Settled (s : Room) (p : PeerId) : Prop :=
  (∀ msg, s.host = .deliver p msg → msg.kind ≠ .chat) ∧
    (s.Ceased ∨ ∀ msg, (p, msg) ∈ s.msgs.queue → msg.kind ≠ .chat)

/-- A join event is not dropped for lack of room, and a leave event is either
dropped or overtakes no message. -/
def InOrder (s : Room) : Label → Prop
  | .handler c .emitJoin => ∀ info, (s.conns c).handler = .emitJoin info →
      s.events.isOpen = true → s.events.HasRoom eventChanCap
  | .handler c .emitLeave => ∀ info, (s.conns c).handler = .emitLeave info →
      s.events.HasRoom eventChanCap → Settled s info.id
  | _ => True

/-! ## Peers that have left -/

/-- A peer of this id was connected, its reader will not put another message on
the channel that the host loop takes, and none is on its way. -/
structure Departed (s : Room) (p : PeerId) : Prop where
  reader : ∃ c info, (s.conns c).handler.joined = some info ∧ info.id = p ∧
    (s.Ceased ∨ ∃ reason, (s.conns c).reader = .ended reason)
  settled : Settled s p

/-- A peer that has departed does not come back. -/
theorem Step.departed (h : Step X cfg l s t) (hs : RoomReachable X cfg s) (hids : DistinctIds s)
    (hp : Departed s p) : Departed t p where
  reader := by
    obtain ⟨c, info, hjoined, hid, hreader⟩ := hp.reader
    refine ⟨c, info, h.joined_mono hjoined, hid, hreader.imp h.ceased ?_⟩
    rintro ⟨reason, hended⟩
    exact ⟨reason, h.reader_ended (hs.coherent c) hended⟩
  settled := by
    constructor
    · intro msg hhost
      rcases h.deliver hhost with hbefore | ⟨hselect, hready, -, rest, hqueue⟩
      · exact hp.settled.1 msg hbefore
      · refine hp.settled.2.resolve_left (hs.signals.not_ceased hselect hready) msg ?_
        rw [hqueue]
        exact List.mem_cons_self ..
    · by_cases hceased : s.Ceased
      · exact .inl (h.ceased hceased)
      · refine .inr fun msg hmem => ?_
        rcases h.queue hmem with hbefore | ⟨d, hsending⟩
        · exact hp.settled.2.resolve_left hceased msg hbefore
        · -- the reader would have to be that of the departed peer
          obtain ⟨c, info, hjoined, hid, hreader⟩ := hp.reader
          obtain ⟨reason, hended⟩ := hreader.resolve_left hceased
          obtain ⟨info', hjoined', hid'⟩ := hs.owned.reader d p (by rw [hsending]; rfl)
          rw [hids c d info info' hjoined hjoined' (hid.trans hid'.symm), hsending] at hended
          cases hended

/-! ## The invariant -/

/-- The event log agrees with the connections: every joined peer has its join
event, and every peer with a leave event has departed. -/
structure Ordered (s : Room) : Prop where
  joins : ∀ c info, (s.conns c).handler.joined = some info → s.events.isOpen = true →
    .peerJoin info ∈ s.events.sent
  leaves : ∀ p, .peerLeave p ∈ s.events.sent → Departed s p
  causal : ∀ p, p ≠ hubId → Causal p s.events.sent

theorem Ordered.init (now : ℕ) : Ordered (Room.init now) := ⟨nofun, nofun, fun _ _ => .nil⟩

/-- The peer of a handler that emits its leave event has departed, if no message
is overtaken. -/
theorem Settled.departed {info : PeerInfo} (hs : RoomReachable X cfg s)
    (hphase : (s.conns c).handler = .emitLeave info) (hsettled : Settled s info.id) :
    Departed s info.id := by
  refine ⟨⟨c, info, by rw [hphase]; rfl, rfl, ?_⟩, hsettled⟩
  rcases hs.leftBy c (by rw [hphase]; trivial) with haborted | hended
  · exact .inl (.inl (hs.signals.aborted c haborted))
  · exact .inr hended

/-- What a step emits may follow the log. -/
theorem Ordered.mayFollow {ev : ChatEvent} (hs : RoomReachable X cfg s) (hord : Ordered s)
    (hemit : Emits cfg s l ev) (hroom : s.events.HasRoom eventChanCap) (hp : p ≠ hubId) :
    MayFollow p s.events.sent ev := by
  cases hemit with
  | echo => exact fun hhub => absurd hhub.symm hp
  -- the host loop delivers for joined peers that have not departed
  | @deliver id msg hphase hkind =>
      rintro rfl
      obtain ⟨c, info, hjoined, hid⟩ := hs.owned.deliver id msg hphase
      exact ⟨⟨info, hord.joins c info hjoined hroom.1, hid⟩,
        fun hleft => (hord.leaves id hleft).settled.1 msg hphase hkind⟩
  | @leave c info hphase =>
      exact fun hid => ⟨info, hord.joins c info (by rw [hphase]; rfl) hroom.1, hid⟩
  | join | roomReady | roomClosed | error => trivial

/-- A step that keeps the order keeps the invariant. -/
theorem Step.ordered (h : Step X cfg l s t) (hok : InOrder s l) (hs : RoomReachable X cfg s)
    (hids : DistinctIds s) (hord : Ordered s) : Ordered t where
  joins c info hjoined hopen := by
    rcases h.joined c with ⟨rfl, info', hphase, hafter⟩ | ⟨-, hsame⟩
    · -- the join event of this peer is put on the log by this step
      have hroom := hok info' hphase (h.events_open hopen)
      rw [hafter] at hjoined
      cases hjoined
      cases h with
      | handler h =>
          cases h with
          | emitJoin hphase' =>
              rw [hphase] at hphase'
              cases hphase'
              rw [Mpsc.trySend_of_hasRoom hroom, Mpsc.sent_push]
              exact List.mem_append_right _ (List.mem_singleton_self _)
    · rw [hsame] at hjoined
      exact h.events_mono (hord.joins c info hjoined (h.events_open hopen))
  leaves p hmem := by
    rcases h.events with hsame | ⟨ev, hemit, hroom, hsent⟩
    · rw [hsame] at hmem
      exact h.departed hs hids (hord.leaves p hmem)
    · rw [hsent, List.mem_append, List.mem_singleton] at hmem
      rcases hmem with hmem | rfl
      · exact h.departed hs hids (hord.leaves p hmem)
      · cases hemit with
        | leave hphase =>
            exact h.departed hs hids ((hok _ hphase hroom).departed hs hphase)
  causal p hp := by
    rcases h.events with hsame | ⟨ev, hemit, hroom, hsent⟩
    · rw [hsame]
      exact hord.causal p hp
    · rw [hsent]
      exact (hord.causal p hp).snoc (hord.mayFollow hs hemit hroom hp)

/-- The run lemma: the invariant holds at the end of every run in order. -/
theorem ordered_of_inOrder {now : ℕ} {ls : List Label}
    (hrun : Run (Guarded (Step X cfg) InOrder) (Room.init now) ls t) (hids : DistinctIds t) :
    Ordered t := by
  induction hrun with
  | nil => exact .init now
  | snoc hbefore hstep ih =>
      have hids' := hstep.1.distinctIds hids
      exact hstep.1.ordered hstep.2 ⟨now, hbefore.unguard.reachable⟩ hids' (ih hids')

/-- **In every run that drops no join event and lets no leave event overtake a
message, the events about every peer are in causal order**, provided the ids of
the peers are distinct. -/
theorem causal_of_inOrder (now : ℕ) (ls : List Label)
    (hrun : Run (Guarded (Step X cfg) InOrder) (Room.init now) ls t) (hids : DistinctIds t)
    (discriminator : Bytes16) : Causal (peerId X discriminator) t.events.sent :=
  (ordered_of_inOrder hrun hids).causal _ (peerId_ne_hubId X discriminator)

/-! ### A visit -/

/-- A visitor. -/
def ann : PeerInfo := ⟨peerId .standard (.fill 7), "ann", 0⟩

/-- Ann's join event comes next. -/
def Room.arriving : Room :=
  ((Room.opened ⟨"host", 300⟩ 0 "room.onion").greeted .standard 0 (.fill 0) (.fill 7)
    "ann").registered 0 ann

def arriveLabels : List Label :=
  openLabels "room.onion" ++ handshakeLabels .standard 0 (.fill 0) (.fill 7) "ann" ++
    [.handler 0 .register]

/-- Ann is served, and her reader is running. -/
def Room.visited : Room :=
  let served := (Room.arriving.announced .standard 0 ann).served .standard 0 ann
  served.setConn 0 { served.conns 0 with reader := .reading ann.id [] readTimeout }

def visitLabels : List Label := serveLabels .standard 0 ann ++ [.reader 0 .start]

theorem run_arrive :
    RoomRun .standard ⟨"host", 300⟩ (Room.init 0) arriveLabels Room.arriving :=
  ((run_open ..).append (run_handshake rfl (by decide) rfl rfl (by decide) (by decide))).append
    (.single (step_register rfl))

theorem step_arrive : Step .standard ⟨"host", 300⟩ (.handler 0 .emitJoin) Room.arriving
    (Room.arriving.announced .standard 0 ann) :=
  step_emitJoin rfl (by decide)

theorem run_visit : RoomRun .standard ⟨"host", 300⟩
    (Room.arriving.announced .standard 0 ann) visitLabels Room.visited :=
  (run_serve rfl (by decide)).append (.single (.reader (.start rfl)))

theorem conns_visited {d : ConnId} (hd : d ≠ 0) : Room.visited.conns d = Conn.fresh := by
  simp only [Room.visited, Room.served, Room.announced, Room.arriving, Room.registered,
    Room.greeted, conns_setConn_of_ne _ _ _ _ hd]
  rfl

/-- A room that differs from that of ann's visit in ann's connection only has
distinct ids. -/
theorem distinctIds_of_visited (h : ∀ d ≠ 0, t.conns d = Room.visited.conns d) :
    DistinctIds t := by
  have honly : ∀ d info, (t.conns d).handler.joined = some info → d = 0 := fun d info hd => by
    by_contra hne
    rw [h d hne, conns_visited hne] at hd
    cases hd
  intro c d info info' hc hd _
  rw [honly c info hc, honly d info' hd]

/-- Ann says something and hangs up; her leave event is emitted while her message
is still on the message channel. -/
theorem causal_fails :
    ¬ ∀ s, RoomReachable .standard ⟨"host", 300⟩ s → DistinctIds s →
      ∀ discriminator, Causal (peerId .standard discriminator) s.events.sent := by
  intro hcausal
  have hvisited : RoomReachable .standard ⟨"host", 300⟩ Room.visited :=
    ⟨0, ((run_arrive.append (.single step_arrive)).append run_visit).reachable⟩
  have hread := hvisited.run (run_message (c := 0) rfl rfl rfl
    (show Encodes SerdeJson.standard (.chat "ann" "hi") by decide) (by decide))
  have hsent := hread.run (.single (.reader (c := 0) (.send rfl (by decide))))
  have hleaving := hsent.run (run_hangUp (c := 0)
    (show _ = Handler.serve ann from rfl) rfl rfl rfl)
  have hleft := hleaving.run (.single (.handler (c := 0) (.emitLeave rfl)))
  have htaken := hleft.run (.single (.host (.takeMessage rfl (by decide) rfl rfl rfl)))
  have hdelivered := htaken.run (.single (.host (.deliver rfl)))
  have hafter := hcausal _ hdelivered (distinctIds_of_visited fun d hd => by
      simp only [Room.leaving, conns_setConn_of_ne _ _ _ _ hd]) (.fill 7)
    [.roomReady "room.onion" roomPort, .peerJoin ann, .peerLeave ann.id]
    (.message ann.id "ann" "hi") [] rfl rfl
  exact hafter.2 (by decide)

/-- Ann says something, her message is delivered, and she hangs up. -/
def partLabels : List Label :=
  deliverLabels .standard 0 ann.id (.chat "ann" "hi") ++ hangUpLabels 0

def Room.parting : Room :=
  (Room.visited.delivered .standard 0 ann.id (.chat "ann" "hi")).leaving 0 ann

theorem run_part : RoomRun .standard ⟨"host", 300⟩ Room.visited partLabels Room.parting :=
  ((run_take rfl rfl rfl (by decide) (by decide) rfl (by decide) rfl rfl rfl rfl).snoc
    (step_deliver ..)).append (run_hangUp rfl rfl rfl rfl)

theorem causal_of_inOrder_visit :
    Causal (peerId .standard (.fill 7)) [.roomReady "room.onion" roomPort, .peerJoin ann,
      .message ann.id "ann" "hi", .peerLeave ann.id] := by
  have harrive : Run (Guarded (Step .standard ⟨"host", 300⟩) InOrder) _ _ _ :=
    run_arrive.guard (by
      simp [arriveLabels, openLabels, handshakeLabels, InOrder])
  have hjoin := harrive.snoc ⟨step_arrive, fun _ _ _ => by decide⟩
  have hvisit := hjoin.append (run_visit.guard (by
    simp [visitLabels, serveLabels, InOrder]))
  have hpart := hvisit.append (run_part.guard (by
    simp [partLabels, deliverLabels, takeLabels, messageLabels, hangUpLabels, InOrder]))
  have hleave := hpart.snoc ⟨.handler (c := 0) (.emitLeave rfl),
    fun _ _ _ => ⟨fun _ h => (by cases h), .inr fun _ h => (by cases h)⟩⟩
  exact causal_of_inOrder 0 _ hleave (distinctIds_of_visited fun d hd => by
    simp only [Room.parting, Room.leaving, Room.delivered, Room.taken,
      conns_setConn_of_ne _ _ _ _ hd])
    (.fill 7)

end Nullpipe

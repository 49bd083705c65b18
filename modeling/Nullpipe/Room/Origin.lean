import Nullpipe.Room.Delivery
import Nullpipe.Room.Texts
import Mathlib.Data.List.Perm.Subperm

/-!
# Where the messages of the peers come from

`delivery` follows the messages of one peer, whose id nobody shares.  Here all messages are
followed at once, and by their connections, which cannot be mistaken for each other: whatever
the host is shown of peers is part of a log in which each connection has said what it has
framed, in its order.

The way from a stream to the screen has two halves.

* **From the streams to the message channel.**  `Sourced` ties what was sent on the channel to
  a log of pairs of a connection and a message.  The part of the log that is a connection's
  (`loggedBy`) is part of what its reader has handed out (`Conn.Logged`), hence of what the
  connection has framed (`Conn.Logged.sublist_framed`).  Only a send of a reader adds to the
  log (`Step.logged_send`).
* **From the message channel to the screen.**  `Room.Relays`: what the peers have said on the
  event stream is part of what the host loop has taken from the channel.  Messages may drop
  out, since the event stream may be full.

What is on the screen is compared as a multiset (`List.Subperm`): the texts of the host and
those of the peers come interleaved, and `said_perm` takes them apart.
-/

namespace Nullpipe

open Channel Framing Room Transition

variable {X : Crates} {cfg : HostConfig} {s t : Room} {c : ConnId} {l : Label}
  {log : List (ConnId × WireMessage)} {info : PeerInfo}

/-! ## What is said -/

/-- What the chat messages of a list say. -/
def spoken (msgs : List WireMessage) : List (String × String) :=
  msgs.filterMap fun msg => if msg.kind = .chat then some (msg.name, msg.text) else none

/-- What the peers have said, as far as it was shown. -/
def peersSaid (events : List ChatEvent) : List (String × String) :=
  events.filterMap fun
    | .message sender name text => if sender = hubId then none else some (name, text)
    | _ => none

@[simp] theorem spoken_nil : spoken [] = [] := rfl

@[simp] theorem spoken_append (msgs more : List WireMessage) :
    spoken (msgs ++ more) = spoken msgs ++ spoken more := List.filterMap_append

@[simp] theorem peersSaid_append (events more : List ChatEvent) :
    peersSaid (events ++ more) = peersSaid events ++ peersSaid more := List.filterMap_append

theorem spoken_chat (name : String) (texts : List String) :
    spoken (texts.map (.chat name)) = linesOf name texts := by
  induction texts with
  | nil => rfl
  | cons text texts ih =>
      have hone : spoken [.chat name text] = [(name, text)] := rfl
      rw [List.map_cons, ← List.singleton_append, spoken_append, ih, hone]
      rfl

/-- What is said is said by the host or by a peer. -/
theorem said_perm (events : List ChatEvent) :
    (said events).Perm (spoken (messagesFrom hubId events) ++ peersSaid events) := by
  induction events with
  | nil => exact .nil
  | cons ev events ih =>
      cases ev with
      | message sender name text =>
          have hsaid : said (.message sender name text :: events) = (name, text) :: said events :=
            rfl
          by_cases hsender : sender = hubId
          · subst hsender
            have hhub : messagesFrom hubId (.message hubId name text :: events) =
                .chat name text :: messagesFrom hubId events := by
              simp [messagesFrom, messageOf]
            have hpeers : peersSaid (.message hubId name text :: events) = peersSaid events := by
              simp [peersSaid]
            rw [hsaid, hhub, hpeers]
            exact ih.cons _
          · have hhub : messagesFrom hubId (.message sender name text :: events) =
                messagesFrom hubId events := by
              simp [messagesFrom, messageOf, hsender]
            have hpeers : peersSaid (.message sender name text :: events) =
                (name, text) :: peersSaid events := by
              simp [peersSaid, hsender]
            rw [hsaid, hhub, hpeers]
            exact (ih.cons _).trans List.perm_middle.symm
      | _ => exact ih

/-! ## From the message channel to the screen -/

/-- What peers have said on the event stream, and what the host loop holds of it, is part of
what it has taken from the message channel. -/
def Room.Relays (s : Room) : Prop :=
  (peersSaid s.events.sent ++ spoken (s.host.held.map Prod.snd)).Sublist
    (spoken (s.msgs.received.map Prod.snd))

theorem Room.Relays.frame (h : s.Relays)
    (hevents : peersSaid t.events.sent = peersSaid s.events.sent)
    (hheld : t.host.held = s.host.held) (hreceived : t.msgs.received = s.msgs.received) :
    t.Relays := by
  rw [Room.Relays, hevents, hheld, hreceived]
  exact h

theorem peersSaid_push {q : Mpsc ChatEvent} {ev : ChatEvent} (h : peersSaid [ev] = []) :
    peersSaid (q.push ev).sent = peersSaid q.sent := by
  rw [Mpsc.sent_push, peersSaid_append, h, List.append_nil]

theorem peersSaid_trySend {q : Mpsc ChatEvent} {ev : ChatEvent} (h : peersSaid [ev] = []) :
    peersSaid (q.trySend eventChanCap ev).sent = peersSaid q.sent := by
  rcases Mpsc.trySend_cases eventChanCap q ev with hpush | hsame
  · rw [hpush, peersSaid_push h]
  · rw [hsame]

/-- What is delivered says at most what its message says. -/
theorem peersSaid_deliverEvent (q : Mpsc ChatEvent) (id : PeerId) (msg : WireMessage) :
    (peersSaid (deliverEvent q id msg).sent).Sublist (peersSaid q.sent ++ spoken [msg]) := by
  unfold deliverEvent
  split
  · rename_i hkind
    have hone : (peersSaid [.message id msg.name msg.text]).Sublist (spoken [msg]) := by
      by_cases hid : id = hubId <;> simp [peersSaid, spoken, hid, hkind]
    rcases Mpsc.trySend_cases eventChanCap q (.message id msg.name msg.text) with heq | heq
    · rw [heq, Mpsc.sent_push, peersSaid_append]
      exact hone.append_left _
    · rw [heq]
      exact List.sublist_append_left _ _
  · exact List.sublist_append_left _ _

theorem HostStep.relays {l : HostLabel} (h : HostStep cfg l s t) (hs : s.Relays) : t.Relays := by
  cases h with
  | sendReady hphase | sendError hphase =>
      exact hs.frame (peersSaid_push rfl) (by rw [hphase]; rfl) rfl
  | echo hphase | close hphase | failedClose hphase =>
      exact hs.frame (peersSaid_trySend rfl) (by rw [hphase]; rfl) rfl
  | @takeMessage _ id msg rest hphase _ _ _ hqueue =>
      have hreceived : s.msgs.pop.received = s.msgs.received ++ [(id, msg)] := by
        rw [Mpsc.pop_of_queue hqueue]
      rw [Room.Relays, hphase] at hs
      rw [Room.Relays, hreceived, List.map_append, spoken_append]
      exact ((List.append_nil _).symm ▸ hs).append (List.Sublist.refl _)
  | @deliver _ id msg hphase =>
      rw [Room.Relays, hphase] at hs
      refine List.Sublist.trans ?_ hs
      simpa [HostLoop.held] using peersSaid_deliverEvent s.events id msg
  | created hphase | createFailed hphase | sendReadyClosed hphase | publishInvite hphase
  | spawnAccept hphase | shutdown hphase | takeText hphase | sendClosed hphase
  | broadcast hphase | abortAccept hphase | joinAccept hphase | sendErrorClosed hphase
  | failedShutdown hphase | failedSendClosed hphase =>
      exact hs.frame rfl (by rw [hphase]; rfl) rfl
  | failedTakeText => exact hs

theorem Step.relays (h : Step X cfg l s t) (hs : s.Relays) : t.Relays := by
  cases h with
  | user h =>
      cases h with
      | takeEvent => exact hs.frame (by rw [Mpsc.sent_pop]) rfl rfl
      | _ => exact hs
  | host h => exact h.relays hs
  | accept h => cases h <;> exact hs
  | handler h =>
      cases h with
      | emitJoin | emitLeave => exact hs.frame (peersSaid_trySend rfl) rfl rfl
      | _ => exact hs
  | reader h => cases h <;> exact hs
  | writer h => cases h <;> exact hs
  | net h => cases h <;> exact hs
  | tick => exact hs

/-! ## From the streams to the message channel -/

/-- The messages of a connection in the log. -/
def loggedBy (c : ConnId) (log : List (ConnId × WireMessage)) : List WireMessage :=
  (log.filter fun entry => entry.1 = c).map Prod.snd

theorem loggedBy_append (c : ConnId) (log more : List (ConnId × WireMessage)) :
    loggedBy c (log ++ more) = loggedBy c log ++ loggedBy c more := by
  rw [loggedBy, List.filter_append, List.map_append]
  rfl

theorem loggedBy_self (c : ConnId) (msg : WireMessage) : loggedBy c [(c, msg)] = [msg] := by
  simp [loggedBy]

theorem loggedBy_of_ne {d : ConnId} (h : d ≠ c) (msg : WireMessage) :
    loggedBy c [(d, msg)] = [] := by
  simp [loggedBy, h]

/-- The log of a connection: nothing before it has joined, and then part of what its reader
has handed out, up to the message the reader holds. -/
def Conn.Logged (X : Crates) (k : Conn) (logged : List WireMessage) : Prop :=
  k.handler.joined = none ∧ logged = [] ∨
    (∃ info, k.handler.joined = some info) ∧
      ∃ done, k.Reads X done ∧ (logged ++ k.reader.held).Sublist done

theorem Conn.Logged.sublist_framed {k : Conn} {logged : List WireMessage}
    (h : k.Logged X logged) : logged.Sublist (framed X k) := by
  rcases h with ⟨-, rfl⟩ | ⟨-, done, hreads, hsub⟩
  · exact List.nil_sublist _
  · exact ((List.sublist_append_left _ _).trans hsub).trans hreads.prefix_framed.sublist

/-- What is said on the message channel is on a log, with the connections that said it. -/
structure Sourced (X : Crates) (s : Room) (log : List (ConnId × WireMessage)) : Prop where
  sent : s.msgs.sent.map Prod.snd = log.map Prod.snd
  conns : ∀ c, (s.conns c).Logged X (loggedBy c log)

/-- Who is on the log has joined. -/
theorem Sourced.joined (h : Sourced X s log) {entry : ConnId × WireMessage}
    (hentry : entry ∈ log) : ∃ info, (s.conns entry.1).handler.joined = some info := by
  rcases h.conns entry.1 with ⟨-, hnothing⟩ | ⟨hjoined, -⟩
  · have hmem : entry.2 ∈ loggedBy entry.1 log :=
      List.mem_map.mpr ⟨entry, List.mem_filter.mpr ⟨hentry, by simp⟩, rfl⟩
    rw [hnothing] at hmem
    cases hmem
  · exact hjoined

/-- A peer that joins has no reader yet. -/
theorem Step.reads_joined (h : Step X cfg (.handler c .emitJoin) s t)
    (hc : (s.conns c).Coherent X) (hphase : (s.conns c).handler = .emitJoin info) :
    (t.conns c).Reads X [] ∧ (t.conns c).reader.held = [] := by
  have hfits := hc.fits
  have hspawned := hc.spawned
  rw [hphase] at hfits hspawned
  cases h with
  | handler h =>
      cases h with
      | emitJoin =>
          refine ⟨(Conn.Reads.start hfits.1 hspawned.1).congr (by rw [conns_setConn_self])
            (by simp) (by simp) (by simp) (by rw [conns_setConn_self]; exact id), ?_⟩
          rw [conns_setConn_self, hspawned.1]
          rfl

/-- A step that logs nothing of connection `c`. -/
theorem Step.logged (h : Step X cfg l s t) (hs : RoomReachable X cfg s)
    {logged : List WireMessage} (hlogged : (s.conns c).Logged X logged) :
    (t.conns c).Logged X logged := by
  have hc := hs.coherent c
  rcases h.joined c with ⟨rfl, info, hphase, hjoins⟩ | ⟨-, hsame⟩
  · have hnone : (s.conns c).handler.joined = none := by rw [hphase]; rfl
    rcases hlogged with ⟨-, rfl⟩ | ⟨⟨info', hjoined⟩, -⟩
    · obtain ⟨hreads, hheld⟩ := h.reads_joined hc hphase
      exact .inr ⟨⟨info, hjoins⟩, [], hreads, by rw [hheld]; exact List.Sublist.refl _⟩
    · rw [hnone] at hjoined
      cases hjoined
  · rcases hlogged with ⟨hnone, hnothing⟩ | ⟨⟨info, hjoined⟩, done, hreads, hsub⟩
    · exact .inl ⟨hsame.trans hnone, hnothing⟩
    · refine .inr ⟨⟨info, hsame.trans hjoined⟩, ?_⟩
      rcases h.reads hc hjoined hreads with ⟨-, more, hmore, hheld⟩ | ⟨hkept, hheld, -⟩
      · refine ⟨done ++ more, hmore, ?_⟩
        rw [hheld, ← List.append_assoc]
        exact hsub.append List.filter_sublist
      · refine ⟨done, hkept, ?_⟩
        rw [hheld, List.append_nil]
        exact (List.sublist_append_left _ _).trans hsub

/-- The reader of `c` sends what it holds. -/
theorem Step.logged_send (h : Step X cfg (.reader c .send) s t) (hs : RoomReachable X cfg s)
    {id : PeerId} {msg : WireMessage} (hphase : (s.conns c).reader = .sending id msg)
    {logged : List WireMessage} (hlogged : (s.conns c).Logged X logged) :
    (t.conns c).Logged X (logged ++ [msg]) := by
  obtain ⟨info, hjoined, -⟩ := hs.owned.reader c id (by rw [hphase]; rfl)
  rcases hlogged with ⟨hnone, -⟩ | ⟨-, done, hreads, hsub⟩
  · rw [hjoined] at hnone
    cases hnone
  · refine .inr ⟨⟨info, h.joined_mono hjoined⟩, ?_⟩
    rw [hphase] at hsub
    rcases h.reads (hs.coherent c) hjoined hreads with ⟨hne, -⟩ | ⟨hkept, hheld, -⟩
    · exact absurd rfl hne
    · refine ⟨done, hkept, ?_⟩
      rw [hheld, List.append_nil]
      exact hsub

theorem Step.sourced (h : Step X cfg l s t) (hs : RoomReachable X cfg s)
    (hsourced : Sourced X s log) : ∃ log, Sourced X t log := by
  obtain ⟨hsent, hconns⟩ := hsourced
  rcases h.msgs with hsame | ⟨c, id, msg, rfl, hphase, hmore⟩
  · exact ⟨log, by rw [hsame, hsent], fun c => h.logged hs (hconns c)⟩
  · refine ⟨log ++ [(c, msg)], ?_, fun d => ?_⟩
    · rw [hmore, List.map_append, List.map_append, hsent]
      rfl
    · rw [loggedBy_append]
      by_cases hd : c = d
      · subst hd
        rw [loggedBy_self]
        exact h.logged_send hs hphase (hconns c)
      · rw [loggedBy_of_ne hd, List.append_nil]
        exact h.logged hs (hconns d)

/-! ## Every run -/

theorem RoomReachable.sourced (hs : RoomReachable X cfg s) :
    s.Relays ∧ ∃ log, Sourced X s log := by
  obtain ⟨now, hreach⟩ := hs
  have hall : RoomReachable X cfg s ∧ s.Relays ∧ ∃ log, Sourced X s log :=
    hreach.invariant (I := fun r => RoomReachable X cfg r ∧ r.Relays ∧ ∃ log, Sourced X r log)
      ⟨⟨now, .refl _⟩, List.Sublist.refl _, [], rfl, fun _ => .inl ⟨rfl, rfl⟩⟩
      fun ⟨hr, hrelays, _, hlog⟩ hstep =>
        ⟨hr.run (.single hstep), hstep.relays hrelays, hstep.sourced hr hlog⟩
  exact hall.2

/-- **Where everything comes from that the host is shown:** from the host, or from a log. -/
theorem RoomReachable.said_subperm (hs : RoomReachable X cfg s) :
    ∃ log, Sourced X s log ∧ (said s.events.sent).Subperm
      (linesOf cfg.name s.sendQ.received ++ spoken (log.map Prod.snd)) := by
  obtain ⟨hrelays, log, hsourced⟩ := hs.sourced
  obtain ⟨shown, hshown, hsub⟩ := hs.shows
  refine ⟨log, hsourced, (said_perm _).subperm.trans ?_⟩
  rw [hshown, spoken_chat]
  refine List.Subperm.append ?_ ?_
  · exact (((List.sublist_append_left _ _).trans hsub).map _).subperm
  · have htaken : (s.msgs.received.map Prod.snd).Sublist (log.map Prod.snd) := by
      rw [← hsourced.sent]
      exact (s.msgs.received_prefix_sent.map _).sublist
    exact (((List.sublist_append_left _ _).trans hrelays).trans
      (htaken.filterMap _)).subperm

end Nullpipe

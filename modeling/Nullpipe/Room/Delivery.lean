import Nullpipe.Room.Messages
import Nullpipe.Room.Shutdown
import Nullpipe.Room.Reading
import Nullpipe.Room.Causality

/-!
# What reaches the host of what a peer says

A chat message goes from the reader of its peer over the message channel to the
host loop and from there to the event stream.  All peers share the channel and the
loop; restricted to one peer the way is a queue (`Room.onWay`), from which
messages may drop out but in which none overtakes another.

* `Step.onWay`: only the send of a reader adds to what is on its way for a peer, at the back.
  Every other step keeps it, or drops the message that is delivered to a full event channel.
* `Tracked`: what a reader has handed out is what is on its way, with some messages left out
  (`Follows`), and behind it the one the reader holds.  In the strict case nothing is left
  out: the event channel takes every message, the room is not shut down and the users listen.
* `Conn.Reads` says what the reader has handed out of the bytes that have arrived.

The queue of a peer is told by its id, so the ids of joined peers must be distinct, and a
peer must not have the host's own id, which `peerId_ne_hubId` excludes.

`delivery` puts these together: the messages of a peer on the event stream are, in order and
each at most once, chat messages it framed behind its handshake; and once the queues are
drained they are all of them, if the reader was not stopped early.  `delivery_fails` has the
two ways in which a message is lost by design: a reader that has timed out, and an event
stream that was dropped.
-/

namespace Nullpipe

open Channel Room Transition

variable {X : Crates} {cfg : HostConfig} {s t : Room} {c : ConnId} {l : Label} {p : PeerId}
  {info : PeerInfo} {ls : List Label} {done : List WireMessage} {strict : Prop}

/-! ## The messages of one peer -/

/-- The event as a chat message of `p`. -/
def messageOf (p : PeerId) : ChatEvent → Option WireMessage
  | .message sender name text => if sender = p then some (.chat name text) else none
  | _ => none

/-- The messages of `p` among the events. -/
def messagesFrom (p : PeerId) (events : List ChatEvent) : List WireMessage :=
  events.filterMap (messageOf p)

/-- The chat messages of `p` among the entries of the message channel. -/
def chatsFrom (p : PeerId) (entries : List (PeerId × WireMessage)) : List WireMessage :=
  chats ((entries.filter fun entry => entry.1 = p).map Prod.snd)

/-- The entry the host loop has taken from the message channel. -/
def HostLoop.held : HostLoop → List (PeerId × WireMessage)
  | .deliver id msg => [(id, msg)]
  | _ => []

/-- The chat messages of `p` that its reader has sent, in order: those on the
event stream, the one the host loop holds and those on the message channel. -/
def Room.onWay (s : Room) (p : PeerId) : List WireMessage :=
  messagesFrom p s.events.sent ++ chatsFrom p s.host.held ++ chatsFrom p s.msgs.queue

section

variable {q : Mpsc ChatEvent} {ev : ChatEvent} {id : PeerId} {msg : WireMessage}

theorem messagesFrom_append (p : PeerId) (events more : List ChatEvent) :
    messagesFrom p (events ++ more) = messagesFrom p events ++ messagesFrom p more :=
  List.filterMap_append

@[simp] theorem chatsFrom_nil (p : PeerId) : chatsFrom p [] = [] := rfl

theorem chatsFrom_append (p : PeerId) (entries more : List (PeerId × WireMessage)) :
    chatsFrom p (entries ++ more) = chatsFrom p entries ++ chatsFrom p more := by
  simp only [chatsFrom, List.filter_append, List.map_append, chats_append]

theorem chatsFrom_of_ne (h : id ≠ p) : chatsFrom p [(id, msg)] = [] := by
  simp [chatsFrom, h]

theorem chatsFrom_self : chatsFrom p [(p, msg)] = chats [msg] := by
  simp [chatsFrom]

/-- An event that is no message of `p` does not matter. -/
theorem messagesFrom_push (h : messageOf p ev = none) :
    messagesFrom p (q.push ev).sent = messagesFrom p q.sent := by
  have hnone : messagesFrom p [ev] = [] := by rw [messagesFrom, List.filterMap_cons_none h]; rfl
  rw [Mpsc.sent_push, messagesFrom_append, hnone, List.append_nil]

theorem messagesFrom_trySend (h : messageOf p ev = none) :
    messagesFrom p (q.trySend eventChanCap ev).sent = messagesFrom p q.sent := by
  rcases Mpsc.trySend_cases eventChanCap q ev with hq | hq <;> rw [hq]
  exact messagesFrom_push h

/-- What delivering an entry adds to the messages of `p`: its chat message, if
there is room. -/
theorem messagesFrom_deliverEvent (p : PeerId) (q : Mpsc ChatEvent) (id : PeerId)
    (msg : WireMessage) :
    (messagesFrom p (deliverEvent q id msg).sent).Sublist
        (messagesFrom p q.sent ++ chatsFrom p [(id, msg)]) ∧
      (q.HasRoom eventChanCap → messagesFrom p (deliverEvent q id msg).sent =
        messagesFrom p q.sent ++ chatsFrom p [(id, msg)]) := by
  -- a chat message is the one that its name and its text make
  have hchat : msg.kind = .chat → WireMessage.chat msg.name msg.text = msg := fun hkind => by
    cases msg
    cases hkind
    rfl
  by_cases hkind : msg.kind = .chat
  · have hnew : messagesFrom p [.message id msg.name msg.text] = chatsFrom p [(id, msg)] := by
      by_cases hid : id = p
      · rw [hid, chatsFrom_self]
        simp [messagesFrom, messageOf, hchat hkind, chats, hkind]
      · rw [chatsFrom_of_ne hid]
        simp [messagesFrom, messageOf, hid]
    rw [deliverEvent, if_pos hkind, ← hnew]
    by_cases hroom : q.HasRoom eventChanCap
    · rw [Mpsc.trySend_of_hasRoom hroom, Mpsc.sent_push, messagesFrom_append]
      exact ⟨List.Sublist.refl _, fun _ => rfl⟩
    · rw [Mpsc.trySend_of_not_hasRoom hroom]
      exact ⟨List.sublist_append_left _ _, fun h => absurd h hroom⟩
  -- what is not a chat makes no event and counts nowhere
  · have hnone : chatsFrom p [(id, msg)] = [] := by
      by_cases hid : id = p
      · rw [hid, chatsFrom_self]
        simp [chats, hkind]
      · exact chatsFrom_of_ne hid
    rw [deliverEvent, if_neg hkind, hnone, List.append_nil]
    exact ⟨List.Sublist.refl _, fun _ => rfl⟩

end

/-! ## One step -/

/-- When a message is delivered, the event channel takes it. -/
def Takes (s : Room) : Label → Prop
  | .host .deliver => s.events.HasRoom eventChanCap
  | _ => True

/-- A step other than a send of a reader keeps what is on its way, except that a
message may be dropped by a delivery for which there is no room. -/
def Keeps (p : PeerId) (l : Label) (s t : Room) : Prop :=
  (t.onWay p).Sublist (s.onWay p) ∧ (Takes s l → t.onWay p = s.onWay p)

theorem Keeps.of_eq (h : t.onWay p = s.onWay p) : Keeps p l s t :=
  ⟨by rw [h], fun _ => h⟩

theorem HostStep.onWay {l : HostLabel} (h : HostStep cfg l s t) (hp : p ≠ hubId) :
    Keeps p (.host l) s t := by
  cases h with
  | sendReady hphase | sendError hphase =>
      refine .of_eq ?_
      rw [onWay, onWay, hphase, messagesFrom_push rfl]
      rfl
  | echo hphase =>
      -- the host's own message is under an id that is not `p`
      refine .of_eq ?_
      rw [onWay, onWay, hphase, messagesFrom_trySend (by exact if_neg (Ne.symm hp))]
      rfl
  | close hphase | failedClose hphase =>
      refine .of_eq ?_
      rw [onWay, onWay, hphase, messagesFrom_trySend rfl]
      rfl
  | @takeMessage _ id msg rest hphase _ _ _ hqueue =>
      -- the entry moves from the queue into the hands of the loop
      refine .of_eq ?_
      have hsplit := chatsFrom_append p [(id, msg)] rest
      rw [List.singleton_append] at hsplit
      simp only [onWay, hphase, hqueue, hsplit, HostLoop.held]
      rw [Mpsc.pop_of_queue hqueue, chatsFrom_nil, List.append_nil, List.append_assoc]
  | @deliver _ id msg hphase =>
      -- the only step in which a message can be lost
      obtain ⟨hsub, heq⟩ := messagesFrom_deliverEvent p s.events id msg
      rw [Keeps, onWay, onWay, hphase]
      constructor
      · refine List.Sublist.append ?_ (List.Sublist.refl _)
        simpa [HostLoop.held, chatsFrom] using hsub
      · intro hroom
        rw [heq hroom]
        simp [HostLoop.held, chatsFrom]
  | created hphase | createFailed hphase | sendReadyClosed hphase | publishInvite hphase
  | spawnAccept hphase | shutdown hphase | takeText hphase | sendClosed hphase
  | broadcast hphase | abortAccept hphase | joinAccept hphase | sendErrorClosed hphase
  | failedShutdown hphase | failedSendClosed hphase =>
      refine .of_eq ?_
      rw [onWay, onWay, hphase]
      rfl
  | failedTakeText => exact .of_eq rfl

/-- Only the send of a reader adds to what is on its way. -/
theorem Step.onWay (h : Step X cfg l s t) (hp : p ≠ hubId) :
    (∃ c id msg, l = .reader c .send ∧ (s.conns c).reader = .sending id msg ∧
      t.onWay p = s.onWay p ++ chatsFrom p [(id, msg)]) ∨
    ((∀ c, l ≠ .reader c .send) ∧ Keeps p l s t) := by
  cases h with
  | user h =>
      refine .inr ⟨nofun, .of_eq ?_⟩
      cases h with
      | takeEvent => rw [Room.onWay, Room.onWay, Mpsc.sent_pop]
      | _ => rfl
  | host h => exact .inr ⟨nofun, h.onWay hp⟩
  | accept h => exact .inr ⟨nofun, .of_eq (by cases h <;> rfl)⟩
  | handler h =>
      refine .inr ⟨nofun, .of_eq ?_⟩
      cases h with
      | emitJoin | emitLeave => rw [Room.onWay, Room.onWay, messagesFrom_trySend rfl]; rfl
      | _ => rfl
  | @reader c _ _ _ h =>
      cases h with
      | @send _ id msg hphase =>
          refine .inl ⟨c, id, msg, rfl, hphase, ?_⟩
          show messagesFrom p s.events.sent ++ chatsFrom p s.host.held ++
            chatsFrom p (s.msgs.queue ++ [(id, msg)]) = _
          rw [chatsFrom_append, ← List.append_assoc]
          rfl
      | _ => exact .inr ⟨by simp, .of_eq rfl⟩
  | writer h => exact .inr ⟨nofun, .of_eq (by cases h <;> rfl)⟩
  | net h => exact .inr ⟨nofun, .of_eq (by cases h <;> rfl)⟩
  | tick => exact .inr ⟨nofun, .of_eq rfl⟩

/-! ## The invariant -/

/-- The list `a` follows `b`: it is `b` with some entries left out, and with none
left out in the strict case. -/
def Follows (strict : Prop) (a b : List WireMessage) : Prop := a.Sublist b ∧ (strict → a = b)

theorem Follows.refl (a : List WireMessage) : Follows strict a a :=
  ⟨List.Sublist.refl a, fun _ => rfl⟩

theorem Follows.drop {a a' b : List WireMessage} (h : Follows strict a b) (hsub : a'.Sublist a)
    (heq : strict → a' = a) : Follows strict a' b :=
  ⟨hsub.trans h.1, fun hstrict => (heq hstrict).trans (h.2 hstrict)⟩

theorem Follows.append {a b : List WireMessage} (h : Follows strict a b) (more : List WireMessage) :
    Follows strict (a ++ more) (b ++ more) :=
  ⟨h.1.append (List.Sublist.refl more), fun hstrict => by rw [h.2 hstrict]⟩

/-- The reader of the peer has handed out messages whose chats are on their way to
the event stream or there, followed by the one it holds. -/
def Tracked (X : Crates) (strict : Prop) (s : Room) (c : ConnId) (info : PeerInfo) : Prop :=
  ∃ done, (s.conns c).Reads X done ∧
    Follows strict (s.onWay info.id ++ chats (s.conns c).reader.held) (chats done)

/-- The id of a joined peer is not that of the host. -/
theorem RoomReachable.joined_ne_hubId (hs : RoomReachable X cfg s)
    (hjoined : (s.conns c).handler.joined = some info) : info.id ≠ hubId := by
  obtain ⟨more, nonce, discriminator, frame, msg, hid, -⟩ := (hs.coherent c).greets hjoined
  rw [hid]
  exact peerId_ne_hubId X discriminator

theorem onWay_of_not_joined (hs : RoomReachable X cfg s) (hp : p ≠ hubId)
    (hnot : ¬ s.HasJoined p) : s.onWay p = [] := by
  have howned := hs.owned
  have hevents : messagesFrom p s.events.sent = [] := by
    refine List.filterMap_eq_nil_iff.mpr fun ev hev => ?_
    cases ev with
    | message sender name text =>
        refine if_neg fun hsender => hnot ?_
        rw [← hsender]
        exact (howned.events sender name text hev).resolve_left (hsender ▸ hp)
    | _ => rfl
  -- neither the host loop nor the queue holds a message of a peer that has not joined
  have hchats : ∀ entries : List (PeerId × WireMessage),
      (∀ id msg, (id, msg) ∈ entries → s.HasJoined id) → chatsFrom p entries = [] := by
    intro entries hentries
    have hnone : entries.filter (fun entry => entry.1 = p) = [] := by
      refine List.filter_eq_nil_iff.mpr fun entry hentry => ?_
      have hne : entry.1 ≠ p := fun heq => hnot (heq ▸ hentries _ _ hentry)
      simpa using hne
    rw [chatsFrom, hnone]
    rfl
  rw [Room.onWay, hevents, hchats _ fun id msg hmem => ?_, hchats _ fun id msg hmem =>
    howned.sent id msg (List.mem_append_right _ hmem)]
  · rfl
  · cases hhost : s.host with
    | deliver id' msg' =>
        rw [hhost] at hmem
        cases List.mem_singleton.mp hmem
        exact howned.deliver id msg hhost
    | _ =>
        rw [hhost] at hmem
        cases hmem

/-- When a peer joins, nothing of it has been read or sent. -/
theorem Tracked.start (hs : RoomReachable X cfg s) (ht : RoomReachable X cfg t)
    (h : Step X cfg (.handler c .emitJoin) s t) (hphase : (s.conns c).handler = .emitJoin info)
    (hids : DistinctIds t) (hjoined : (t.conns c).handler.joined = some info) :
    Tracked X strict t c info := by
  have hc := hs.coherent c
  have hfits := hc.fits
  have hspawned := hc.spawned
  rw [hphase] at hfits hspawned
  have hstart : (s.conns c).Reads X [] := .start hfits.1 hspawned.1
  -- a peer that has joined under this id is at this connection, which is yet to join
  have hnot : ¬ s.HasJoined info.id := by
    rintro ⟨d, info', hd, hid⟩
    have hdc := hids d c info' info (h.joined_mono hd) hjoined hid
    rw [hdc, hphase] at hd
    cases hd
  have hp := ht.joined_ne_hubId hjoined
  have hway : t.onWay info.id = [] := by
    rcases h.onWay hp with ⟨_, _, _, hl, -⟩ | ⟨-, hkeeps⟩
    · cases hl
    · rw [hkeeps.2 trivial, onWay_of_not_joined hs hp hnot]
  cases h with
  | handler h =>
      cases h with
      | emitJoin =>
          refine ⟨[], hstart.congr (by rw [conns_setConn_self]) (by simp) (by simp) (by simp)
            (by rw [conns_setConn_self]; exact id), ?_⟩
          rw [hway, conns_setConn_self, hspawned.1]
          exact .refl []

/-- One step of a joined peer. -/
theorem Step.tracked (h : Step X cfg l s t) (hs : RoomReachable X cfg s) (hids : DistinctIds s)
    (hok : strict → Takes s l ∧ ¬ s.Ceased) (hjoined : (s.conns c).handler.joined = some info)
    (htracked : Tracked X strict s c info) : Tracked X strict t c info := by
  obtain ⟨done, hreads, hfollows⟩ := htracked
  have hp := hs.joined_ne_hubId hjoined
  have hadvance := h.reads (hs.coherent c) hjoined hreads
  rcases h.onWay hp with ⟨d, id, msg, rfl, hsending, hway⟩ | ⟨hnosend, hkeeps⟩
  · obtain ⟨info', hjoined', hid⟩ := hs.owned.reader d id (by rw [hsending]; rfl)
    by_cases hdc : d = c
    · -- the peer's own reader puts the message it held on the channel
      subst hdc
      rw [hjoined] at hjoined'
      cases hjoined'
      rcases hadvance with ⟨hne, -⟩ | ⟨hreads', hheld, -⟩
      · exact absurd rfl hne
      · refine ⟨done, hreads', ?_⟩
        rw [hway, hheld, chats_nil, List.append_nil, ← hid, chatsFrom_self]
        rwa [hsending, ← hid] at hfollows
    · -- another peer's reader sends, and its id is another one
      have hne : id ≠ info.id := fun heq =>
        hdc (hids d c info' info hjoined' hjoined (hid.trans heq))
      refine ⟨done, ?_, ?_⟩
      · rwa [h.conns_of_ne (by simpa [Label.conn] using hdc)] at *
      · rw [hway, chatsFrom_of_ne hne, List.append_nil,
          h.conns_of_ne (by simpa [Label.conn] using hdc)]
        exact hfollows
  · have hfollows' : Follows strict (t.onWay info.id ++ chats (s.conns c).reader.held)
        (chats done) := by
      refine hfollows.drop (hkeeps.1.append (List.Sublist.refl _)) fun hstrict => ?_
      rw [hkeeps.2 (hok hstrict).1]
    rcases hadvance with ⟨-, more, hreads', hheld⟩ | ⟨hreads', hheld, hwhy⟩
    · refine ⟨done ++ more, hreads', ?_⟩
      rw [hheld, chats_append, chats_append, chats_forwards, ← List.append_assoc]
      exact hfollows'.append _
    · refine ⟨done, hreads', ?_⟩
      rw [hheld, chats_nil, List.append_nil]
      refine hfollows'.drop (List.sublist_append_left _ _) fun hstrict => ?_
      -- what a reader lets go of is lost only when the room shuts down
      exfalso
      apply (hok hstrict).2
      rcases hwhy with hsend | hclosed | haborted
      · exact absurd hsend (hnosend c)
      · refine .inr (hs.msgs_open.resolve_left fun hopen => ?_)
        rw [hclosed] at hopen
        cases hopen
      · exact .inl (hs.signals.aborted c haborted)

/-- The run lemma: every joined peer is tracked, strictly so if the event channel
takes every message and the room is not shut down. -/
theorem tracked_of_run {now : ℕ}
    (hrun : Run (Guarded (Step X cfg) fun s l => strict → Takes s l) (Room.init now) ls t)
    (hids : DistinctIds t) (hup : strict → ¬ t.Ceased)
    (hjoined : (t.conns c).handler.joined = some info) : Tracked X strict t c info := by
  induction hrun with
  | nil => cases hjoined
  | @snoc s t ls l hbefore hstep ih =>
      have hs : RoomReachable X cfg s := ⟨now, hbefore.unguard.reachable⟩
      have hids' := hstep.1.distinctIds hids
      have hup' : strict → ¬ s.Ceased := fun hstrict hceased =>
        hup hstrict (hstep.1.ceased hceased)
      rcases hstep.1.joined c with ⟨rfl, info', hphase, hafter⟩ | ⟨-, hsame⟩
      · -- the peer joins with this step
        rw [hafter] at hjoined
        cases hjoined
        exact .start hs (hs.run (.single hstep.1)) hstep.1 hphase hids hafter
      · rw [hsame] at hjoined
        exact hstep.1.tracked hs hids' (fun hstrict => ⟨hstep.2 hstrict, hup' hstrict⟩) hjoined
          (ih hids' hup' hjoined)

/-! ## The law -/

/-- Everything the connection has received has been read, or its reader ended
before, but not by a timeout. -/
def Exhausted (k : Conn) : Prop :=
  (∃ reason, k.reader = .ended reason ∧ reason ≠ .timedOut) ∨
    (∀ reason, k.reader ≠ .ended reason) ∧ k.sock.inbox = []

/-- **The messages of a peer on the event stream are, in order and each at most
once, chat messages it framed after its handshake; and they are all of them once
the queues are drained**, if the event channel took every message, the room is not
shut down and the reader of the peer did not time out. -/
theorem delivery (now : ℕ) (ls : List Label) (t : Room)
    (hrun : RoomRun X cfg (Room.init now) ls t) (hids : DistinctIds t) :
    (∀ p, p ≠ hubId → ¬ t.HasJoined p → messagesFrom p t.events.sent = []) ∧
    ∀ c info, (t.conns c).handler.joined = some info →
      (messagesFrom info.id t.events.sent).Sublist (chats (framed X (t.conns c))) ∧
      (Run (Guarded (Step X cfg) Takes) (Room.init now) ls t → ¬ t.Ceased → Drained t →
        Exhausted (t.conns c) →
        messagesFrom info.id t.events.sent = chats (framed X (t.conns c))) := by
  have ht : RoomReachable X cfg t := ⟨now, hrun.reachable⟩
  refine ⟨fun p hp hnot => ?_, fun c info hjoined => ⟨?_, fun htakes hup hdrained hdone => ?_⟩⟩
  · have hway := onWay_of_not_joined ht hp hnot
    rw [Room.onWay, List.append_eq_nil_iff, List.append_eq_nil_iff] at hway
    exact hway.1.1
  · have hrun' : Run (Guarded (Step X cfg) fun s l => False → Takes s l) (Room.init now) ls t :=
      hrun.guard fun _ _ _ => False.elim
    obtain ⟨done, hreads, hsub, -⟩ := tracked_of_run hrun' hids False.elim hjoined
    rw [Room.onWay, List.append_assoc, List.append_assoc] at hsub
    exact ((List.sublist_append_left _ _).trans hsub).trans
      (hreads.prefix_framed.sublist.filter _)
  · have hrun' : Run (Guarded (Step X cfg) fun s l => True → Takes s l) (Room.init now) ls t :=
      htakes.mono fun _ _ _ h => ⟨h.1, fun _ => h.2⟩
    obtain ⟨done, hreads, -, heq⟩ := tracked_of_run hrun' hids (fun _ => hup) hjoined
    have hheld : (t.conns c).reader.held = [] := by
      cases hreader : (t.conns c).reader with
      | sending id msg => exact absurd hreader (hdrained.readers c id msg)
      | _ => rfl
    have habort : (t.conns c).readerAborted = false := by
      cases haborted : (t.conns c).readerAborted with
      | false => rfl
      | true => exact absurd (.inl (ht.signals.aborted c haborted)) hup
    -- the reader stopped for want of bytes, not at a deadline
    have hall : done = framed X (t.conns c) := by
      refine hreads.eq_framed ?_ habort (hdone.imp (fun h => ⟨_, h.choose_spec.1⟩) And.right)
      intro htimeout
      rcases hdone with ⟨reason, hended, hne⟩ | ⟨hlive, -⟩
      · rw [htimeout] at hended
        cases hended
        exact hne rfl
      · exact hlive _ htimeout
    have heq := heq trivial
    rw [Room.onWay, hdrained.host, hdrained.msgs, hheld, hall] at heq
    simpa [HostLoop.held, chatsFrom] using heq

/-! ### Ann's messages -/

theorem run_visited : RoomRun .standard ⟨"host", 300⟩ (Room.init 0)
    (arriveLabels ++ [.handler 0 .emitJoin] ++ visitLabels) Room.visited :=
  (run_arrive.append (.single step_arrive)).append run_visit

theorem takes_visited : ∀ l ∈ arriveLabels ++ [.handler 0 .emitJoin] ++ visitLabels,
    ∀ s, Takes s l := by
  simp only [arriveLabels, openLabels, handshakeLabels, visitLabels, serveLabels,
    List.forall_mem_append, List.forall_mem_cons]
  simp [Takes]

theorem drained_of_visited (h : ∀ d ≠ 0, t.conns d = Room.visited.conns d)
    (hhost : t.host = .select) (hqueue : t.msgs.queue = [])
    (hheld : (t.conns 0).reader.held = []) : Drained t := by
  refine ⟨hhost, hqueue, fun d id msg hsending => ?_⟩
  by_cases hd : d = 0
  · rw [← hd, hsending] at hheld
    cases hheld
  · rw [h d hd, conns_visited hd] at hsending
    cases hsending

/-- Ann is silent for a minute and says something after her reader has ended. -/
def Room.late : Room :=
  setConn { Room.visited with now := Room.visited.now + readTimeout } 0
    { Room.visited.conns 0 with
      reader := .ended .timedOut
      sock := (Room.visited.conns 0).sock.arrive
        (frameBytes SerdeJson.standard (.chat "ann" "hi")) }

def lateLabels : List Label :=
  [.tick readTimeout, .reader 0 .readTimeout,
    .net 0 (.arrive (frameBytes SerdeJson.standard (.chat "ann" "hi")))]

theorem run_late :
    RoomRun .standard ⟨"host", 300⟩ Room.visited lateLabels Room.late := by
  have hrun : RoomRun .standard ⟨"host", 300⟩ Room.visited _ Room.visited := .nil
  have hrun := hrun.snoc (.tick (d := readTimeout))
  have hrun := hrun.snoc (.reader (c := 0) (l := .readTimeout) (.readTimeout rfl (Nat.le_refl _)))
  exact hrun.extend (.net (c := 0) (.arrive rfl)) (by simp [Room.late])

/-- Nobody listens to the events any more. -/
def Room.unheard : Room := { Room.visited with events := Room.visited.events.close }

/-- In a room like that of ann's visit a message of ann reaches the host loop. -/
theorem run_heard {s : Room} (hconn : s.conns 0 = Room.visited.conns 0)
    (hhost : s.host = .select) (hready : ¬ s.ShutdownReady s.hostSeen) (htexts : s.sendQ.queue = [])
    (hsend : s.sendOpen = true) (hqueue : s.msgs.queue = []) (hmsgs : s.msgs.isOpen = true) :
    RoomRun .standard ⟨"host", 300⟩ s (takeLabels .standard 0 ann.id (.chat "ann" "hi"))
      (s.taken .standard 0 ann.id (.chat "ann" "hi")) :=
  run_take (by rw [hconn]; rfl) (by rw [hconn]; rfl) (by rw [hconn]; rfl) (by decide) (by decide)
    hhost hready htexts hsend hqueue hmsgs

/-- When a message is delivered, the event channel is not full; nobody need listen. -/
def NotFull (s : Room) (l : Label) : Prop :=
  l = .host .deliver → s.events.queue.length < eventChanCap

/-- A message that is framed after the reader has timed out is not delivered, and
none is after the event stream is dropped. -/
theorem delivery_fails :
    (¬ ∀ now ls t, Run (Guarded (Step .standard ⟨"host", 300⟩) Takes) (Room.init now) ls t →
      DistinctIds t → ¬ t.Ceased → Drained t →
        ∀ c info, (t.conns c).handler.joined = some info →
          ((∃ reason, (t.conns c).reader = .ended reason) ∨ (t.conns c).sock.inbox = []) →
          messagesFrom info.id t.events.sent = chats (framed .standard (t.conns c))) ∧
    ¬ ∀ now ls t, Run (Guarded (Step .standard ⟨"host", 300⟩) NotFull) (Room.init now) ls t →
      DistinctIds t → ¬ t.Ceased → Drained t →
        ∀ c info, (t.conns c).handler.joined = some info → Exhausted (t.conns c) →
          messagesFrom info.id t.events.sent = chats (framed .standard (t.conns c)) := by
  constructor
  -- the reader of ann has timed out before she speaks
  · intro hlaw
    have hsame : ∀ d ≠ 0, Room.late.conns d = Room.visited.conns d := fun d hd => by
      simp only [Room.late, conns_setConn_of_ne _ _ _ _ hd]
    have hrun := (run_visited.guard takes_visited).append
      (run_late.guard (by simp [lateLabels, Takes]))
    have heq := hlaw 0 _ _ hrun (distinctIds_of_visited hsame) (by decide)
      (drained_of_visited hsame rfl rfl rfl) 0 ann rfl (.inl ⟨_, rfl⟩)
    exact absurd heq (by decide)
  · intro hlaw
    -- nobody listens to the event stream when she does
    let heard := Room.unheard.delivered .standard 0 ann.id (.chat "ann" "hi")
    have hsame : ∀ d ≠ 0, heard.conns d = Room.visited.conns d := fun d hd => by
      simp only [heard, Room.delivered, Room.taken, conns_setConn_of_ne _ _ _ _ hd]
      rfl
    have hvisited : Run (Guarded (Step .standard ⟨"host", 300⟩) NotFull) _ _ _ :=
      run_visited.guard (by
        simp only [arriveLabels, openLabels, handshakeLabels, visitLabels, serveLabels,
          List.forall_mem_append, List.forall_mem_cons]
        simp [NotFull])
    have hclosed := hvisited.snoc ⟨.user (.closeEvents rfl), by simp [NotFull]⟩
    have htaken := hclosed.append ((run_heard (s := Room.unheard) rfl rfl (by decide) rfl rfl rfl
      rfl).guard (by simp [takeLabels, messageLabels, NotFull]))
    have hrun := htaken.snoc ⟨step_deliver .standard _ Room.unheard 0 ann.id _,
      fun _ => by decide⟩
    have heq := hlaw 0 _ heard hrun (distinctIds_of_visited hsame) (by decide)
      (drained_of_visited hsame rfl rfl rfl) 0 ann rfl (.inr ⟨fun _ => Reader.noConfusion, rfl⟩)
    exact absurd heq (by decide)

/-- Ann's message is on the event stream. -/
theorem delivery_visited :
    messagesFrom ann.id (Room.visited.delivered .standard 0 ann.id (.chat "ann" "hi")).events.sent =
      [.chat "ann" "hi"] := by
  have hsame : ∀ d ≠ 0,
      (Room.visited.delivered .standard 0 ann.id (.chat "ann" "hi")).conns d =
        Room.visited.conns d := fun d hd => by
    simp only [Room.delivered, Room.taken, conns_setConn_of_ne _ _ _ _ hd]
  have htaken := (run_visited.guard takes_visited).append
    ((run_heard rfl rfl (by decide) rfl rfl rfl rfl).guard (by
      simp [takeLabels, messageLabels, Takes]))
  have hrun := htaken.snoc ⟨step_deliver .standard _ Room.visited 0 ann.id _,
    show Mpsc.HasRoom _ _ by decide⟩
  have hlaw := (delivery 0 _ _ hrun.unguard (distinctIds_of_visited hsame)).2 0 ann rfl
  rw [hlaw.2 hrun (by decide) (drained_of_visited hsame rfl rfl rfl)
    (.inr ⟨fun _ => Reader.noConfusion, rfl⟩)]
  decide

end Nullpipe

import Nullpipe.Room.Handshake

/-!
# Where messages and events come from

Two queues lead to the event stream of the host: the readers put messages on the
message channel, and the host loop, like the handlers, puts events on the event
channel.  This module says which step puts what on either channel, and that
everything on its way belongs to a peer whose join event was emitted.

* `Step.events`: a step leaves what the event channel has accepted, or adds the event that it
  emits (`Emits`), for which there was room.  This is the inversion lemma that every result
  about the event stream starts from.
* `Step.msgs`: only a reader puts a message on the message channel.
* `Step.joined`: a peer joins by the emission of its join event and in no other way, and stays
  joined (`Step.joined_mono`).

`Owned` follows a message on its way: the peer of a reader has joined, hence so has the
sender of each entry of the message channel, of the entry that the host loop delivers, and of
each message on the event stream.  A join event may be dropped for lack of room; the peer has
joined nevertheless, so this is about handlers and not about the log.
-/

namespace Nullpipe

open Channel Room Transition

variable {X : Crates} {cfg : HostConfig} {s t : Room} {c d : ConnId} {l : Label}

/-- No peer has the id under which the host's own messages appear. -/
theorem peerId_ne_hubId (X : Crates) (discriminator : Bytes16) :
    peerId X discriminator ≠ hubId := by
  intro heq
  have htext : X.base58.toBase58 discriminator.val = "[hub]" := congrArg PeerId.val heq
  have halphanum := X.base58.isAlphanum_of_mem discriminator.val '['
  rw [htext] at halphanum
  exact absurd (halphanum (by decide)) (by decide)

/-! ## Joined peers -/

theorem Handler.joined_eq (h : Handler) :
    h.joined = match h.standing with
      | .announced info | .removed info | .left info => some info
      | _ => none := by
  cases h <;> rfl

theorem HandlerStep.joined {l : HandlerLabel} (h : HandlerStep X c l s t) :
    (l = .emitJoin ∧ ∃ info, (s.conns c).handler = .emitJoin info ∧
      (t.conns c).handler.joined = some info) ∨
    (l ≠ .emitJoin ∧ (t.conns c).handler.joined = (s.conns c).handler.joined) := by
  cases h.standing with
  | emitJoin hphase hafter =>
      refine .inl ⟨rfl, _, hphase, ?_⟩
      rw [Handler.joined_eq, hafter]
  | register hphase hafter | deregister hphase hafter | emitLeave hphase hafter =>
      refine .inr ⟨by simp, ?_⟩
      rw [hafter, hphase]
      rfl
  | keep hl hsame =>
      refine .inr ⟨fun heq => hl (by simp [heq]), ?_⟩
      rw [Handler.joined_eq, Handler.joined_eq, hsame]

/-- A peer joins by the emission of its join event and in no other way. -/
theorem Step.joined (h : Step X cfg l s t) (c : ConnId) :
    (l = .handler c .emitJoin ∧ ∃ info, (s.conns c).handler = .emitJoin info ∧
      (t.conns c).handler.joined = some info) ∨
    (l ≠ .handler c .emitJoin ∧ (t.conns c).handler.joined = (s.conns c).handler.joined) := by
  by_cases hl : ∃ l', l = .handler c l'
  · obtain ⟨l', rfl⟩ := hl
    cases h with
    | handler h =>
        rcases h.joined with ⟨rfl, hjoin⟩ | ⟨hne, hsame⟩
        · exact .inl ⟨rfl, hjoin⟩
        · exact .inr ⟨by simpa using hne, hsame⟩
  · push Not at hl
    exact .inr ⟨hl _, h.observe Handler.joined rfl hl⟩

/-- A peer that has joined stays joined. -/
theorem Step.joined_mono (h : Step X cfg l s t) {info : PeerInfo}
    (hjoined : (s.conns c).handler.joined = some info) :
    (t.conns c).handler.joined = some info := by
  rcases h.joined c with ⟨-, _, hphase, -⟩ | ⟨-, hsame⟩
  · rw [hphase] at hjoined
    cases hjoined
  · rw [hsame, hjoined]

/-- No two joined connections have the same id. -/
def DistinctIds (s : Room) : Prop :=
  ∀ c d info info', (s.conns c).handler.joined = some info →
    (s.conns d).handler.joined = some info' → info.id = info'.id → c = d

theorem Step.distinctIds (h : Step X cfg l s t) (ht : DistinctIds t) : DistinctIds s :=
  fun c d info info' hc hd hid =>
    ht c d info info' (h.joined_mono hc) (h.joined_mono hd) hid

/-- No message is on its way between a reader and the host loop. -/
structure Drained (s : Room) : Prop where
  host : s.host = .select
  msgs : s.msgs.queue = []
  readers : ∀ c id msg, (s.conns c).reader ≠ .sending id msg

/-! ## What goes on the channels -/

/-- The steps that put an event on the channel, with their events. -/
inductive Emits (cfg : HostConfig) (s : Room) : Label → ChatEvent → Prop
  | echo {text : String} (hphase : s.host = .echo text) :
      Emits cfg s (.host .echo) (.message hubId cfg.name text)
  | deliver {id : PeerId} {msg : WireMessage} (hphase : s.host = .deliver id msg)
      (hkind : msg.kind = .chat) : Emits cfg s (.host .deliver) (.message id msg.name msg.text)
  | join {c : ConnId} {info : PeerInfo} (hphase : (s.conns c).handler = .emitJoin info) :
      Emits cfg s (.handler c .emitJoin) (.peerJoin info)
  | leave {c : ConnId} {info : PeerInfo} (hphase : (s.conns c).handler = .emitLeave info) :
      Emits cfg s (.handler c .emitLeave) (.peerLeave info.id)
  | roomReady {addr : String} (hphase : s.host = .sendReady addr) :
      Emits cfg s (.host .sendReady) (.roomReady addr roomPort)
  | roomClosed : Emits cfg s (.host .close) .roomClosed
  | error {e : ChatError} (hphase : s.host = .sendError e) :
      Emits cfg s (.host .sendError) (.error e)

private theorem sent_trySend (q : Mpsc ChatEvent) (ev : ChatEvent) :
    (q.trySend eventChanCap ev).sent = q.sent ∨
      (q.HasRoom eventChanCap ∧ (q.trySend eventChanCap ev).sent = q.sent ++ [ev]) := by
  by_cases hroom : q.HasRoom eventChanCap
  · exact .inr ⟨hroom, by rw [Mpsc.trySend_of_hasRoom hroom, Mpsc.sent_push]⟩
  · exact .inl (by rw [Mpsc.trySend_of_not_hasRoom hroom])

/-- A step leaves what the event channel has accepted, or adds the event it emits,
for which there was room. -/
theorem Step.events (h : Step X cfg l s t) :
    t.events.sent = s.events.sent ∨
      ∃ ev, Emits cfg s l ev ∧ s.events.HasRoom eventChanCap ∧
        t.events.sent = s.events.sent ++ [ev] := by
  cases h with
  | user h =>
      cases h with
      | takeEvent => exact .inl (by simp)
      | _ => exact .inl rfl
  | host h =>
      cases h with
      | sendReady hphase hroom => exact .inr ⟨_, .roomReady hphase, hroom, by simp⟩
      | echo hphase =>
          rcases sent_trySend s.events (.message hubId cfg.name _) with h | ⟨hroom, h⟩
          · exact .inl h
          · exact .inr ⟨_, .echo hphase, hroom, h⟩
      | @deliver _ id msg hphase =>
          simp only [deliverEvent]
          split
          · rename_i hkind
            rcases sent_trySend s.events (.message id msg.name msg.text) with h | ⟨hroom, h⟩
            · exact .inl h
            · exact .inr ⟨_, .deliver hphase hkind, hroom, h⟩
          · exact .inl rfl
      | close | failedClose =>
          rcases sent_trySend s.events .roomClosed with h | ⟨hroom, h⟩
          · exact .inl h
          · exact .inr ⟨_, .roomClosed, hroom, h⟩
      | sendError hphase hroom => exact .inr ⟨_, .error hphase, hroom, by simp⟩
      | _ => exact .inl rfl
  | accept h => cases h <;> exact .inl rfl
  | handler h =>
      cases h with
      | @emitJoin _ info hphase =>
          rcases sent_trySend s.events (.peerJoin info) with h | ⟨hroom, h⟩
          · exact .inl h
          · exact .inr ⟨_, .join hphase, hroom, h⟩
      | @emitLeave _ info hphase =>
          rcases sent_trySend s.events (.peerLeave info.id) with h | ⟨hroom, h⟩
          · exact .inl h
          · exact .inr ⟨_, .leave hphase, hroom, h⟩
      | _ => exact .inl rfl
  | reader h => cases h <;> exact .inl rfl
  | writer h => cases h <;> exact .inl rfl
  | net h => cases h <;> exact .inl rfl
  | tick => exact .inl rfl

/-- Only a reader puts a message on the message channel. -/
theorem Step.msgs (h : Step X cfg l s t) :
    t.msgs.sent = s.msgs.sent ∨
      ∃ c id msg, l = .reader c .send ∧ (s.conns c).reader = .sending id msg ∧
        t.msgs.sent = s.msgs.sent ++ [(id, msg)] := by
  cases h with
  | user h => cases h <;> exact .inl rfl
  | host h =>
      cases h with
      | takeMessage => exact .inl (by simp)
      | _ => exact .inl rfl
  | accept h => cases h <;> exact .inl rfl
  | handler h => cases h <;> exact .inl rfl
  | reader h =>
      cases h with
      | send hphase => exact .inr ⟨_, _, _, rfl, hphase, by simp⟩
      | _ => exact .inl rfl
  | writer h => cases h <;> exact .inl rfl
  | net h => cases h <;> exact .inl rfl
  | tick => exact .inl rfl

/-- What is queued was queued before or comes from a reader. -/
theorem Step.queue (h : Step X cfg l s t) {id : PeerId} {msg : WireMessage}
    (hmem : (id, msg) ∈ t.msgs.queue) :
    (id, msg) ∈ s.msgs.queue ∨ ∃ c, (s.conns c).reader = .sending id msg := by
  cases h with
  | user h => cases h <;> exact .inl hmem
  | host h =>
      cases h with
      | takeMessage => exact .inl (List.mem_of_mem_drop hmem)
      | _ => exact .inl hmem
  | accept h => cases h <;> exact .inl hmem
  | handler h => cases h <;> exact .inl hmem
  | @reader c _ _ _ h =>
      cases h with
      | send hphase =>
          rcases List.mem_append.mp hmem with hmem | hnew
          · exact .inl hmem
          · cases List.mem_singleton.mp hnew
            exact .inr ⟨c, hphase⟩
      | _ => exact .inl hmem
  | writer h => cases h <;> exact .inl hmem
  | net h => cases h <;> exact .inl hmem
  | tick => exact .inl hmem

theorem Step.events_mono (h : Step X cfg l s t) {ev : ChatEvent} (hmem : ev ∈ s.events.sent) :
    ev ∈ t.events.sent := by
  rcases h.events with hsame | ⟨_, -, -, hsent⟩
  · rwa [hsame]
  · rw [hsent]
    exact List.mem_append_left _ hmem

/-- An event stream that was closed stays closed. -/
theorem Step.events_open (h : Step X cfg l s t) (hopen : t.events.isOpen = true) :
    s.events.isOpen = true := by
  cases h with
  | user h =>
      cases h with
      | closeEvents => cases hopen
      | _ => exact hopen
  | host h =>
      cases h with
      | echo | close | failedClose => rwa [Mpsc.isOpen_trySend] at hopen
      | @deliver _ id msg =>
          dsimp only [deliverEvent] at hopen
          split at hopen
          · rwa [Mpsc.isOpen_trySend] at hopen
          · exact hopen
      | _ => exact hopen
  | accept h => cases h <;> exact hopen
  | handler h =>
      cases h with
      | emitJoin | emitLeave => rwa [Mpsc.isOpen_trySend] at hopen
      | _ => exact hopen
  | reader h => cases h <;> exact hopen
  | writer h => cases h <;> exact hopen
  | net h => cases h <;> exact hopen
  | tick => exact hopen

/-! ## Who a message belongs to -/

/-- The peer a reader reads for. -/
def Reader.owner : Reader → Option PeerId
  | .spawned id | .reading id _ _ | .sending id _ => some id
  | .unspawned | .ended _ => none

/-- Some joined connection has this id. -/
def Room.HasJoined (s : Room) (id : PeerId) : Prop :=
  ∃ c info, (s.conns c).handler.joined = some info ∧ info.id = id

theorem Step.hasJoined (h : Step X cfg l s t) {id : PeerId} (hs : s.HasJoined id) :
    t.HasJoined id := by
  obtain ⟨c, info, hjoined, hid⟩ := hs
  exact ⟨c, info, h.joined_mono hjoined, hid⟩

/-- The messages on the event stream and on their way there belong to joined
peers, and what a reader reads to the peer of its own connection. -/
structure Owned (s : Room) : Prop where
  reader : ∀ c id, (s.conns c).reader.owner = some id →
    ∃ info, (s.conns c).handler.joined = some info ∧ info.id = id
  sent : ∀ id msg, (id, msg) ∈ s.msgs.sent → s.HasJoined id
  deliver : ∀ id msg, s.host = .deliver id msg → s.HasJoined id
  events : ∀ id name text, .message id name text ∈ s.events.sent → id = hubId ∨ s.HasJoined id

theorem Owned.init (now : ℕ) : Owned (Room.init now) := ⟨nofun, nofun, nofun, nofun⟩

theorem ReaderStep.owner {l : ReaderLabel} (h : ReaderStep X c l s t) {id : PeerId}
    (hid : (t.conns c).reader.owner = some id) : (s.conns c).reader.owner = some id := by
  cases h with
  | start hphase | read hphase | message hphase | ping hphase | send hphase | sendClosed hphase =>
      rw [conns_setConn_self] at hid
      rw [hphase]
      exact hid
  | badFrame | badMessage | readFail | readTimeout | cancel =>
      rw [conns_setConn_self] at hid
      cases hid

/-- A reader reads for the peer its handler spawned it for. -/
theorem Step.owner (h : Step X cfg l s t) {id : PeerId}
    (hid : (t.conns c).reader.owner = some id) :
    (s.conns c).reader.owner = some id ∨
      ∃ info, (s.conns c).handler = .spawnReader info ∧ info.id = id := by
  by_cases hconn : l.conn = some c
  · cases h.connStep hconn with
    | accept =>
        rw [conns_setConn_self] at hid
        exact .inl hid
    | handler h =>
        cases h with
        | spawnReader hphase =>
            rw [conns_setConn_self] at hid
            exact .inr ⟨_, hphase, Option.some.inj hid⟩
        | _ =>
            rw [conns_setConn_self] at hid
            exact .inl hid
    | reader h =>
        exact .inl (h.owner hid)
    | writer h =>
        rw [h.frame.2.2.1] at hid
        exact .inl hid
    | net h =>
        rw [h.frame.2.2.1] at hid
        exact .inl hid
  · rw [h.conns_of_ne hconn] at hid
    exact .inl hid

/-- What the host loop starts to deliver was the first message of its queue. -/
theorem Step.deliver (h : Step X cfg l s t) {id : PeerId} {msg : WireMessage}
    (hhost : t.host = .deliver id msg) :
    s.host = .deliver id msg ∨
      (s.host = .select ∧ ¬ s.ShutdownReady s.hostSeen ∧ t.msgs = s.msgs.pop ∧
        ∃ rest, s.msgs.queue = (id, msg) :: rest) := by
  by_cases hl : ∃ l', l = .host l'
  · obtain ⟨l', rfl⟩ := hl
    cases h with
    | host h =>
        cases h with
        | takeMessage hphase hready _ _ hqueue =>
            cases hhost
            exact .inr ⟨hphase, hready, rfl, _, hqueue⟩
        -- the one step of a failed room that keeps its place in the loop
        | failedTakeText hphase =>
            rw [show s.host = .deliver id msg from hhost] at hphase
            cases hphase
        | _ => cases hhost
  · rw [h.host_eq fun l' heq => hl ⟨l', heq⟩] at hhost
    exact .inl hhost

/-- One step keeps every message with its peer. -/
theorem Step.owned (h : Step X cfg l s t) (hs : Owned s) : Owned t where
  reader c id hid := by
    rcases h.owner hid with hbefore | ⟨info, hphase, hinfo⟩
    · obtain ⟨info, hjoined, hinfo⟩ := hs.reader c id hbefore
      exact ⟨info, h.joined_mono hjoined, hinfo⟩
    · exact ⟨info, h.joined_mono (by rw [hphase]; rfl), hinfo⟩
  sent id msg hmem := by
    rcases h.msgs with hsame | ⟨c, id', msg', -, hphase, hsent⟩
    · rw [hsame] at hmem
      exact h.hasJoined (hs.sent id msg hmem)
    · rw [hsent, List.mem_append, List.mem_singleton] at hmem
      rcases hmem with hmem | heq
      · exact h.hasJoined (hs.sent id msg hmem)
      · -- the reader that sent it reads for the peer of its connection
        obtain ⟨info, hjoined, hinfo⟩ := hs.reader c id' (by rw [hphase]; rfl)
        cases heq
        exact h.hasJoined ⟨c, info, hjoined, hinfo⟩
  deliver id msg hhost := by
    rcases h.deliver hhost with hbefore | ⟨-, -, -, rest, hqueue⟩
    · exact h.hasJoined (hs.deliver id msg hbefore)
    · refine h.hasJoined (hs.sent id msg (List.mem_append_right _ ?_))
      rw [hqueue]
      exact List.mem_cons_self ..
  events id name text hmem := by
    rcases h.events with hsame | ⟨ev, hemit, -, hsent⟩
    · rw [hsame] at hmem
      exact (hs.events id name text hmem).imp_right h.hasJoined
    · rw [hsent, List.mem_append, List.mem_singleton] at hmem
      rcases hmem with hmem | rfl
      · exact (hs.events id name text hmem).imp_right h.hasJoined
      · cases hemit with
        | echo => exact .inl rfl
        | deliver hphase => exact .inr (h.hasJoined (hs.deliver _ _ hphase))

theorem RoomReachable.owned (hs : RoomReachable X cfg s) : Owned s := by
  obtain ⟨now, hreach⟩ := hs
  exact hreach.invariant (.init now) fun hs hstep => hstep.owned hs

end Nullpipe

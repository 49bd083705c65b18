import Nullpipe.Session.Script
import Nullpipe.Room.Admission
import Nullpipe.Room.Peers
import Nullpipe.Room.Messages
import Nullpipe.Room.Shutdown

/-!
# The hub's side of a session

`HubSide` says where the hub stands when connection `c` carries a front part of the
script of one joiner and nothing disturbs the room: the handler is on its way to
serving the peer, and what the reader has sent on is what the script says, message
by message.  `Step.hubSide` keeps it over every step.

The handshake is read by the handler and the rest by the reader, so the byte at
which the one stops and the other starts is the point of the invariant: `Hears.read`
has the reader start exactly behind the name frame.

* **The handler** stays on its course (`HandlerStep.onCourse`).  At each phase the bytes it has
  read are a front part of the script, by which the nonce is the joiner's and new
  (`nonce_fresh`), the frame is that of the name, and the peer is the joiner (`joined_eq`).
* **The reader** takes the script message by message: the next bytes leave its frame unfinished
  or complete the next message (`Hears.next`), no frame is malformed, and each one decodes.
  `Hears.more` and `Hears.complete` are the two ways on.
* **The rest of the room** is `Label.Quiet`: nobody quits, no text is sent, and only this
  connection is active, though others may be registered.  `Room.InService` is what that
  keeps, and `HubSide.congr` takes the invariant over the steps that do not touch the
  connection.

`base` is what had gone over the message channel before the session, so that nothing need be
assumed about the past of the room.
-/

namespace Nullpipe

open Channel Room Framing Transition

variable {X : Crates} {cfg : HostConfig} {c : ConnId} {me : Guest} {s t : Room}
  {base : List (PeerId × WireMessage)} {msgs fwd : List WireMessage}

/-! ## Steps of an undisturbed room -/

/-- No error of the stream and no timeout. -/
def HandlerLabel.Healthy : HandlerLabel → Prop
  | .readFail _ | .readTimeout | .writeFail _ | .writeTimeout | .flushFail _ | .flushTimeout =>
    False
  | _ => True

def ReaderLabel.Healthy : ReaderLabel → Prop
  | .readFail | .readTimeout => False
  | _ => True

/-- The steps of a room in which only connection `c` is active, its stream is
healthy and the users of the room only take events. -/
def Label.Quiet (c : ConnId) : Label → Prop
  | .accept l => l = .accept c
  | .handler d l => d = c ∧ l.Healthy
  | .reader d l => d = c ∧ l.Healthy
  | .net d (.arrive _) => d = c
  | .host _ | .user .takeEvent | .tick _ => True
  | _ => False

/-- The host loop is in its main loop and not busy with a text. -/
def HostLoop.Attends : HostLoop → Prop
  | .select | .deliver .. => True
  | _ => False

theorem HostLoop.Attends.not_stopped {host : HostLoop} (h : host.Attends) : ¬ host.Stopped := by
  cases host with
  | select | deliver => exact id
  | _ => cases h

/-- A room that accepts connections, has no texts to send and is not shutting down. -/
structure Room.InService (r : Room) : Prop where
  accept : r.accept = .running
  calm : ¬ r.Signalled
  host : r.host.Attends
  texts : r.sendQ.queue = []
  handles : r.sendOpen = true

/-- The host loop never finds the shutdown signal raised. -/
theorem Room.InService.not_ready (hs : s.InService) (hsig : Signals s) (hhost : s.host = .select) :
    ¬ s.ShutdownReady s.hostSeen := by
  have hseen : s.hostSeen = 0 := hsig.host.resolve_right fun hstopped => by
    rw [hhost] at hstopped
    cases hstopped
  rw [hseen]
  exact hs.calm

/-- **The host loop in service** only takes messages and delivers them. -/
theorem HostStep.service_cases {l : HostLabel} (h : HostStep cfg l s t) (hsig : Signals s)
    (hs : s.InService) :
    (∃ id msg rest, s.host = .select ∧ s.msgs.queue = (id, msg) :: rest ∧
      t = { s with msgs := s.msgs.pop, host := .deliver id msg }) ∨
    ∃ id msg, s.host = .deliver id msg ∧
      t = { s with events := deliverEvent s.events id msg, host := .select } := by
  have hhost := hs.host
  cases h with
  | takeMessage hphase _ _ _ hqueue => exact .inl ⟨_, _, _, hphase, hqueue, rfl⟩
  | deliver hphase => exact .inr ⟨_, _, hphase, rfl⟩
  | shutdown hphase hready => exact absurd hready (hs.not_ready hsig hphase)
  | takeText _ _ hqueue =>
      rw [hs.texts] at hqueue
      cases hqueue
  | sendClosed _ _ _ hclosed =>
      rw [hs.handles] at hclosed
      cases hclosed
  | created hphase | createFailed hphase | sendReady hphase | sendReadyClosed hphase
  | publishInvite hphase | spawnAccept hphase | echo hphase | broadcast hphase | close hphase
  | abortAccept hphase | joinAccept hphase | sendError hphase | sendErrorClosed hphase
  | failedShutdown hphase | failedTakeText hphase | failedSendClosed hphase | failedClose hphase =>
      rw [hphase] at hhost
      cases hhost

theorem HostStep.inService {l : HostLabel} (h : HostStep cfg l s t) (hsig : Signals s)
    (hs : s.InService) : t.InService := by
  obtain ⟨id, msg, rest, -, -, rfl⟩ | ⟨id, msg, -, rfl⟩ := h.service_cases hsig hs <;>
  exact ⟨hs.accept, hs.calm, trivial, hs.texts, hs.handles⟩

theorem Step.inService {l : Label} (h : Step X cfg l s t) (hl : l.Quiet c) (hsig : Signals s)
    (hs : s.InService) : t.InService := by
  cases h with
  | user h =>
      cases h with
      | takeEvent => exact ⟨hs.accept, hs.calm, hs.host, hs.texts, hs.handles⟩
      | _ => cases hl
  | host h => exact h.inService hsig hs
  | accept h =>
      cases h with
      | accept => exact ⟨hs.accept, hs.calm, hs.host, hs.texts, hs.handles⟩
      | shutdown | sourceEnded | cancel => cases hl
  | handler h => cases h <;> exact ⟨hs.accept, hs.calm, hs.host, hs.texts, hs.handles⟩
  | reader h => cases h <;> exact ⟨hs.accept, hs.calm, hs.host, hs.texts, hs.handles⟩
  | writer h => cases hl
  | net h => cases h <;> exact ⟨hs.accept, hs.calm, hs.host, hs.texts, hs.handles⟩
  | tick => exact ⟨hs.accept, hs.calm, hs.host, hs.texts, hs.handles⟩

/-! ## The invariant -/

/-- The handler has not turned the joiner away or lost it, and what it has written
is a front part of the greeting. -/
def Handler.OnCourse (X : Crates) (me : Guest) (written : List UInt8) : Handler → Prop
  | .rejectReused _ | .abortWriter _ | .deregister _ | .emitLeave _ | .ended _ | .failed _ => False
  | .writeAccept _ rest _ => rest ≠ []
  | .notifyJoin _ rest => rest ≠ [] ∧ written ++ rest = me.greeting X
  | .spawnReader _ | .subscribe _ | .serve _ => written = me.greeting X
  | _ => True

/-- The reader has sent on `fwd`, on top of what was sent before the session: it
stands behind the frames of these and of the message it holds. -/
structure Hears (X : Crates) (me : Guest) (base : List (PeerId × WireMessage))
    (msgs fwd : List WireMessage) (reader : Reader) (read : List UInt8)
    (sent : List (PeerId × WireMessage)) : Prop where
  sent : sent = base ++ fwd.map (peerId X me.discriminator, ·)
  front : fwd ++ reader.held <+: msgs
  needs : ∃ k, readFrame reader.buffer = .needs k
  live : ∀ reason, reader ≠ .ended reason
  idle : reader = .unspawned → fwd = []
  read : reader ≠ .unspawned → read = me.script X (fwd ++ reader.held) ++ reader.buffer

/-- The hub during a session in which the joiner `me` sends `msgs`; `base` is what
went over the message channel before. -/
structure HubSide (X : Crates) (cfg : HostConfig) (c : ConnId) (me : Guest)
    (base : List (PeerId × WireMessage)) (msgs : List WireMessage) (r : Room) : Prop where
  reach : RoomReachable X cfg r
  service : r.InService
  lock : r.nonceLock = none
  stream : (r.conns c).sock.readEnd = none
  arrived : (r.conns c).sock.arrived <+: me.script X msgs
  fresh : (r.conns c).handler.stage = .undecided → me.nonce ∉ r.used
  course : (r.conns c).handler.OnCourse X me (r.conns c).sock.written
  entry : ∀ info, (r.conns c).handler.registered = some info → r.peers info.id = some info
  hears : ∃ fwd, Hears X me base msgs fwd (r.conns c).reader (r.conns c).sock.read r.msgs.sent

/-- The joiner's messages are chat messages that fit a frame. -/
def Sendable (X : Crates) (msgs : List WireMessage) : Prop :=
  ∀ msg ∈ msgs, msg.kind = .chat ∧ Encodes X.json msg

theorem Sendable.frames (h : Sendable X msgs) {msg : WireMessage} (hmsg : msg ∈ msgs) :
    readFrame (frameBytes X.json msg) = .frame (frameBytes X.json msg) :=
  readFrame_encodeMessage (h msg hmsg).2.encodeMessage

namespace HubSide

variable (hs : HubSide X cfg c me base msgs s)
include hs

theorem read_prefix : (s.conns c).sock.read <+: me.script X msgs :=
  (List.prefix_append ..).trans hs.arrived

/-- What a read returns is the next part of the script. -/
theorem take_prefix {chunk : List UInt8} (htake : (s.conns c).sock.CanTake chunk) :
    (s.conns c).sock.read ++ chunk <+: me.script X msgs := by
  refine List.IsPrefix.trans ?_ hs.arrived
  rw [Socket.arrived, List.prefix_append_right_inj]
  exact htake.2

/-- The nonce under the check is the joiner's, which is new. -/
theorem nonce_fresh {nonce discriminator : Bytes16}
    (hphase : (s.conns c).handler = .lockNonces nonce discriminator) : nonce ∉ s.used := by
  have hfits := (hs.reach.coherent c).fits
  have hread := hs.read_prefix
  rw [hphase] at hfits
  rw [hfits.1, Guest.script_split, ← List.append_nil (nonce.val ++ discriminator.val)] at hread
  obtain ⟨rfl, -, -⟩ := hello_of_prefix hread
  exact hs.fresh (by rw [hphase]; rfl)

/-- A joined peer is the joiner. -/
theorem joined_eq (hname : Encodes X.json (.system me.name)) {info : PeerInfo}
    (hjoined : (s.conns c).handler.joined = some info) :
    info.id = peerId X me.discriminator ∧ info.name = me.name := by
  obtain ⟨more, hgreets⟩ := (hs.reach.coherent c).greets hjoined
  obtain ⟨hid, hinfo, -⟩ := hgreets.of_script hname hs.read_prefix
  exact ⟨hid, hinfo⟩

/-- The reader reads for the joiner. -/
theorem owner_eq (hname : Encodes X.json (.system me.name)) {id : PeerId}
    (howner : (s.conns c).reader.owner = some id) : id = peerId X me.discriminator := by
  obtain ⟨info, hjoined, rfl⟩ := hs.reach.owned.reader c id howner
  exact (hs.joined_eq hname hjoined).1

/-- Nothing has aborted the reader. -/
theorem not_aborted : (s.conns c).readerAborted = false := by
  cases haborted : (s.conns c).readerAborted with
  | false => rfl
  | true => exact absurd (hs.reach.signals.aborted c haborted) hs.service.calm

theorem msgs_open : s.msgs.isOpen = true :=
  hs.reach.msgs_open.resolve_right hs.service.host.not_stopped

end HubSide

/-! ## The handler -/

/-- A healthy handler stays on its course. -/
theorem HandlerStep.onCourse {l : HandlerLabel} (h : HandlerStep X c l s t) (hl : l.Healthy)
    (hname : Encodes X.json (.system me.name)) (hs : HubSide X cfg c me base msgs s) :
    (t.conns c).handler.OnCourse X me (t.conns c).sock.written := by
  have hfits := (hs.reach.coherent c).fits
  have hread := hs.read_prefix
  have hcourse := hs.course
  cases h with
  | start | flushAccept | register =>
      rw [conns_setConn_self]
      trivial
  | readHandshake =>
      rw [conns_setConn_self]
      exact handshakeRead_cases (P := fun h => h.OnCourse X me _) (fun _ _ => trivial)
        (fun _ _ => trivial) ..
  | insertNonce =>
      simp only [conns_setConn_self]
      exact List.cons_ne_nil _ _
  | refuseNonce hphase _ hused => exact absurd hused (hs.nonce_fresh hphase)
  | @writeAccept _ _ chunk rest _ hphase =>
      rw [conns_setConn_self]
      dsimp only
      split
      · trivial
      · assumption
  | @readName _ id got chunk deadline k hphase htake hneeds hfit =>
      rw [hphase] at hfits
      obtain ⟨rfl, hgot⟩ := hfits.1.of_script hread
      have hahead := hs.take_prefix htake
      rw [hgot, List.append_assoc] at hahead
      simp only [conns_setConn_self]
      rcases nameRead_of_script (X := X) hname htake.1 hahead deadline s.now with hnext | hnext
      · rw [hnext]
        trivial
      · rw [hnext]
        trivial
  | @emitJoin _ info hphase =>
      rw [hphase] at hfits
      obtain ⟨-, hinfo, -⟩ := hfits.1.of_script hname hread
      simp only [conns_setConn_self, afterEmitJoin]
      cases hencode : encodeMessage X.json (joinNotice info) with
      | ok frame =>
          exact ⟨encodeMessage_ne_nil hencode, by
            rw [hfits.2, greeting_of_encodes hinfo hencode]
            rfl⟩
      | error e => exact hfits.2.trans (greeting_of_not_encodes hinfo hencode).symm
  | @writeNotice _ info chunk rest hphase =>
      rw [hphase] at hcourse
      have hwritten := hcourse.2
      rw [← List.append_assoc] at hwritten
      simp only [conns_setConn_self, Socket.written_write]
      split
      · rename_i hrest
        rwa [hrest, List.append_nil] at hwritten
      · exact ⟨by assumption, hwritten⟩
  | spawnReader hphase | subscribe hphase =>
      rw [hphase] at hcourse
      rw [conns_setConn_self]
      exact hcourse
  | readerDone hphase hended =>
      obtain ⟨fwd, hhears⟩ := hs.hears
      exact absurd hended (hhears.live _)
  | shutdown hphase hready =>
      -- the handler has seen no signal, and there is none
      have hseen := (hs.reach.signals.conn c).resolve_right hs.service.calm
      rw [hseen] at hready
      exact absurd hready hs.service.calm
  | writeReject hphase | abortWriter hphase | deregister hphase | emitLeave hphase =>
      rw [hphase] at hcourse
      cases hcourse
  | handshakeReadFail | handshakeReadTimeout | rejectFail | acceptFail | acceptTimeout | flushFail
  | flushTimeout | nameReadFail | nameReadTimeout | noticeFail => cases hl

/-- The lock stays free, as no nonce is refused. -/
theorem HandlerStep.lock_free {l : HandlerLabel} (h : HandlerStep X c l s t)
    (hcourse : (t.conns c).handler.OnCourse X me (t.conns c).sock.written)
    (hlock : s.nonceLock = none) : t.nonceLock = none := by
  cases h with
  | refuseNonce =>
      rw [conns_setConn_self] at hcourse
      cases hcourse
  | writeReject =>
      dsimp only
      split <;> first | rfl | exact hlock
  | rejectFail => rfl
  | _ => exact hlock

/-- A joiner's nonce is used only when its handler has passed the check. -/
theorem HandlerStep.fresh {l : HandlerLabel} (h : HandlerStep X c l s t)
    (hs : (s.conns c).handler.stage = .undecided → me.nonce ∉ s.used)
    (hstage : (t.conns c).handler.stage = .undecided) : me.nonce ∉ t.used := by
  rcases h.stage_cases with ⟨_, _, -, -, -, -, hgranted, -⟩ | ⟨_, _, -, -, -, -, hrefused, -⟩ |
    ⟨hused, -, hsame | hfailed, -⟩
  · rw [hgranted] at hstage
    cases hstage
  · rw [hrefused] at hstage
    cases hstage
  · rw [hused]
    exact hs (hsame ▸ hstage)
  · rw [hfailed] at hstage
    cases hstage

/-- The entry of a registered peer stays while its handler is on course. -/
theorem HandlerStep.entry {l : HandlerLabel} (h : HandlerStep X c l s t)
    (hcourse : (t.conns c).handler.OnCourse X me (t.conns c).sock.written)
    (hs : ∀ info, (s.conns c).handler.registered = some info → s.peers info.id = some info)
    {info : PeerInfo} (hreg : (t.conns c).handler.registered = some info) :
    t.peers info.id = some info := by
  rcases h.registered_cases with ⟨-, info', -, hnext, hpeers⟩ | ⟨-, info', -, hnext, -⟩ |
    ⟨-, -, hsame, hpeers⟩
  · rw [hnext] at hreg
    cases hreg
    rw [hpeers, Function.update_self]
  · rw [hnext] at hcourse
    cases hcourse
  · rw [hpeers]
    exact hs info (hsame ▸ hreg)

/-- The handler takes the handshake and leaves the rest to the reader. -/
theorem HandlerStep.hears {l : HandlerLabel} (h : HandlerStep X c l s t)
    (hname : Encodes X.json (.system me.name)) (hs : HubSide X cfg c me base msgs s) :
    ∃ fwd, Hears X me base msgs fwd (t.conns c).reader (t.conns c).sock.read t.msgs.sent := by
  obtain ⟨fwd, hhears⟩ := hs.hears
  have hcoherent := hs.reach.coherent c
  cases h with
  | @spawnReader _ info hphase =>
      have hspawned := hcoherent.spawned
      have hfits := hcoherent.fits
      rw [hphase] at hspawned hfits
      obtain ⟨-, -, hread⟩ := hfits.1.of_script hname hs.read_prefix
      have hnone := hhears.idle hspawned.1
      subst hnone
      rw [conns_setConn_self]
      exact ⟨[], hhears.sent, List.nil_prefix, ⟨_, Format.progress_nil⟩,
        fun _ => Reader.noConfusion, fun _ => rfl, fun _ => hread⟩
  | readHandshake hphase | readName hphase =>
      -- the bytes are read while there is no reader yet
      have hspawned := hcoherent.spawned
      rw [hphase] at hspawned
      rw [conns_setConn_self]
      exact ⟨fwd, hhears.sent, hhears.front, hhears.needs, hhears.live, hhears.idle,
        fun hreader => absurd hspawned.1 hreader⟩
  | _ =>
      simp only [conns_setConn_self, Socket.read_write, Socket.read_flush]
      exact ⟨fwd, hhears⟩

theorem HandlerStep.hubSide {l : HandlerLabel} (h : HandlerStep X c l s t) (hl : l.Healthy)
    (hname : Encodes X.json (.system me.name)) (hs : HubSide X cfg c me base msgs s) :
    HubSide X cfg c me base msgs t := by
  have hcourse := h.onCourse hl hname hs
  have hstep : Step X cfg (.handler c l) s t := .handler h
  exact {
    reach := hs.reach.run (.single hstep)
    service := hstep.inService ⟨rfl, hl⟩ hs.reach.signals hs.service
    lock := h.lock_free hcourse hs.lock
    stream := h.readEnd.trans hs.stream
    arrived := by
      rw [h.arrived]
      exact hs.arrived
    fresh := h.fresh hs.fresh
    course := hcourse
    entry := fun _ => h.entry hcourse hs.entry
    hears := h.hears hname hs }

/-! ## The reader -/

section

variable {id : PeerId} {got chunk : List UInt8} {deadline k : ℕ} {read : List UInt8}
  {sent : List (PeerId × WireMessage)}

/-- **The next bytes a reader takes** leave its frame unfinished or complete the
next message of the script. -/
theorem Hears.next (h : Hears X me base msgs fwd (.reading id got deadline) read sent)
    (hsend : Sendable X msgs) (hneeds : readFrame got = .needs k) (hfit : chunk.length ≤ k)
    (hne : chunk ≠ []) (hahead : read ++ chunk <+: me.script X msgs) :
    (∃ k', readFrame (got ++ chunk) = .needs k') ∨
      ∃ msg, fwd ++ [msg] <+: msgs ∧ msg ∈ msgs ∧
        readFrame (got ++ chunk) = .frame (frameBytes X.json msg) ∧
        got ++ chunk = frameBytes X.json msg := by
  have hread := h.read Reader.noConfusion
  have hfront := h.front
  simp only [Reader.held, Reader.buffer, List.append_nil] at hread hfront
  rw [hread, List.append_assoc] at hahead
  have hnext : (∃ k', readFrame (got ++ chunk) = .needs k') ∨
      ∃ msg, fwd ++ [msg] <+: msgs ∧ readFrame (got ++ chunk) = .frame (frameBytes X.json msg) ∧
        got ++ chunk = frameBytes X.json msg :=
    Format.progress_of_aligned (fun msg hmsg => hsend.frames hmsg) hfront hahead hneeds hfit hne
  rcases hnext with hmore | ⟨msg, hmsg, hframe, hexact⟩
  · exact .inl hmore
  · have hmem : msg ∈ msgs := hmsg.subset (List.mem_append_right _ (List.mem_singleton_self _))
    exact .inr ⟨msg, hmsg, hmem, hframe, hexact⟩

/-- A frame that is complete is that of the next message. -/
theorem Hears.message (h : Hears X me base msgs fwd (.reading id got deadline) read sent)
    (hsend : Sendable X msgs) (hneeds : readFrame got = .needs k) (hfit : chunk.length ≤ k)
    (hne : chunk ≠ []) (hahead : read ++ chunk <+: me.script X msgs) {frame : List UInt8}
    (hframe : readFrame (got ++ chunk) = .frame frame) :
    ∃ msg, fwd ++ [msg] <+: msgs ∧ msg.kind = .chat ∧ decodeMessage X.json frame = .ok msg ∧
      got ++ chunk = frameBytes X.json msg := by
  rcases h.next hsend hneeds hfit hne hahead with ⟨k', hmore⟩ | ⟨msg, hmsg, hmem, hwhole, hexact⟩
  · rw [hmore] at hframe
    cases hframe
  · rw [hwhole] at hframe
    cases hframe
    obtain ⟨hkind, hfits⟩ := hsend msg hmem
    exact ⟨msg, hmsg, hkind, decodeMessage_encodeMessage hfits.encodeMessage, hexact⟩

/-- No frame of the script is malformed. -/
theorem Hears.not_malformed (h : Hears X me base msgs fwd (.reading id got deadline) read sent)
    (hsend : Sendable X msgs) (hneeds : readFrame got = .needs k) (hfit : chunk.length ≤ k)
    (hne : chunk ≠ []) (hahead : read ++ chunk <+: me.script X msgs) (e : ChatError) :
    readFrame (got ++ chunk) ≠ .failed e := by
  intro hfailed
  rcases h.next hsend hneeds hfit hne hahead with ⟨k', hmore⟩ | ⟨msg, -, -, hwhole, -⟩
  · rw [hmore] at hfailed
    cases hfailed
  · rw [hwhole] at hfailed
    cases hfailed

/-- A reader that takes further bytes of a frame. -/
theorem Hears.more (h : Hears X me base msgs fwd (.reading id got deadline) read sent)
    {k' : ℕ} (hmore : readFrame (got ++ chunk) = .needs k') :
    Hears X me base msgs fwd (.reading id (got ++ chunk) deadline) (read ++ chunk) sent where
  sent := h.sent
  front := h.front
  needs := ⟨k', hmore⟩
  live := fun _ => Reader.noConfusion
  idle := fun hidle => Reader.noConfusion hidle
  read := fun _ => by
    rw [h.read Reader.noConfusion, List.append_assoc]
    rfl

/-- A reader that completes the next message of the script. -/
theorem Hears.complete (h : Hears X me base msgs fwd (.reading id got deadline) read sent)
    {msg : WireMessage} (hmsg : fwd ++ [msg] <+: msgs)
    (hexact : got ++ chunk = frameBytes X.json msg) :
    Hears X me base msgs fwd (.sending id msg) (read ++ chunk) sent where
  sent := h.sent
  front := hmsg
  needs := ⟨_, Format.progress_nil⟩
  live := fun _ => Reader.noConfusion
  idle := fun hidle => Reader.noConfusion hidle
  read := fun _ => by
    have hread := h.read Reader.noConfusion
    simp only [Reader.held, Reader.buffer, List.append_nil] at hread ⊢
    rw [hread, List.append_assoc, hexact, Guest.script_append, List.flatMap_singleton]

end

theorem ReaderStep.hears {l : ReaderLabel} (h : ReaderStep X c l s t) (hl : l.Healthy)
    (hname : Encodes X.json (.system me.name)) (hsend : Sendable X msgs)
    (hs : HubSide X cfg c me base msgs s) :
    ∃ fwd, Hears X me base msgs fwd (t.conns c).reader (t.conns c).sock.read t.msgs.sent := by
  obtain ⟨fwd, hhears⟩ := hs.hears
  cases h with
  | start hphase =>
      rw [hphase] at hhears
      simp only [conns_setConn_self]
      exact ⟨fwd, hhears.sent, hhears.front, ⟨_, Format.progress_nil⟩, fun _ => Reader.noConfusion,
        fun hidle => Reader.noConfusion hidle, fun _ => hhears.read Reader.noConfusion⟩
  | read hphase htake hneeds hfit hmore =>
      rw [hphase] at hhears
      simp only [conns_setConn_self, Socket.read_take]
      exact ⟨fwd, hhears.more hmore⟩
  | message hphase htake hneeds hfit hframe hdecode =>
      rw [hphase] at hhears
      obtain ⟨msg, hmsg, -, hok, hexact⟩ :=
        hhears.message hsend hneeds hfit htake.1 (hs.take_prefix htake) hframe
      rw [hok] at hdecode
      cases hdecode
      simp only [conns_setConn_self, Socket.read_take]
      exact ⟨fwd, hhears.complete hmsg hexact⟩
  | ping hphase htake hneeds hfit hframe hdecode hkind =>
      rw [hphase] at hhears
      obtain ⟨msg, -, hchat, hok, -⟩ :=
        hhears.message hsend hneeds hfit htake.1 (hs.take_prefix htake) hframe
      rw [hok] at hdecode
      cases hdecode
      rw [hchat] at hkind
      cases hkind
  | badFrame hphase htake hneeds hfit hfailed =>
      rw [hphase] at hhears
      exact absurd hfailed
        (hhears.not_malformed hsend hneeds hfit htake.1 (hs.take_prefix htake) _)
  | badMessage hphase htake hneeds hfit hframe hdecode =>
      rw [hphase] at hhears
      obtain ⟨msg, -, -, hok, -⟩ :=
        hhears.message hsend hneeds hfit htake.1 (hs.take_prefix htake) hframe
      rw [hok] at hdecode
      cases hdecode
  | @send _ id msg hphase hroom =>
      have howner : (s.conns c).reader.owner = some id := by
        rw [hphase]
        rfl
      have hid := hs.owner_eq hname howner
      have hread := hhears.read (by rw [hphase]; exact Reader.noConfusion)
      have hfront := hhears.front
      rw [hphase] at hread hfront
      simp only [conns_setConn_self]
      -- what was held is now sent on
      refine ⟨fwd ++ [msg], ?_, ?_, ⟨_, Format.progress_nil⟩, fun _ => Reader.noConfusion,
        fun hidle => Reader.noConfusion hidle, fun _ => ?_⟩
      · rw [Mpsc.sent_push, hhears.sent, hid, List.map_append, List.append_assoc]
        rfl
      · simp only [Reader.held, List.append_nil]
        exact hfront
      · simp only [Reader.held, Reader.buffer, List.append_nil] at hread ⊢
        exact hread
  | sendClosed hphase hclosed =>
      rw [hs.msgs_open] at hclosed
      cases hclosed
  | cancel habort =>
      rw [hs.not_aborted] at habort
      cases habort
  | readFail | readTimeout => cases hl

theorem ReaderStep.hubSide {l : ReaderLabel} (h : ReaderStep X c l s t) (hl : l.Healthy)
    (hname : Encodes X.json (.system me.name)) (hsend : Sendable X msgs)
    (hs : HubSide X cfg c me base msgs s) : HubSide X cfg c me base msgs t := by
  have hstep : Step X cfg (.reader c l) s t := .reader h
  obtain ⟨hhandler, -, -, -, -, -, hwritten⟩ := h.frame
  have hpeers : t.peers = s.peers := hstep.peers (by simp) (by simp)
  have hused : t.used = s.used := hstep.used (by simp)
  exact {
    reach := hs.reach.run (.single hstep)
    service := hstep.inService ⟨rfl, hl⟩ hs.reach.signals hs.service
    lock := by cases h <;> exact hs.lock
    stream := h.arrived.2.trans hs.stream
    arrived := by
      rw [h.arrived.1]
      exact hs.arrived
    fresh := by
      rw [hhandler, hused]
      exact hs.fresh
    course := by
      rw [hhandler, hwritten]
      exact hs.course
    entry := by
      rw [hhandler, hpeers]
      exact hs.entry
    hears := h.hears hl hname hsend hs }

/-! ## The rest of the room -/

/-- A step that leaves the connection, the used nonces, the lock and the peers map
alone, and adds nothing to the message channel. -/
theorem HubSide.congr {l : Label} (hs : HubSide X cfg c me base msgs s) (h : Step X cfg l s t)
    (hl : l.Quiet c) (hconn : t.conns c = s.conns c) (hused : t.used = s.used)
    (hlock : t.nonceLock = s.nonceLock) (hpeers : t.peers = s.peers)
    (hsent : t.msgs.sent = s.msgs.sent) : HubSide X cfg c me base msgs t where
  reach := hs.reach.run (.single h)
  service := h.inService hl hs.reach.signals hs.service
  lock := hlock.trans hs.lock
  stream := hconn ▸ hs.stream
  arrived := hconn ▸ hs.arrived
  fresh := by
    rw [hconn, hused]
    exact hs.fresh
  course := hconn ▸ hs.course
  entry := by
    rw [hconn, hpeers]
    exact hs.entry
  hears := by
    rw [hconn, hsent]
    exact hs.hears

theorem AcceptStep.hubSide (h : AcceptStep (.accept c) s t) (hs : HubSide X cfg c me base msgs s) :
    HubSide X cfg c me base msgs t := by
  have hstep : Step X cfg (.accept (.accept c)) s t := .accept h
  have hreach := hs.reach.run (.single hstep)
  have hservice := hstep.inService (c := c) rfl hs.reach.signals hs.service
  cases h with
  | accept _ _ hidle =>
      refine ⟨hreach, hservice, hs.lock, ?_, ?_, fun _ => hs.fresh (by rw [hidle]; rfl), ?_, ?_, ?_⟩
      · rw [conns_setConn_self]
        exact hs.stream
      · rw [conns_setConn_self]
        exact hs.arrived
      · rw [conns_setConn_self]
        trivial
      · rw [conns_setConn_self]
        exact fun _ hreg => (by cases hreg)
      · rw [conns_setConn_self]
        exact hs.hears

/-- Bytes of the script arrive. -/
theorem HubSide.arrive {chunk : List UInt8} (hs : HubSide X cfg c me base msgs s)
    (h : NetStep c (.arrive chunk) s t)
    (hnext : (s.conns c).sock.arrived ++ chunk <+: me.script X msgs) :
    HubSide X cfg c me base msgs t := by
  have hstep : Step X cfg (.net c (.arrive chunk)) s t := .net h
  have hreach := hs.reach.run (.single hstep)
  have hservice := hstep.inService (c := c) rfl hs.reach.signals hs.service
  cases h with
  | arrive hopen =>
      refine ⟨hreach, hservice, hs.lock, ?_, ?_, ?_, ?_, ?_, ?_⟩
      · rw [conns_setConn_self]
        exact hs.stream
      · rw [conns_setConn_self]
        dsimp only
        rw [Socket.arrived_arrive]
        exact hnext
      · rw [conns_setConn_self]
        exact hs.fresh
      · rw [conns_setConn_self]
        exact hs.course
      · rw [conns_setConn_self]
        exact hs.entry
      · rw [conns_setConn_self]
        exact hs.hears

/-- **The hub's side of a session is kept by every quiet step of the room.** -/
theorem Step.hubSide {l : Label} (h : Step X cfg l s t) (hl : l.Quiet c)
    (hname : Encodes X.json (.system me.name)) (hsend : Sendable X msgs)
    (hnet : ∀ d chunk, l ≠ .net d chunk) (hs : HubSide X cfg c me base msgs s) :
    HubSide X cfg c me base msgs t := by
  have hstep := h
  cases h with
  | user h =>
      cases h with
      | takeEvent => exact hs.congr hstep hl rfl rfl rfl rfl rfl
      | _ => cases hl
  | host h =>
      refine hs.congr hstep hl (by rw [h.conns]) (hstep.used (by simp)) ?_
        (hstep.peers (by simp) (by simp)) ?_
      · cases h <;> rfl
      · cases h <;> first | rfl | exact Mpsc.sent_pop _
  | accept h =>
      cases hl
      exact h.hubSide hs
  | handler h =>
      obtain ⟨rfl, hl⟩ := hl
      exact h.hubSide hl hname hs
  | reader h =>
      obtain ⟨rfl, hl⟩ := hl
      exact h.hubSide hl hname hsend hs
  | writer h => cases hl
  | net h => exact absurd rfl (hnet _ _)
  | tick => exact hs.congr hstep hl rfl rfl rfl rfl rfl

end Nullpipe

import Nullpipe.Session.Meeting
import Nullpipe.Session.Guest

/-!
# One protocol on both sides

`InSession` puts the two sides of a session together: each side is where its own
invariant allows, and what has arrived at either end was written at the other.  So the
joiner's bytes are those of its script and the hub's those of its greeting, and
`SessionStep.inSession` needs nothing but the step lemmas of the two sides.

* `Linked` is the invariant without the joiner's side: `HubSide` for the script of the texts
  that the joiner has sent so far, with the stream between them.  A new text makes the script
  longer, and the hub has read no more than before (`HubSide.mono`).
* What the hub writes is the greeting (`HubSide.written_prefix`), and what the joiner writes is
  its script (`Joiner.Spoken.written_prefix`), whatever the other does.  That breaks the
  circle: neither side's bytes depend on the invariant of the other.
* The transport ends a stream only when the other side has dropped its end, and neither side
  does (`HubSide.not_dropped`, `JoinMain.OnCourse.not_dropped`).

A session starts when a joiner with a new nonce has its stream to a room in service
(`Session.Opens`).  `inSession_of_run` is the run lemma, and `Work.lean` and `Rest.lean` draw
the conclusions.
-/

namespace Nullpipe

open Channel Room Framing Transition

variable {X : Crates} {cfg : HostConfig} {checks : Bool} {c : ConnId} {me : Guest} {r : Room}
  {s t : Session} {before : Room} {base : List (PeerId × WireMessage)}
  {msgs more : List WireMessage}

/-! ## What the hub has written -/

/-- The script may grow. -/
theorem HubSide.mono (hs : HubSide X cfg c me base msgs r) (hmore : msgs <+: more) :
    HubSide X cfg c me base more r := by
  obtain ⟨fwd, hhears⟩ := hs.hears
  exact { hs with
    arrived := hs.arrived.trans (Guest.script_prefix hmore)
    hears := ⟨fwd, { hhears with front := hhears.front.trans hmore }⟩ }

theorem zero_prefix_greeting (X : Crates) (me : Guest) : [0] <+: me.greeting X := by
  rw [Guest.greeting, List.cons_prefix_cons]
  exact ⟨rfl, List.nil_prefix⟩

/-- **The hub writes the greeting**: what it has written is a front part of it. -/
theorem HubSide.written_prefix (hs : HubSide X cfg c me base msgs r) :
    (r.conns c).sock.written <+: me.greeting X := by
  have hfits := (hs.reach.coherent c).fits
  have hcourse := hs.course
  cases hphase : (r.conns c).handler with
  | idle | spawned | lockNonces =>
      rw [hphase] at hfits
      rw [hfits.2]
      exact List.nil_prefix
  | readHandshake =>
      rw [hphase] at hfits
      rw [hfits.2.2]
      exact List.nil_prefix
  | writeAccept id rest =>
      rw [hphase] at hfits
      refine List.IsPrefix.trans ?_ (zero_prefix_greeting X me)
      rw [← hfits.2]
      exact List.prefix_append ..
  -- from here on the accept byte is written
  | flushAccept | register | emitJoin =>
      rw [hphase] at hfits
      rw [hfits.2]
      exact zero_prefix_greeting X me
  | readName =>
      rw [hphase] at hfits
      rw [hfits.2.2]
      exact zero_prefix_greeting X me
  | notifyJoin =>
      rw [hphase] at hcourse
      rw [← hcourse.2]
      exact List.prefix_append ..
  | spawnReader | subscribe | serve =>
      rw [hphase] at hcourse
      rw [hcourse]
  | rejectReused | abortWriter | deregister | emitLeave | ended | failed =>
      rw [hphase] at hcourse
      cases hcourse

/-- The entry of a registered peer names the joiner. -/
theorem HubSide.registered_eq (hs : HubSide X cfg c me base msgs r)
    (hname : Encodes X.json (.system me.name)) {info : PeerInfo}
    (hreg : (r.conns c).handler.registered = some info) :
    info.id = peerId X me.discriminator ∧ info.name = me.name := by
  have hfits := (hs.reach.coherent c).fits
  cases hphase : (r.conns c).handler with
  | emitJoin who =>
      rw [hphase] at hfits hreg
      cases hreg
      obtain ⟨hid, hinfo, -⟩ := hfits.1.of_script hname hs.read_prefix
      exact ⟨hid, hinfo⟩
  | emitLeave | ended =>
      rw [hphase] at hreg
      cases hreg
  | _ =>
      refine hs.joined_eq hname ?_
      rw [hphase] at hreg ⊢
      exact hreg

/-! ## The invariant -/

/-- The steps of a session that nothing disturbs: no timeout, no error of a stream, and
the users do nothing but send texts that fit a frame and take events. -/
def SessionLabel.Quiet (X : Crates) (c : ConnId) (me : Guest) : SessionLabel → Prop
  | .room l => l.Quiet c
  | .joiner l => l.Quiet X me
  | _ => True

/-- The steps of an undisturbed session. -/
abbrev QuietStep (X : Crates) (cfg : HostConfig) (checks : Bool) (c : ConnId) (me : Guest)
    (l : SessionLabel) (s t : Session) : Prop :=
  SessionStep X cfg checks c l s t ∧ l.Quiet X c me

/-- The hub and a joiner with the stream between them, in a room that was `before` when
the session started. -/
structure Linked (X : Crates) (cfg : HostConfig) (c : ConnId) (me : Guest) (before : Room)
    (s : Session) : Prop where
  hub : HubSide X cfg c me before.msgs.sent (me.messages s.joiner.messages.sent) s.room
  toHub : (s.room.conns c).sock.arrived <+: s.joiner.sock.written
  toJoiner : s.joiner.sock.arrived <+: (s.room.conns c).sock.written
  others : ∀ id, id ≠ peerId X me.discriminator → s.room.peers id = before.peers id

/-- A session of the joiner `me`. -/
structure InSession (X : Crates) (cfg : HostConfig) (c : ConnId) (me : Guest) (before : Room)
    (s : Session) : Prop extends Linked X cfg c me before s where
  guest : GuestSide X me s.joiner

/-- What a joiner with these texts is going to send. -/
theorem sendable_messages {texts : List String}
    (htexts : ∀ text ∈ texts, Encodes X.json (.chat me.name text)) :
    Sendable X (me.messages texts) := by
  intro msg hmsg
  obtain ⟨text, htext, rfl⟩ := List.mem_map.mp hmsg
  exact ⟨rfl, htexts text htext⟩

/-- A joiner writes its script. -/
theorem Joiner.Spoken.written_prefix {j : Joiner} (h : j.Spoken X me) :
    j.sock.written <+: me.script X (me.messages j.messages.sent) := by
  refine JoinMain.Spoken.prefix h |>.trans (Guest.script_prefix ?_)
  exact (Mpsc.received_prefix_sent _).map _

/-- A hub on its course has not dropped its end of the stream. -/
theorem HubSide.not_dropped (hs : HubSide X cfg c me base msgs r) : ¬ (r.conns c).Dropped := by
  obtain ⟨fwd, hhears⟩ := hs.hears
  have hcourse := hs.course
  rintro (⟨e, hfailed⟩ | ⟨⟨reason, hended⟩, -⟩)
  · rw [hfailed] at hcourse
    exact hcourse
  · exact hhears.live reason hended

/-- Neither has a joiner. -/
theorem JoinMain.OnCourse.not_dropped {main : JoinMain} (h : main.OnCourse) : ¬ main.Dropped := by
  intro hdropped
  cases main with
  | sendError | failed | emitError | emitClosed | ended => exact h
  | _ => exact hdropped

/-- The texts of a joiner are only added to. -/
theorem JoinerStep.sent_prefix {l : JoinerLabel} {j j' : Joiner} (h : JoinerStep X checks l j j') :
    j.messages.sent <+: j'.messages.sent := by
  cases h with
  | main h => rw [h.sent]
  | reader h => cases h <;> exact List.prefix_refl _
  | user h =>
      cases h with
      | send =>
          rw [Mpsc.sent_push]
          exact List.prefix_append ..
      | _ => exact List.prefix_refl _
  | net | finish | tick => exact List.prefix_refl _

theorem JoinerStep.written_prefix {l : JoinerLabel} {j j' : Joiner}
    (h : JoinerStep X checks l j j') : j.sock.written <+: j'.sock.written := by
  by_cases hmain : ∃ l', l = .main l'
  · obtain ⟨l', rfl⟩ := hmain
    cases h with
    | main h => exact h.written
  · push Not at hmain
    rw [(h.main_frame hmain).2.2]

/-- The entries of the other peers stay. -/
theorem Step.peers_others {l : Label} {r' : Room} (h : Step X cfg l r r') (hl : l.Quiet c)
    (hname : Encodes X.json (.system me.name)) (hs : HubSide X cfg c me base msgs r)
    {id : PeerId} (hid : id ≠ peerId X me.discriminator) : r'.peers id = r.peers id := by
  by_cases hmap : l = .handler c .register ∨ l = .handler c .deregister
  · rcases hmap with rfl | rfl
    · have hfits := (hs.reach.coherent c).fits
      cases h with
      | handler h =>
          cases h with
          | register hphase =>
              rw [hphase] at hfits
              obtain ⟨hinfo, -, -⟩ := hfits.1.of_script hname hs.read_prefix
              exact Function.update_of_ne (hinfo ▸ hid) ..
    · have hcourse := hs.course
      cases h with
      | handler h =>
          cases h with
          | deregister hphase =>
              rw [hphase] at hcourse
              cases hcourse
  · -- no other step changes the map
    rw [not_or] at hmap
    rw [h.peers]
    · rintro d rfl
      exact hmap.1 (hl.1 ▸ rfl)
    · rintro d rfl
      exact hmap.2 (hl.1 ▸ rfl)

/-- The link is kept while the joiner keeps to its script. -/
theorem SessionStep.linked {l : SessionLabel} (h : SessionStep X cfg checks c l s t)
    (hl : l.Quiet X c me) (hname : Encodes X.json (.system me.name))
    (hspoken : s.joiner.Spoken X me)
    (htexts : ∀ text ∈ s.joiner.messages.sent, Encodes X.json (.chat me.name text))
    (hdropped : ¬ s.joiner.main.Dropped) (hs : Linked X cfg c me before s) :
    Linked X cfg c me before t := by
  have hsend := sendable_messages htexts
  cases h with
  | @room l _ r h hhub =>
      -- in an undisturbed session the other clients are silent, and connection `c` hears
      -- the joiner only
      have hnet : ∀ d chunk, l ≠ .net d chunk := by
        rintro d chunk rfl
        cases chunk with
        | arrive => exact hhub hl
        | finish => cases hl
      have hsame : (r.conns c).sock.arrived = (s.room.conns c).sock.arrived :=
        h.arrived fun _ => hnet _ _
      exact {
        hub := h.hubSide hl hname hsend hnet hs.hub
        toHub := hsame ▸ hs.toHub
        toJoiner := hs.toJoiner.trans h.written_prefix
        others := fun id hid => (h.peers_others hl hname hs.hub hid).trans (hs.others id hid) }
  | @joiner l _ j h hhub =>
      have hnet : ∀ chunk, l ≠ .net chunk := by
        rintro chunk rfl
        exact hhub
      exact {
        hub := hs.hub.mono (h.sent_prefix.map _)
        toHub := hs.toHub.trans h.written_prefix
        toJoiner := (h.arrived hnet) ▸ hs.toJoiner
        others := hs.others }
  | toHub hchunk hnext h =>
      -- what arrives is the next part of the joiner's script
      have hhub := hs.hub.arrive h (hnext.trans hspoken.written_prefix)
      cases h with
      | arrive =>
          refine ⟨hhub, ?_, ?_, hs.others⟩
          · rw [conns_setConn_self, Socket.arrived_arrive]
            exact hnext
          · rw [conns_setConn_self]
            exact hs.toJoiner
  | toJoiner hchunk hnext h =>
      cases h with
      | net =>
          refine ⟨hs.hub, hs.toHub, ?_, hs.others⟩
          rw [Socket.arrived_arrive]
          exact hnext
  | hubEnd hgone => exact absurd hgone hdropped
  | joinerEnd hgone => exact absurd hgone hs.hub.not_dropped
  | @tick _ d =>
      have hroom : Step X cfg (.tick d) s.room { s.room with now := s.room.now + d } := .tick
      exact {
        hub := hroom.hubSide (c := c) trivial hname hsend nofun hs.hub
        toHub := hs.toHub
        toJoiner := hs.toJoiner
        others := hs.others }

/-- **Step lemma.**  A session that nothing disturbs stays a session. -/
theorem SessionStep.inSession {l : SessionLabel} (h : SessionStep X cfg checks c l s t)
    (hl : l.Quiet X c me) (hname : Encodes X.json (.system me.name))
    (hs : InSession X cfg c me before s) : InSession X cfg c me before t := by
  have hguest := hs.guest
  refine ⟨h.linked hl hname hguest.spoken hguest.texts hguest.course.not_dropped hs.toLinked, ?_⟩
  cases h with
  | room | toHub | hubEnd => exact hguest
  | joiner h hhub =>
      refine h.guestSide hl ?_ ?_ hname hguest
      · rintro chunk rfl
        exact hhub
      · rintro e rfl
        exact hhub
  | toJoiner hchunk hnext h =>
      cases h with
      -- what arrives is the next part of the greeting
      | net => exact hguest.arrive (hnext.trans hs.hub.written_prefix)
  | joinerEnd hgone => exact absurd hgone hs.hub.not_dropped
  | @tick _ d =>
      have hjoiner : JoinerStep X checks (.tick d) s.joiner
        { s.joiner with now := s.joiner.now + d } := .tick
      exact hjoiner.guestSide trivial nofun nofun hname hguest

/-! ## The start -/

/-- A joiner with a new nonce and a stream to a room in service, before it has written
anything. -/
structure Session.Opens (X : Crates) (cfg : HostConfig) (c : ConnId) (me : Guest) (s : Session) :
    Prop where
  reach : RoomReachable X cfg s.room
  service : s.room.InService
  lock : s.room.nonceLock = none
  new : me.nonce ∉ s.room.used
  conn : s.room.conns c = Conn.fresh
  stays : s.joiner.Stays
  stream : s.joiner.sock = .fresh
  reader : s.joiner.reader = .unspawned
  hello : ∃ deadline, s.joiner.main = .writing me .hello me.hello deadline
  untaken : s.joiner.messages.received = []
  texts : ∀ text ∈ s.joiner.messages.sent, Encodes X.json (.chat me.name text)

/-- A room in service with a connection that is not there yet. -/
theorem HubSide.start (hreach : RoomReachable X cfg r) (hservice : r.InService)
    (hlock : r.nonceLock = none) (hnew : me.nonce ∉ r.used) (hconn : r.conns c = Conn.fresh)
    (msgs : List WireMessage) : HubSide X cfg c me r.msgs.sent msgs r := by
  refine ⟨hreach, hservice, hlock, ?_, ?_, fun _ => hnew, ?_, ?_, [], ?_⟩ <;> rw [hconn]
  · rfl
  · exact List.nil_prefix
  · trivial
  · exact nofun
  · exact ⟨(List.append_nil _).symm, List.nil_prefix, ⟨_, Format.progress_nil⟩, nofun,
      fun _ => rfl, fun hspawned => absurd rfl hspawned⟩

/-- A joiner that starts on its half of the handshake. -/
theorem GuestSide.hello {j : Joiner} {deadline : ℕ}
    (hmain : j.main = .writing me .hello me.hello deadline) (hstays : j.Stays)
    (hreader : j.reader = .unspawned) (hread : j.sock.read = []) (hwritten : j.sock.written = [])
    (harrived : j.sock.arrived <+: me.greeting X) (huntaken : j.messages.received = [])
    (htexts : ∀ text ∈ j.messages.sent, Encodes X.json (.chat me.name text)) :
    GuestSide X me j := by
  have hhello : me.hello ≠ [] := List.ne_nil_of_length_pos (by rw [Guest.length_hello]; decide)
  refine ⟨hstays, ?_, hmain ▸ hhello, htexts, harrived, hmain ▸ ⟨hreader, hread⟩⟩
  rw [Joiner.Spoken, hmain, hwritten, huntaken]
  exact ⟨rfl, rfl, List.nil_prefix, rfl⟩

theorem Session.Opens.inSession (h : s.Opens X cfg c me) : InSession X cfg c me s.room s := by
  obtain ⟨deadline, hmain⟩ := h.hello
  refine ⟨⟨.start h.reach h.service h.lock h.new h.conn _, ?_, ?_, fun _ _ => rfl⟩, ?_⟩
  · rw [h.conn]
    exact List.nil_prefix
  · rw [h.stream]
    exact List.nil_prefix
  · refine .hello hmain h.stays h.reader ?_ ?_ ?_ h.untaken h.texts <;> rw [h.stream]
    · rfl
    · rfl
    · exact List.nil_prefix

/-- **Run lemma.** -/
theorem inSession_of_run {ls : List SessionLabel} (hopens : s.Opens X cfg c me)
    (hname : Encodes X.json (.system me.name))
    (hrun : Run (QuietStep X cfg checks c me) s ls t) : InSession X cfg c me s.room t :=
  hrun.invariant hopens.inSession fun hs h => h.1.inSession h.2 hname hs

end Nullpipe

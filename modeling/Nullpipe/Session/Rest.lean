import Nullpipe.Session.Work

/-!
# A session at rest

When no task can go on and no byte can move, the session is complete: the hub serves the
joiner under its id and name, it has sent on all of the joiner's texts, and no byte is
left in a buffer.  Each lemma here shows one part to be stuck in just one place, as in
any other it would have a step.

* What was written has arrived, at both ends, or the transport would move.
* The joiner waits for the reply or for a text (`Session.AtRest.main`).
* The handler serves its peer or waits for bytes (`Session.AtRest.handler`), and the reader
  waits for bytes; the message channel is not in its way, since the host loop empties it.

What is left are two tasks that could wait for each other, and this is settled from the
joiner's end.  A hub that has read its half of the handshake replies, so the joiner is in its
write loop (`Session.AtRest.select`); there it has written its whole script
(`Session.AtRest.written`); and that is longer than what a handler waits for, so the hub
serves it (`Session.AtRest.serves`).

`session_protocol` adds that every session whose users are silent does come to rest, by the
measure of `Work.lean`.
-/

namespace Nullpipe

open Channel Room Framing Transition

variable {X : Crates} {cfg : HostConfig} {checks : Bool} {c : ConnId} {me : Guest} {r : Room}
  {j : Joiner} {s t : Session} {before : Room} {base : List (PeerId × WireMessage)}
  {msgs : List WireMessage}

/-- No task can go on, and no byte can move. -/
def Session.AtRest (X : Crates) (cfg : HostConfig) (checks : Bool) (c : ConnId) (me : Guest)
    (s : Session) : Prop :=
  Terminal (WorkStep X cfg checks c me) s

/-- The hub serves the joiner, has sent on every text in order, and has read every byte
the joiner has written. -/
structure Session.Complete (X : Crates) (c : ConnId) (me : Guest) (before : Room) (s : Session) :
    Prop where
  serves : ∃ info, (s.room.conns c).handler = .serve info ∧ info.id = peerId X me.discriminator ∧
    info.name = me.name ∧ s.room.peers info.id = some info
  forwards : s.room.msgs.sent = before.msgs.sent ++
    (me.messages s.joiner.messages.sent).map (peerId X me.discriminator, ·)
  writes : s.joiner.main = .select me ∧
    s.joiner.sock.written = me.script X (me.messages s.joiner.messages.sent)
  reads : (s.room.conns c).sock.read = s.joiner.sock.written
  buffer : ∃ id deadline, (s.room.conns c).reader = .reading id [] deadline

/-! ## The transport -/

theorem eq_of_prefix_of_stuck {arrived written : List UInt8} (hpre : arrived <+: written)
    (hstuck : ∀ chunk, chunk ≠ [] → ¬ arrived ++ chunk <+: written) : arrived = written := by
  obtain ⟨chunk, rfl⟩ := hpre
  cases chunk with
  | nil => exact (List.append_nil _).symm
  | cons byte rest => exact absurd (List.prefix_refl _) (hstuck _ (List.cons_ne_nil _ _))

theorem canTake_head {k : Socket} {byte : UInt8} {rest : List UInt8}
    (hinbox : k.inbox = byte :: rest) : k.CanTake [byte] :=
  ⟨List.cons_ne_nil _ _, hinbox ▸ List.prefix_append [byte] rest⟩

namespace Session.AtRest

variable (hrest : s.AtRest X cfg checks c me)
include hrest

theorem room {l : Label} {r : Room} (h : Step X cfg l s.room r) (hhub : l.AtHub c)
    (hl : l.Quiet c) (hworks : (SessionLabel.room l).Works) : False :=
  hrest _ _ ⟨.room h hhub, hl, hworks⟩

theorem joiner {l : JoinerLabel} {j : Joiner} (h : JoinerStep X checks l s.joiner j)
    (hjoiner : l.AtJoiner) (hl : l.Quiet X me) (hworks : (SessionLabel.joiner l).Works) : False :=
  hrest _ _ ⟨.joiner h hjoiner, hl, hworks⟩

/-- Everything the joiner has written has arrived. -/
theorem arrived_eq (hs : InSession X cfg c me before s) :
    (s.room.conns c).sock.arrived = s.joiner.sock.written :=
  eq_of_prefix_of_stuck hs.toHub fun _ hchunk hnext =>
    hrest _ _ ⟨.toHub hchunk hnext (.arrive hs.hub.stream), trivial, trivial⟩

/-- Everything the hub has written has arrived. -/
theorem heard_eq (hs : InSession X cfg c me before s) :
    s.joiner.sock.arrived = (s.room.conns c).sock.written :=
  eq_of_prefix_of_stuck hs.toJoiner fun _ hchunk hnext =>
    hrest _ _ ⟨.toJoiner hchunk hnext (.net hs.guest.stays.stream), trivial, trivial⟩

end Session.AtRest

/-! ## The joiner -/

/-- A joiner at rest waits for the reply or for a text. -/
theorem Session.AtRest.main (hrest : s.AtRest X cfg checks c me)
    (hs : InSession X cfg c me before s) :
    (∃ deadline, s.joiner.main = .readReply me deadline ∧ s.joiner.sock.inbox = []) ∨
      s.joiner.main = .select me ∧ s.joiner.messages.queue = [] := by
  have hcourse := hs.guest.course
  have hspoken := hs.guest.spoken
  have hstays := hs.guest.stays
  rw [Joiner.Spoken] at hspoken
  have hmain {l : JoinMainLabel} {j : Joiner} (h : JoinMainStep X checks l s.joiner j)
      (hfails : ¬ l.Fails) (hreply : l ≠ .replyTimeout) : False :=
    hrest.joiner (.main h) trivial ⟨hfails, hreply⟩ trivial
  -- in every other place the main task could take a step
  cases hphase : s.joiner.main with
  | writing who what rest deadline =>
      rw [hphase] at hcourse
      have hall : s.joiner.main = .writing who what (rest ++ []) deadline := by
        rw [List.append_nil, hphase]
      exact (hmain (.write hall hcourse) id JoinMainLabel.noConfusion).elim
  | flushing => exact (hmain (.flush hphase) id JoinMainLabel.noConfusion).elim
  | readReply who deadline =>
      rw [hphase] at hspoken
      obtain ⟨rfl, -, -⟩ := hspoken
      cases hinbox : s.joiner.sock.inbox with
      | nil => exact .inl ⟨deadline, rfl, rfl⟩
      | cons byte rest =>
          exact (hmain (.reply hphase (canTake_head hinbox)) id JoinMainLabel.noConfusion).elim
  | emitJoin => exact (hmain (.emitJoin hphase) id JoinMainLabel.noConfusion).elim
  | spawnReader => exact (hmain (.spawnReader hphase) id JoinMainLabel.noConfusion).elim
  | select who =>
      rw [hphase] at hspoken
      obtain ⟨rfl, -, -⟩ := hspoken
      cases hqueue : s.joiner.messages.queue with
      | nil => exact .inr ⟨rfl, rfl⟩
      | cons text rest =>
          exact (hmain (.takeText hphase hstays.calm hstays.undone hqueue) id
            JoinMainLabel.noConfusion).elim
  | echo => exact (hmain (.echo hphase) id JoinMainLabel.noConfusion).elim
  | _ =>
      rw [hphase] at hcourse
      cases hcourse

/-! ## The hub -/

/-- A handler at rest serves its peer or waits for bytes. -/
theorem Session.AtRest.handler (hrest : s.AtRest X cfg checks c me)
    (hs : InSession X cfg c me before s) :
    (∃ info, (s.room.conns c).handler = .serve info) ∨
      ((∃ buf deadline, (s.room.conns c).handler = .readHandshake buf deadline) ∨
        ∃ id got deadline, (s.room.conns c).handler = .readName id got deadline) ∧
      (s.room.conns c).sock.inbox = [] := by
  have hcourse := hs.hub.course
  have hfits := (hs.hub.reach.coherent c).fits
  have hhandler {l : HandlerLabel} {r : Room} (h : HandlerStep X c l s.room r) (hl : l.Healthy) :
      False :=
    hrest.room (.handler h) trivial ⟨rfl, hl⟩ trivial
  -- a handler rests where it waits for bytes that are not there, or serves
  cases hphase : (s.room.conns c).handler with
  | idle =>
      have hready : ¬ s.room.ShutdownReady s.room.acceptSeen := by
        rw [hs.hub.reach.signals.accept hs.hub.service.accept]
        exact hs.hub.service.calm
      exact (hrest.room (.accept (.accept hs.hub.service.accept hready hphase)) trivial rfl
        trivial).elim
  | spawned => exact (hhandler (.start hphase) trivial).elim
  | readHandshake buf deadline =>
      rw [hphase] at hfits
      cases hinbox : (s.room.conns c).sock.inbox with
      | nil => exact .inr ⟨.inl ⟨buf, deadline, rfl⟩, rfl⟩
      | cons byte rest =>
          exact (hhandler (.readHandshake hphase (canTake_head hinbox) hfits.2.1) trivial).elim
  | lockNonces =>
      exact (hhandler (.insertNonce hphase hs.hub.lock (hs.hub.nonce_fresh hphase)) trivial).elim
  | writeAccept id rest deadline =>
      rw [hphase] at hcourse
      have hall : (s.room.conns c).handler = .writeAccept id (rest ++ []) deadline := by
        rw [List.append_nil, hphase]
      exact (hhandler (.writeAccept hall hcourse) trivial).elim
  | flushAccept => exact (hhandler (.flushAccept hphase) trivial).elim
  | readName id got deadline =>
      rw [hphase] at hfits
      obtain ⟨-, ⟨k, hneeds⟩, -⟩ := hfits
      cases hinbox : (s.room.conns c).sock.inbox with
      | nil => exact .inr ⟨.inr ⟨id, got, deadline, rfl⟩, rfl⟩
      | cons byte rest =>
          exact (hhandler (.readName hphase (canTake_head hinbox) hneeds
            (Format.progress_needs_pos hneeds)) trivial).elim
  | register => exact (hhandler (.register hphase) trivial).elim
  | emitJoin => exact (hhandler (.emitJoin hphase) trivial).elim
  | notifyJoin info rest =>
      rw [hphase] at hcourse
      have hall : (s.room.conns c).handler = .notifyJoin info (rest ++ []) := by
        rw [List.append_nil, hphase]
      exact (hhandler (.writeNotice hall hcourse.1) trivial).elim
  | spawnReader => exact (hhandler (.spawnReader hphase) trivial).elim
  | subscribe => exact (hhandler (.subscribe hphase) trivial).elim
  | serve info => exact .inl ⟨info, rfl⟩
  | _ =>
      rw [hphase] at hcourse
      cases hcourse

/-- A message channel at rest has room. -/
theorem Session.AtRest.msgs_room (hrest : s.AtRest X cfg checks c me)
    (hs : InSession X cfg c me before s) : s.room.msgs.HasRoom msgChanCap := by
  have hservice := hs.hub.service
  have hhost {l : HostLabel} {r : Room} (h : HostStep cfg l s.room r) : False :=
    hrest.room (.host h) trivial trivial trivial
  refine ⟨hs.hub.msgs_open, ?_⟩
  cases hqueue : s.room.msgs.queue with
  | nil => decide
  | cons entry rest =>
      -- the host loop would take the first message
      have hattends := hservice.host
      cases hphase : s.room.host with
      | select =>
          exact (hhost (.takeMessage hphase (hservice.not_ready hs.hub.reach.signals hphase)
            hservice.texts hservice.handles hqueue)).elim
      | deliver => exact (hhost (.deliver hphase)).elim
      | _ =>
          rw [hphase] at hattends
          cases hattends

/-- A reader at rest waits for bytes. -/
theorem Session.AtRest.reader (hrest : s.AtRest X cfg checks c me)
    (hs : InSession X cfg c me before s) (hspawned : (s.room.conns c).reader ≠ .unspawned) :
    (∃ id got deadline, (s.room.conns c).reader = .reading id got deadline) ∧
      (s.room.conns c).sock.inbox = [] := by
  obtain ⟨fwd, hhears⟩ := hs.hub.hears
  obtain ⟨k, hneeds⟩ := hhears.needs
  have hreader {l : ReaderLabel} {r : Room} (h : ReaderStep X c l s.room r) (hl : l.Healthy) :
      False :=
    hrest.room (.reader h) trivial ⟨rfl, hl⟩ trivial
  cases hphase : (s.room.conns c).reader with
  | unspawned => exact absurd hphase hspawned
  | spawned => exact (hreader (.start hphase) trivial).elim
  | reading id got deadline =>
      rw [hphase] at hneeds
      refine ⟨⟨id, got, deadline, rfl⟩, ?_⟩
      cases hinbox : (s.room.conns c).sock.inbox with
      | nil => rfl
      | cons byte rest =>
          have htake := canTake_head hinbox
          have hfit : [byte].length ≤ k := Format.progress_needs_pos hneeds
          -- one byte would be enough for a step, whatever it makes of the frame
          cases hnext : readFrame (got ++ [byte]) with
          | needs k' => exact (hreader (.read hphase htake hneeds hfit hnext) trivial).elim
          | failed e => exact (hreader (.badFrame hphase htake hneeds hfit hnext) trivial).elim
          | frame frame =>
              cases hdecode : decodeMessage X.json frame with
              | error e =>
                  exact (hreader (.badMessage hphase htake hneeds hfit hnext hdecode) trivial).elim
              | ok msg =>
                  by_cases hkind : msg.kind = .ping
                  · exact (hreader (.ping hphase htake hneeds hfit hnext hdecode hkind)
                      trivial).elim
                  · exact (hreader (.message hphase htake hneeds hfit hnext hdecode hkind)
                      trivial).elim
  | sending => exact (hreader (.send hphase (hrest.msgs_room hs)) trivial).elim
  | ended reason => exact absurd hphase (hhears.live reason)

/-! ## Completeness -/

/-- The joiner is in its write loop: a hub that has read its half of the handshake
replies. -/
theorem Session.AtRest.select (hrest : s.AtRest X cfg checks c me)
    (hs : InSession X cfg c me before s) :
    s.joiner.main = .select me ∧ s.joiner.messages.queue = [] := by
  rcases hrest.main hs with ⟨deadline, hreply, hinbox⟩ | hselect
  · exfalso
    have hintake := hs.guest.intake
    have hspoken := hs.guest.spoken
    have hcourse := hs.hub.course
    have hfits := (hs.hub.reach.coherent c).fits
    have harrived := hrest.arrived_eq hs
    have hheard := hrest.heard_eq hs
    rw [hreply] at hintake
    rw [Joiner.Spoken, hreply] at hspoken
    rw [hspoken.2.2] at harrived
    rw [Socket.arrived, hintake.2, hinbox] at hheard
    -- the hub has not written anything, and still waits for the handshake
    rcases hrest.handler hs with ⟨info, hphase⟩ |
      ⟨⟨buf, deadline, hphase⟩ | ⟨id, got, deadline, hphase⟩, hempty⟩
    · rw [hphase] at hcourse
      rw [hcourse] at hheard
      cases hheard
    · rw [hphase] at hfits
      obtain ⟨hread, hshort, -⟩ := hfits
      rw [Socket.arrived, hempty, List.append_nil, hread] at harrived
      rw [harrived, Guest.length_hello] at hshort
      exact Nat.lt_irrefl _ hshort
    · rw [hphase] at hfits
      rw [hfits.2.2] at hheard
      cases hheard
  · exact hselect

/-- The joiner has written its whole script. -/
theorem Session.AtRest.written (hrest : s.AtRest X cfg checks c me)
    (hs : InSession X cfg c me before s) :
    s.joiner.sock.written = me.script X (me.messages s.joiner.messages.sent) := by
  obtain ⟨hselect, hqueue⟩ := hrest.select hs
  have hspoken := hs.guest.spoken
  rw [Joiner.Spoken, hselect] at hspoken
  rw [hspoken.2.2, Mpsc.sent, hqueue, List.append_nil]

/-- The hub serves the joiner: the script is longer than the handshake. -/
theorem Session.AtRest.serves (hrest : s.AtRest X cfg checks c me)
    (hname : Encodes X.json (.system me.name)) (hs : InSession X cfg c me before s) :
    ∃ info, (s.room.conns c).handler = .serve info := by
  have hfits := (hs.hub.reach.coherent c).fits
  have harrived := (hrest.arrived_eq hs).trans (hrest.written hs)
  rcases hrest.handler hs with hserves |
    ⟨⟨buf, deadline, hphase⟩ | ⟨id, got, deadline, hphase⟩, hempty⟩
  · exact hserves
  · exfalso
    rw [hphase] at hfits
    obtain ⟨hread, hshort, -⟩ := hfits
    rw [Socket.arrived, hempty, List.append_nil, hread] at harrived
    have hlong := (Guest.hello_prefix_script X me
      (me.messages s.joiner.messages.sent)).length_le
    rw [← harrived, Guest.length_hello] at hlong
    omega
  · exfalso
    rw [hphase] at hfits
    obtain ⟨hpresents, ⟨k, hneeds⟩, -⟩ := hfits
    obtain ⟨-, hread⟩ := hpresents.of_script hs.hub.read_prefix
    rw [Socket.arrived, hempty, List.append_nil, hread, Guest.script_split,
      List.append_cancel_left_eq] at harrived
    rw [harrived, show readFrame _ = _ from
      Format.progress_append_frame (readFrame_encodeMessage hname.encodeMessage) _] at hneeds
    cases hneeds

/-- **A session at rest is complete.** -/
theorem Session.AtRest.complete (hrest : s.AtRest X cfg checks c me)
    (hname : Encodes X.json (.system me.name)) (hs : InSession X cfg c me before s) :
    s.Complete X c me before := by
  obtain ⟨info, hserve⟩ := hrest.serves hname hs
  have hjoined : (s.room.conns c).handler.joined = some info := by
    rw [hserve]
    rfl
  obtain ⟨hid, hinfo⟩ := hs.hub.joined_eq hname hjoined
  have hspawned : (s.room.conns c).reader ≠ .unspawned := by
    have hspawned := (hs.hub.reach.coherent c).spawned
    rw [hserve] at hspawned
    exact hspawned.1
  obtain ⟨⟨id, got, deadline, hreading⟩, hempty⟩ := hrest.reader hs hspawned
  obtain ⟨fwd, hhears⟩ := hs.hub.hears
  have hall : (s.room.conns c).sock.read = s.joiner.sock.written := by
    have harrived := hrest.arrived_eq hs
    rwa [Socket.arrived, hempty, List.append_nil] at harrived
  have hread := hhears.read hspawned
  have hfront := hhears.front
  obtain ⟨k, hneeds⟩ := hhears.needs
  rw [hreading] at hread hfront hneeds
  rw [hall, hrest.written hs] at hread
  simp only [Reader.held, Reader.buffer, List.append_nil] at hread hfront hneeds
  -- what is read is the script, so what is sent on is all of its messages
  obtain ⟨rfl, rfl⟩ := Format.done_of_aligned
    (fun msg hmsg => (sendable_messages hs.guest.texts).frames hmsg) hfront
    hread.symm hneeds
  exact {
    serves := ⟨info, hserve, hid, hinfo, hs.hub.entry info (by rw [hserve]; rfl)⟩
    forwards := hhears.sent
    writes := ⟨(hrest.select hs).1, hrest.written hs⟩
    reads := hall
    buffer := ⟨id, deadline, hreading⟩ }

/-! ## The protocol -/

/-- Every session comes to rest. -/
theorem InSession.comes_to_rest (checks : Bool) (hname : Encodes X.json (.system me.name))
    (hs : InSession X cfg c me before s) :
    ∃ ls t, Run (WorkStep X cfg checks c me) s ls t ∧ t.AtRest X cfg checks c me := by
  let Go (l : SessionLabel) (s t : Session) : Prop :=
    InSession X cfg c me before s ∧ WorkStep X cfg checks c me l s t
  have hlower : ∀ l s t, Go l s t → t.work X c me < s.work X c me :=
    fun _ _ _ h => h.2.1.work h.2.2.1 h.2.2.2 hname h.1
  obtain ⟨ls, t, hrun, hterminal⟩ := exists_terminal (Session.work X c me) hlower s
  have ht : InSession X cfg c me before t :=
    hrun.invariant hs fun hs h => h.2.1.inSession h.2.2.1 hname hs
  exact ⟨ls, t, hrun.mono fun _ _ _ h => h.2, fun l u hstep => hterminal l u ⟨ht, hstep⟩⟩

/-- **Joiner and hub speak one protocol.**  In every state of an undisturbed session the
hub has registered nobody but the joiner, under its id and name, and has sent on a front
part of its texts, and the joiner's reader stands behind the accept byte and whole
notices.  From there on the two come to rest after finitely many steps, and at rest
nothing is missing. -/
theorem session_protocol (X : Crates) (cfg : HostConfig) (checks : Bool) (c : ConnId) (me : Guest)
    (s t : Session) (ls : List SessionLabel) (hopens : s.Opens X cfg c me)
    (hname : Encodes X.json (.system me.name)) (hrun : Run (QuietStep X cfg checks c me) s ls t) :
    (∀ info, (t.room.conns c).handler.registered = some info →
        info.id = peerId X me.discriminator ∧ info.name = me.name ∧
          t.room.peers info.id = some info) ∧
      (∀ id, id ≠ peerId X me.discriminator → t.room.peers id = s.room.peers id) ∧
      (∃ fwd, fwd <+: me.messages t.joiner.messages.sent ∧
        t.room.msgs.sent = s.room.msgs.sent ++ fwd.map (peerId X me.discriminator, ·)) ∧
      (t.joiner.reader ≠ .unspawned → Notices X me t.joiner.reader t.joiner.sock.read) ∧
      (∀ ms u, Run (WorkStep X cfg checks c me) t ms u →
        ms.length ≤ t.work X c me ∧ (u.AtRest X cfg checks c me → u.Complete X c me s.room)) ∧
      ∃ ms u, Run (WorkStep X cfg checks c me) t ms u ∧ u.AtRest X cfg checks c me := by
  have ht := inSession_of_run hopens hname hrun
  obtain ⟨fwd, hhears⟩ := ht.hub.hears
  refine ⟨fun info hreg => ?_, ht.others, ⟨fwd, ?_, hhears.sent⟩,
    fun hspawned => (ht.guest.notices hspawned).1, fun ms u hwork => ⟨?_, fun hrest => ?_⟩,
    ht.comes_to_rest checks hname⟩
  · obtain ⟨hid, hinfo⟩ := ht.hub.registered_eq hname hreg
    exact ⟨hid, hinfo, ht.hub.entry info hreg⟩
  · exact (List.prefix_append ..).trans hhears.front
  · have hle := length_le_work hname ht hwork
    omega
  · have hu : InSession X cfg c me s.room u :=
      hwork.invariant ht fun hs h => h.1.inSession h.2.1 hname hs
    exact hrest.complete hname hu

/-! ### Ann and her host -/

/-- Ann has her stream and one text to send. -/
def Session.annOpens (token : String) : Session :=
  ⟨Room.hosting ⟨"host", 300⟩,
    { Joiner.init 0 ⟨"", token⟩ with
      main := .writing annGuest .hello annGuest.hello (0 + writeTimeout)
      messages := Mpsc.empty.push "hi" }⟩

theorem opens_annOpens {token : String} (hencode : encodeInvite .standard annInvite = .ok token) :
    (Session.annOpens token).Opens .standard ⟨"host", 300⟩ 0 annGuest where
  reach := ⟨0, (run_hosting hencode).reachable⟩
  service := ⟨rfl, fun h => h.elim (fun hne => hne rfl) nofun, trivial, rfl, rfl⟩
  lock := rfl
  new := Finset.notMem_empty _
  conn := rfl
  stays := { Joiner.Stays.init 0 ⟨"", token⟩ with runs := id }
  stream := rfl
  reader := rfl
  hello := ⟨0 + writeTimeout, rfl⟩
  untaken := rfl
  texts := by
    intro text htext
    rw [List.mem_singleton.mp htext]
    decide

/-- Ann's host hears her. -/
theorem session_protocol_ann :
    ∃ token ms u, Run (WorkStep .standard ⟨"host", 300⟩ true 0 annGuest) (Session.annOpens token)
        ms u ∧
      u.room.msgs.sent = [(peerId .standard (.fill 7), .chat "ann" "hi")] := by
  obtain ⟨token, hencode⟩ := exists_annToken .standard
  obtain ⟨-, -, -, -, hwork, ms, u, hrun, hrest⟩ :=
    session_protocol .standard ⟨"host", 300⟩ true 0 annGuest _ _ []
      (opens_annOpens hencode) (by decide) .nil
  have hcomplete := (hwork ms u hrun).2 hrest
  have htexts : u.joiner.messages.sent = ["hi"] :=
    hrun.invariant (I := fun s => s.joiner.messages.sent = ["hi"]) rfl fun hs h => h.sent.trans hs
  refine ⟨token, ms, u, hrun, ?_⟩
  rw [hcomplete.forwards, htexts]
  rfl

end Nullpipe

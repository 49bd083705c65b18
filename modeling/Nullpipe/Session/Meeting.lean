import Nullpipe.Session.Hub
import Nullpipe.Joiner.Connect
import Nullpipe.Joiner.Staying

/-!
# A meeting

Runs of the two parties put together.  A run of a session interleaves steps of the room, steps
of the joiner, and the transport between them, which may only carry what was written at the
other end.

* `run_room` and `run_joiner` take a run of one party for a run of the session in which the
  other stands still: what arrives has to have been written there.  The labels are lifted
  (`Label.lift`, `JoinerLabel.lift`), and an arrival becomes a step of the transport.
* `run_welcome` is the room's part of a handshake, from the acceptance of the nonce to a
  reader that waits for a first message; the joiner's part is that of `Joiner/Enter.lean`.
* `run_meet` alternates them, from the joiner's stream to the state in which each side waits
  for the other to say something: 32 bytes one way, the accept byte back, the name, the join
  notice.

Ann and her host, who meet at the end, are used wherever a concrete session is needed.
-/

namespace Nullpipe

open Channel Room Framing Transition

variable {X : Crates} {cfg : HostConfig} {checks : Bool} {c : ConnId} {s t : Room}
  {j j' : Joiner} {me : Guest}

/-! ## One party at a time -/

/-- The step of the session that is this step of the room. -/
def Label.lift (c : ConnId) : Label → SessionLabel
  | .net d (.arrive chunk) => if d = c then .toHub chunk else .room (.net d (.arrive chunk))
  | l => .room l

/-- The step of the session that is this step of the joiner. -/
def JoinerLabel.lift : JoinerLabel → SessionLabel
  | .net chunk => .toJoiner chunk
  | l => .joiner l

/-- The steps of a room that are steps of the session, with the bytes that arrive. -/
def Label.Lifts (c : ConnId) : Label → Prop
  | .net d (.arrive chunk) => d = c ∧ chunk ≠ []
  | l => l.AtHub c

def JoinerLabel.Lifts : JoinerLabel → Prop
  | .net chunk => chunk ≠ []
  | l => l.AtJoiner

theorem JoinerStep.arrived_prefix {l : JoinerLabel} (h : JoinerStep X checks l j j') :
    j.sock.arrived <+: j'.sock.arrived := by
  by_cases hnet : ∃ chunk, l = .net chunk
  · obtain ⟨chunk, rfl⟩ := hnet
    cases h with
    | net =>
        rw [Socket.arrived_arrive]
        exact List.prefix_append ..
  · push Not at hnet
    rw [h.arrived hnet]

/-- **A run of the room** is one of the session if the joiner has written what arrives
in it. -/
theorem run_room {ls : List Label} (hrun : RoomRun X cfg s ls t) (hls : ∀ l ∈ ls, l.Lifts c)
    (harrived : (t.conns c).sock.arrived <+: j.sock.written) :
    Run (SessionStep X cfg checks c) ⟨s, j⟩ (ls.map (Label.lift c)) ⟨t, j⟩ := by
  induction hrun with
  | nil => exact .nil
  | @snoc ls u v l hrun hstep ih =>
      have hbefore := ih (fun l hl => hls l (List.mem_append_left _ hl))
        (hstep.arrived_prefix.trans harrived)
      have hlift := hls l (List.mem_append_right _ (List.mem_singleton_self _))
      rw [List.map_append, List.map_singleton]
      refine hbefore.snoc ?_
      -- what arrives at the hub comes from the stream of the joiner; the rest is a step of the hub
      by_cases harrive : ∃ chunk, l = .net c (.arrive chunk)
      · obtain ⟨chunk, rfl⟩ := harrive
        rw [Label.lift, if_pos rfl]
        cases hstep with
        | net h =>
            refine .toHub hlift.2 ?_ h
            cases h with
            | arrive =>
                rw [conns_setConn_self, Socket.arrived_arrive] at harrived
                exact harrived
      · push Not at harrive
        have hroom : l.lift c = .room l ∧ l.AtHub c := by
          cases l with
          | net d l =>
              cases l with
              | arrive chunk =>
                  obtain ⟨rfl, -⟩ := hlift
                  exact absurd rfl (harrive chunk)
              | finish => exact ⟨rfl, hlift⟩
          | tick => cases hlift
          | user | host | accept | handler | reader | writer => exact ⟨rfl, trivial⟩
        rw [hroom.1]
        exact .room hstep hroom.2

/-- **A run of the joiner** is one of the session if the hub has written what arrives in
it. -/
theorem run_joiner {ls : List JoinerLabel} (hrun : Run (JoinerStep X checks) j ls j')
    (hls : ∀ l ∈ ls, l.Lifts) (harrived : j'.sock.arrived <+: (s.conns c).sock.written) :
    Run (SessionStep X cfg checks c) ⟨s, j⟩ (ls.map JoinerLabel.lift) ⟨s, j'⟩ := by
  induction hrun with
  | nil => exact .nil
  | @snoc ls u v l hrun hstep ih =>
      have hbefore := ih (fun l hl => hls l (List.mem_append_left _ hl))
        (hstep.arrived_prefix.trans harrived)
      have hlift := hls l (List.mem_append_right _ (List.mem_singleton_self _))
      rw [List.map_append, List.map_singleton]
      refine hbefore.snoc ?_
      by_cases harrive : ∃ chunk, l = .net chunk
      · obtain ⟨chunk, rfl⟩ := harrive
        refine .toJoiner hlift ?_ hstep
        cases hstep with
        | net =>
            rw [Socket.arrived_arrive] at harrived
            exact harrived
      · push Not at harrive
        have hjoiner : l.lift = .joiner l ∧ l.AtJoiner := by
          cases l with
          | net chunk => exact absurd rfl (harrive chunk)
          | main | reader | user => exact ⟨rfl, trivial⟩
          | finish | tick => cases hlift
        rw [hjoiner.1]
        exact .joiner hstep hjoiner.2

/-! ## The handshake -/

/-- The room when the name of an accepted client is read and its reader waits for a
first message: the steps behind the flush of the accept byte. -/
def welcomeLabels (X : Crates) (c : ConnId) (info : PeerInfo) : List Label :=
  [.net c (.arrive (frameBytes X.json (.system info.name)))] ++ nameLabels X c info.name ++
    (joinLabels c ++ serveLabels X c info) ++ [.reader c .start]

/-- The room with a further client whose reader is running. -/
def Room.welcomed (X : Crates) (s : Room) (c : ConnId) (me : Guest) : Room :=
  let r := s.admitted X c me.nonce me.discriminator me.name
  r.setConn c { r.conns c with
    reader := .reading (peerId X me.discriminator) [] (s.now + readTimeout) }

theorem run_welcome (hname : Encodes X.json (.system me.name))
    (hnotice : Encodes X.json (.system (me.name ++ " joined"))) :
    RoomRun X cfg (s.accepted X c me.nonce me.discriminator [])
      (welcomeLabels X c ⟨peerId X me.discriminator, me.name, s.now⟩) (s.welcomed X c me) := by
  let frame := frameBytes X.json (.system me.name)
  have hconn (rest : List UInt8) : (s.accepted X c me.nonce me.discriminator rest).conns c =
      .greeting s.acceptSeen ⟨me.hello, rest, none, [0], 1⟩
        (.readName (peerId X me.discriminator) [] (s.now + nameTimeout)) := by
    rw [Room.accepted, conns_setConn_self]
    rfl
  -- the name frame arrives, is read, the peer is announced, and its reader starts
  have harrive : Step X cfg (.net c (.arrive frame))
      (s.accepted X c me.nonce me.discriminator [])
      (s.accepted X c me.nonce me.discriminator frame) := by
    have hnext : s.accepted X c me.nonce me.discriminator frame =
        setConn (s.accepted X c me.nonce me.discriminator []) c
          { (s.accepted X c me.nonce me.discriminator []).conns c with
            sock :=
              ((s.accepted X c me.nonce me.discriminator []).conns c).sock.arrive frame } := by
      rw [hconn, Room.accepted, Room.accepted, setConn_setConn]
      rfl
    rw [hnext]
    exact .net (.arrive (by rw [hconn]; rfl))
  have hnamed : RoomRun X cfg (s.accepted X c me.nonce me.discriminator frame)
      (nameLabels X c me.name) (s.greeted X c me.nonce me.discriminator me.name) := by
    have hrun : RoomRun X cfg _ _ _ := run_name (hconn frame) hname
    rwa [Room.accepted, setConn_setConn] at hrun
  have hsettled : RoomRun X cfg (s.greeted X c me.nonce me.discriminator me.name) _
      (s.admitted X c me.nonce me.discriminator me.name) :=
    run_settle (by rw [Room.greeted, conns_setConn_self]; rfl) hnotice
  have hspawned : ((s.admitted X c me.nonce me.discriminator me.name).conns c).reader =
      .spawned (peerId X me.discriminator) := by
    rw [Room.admitted, Room.settled, Room.served, conns_setConn_self]
  have hstart : Step X cfg (.reader c .start) (s.admitted X c me.nonce me.discriminator me.name)
      (s.welcomed X c me) := .reader (.start hspawned)
  exact (((Run.single harrive).append hnamed).append hsettled).snoc hstart

theorem sock_accepted (X : Crates) (s : Room) (c : ConnId) (me : Guest) (rest : List UInt8) :
    ((s.accepted X c me.nonce me.discriminator rest).conns c).sock =
      ⟨me.hello, rest, none, [0], 1⟩ := by
  rw [Room.accepted, conns_setConn_self]
  rfl

/-- What the connection has done with the bytes of a new client. -/
theorem sock_welcomed (X : Crates) (s : Room) (c : ConnId) (me : Guest) :
    ((s.welcomed X c me).conns c).sock =
      ⟨me.script X [], [], none, 0 :: frameBytes X.json (.system (me.name ++ " joined")), 1⟩ := by
  rw [Guest.script_nil]
  simp only [Room.welcomed, Room.admitted, Room.settled, Room.served, Room.announced,
    Room.registered, Room.greeted, conns_setConn_self]
  rfl

/-- The steps from the joiner's stream to the state in which each side waits. -/
def meetLabels (X : Crates) (c : ConnId) (me : Guest) (info : PeerInfo) : List SessionLabel :=
  (hailLabels me).map JoinerLabel.lift ++
    (acceptLabels c me.nonce me.discriminator me.hello).map (Label.lift c) ++
    (replyLabels ++ enteredLabels X me).map JoinerLabel.lift ++
    (welcomeLabels X c info).map (Label.lift c) ++
    (heardLabels X (joinNotice info)).map JoinerLabel.lift

/-- A room with a joiner that have met. -/
def Session.met (X : Crates) (s : Room) (c : ConnId) (now : ℕ) (config : JoinConfig) (me : Guest) :
    Session :=
  ⟨s.welcomed X c me, (Joiner.entered X now config me).heard X (.system (me.name ++ " joined"))⟩

/-- **A joiner with a new nonce and a hub that accepts connections meet.** -/
theorem run_meet {now : ℕ} {config : JoinConfig} {payload : InvitePayload}
    (heffective : me.name = effectiveName config payload) (hnonce : me.nonce = payload.nonce)
    (haccept : s.accept = .running) (hready : ¬ s.ShutdownReady s.acceptSeen)
    (hfresh : s.conns c = Conn.fresh) (hlock : s.nonceLock = none) (hnew : me.nonce ∉ s.used)
    (hname : Encodes X.json (.system me.name))
    (hnotice : Encodes X.json (.system (me.name ++ " joined"))) :
    Run (SessionStep X cfg checks c) ⟨s, .greeting now config (.connecting payload) .fresh⟩
      (meetLabels X c me ⟨peerId X me.discriminator, me.name, s.now⟩)
      (Session.met X s c now config me) := by
  let info : PeerInfo := ⟨peerId X me.discriminator, me.name, s.now⟩
  let hailed := Joiner.hailed now config me
  let entered := Joiner.entered X now config me
  let accepted := s.accepted X c me.nonce me.discriminator []
  have hhelloNe : me.hello ≠ [] := List.ne_nil_of_length_pos (by rw [Guest.length_hello]; decide)
  have hnameNe := frameBytes_ne_nil hname
  have hnoticeNe : frameBytes X.json (joinNotice info) ≠ [] := frameBytes_ne_nil hnotice
  -- the joiner writes its hello, and the hub accepts it
  have hhailed : Run (SessionStep X cfg checks c)
      ⟨s, .greeting now config (.connecting payload) .fresh⟩ _ ⟨s, hailed⟩ :=
    run_joiner (run_hailed heffective hnonce)
      (by simp [hailLabels, JoinerLabel.Lifts, JoinerLabel.AtJoiner]) List.nil_prefix
  have haccepted : Run (SessionStep X cfg checks c) ⟨s, hailed⟩
      ((acceptLabels c me.nonce me.discriminator me.hello).map (Label.lift c))
      ⟨accepted, hailed⟩ := by
    have hrun : RoomRun X cfg s _ accepted := run_accept [] haccept hready hfresh hlock hnew
    rw [List.append_nil] at hrun
    refine run_room hrun ?_ ?_
    · simpa [acceptLabels, Label.Lifts, Label.AtHub] using hhelloNe
    · simp only [accepted, sock_accepted, Socket.arrived, List.append_nil]
      exact List.prefix_refl _
  -- the joiner reads the answer and writes its name, and the hub announces it
  have hentered : Run (SessionStep X cfg checks c) ⟨accepted, hailed⟩ _ ⟨accepted, entered⟩ :=
    run_joiner (run_replied.append (run_entered hname))
      (by simp [replyLabels, enteredLabels, JoinerLabel.Lifts, JoinerLabel.AtJoiner]) (by
        simp only [accepted, sock_accepted]
        exact List.prefix_refl _)
  have hwelcomed : Run (SessionStep X cfg checks c) ⟨accepted, entered⟩
      ((welcomeLabels X c info).map (Label.lift c)) ⟨s.welcomed X c me, entered⟩ := by
    refine run_room (run_welcome hname hnotice) ?_ ?_
    · simpa [welcomeLabels, nameLabels, joinLabels, serveLabels, Label.Lifts, Label.AtHub]
        using hnameNe
    · rw [sock_welcomed, Socket.arrived, List.append_nil]
      exact List.prefix_refl _
  -- the joiner reads the notice of its own arrival
  have hheard : Run (SessionStep X cfg checks c) ⟨s.welcomed X c me, entered⟩
      ((heardLabels X (joinNotice info)).map JoinerLabel.lift)
      (Session.met X s c now config me) := by
    have hroom : entered.events.HasRoom eventChanCap := ⟨rfl, show 1 < eventChanCap by decide⟩
    refine run_joiner (run_heard_message rfl rfl rfl hroom hnotice) ?_ ?_
    · simpa [heardLabels, JoinerLabel.Lifts, JoinerLabel.AtJoiner] using hnoticeNe
    · rw [sock_welcomed, Socket.arrived]
      exact (List.append_nil _).symm ▸ List.prefix_refl _
  exact (((hhailed.append haccepted).append hentered).append hwelcomed).append hheard

/-! ### Ann meets her host -/

/-- A room that has just issued an invite for ann. -/
def Room.hosting (cfg : HostConfig) : Room :=
  { Room.opened cfg 0 onionA with issued := [annInvite] }

def hostingLabels : List Label :=
  openLabels onionA ++ [.user (.invite annInvite.nonce annInvite.suggestedName)]

theorem run_hosting {token : String} (hencode : encodeInvite X annInvite = .ok token) :
    RoomRun X cfg (Room.init 0) hostingLabels (Room.hosting cfg) := by
  let info : InviteInfo := ⟨onionA, roomPort, cfg.inviteTtlSecs⟩
  have hpayload : (Room.opened cfg 0 onionA).invitePayload info annInvite.nonce
      annInvite.suggestedName = annInvite := by
    have hissued : (Room.opened cfg 0 onionA).timestamp = 0 := by
      show UInt64.ofNat (0 / 1000) = 0
      decide
    rw [invitePayload, hissued]
    rfl
  have hinvite : UserStep X (.invite annInvite.nonce annInvite.suggestedName)
      (Room.opened cfg 0 onionA)
      { Room.opened cfg 0 onionA with
        issued := [] ++ [(Room.opened cfg 0 onionA).invitePayload info annInvite.nonce
          annInvite.suggestedName] } := .invite rfl rfl (by rw [hpayload]; exact hencode)
  rw [hpayload] at hinvite
  exact (run_open X cfg 0 onionA).snoc (.user hinvite)

/-- The steps from the invite to the state in which both sides wait. -/
def annMeetLabels (now : ℕ) : List SessionLabel :=
  .joiner (.main .decode) ::
    meetLabels .standard 0 annGuest ⟨peerId .standard (.fill 7), "ann", now⟩

/-- Ann presents her code up to five minutes after it was issued. -/
theorem run_annMeets {token : String} {now : ℕ}
    (hencode : encodeInvite .standard annInvite = .ok token) (hnow : now / 1000 ≤ 300) :
    Run (SessionStep .standard cfg checks 0)
      ⟨{ Room.hosting cfg with now := now }, Joiner.init now ⟨"", token⟩⟩ (annMeetLabels now)
      (Session.met .standard { Room.hosting cfg with now := now } 0 now ⟨"", token⟩ annGuest) := by
  have hdecode : JoinerStep .standard checks (.main .decode) (Joiner.init now ⟨"", token⟩)
      (.greeting now ⟨"", token⟩ (.connecting annInvite.normalized) .fresh) :=
    step_decode (decodeInvite_of_inWindow isOnionV3_annInvite (reads_annInvite _) hencode
      (show now / 1000 < 2 ^ 63 by omega) (Nat.zero_le _) (show now / 1000 ≤ 0 + 300 by omega))
  refine Run.cons (.joiner hdecode trivial) (run_meet rfl rfl rfl ?_ rfl rfl ?_ ?_ ?_)
  · simp [Room.ShutdownReady, Room.hosting, Room.opened, Room.init]
  · exact Finset.notMem_empty _
  · decide
  · decide

end Nullpipe

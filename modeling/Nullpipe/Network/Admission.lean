import Nullpipe.Network.Step
import Nullpipe.Session.Protocol
import Nullpipe.Joiner.Speaking
import Nullpipe.Room.Messages

/-!
# Who gets in

An invite is checked by the hub, which remembers the nonces it has seen, and used by a
joiner, which learns from one byte whether it was let in.  Over the whole network the
two sides agree: of all who hold an invite at most one gets in, and the host and the
guest know the guest under the same id and name.

`Session.Wired` is the invariant of the stream between a guest and the room: neither has
received what the other has not written, and each side is where its own invariant allows
(`Conn.Coherent`, `Joiner.Speaks`).  It asks for no undisturbed session, so it holds of every
guest in every run, whatever the others do (`wired_of_run`).  From it two ways of reading the
stream follow.

* **From the guest to the hub.**  The hub has read a front part of the script of the guest; so
  a nonce that the hub has checked is that of the invite (`Session.Wired.nonce`), and a name
  that it has read is the guest's own (`Session.Wired.known`).
* **From the hub to the guest.**  A guest that has joined has read the accept byte, so the hub
  has written it (`Session.Wired.accepted`).

`invite_admits_one` adds that nonces are single use in every reachable room
(`roomHandshakes_singleUse`); `announced_by_own_name` adds that whoever is announced on the
event stream has joined (`JoinsTold`).
-/

namespace Nullpipe

open Channel Room Framing Transition

variable {X : Crates} {cfg : HostConfig} {checks : Bool} {guests : Set ConnId} {c d : ConnId}
  {me : Guest} {s t : Session} {n : Network}

/-! ## The stream between a guest and the room -/

/-- A guest and the room: neither has received what the other has not written, and the
joiner speaks as one guest of its invite. -/
structure Session.Wired (X : Crates) (cfg : HostConfig) (c : ConnId) (s : Session) : Prop where
  reach : RoomReachable X cfg s.room
  toHub : (s.room.conns c).sock.arrived <+: s.joiner.sock.written
  toJoiner : s.joiner.sock.arrived <+: (s.room.conns c).sock.written
  speaks : ∃ me, s.joiner.Speaks X me

theorem Session.Wired.init (X : Crates) (cfg : HostConfig) (c : ConnId) (now : ℕ)
    (config : JoinConfig) : Session.Wired X cfg c ⟨Room.init now, Joiner.init now config⟩ :=
  ⟨⟨now, .refl _⟩, List.nil_prefix, List.nil_prefix, ⟨⟨"", .fill 0, .fill 0⟩, .init ..⟩⟩

/-- **Every step of a session keeps the stream.** -/
theorem SessionStep.wired {l : SessionLabel} (h : SessionStep X cfg checks c l s t)
    (hs : s.Wired X cfg c) : t.Wired X cfg c := by
  obtain ⟨me, hspeaks⟩ := hs.speaks
  have hreach := h.reachable hs.reach
  have hguest : ∀ {l : JoinerLabel} {j : Joiner}, JoinerStep X checks l s.joiner j →
      ∃ me, j.Speaks X me := by
    intro l j hj
    obtain ⟨me', hme', -⟩ := hj.speaks hspeaks
    exact ⟨me', hme'⟩
  cases h with
  | @room l _ r h hl =>
      have hsame : (r.conns c).sock.arrived = (s.room.conns c).sock.arrived := by
        refine h.arrived ?_
        rintro chunk rfl
        exact hl rfl
      exact ⟨hreach, hsame ▸ hs.toHub, hs.toJoiner.trans h.written_prefix, hs.speaks⟩
  | @joiner l _ j h hl =>
      have hsame : j.sock.arrived = s.joiner.sock.arrived := by
        refine h.arrived ?_
        rintro chunk rfl
        exact hl
      exact ⟨hreach, hs.toHub.trans h.written_prefix, hsame ▸ hs.toJoiner, hguest h⟩
  | toHub hchunk hnext h =>
      cases h with
      | arrive =>
          refine ⟨hreach, ?_, ?_, hs.speaks⟩
          · rw [conns_setConn_self, Socket.arrived_arrive]
            exact hnext
          · rw [conns_setConn_self]
            exact hs.toJoiner
  | toJoiner hchunk hnext h =>
      have hspeaks' := hguest h
      cases h with
      | net =>
          refine ⟨hreach, hs.toHub, ?_, hspeaks'⟩
          rw [Socket.arrived_arrive]
          exact hnext
  | hubEnd hdropped hall h =>
      cases h with
      | finish =>
          refine ⟨hreach, ?_, ?_, hs.speaks⟩
          · rw [conns_setConn_self, Socket.arrived_finish]
            exact hs.toHub
          · rw [conns_setConn_self]
            exact hs.toJoiner
  | joinerEnd hdropped hall h =>
      have hspeaks' := hguest h
      cases h with
      | finish =>
          refine ⟨hreach, hs.toHub, ?_, hspeaks'⟩
          rw [Socket.arrived_finish]
          exact hs.toJoiner
  | @tick _ d => exact ⟨hreach, hs.toHub, hs.toJoiner, hguest (.tick (d := d))⟩

/-- **Every guest of a network, whatever the others do.** -/
theorem wired_of_run {now : ℕ} {configs : ConnId → JoinConfig} {ls : List NetworkLabel}
    (hrun : Run (NetworkStep X cfg checks guests) (.init now configs) ls n) (hc : c ∈ guests) :
    (n.session c).Wired X cfg c := by
  obtain ⟨ks, hsession⟩ := NetworkRun.session hrun hc
  exact hsession.invariant (I := Session.Wired X cfg c) (.init X cfg c now (configs c))
    fun hs h => h.wired hs

/-- The hub has read a front part of the script of the guest. -/
theorem Session.Wired.read_prefix (hs : s.Wired X cfg c) (hspeaks : s.joiner.Speaks X me) :
    (s.room.conns c).sock.read <+: me.script X (me.messages s.joiner.messages.received) :=
  ((List.prefix_append ..).trans hs.toHub).trans hspeaks.spoken.prefix

/-! ## One invite -/

/-- A guest that was let in presented the nonce of its invite. -/
theorem Session.Wired.nonce (hs : s.Wired X cfg c) (hspeaks : s.joiner.Speaks X me)
    (haccepted : Accepted (s.room.conns c).sock) :
    (s.room.conns c).sock.read.take 16 = me.nonce.val ∧ me.nonce ∈ s.room.used := by
  obtain ⟨nonce, hnonce, hused⟩ :=
    (roomHandshakes_singleUse X cfg).accept_used s.room c (reach_iff.mpr hs.reach) haccepted
  have hread : (s.room.conns c).sock.read.take 16 <+:
      me.script X (me.messages s.joiner.messages.received) :=
    (List.take_prefix ..).trans (hs.read_prefix hspeaks)
  obtain ⟨rest, hrest⟩ := hread
  have hsplit : nonce.val ++ rest = me.nonce.val ++ (me.discriminator.val ++
      (frameBytes X.json (.system me.name) ++
        (me.messages s.joiner.messages.received).flatMap (frameBytes X.json))) := by
    have hscript : (s.room.conns c).sock.read.take 16 = nonce.val := hnonce
    rw [← hscript, hrest, Guest.script_split, Guest.hello]
    simp
  have hval : nonce.val = me.nonce.val :=
    (List.append_inj hsplit (nonce.property.trans me.nonce.property.symm)).1
  have hsame : nonce = me.nonce := Subtype.ext hval
  exact ⟨hval ▸ hnonce, hsame ▸ hused⟩

/-- A guest that has joined was let in. -/
theorem Session.Wired.accepted (hs : s.Wired X cfg c) (hspeaks : s.joiner.Speaks X me)
    (hjoined : s.joiner.main.Joined) : Accepted (s.room.conns c).sock := by
  have hzero : s.joiner.sock.read.head? = some 0 := hjoined.accepted hspeaks.answered
  obtain ⟨rest, hrest⟩ : ∃ rest, s.joiner.sock.read = 0 :: rest := by
    cases hread : s.joiner.sock.read with
    | nil => rw [hread] at hzero; cases hzero
    | cons byte rest =>
        rw [hread] at hzero
        exact ⟨rest, by rw [Option.some.inj hzero]⟩
  have hprefix : s.joiner.sock.read <+: (s.room.conns c).sock.written :=
    (List.prefix_append ..).trans hs.toJoiner
  obtain ⟨more, hmore⟩ := hprefix
  rw [Accepted, ← hmore, hrest]
  rfl

/-- **An invite admits one party.**  Once a guest has announced itself to its user, its
nonce is used; nobody else who presented that nonce was let in, and no other guest whose
invite has that nonce ever announces itself. -/
theorem invite_admits_one (X : Crates) (cfg : HostConfig) (checks : Bool) (guests : Set ConnId)
    (now : ℕ) (configs : ConnId → JoinConfig) (ls : List NetworkLabel) (n : Network)
    (hrun : Run (NetworkStep X cfg checks guests) (.init now configs) ls n) {c : ConnId}
    (hc : c ∈ guests) {info : PeerInfo} (hjoin : .peerJoin info ∈ (n.joiners c).events.sent) :
    ∃ payload, parseInvite X (n.joiners c).config.inviteCode = some (.ok payload) ∧
      payload.nonce ∈ n.room.used ∧
      (∀ d, Accepted (n.room.conns d).sock →
        (n.room.conns d).sock.read.take 16 = payload.nonce.val → d = c) ∧
      ∀ d ∈ guests, ∀ payload' info',
        parseInvite X (n.joiners d).config.inviteCode = some (.ok payload') →
        payload'.nonce = payload.nonce → .peerJoin info' ∈ (n.joiners d).events.sent → d = c := by
  -- a guest that has announced itself was accepted with the nonce of its code
  have hentered : ∀ {d info}, d ∈ guests → .peerJoin info ∈ (n.joiners d).events.sent →
      ∃ payload, parseInvite X (n.joiners d).config.inviteCode = some (.ok payload) ∧
        Accepted (n.room.conns d).sock ∧
        (n.room.conns d).sock.read.take 16 = payload.nonce.val ∧ payload.nonce ∈ n.room.used := by
    intro d info hd hsent
    have hwired := wired_of_run hrun hd
    obtain ⟨me, hspeaks⟩ := hwired.speaks
    obtain ⟨hjoined, -⟩ := hspeaks.told info hsent
    obtain ⟨payload, hparse, hnonce, -⟩ := hspeaks.guest hjoined
    have haccepted := hwired.accepted hspeaks hjoined
    obtain ⟨hread, hused⟩ := hwired.nonce hspeaks haccepted
    exact ⟨payload, hparse, haccepted, hnonce ▸ hread, hnonce ▸ hused⟩
  have hreach := reach_iff.mpr (wired_of_run hrun hc).reach
  obtain ⟨payload, hparse, haccepted, hread, hused⟩ := hentered hc hjoin
  -- nobody else was accepted with it, guest or not
  have hone : ∀ d, Accepted (n.room.conns d).sock →
      (n.room.conns d).sock.read.take 16 = payload.nonce.val → d = c :=
    fun d hd hsame => (roomHandshakes_singleUse X cfg).accept_unique n.room d c hreach hd haccepted
      (hsame.trans hread.symm)
  refine ⟨payload, hparse, hused, hone, fun d hd payload' info' hparse' hsame hjoin' => ?_⟩
  obtain ⟨other, hother, haccepted', hread', -⟩ := hentered hd hjoin'
  rw [hparse'] at hother
  cases hother
  exact hone d haccepted' (hread'.trans (congrArg Subtype.val hsame))

/-! ### Ann alone with her host -/

/-- The host opens the room and invites ann, who presents her code at once. -/
theorem run_annSession {token : String} (hencode : encodeInvite .standard annInvite = .ok token) :
    Run (SessionStep .standard ⟨"host", 300⟩ true 0)
      ⟨Room.init 0, Joiner.init 0 ⟨"", token⟩⟩ (hostingLabels.map (Label.lift 0) ++ annMeetLabels 0)
      (Session.met .standard (Room.hosting ⟨"host", 300⟩) 0 0 ⟨"", token⟩ annGuest) := by
  have hopened : Run (SessionStep .standard ⟨"host", 300⟩ true 0)
      ⟨Room.init 0, Joiner.init 0 ⟨"", token⟩⟩ (hostingLabels.map (Label.lift 0))
      ⟨Room.hosting ⟨"host", 300⟩, Joiner.init 0 ⟨"", token⟩⟩ := by
    refine run_room (run_hosting hencode) ?_ List.nil_prefix
    simp [hostingLabels, openLabels, Label.Lifts, Label.AtHub]
  exact hopened.append (run_annMeets hencode (by decide))

/-- Ann presents her invite in a network of her own. -/
theorem exists_annNetwork :
    ∃ token ls n, Run (NetworkStep .standard ⟨"host", 300⟩ true {0})
        (.init 0 fun _ => ⟨"", token⟩) ls n ∧
      n.session 0 =
        Session.met .standard (Room.hosting ⟨"host", 300⟩) 0 0 ⟨"", token⟩ annGuest := by
  obtain ⟨token, hencode⟩ := exists_annToken .standard
  obtain ⟨n, hrun, hsession⟩ :=
    SessionRun.network (n := .init 0 fun _ => ⟨"", token⟩) (run_annSession hencode) rfl
  exact ⟨token, _, n, hrun, hsession⟩

theorem invite_admits_one_ann :
    ∃ token ls n info, Run (NetworkStep .standard ⟨"host", 300⟩ true {0})
        (.init 0 fun _ => ⟨"", token⟩) ls n ∧ .peerJoin info ∈ (n.joiners 0).events.sent ∧
      ∃ payload : InvitePayload, payload.nonce ∈ n.room.used ∧ ∀ d, Accepted (n.room.conns d).sock →
        (n.room.conns d).sock.read.take 16 = payload.nonce.val → d = 0 := by
  obtain ⟨token, ls, n, hrun, hsession⟩ := exists_annNetwork
  have hjoin : .peerJoin ⟨peerId .standard (.fill 7), "ann", 0⟩ ∈ (n.joiners 0).events.sent := by
    rw [← Network.joiner_session, hsession]
    exact List.mem_cons_self ..
  obtain ⟨payload, -, hused, hone, -⟩ :=
    invite_admits_one .standard ⟨"host", 300⟩ true {0} 0 _ ls n hrun rfl hjoin
  exact ⟨token, ls, n, _, hrun, hjoin, payload, hused, hone⟩

/-! ## One name -/

/-- The peer a handler has read the name of. -/
def Handler.knows : Handler → Option PeerInfo
  | .register info | .emitJoin info => some info
  | handler => handler.joined

theorem knows_of_joined {handler : Handler} {info : PeerInfo}
    (hjoined : handler.joined = some info) : handler.knows = some info := by
  cases handler with
  | register | emitJoin => cases hjoined
  | _ => exact hjoined

theorem Conn.Coherent.greets_of_knows {k : Conn} (h : k.Coherent X) {info : PeerInfo}
    (hknows : k.handler.knows = some info) : ∃ more, Greets X info k.sock.read more := by
  have hfits := h.fits
  cases hphase : k.handler with
  | register | emitJoin =>
      rw [hphase] at hknows hfits
      cases hknows
      exact ⟨[], hfits.1⟩
  | _ =>
      rw [hphase] at hknows
      refine h.greets ?_
      rw [hphase]
      exact hknows

/-- Behind the handshake a joiner writes nothing unless its name fits a frame. -/
theorem Joiner.Speaks.name_fits {j : Joiner} (h : j.Speaks X me)
    (hlen : handshakeLen < j.sock.written.length) : Encodes X.json (.system me.name) := by
  obtain ⟨hin, hout⟩ := JoinMain.Spoken.introduced h.spoken
  by_cases hjoined : j.main.Joined
  · exact (hin hjoined).1
  · have hle := (hout hjoined).length_le
    rw [← Guest.script_nil, Guest.script, List.flatMap_nil, List.append_nil, List.length_append,
      Guest.length_hello] at hle
    by_contra hfits
    rw [frameBytes, encodeMessage_of_not_encodes hfits, List.length_nil] at hle
    omega

/-- **The hub knows a guest by its own name**, and by the id of its discriminator. -/
theorem Session.Wired.known (hs : s.Wired X cfg c) (hspeaks : s.joiner.Speaks X me)
    {info : PeerInfo} (hknows : (s.room.conns c).handler.knows = some info) :
    Encodes X.json (.system me.name) ∧ info.id = peerId X me.discriminator ∧
      info.name = me.name := by
  obtain ⟨more, hgreets⟩ := (hs.reach.coherent c).greets_of_knows hknows
  have hname : Encodes X.json (.system me.name) := by
    refine hspeaks.name_fits ?_
    have hle := ((List.prefix_append ..).trans hs.toHub).length_le
    obtain ⟨nonce, discriminator, frame, -, -, -, hframe, -, hread⟩ := hgreets
    have hpos := (Format.progress_frame_prefix hframe).1
    rw [hread, List.length_append, List.length_append, List.length_append, nonce.property,
      discriminator.property] at hle
    have hshake : handshakeLen = 32 := rfl
    omega
  obtain ⟨hid, hinfo, -⟩ := hgreets.of_script hname (hs.read_prefix hspeaks)
  exact ⟨hname, hid, hinfo⟩

/-- A guest that has told the hub its name was invited. -/
theorem Session.Wired.invited (hs : s.Wired X cfg c) (hspeaks : s.joiner.Speaks X me)
    {info : PeerInfo} (hknows : (s.room.conns c).handler.knows = some info) :
    me.Invited X s.joiner.config := by
  refine hspeaks.invited.resolve_right fun hout => ?_
  obtain ⟨more, nonce, discriminator, frame, msg, -, -, -, -, hread⟩ :=
    (hs.reach.coherent c).greets_of_knows hknows
  have harrived := hs.toHub
  rw [hout.2, List.prefix_nil, Socket.arrived, List.append_eq_nil_iff] at harrived
  have hlen := congrArg List.length (hread.symm.trans harrived.1)
  simp [nonce.property] at hlen

/-- Whoever was announced has joined. -/
def JoinsTold (s : Room) : Prop :=
  ∀ info, .peerJoin info ∈ s.events.sent → ∃ c, (s.conns c).handler.joined = some info

theorem Step.joinsTold {l : Label} {r r' : Room} (h : Step X cfg l r r') (hs : JoinsTold r) :
    JoinsTold r' := by
  intro info hmem
  rcases h.events with hsame | ⟨ev, hemit, -, hsent⟩
  · rw [hsame] at hmem
    obtain ⟨c, hjoined⟩ := hs info hmem
    exact ⟨c, h.joined_mono hjoined⟩
  · rw [hsent] at hmem
    rcases List.mem_append.mp hmem with hold | hnew
    · obtain ⟨c, hjoined⟩ := hs info hold
      exact ⟨c, h.joined_mono hjoined⟩
    · rw [← List.mem_singleton.mp hnew] at hemit
      cases hemit with
      | @join c _ hphase =>
          rcases h.joined c with ⟨-, info', hphase', hjoined⟩ | ⟨hne, -⟩
          · rw [hphase] at hphase'
            cases hphase'
            exact ⟨c, hjoined⟩
          · exact absurd rfl hne

theorem RoomReachable.joinsTold {r : Room} (hr : RoomReachable X cfg r) : JoinsTold r := by
  obtain ⟨now, hreach⟩ := hr
  exact hreach.invariant (I := JoinsTold) nofun fun hs h => h.joinsTold hs

/-- **Host and guest know the guest under one name.**  Every peer whose arrival the host is
shown has a connection; if that is the stream of a guest, the host is shown the name and
the id under which the guest announces itself to its own user: those of its invite. -/
theorem announced_by_own_name (X : Crates) (cfg : HostConfig) (checks : Bool)
    (guests : Set ConnId) (now : ℕ) (configs : ConnId → JoinConfig) (ls : List NetworkLabel)
    (n : Network) (hrun : Run (NetworkStep X cfg checks guests) (.init now configs) ls n)
    {info : PeerInfo} (hjoin : .peerJoin info ∈ n.room.events.sent) :
    ∃ c, (n.room.conns c).handler.joined = some info ∧ (c ∈ guests →
      ∃ me : Guest, me.Invited X (n.joiners c).config ∧ info.id = peerId X me.discriminator ∧
        info.name = me.name ∧ ∀ mine, .peerJoin mine ∈ (n.joiners c).events.sent →
          mine.id = info.id ∧ mine.name = info.name) := by
  have hreach : RoomReachable X cfg n.room := by
    obtain ⟨ks, hroom⟩ := NetworkRun.room hrun
    exact ⟨now, ks, hroom⟩
  obtain ⟨c, hjoined⟩ := hreach.joinsTold info hjoin
  refine ⟨c, hjoined, fun hc => ?_⟩
  have hwired := wired_of_run hrun hc
  obtain ⟨me, hspeaks⟩ := hwired.speaks
  have hknows := knows_of_joined hjoined
  obtain ⟨hname, hid, hinfo⟩ := hwired.known hspeaks hknows
  refine ⟨me, hwired.invited hspeaks hknows, hid, hinfo, fun mine hmine => ?_⟩
  obtain ⟨-, hid', hname'⟩ := hspeaks.told mine hmine
  exact ⟨hid'.trans hid.symm, hname'.trans hinfo.symm⟩

theorem announced_by_own_name_ann :
    ∃ (n : Network) (info : PeerInfo), .peerJoin info ∈ n.room.events.sent ∧
      ∃ c, (n.room.conns c).handler.joined = some info := by
  obtain ⟨token, ls, n, hrun, hsession⟩ := exists_annNetwork
  have hjoin : .peerJoin ⟨peerId .standard (.fill 7), "ann", 0⟩ ∈ n.room.events.sent := by
    have hshown : .peerJoin ⟨peerId .standard (.fill 7), "ann", 0⟩ ∈
        ((Room.hosting ⟨"host", 300⟩).welcomed .standard 0 annGuest).events.sent := by decide
    rw [← Network.room_session n 0, hsession]
    exact hshown
  obtain ⟨c, hjoined, -⟩ :=
    announced_by_own_name .standard ⟨"host", 300⟩ true {0} 0 _ ls n hrun hjoin
  exact ⟨n, _, hjoin, c, hjoined⟩

end Nullpipe

import Nullpipe.Session.Rest

/-!
# When an invite expires

The host's time to live reaches the room's `InviteInfo`, and nothing reads it there: the
joiner decodes every code with a constant of its own, and the hub does not look at the
time.  `Session.Presents.admits_iff` says when a joiner that presents the code of an invite is
let in, and it does not mention the host's setting.

The session starts in front of `Joiner::connect`; the clock stands still until the code
is decoded, so the time of the start is the time at which the code is presented.

To be let in is a statement about all runs (`Session.Admits`): in every run it still can
happen, and it has happened where nothing can go on.  The two directions are of different
kinds.

* **A code in its five minutes admits**, if it can be read and the name fits a frame
  (`Session.Presents.admits`).  In front of the session there is a short stretch in which the
  joiner decodes and waits for its stream (`GuestWaits`, `Arriving`); it cannot get lost there
  (`Arriving.enters`).  Behind it begins a session of `Protocol.lean`, which comes to rest and
  is complete then.
* **No other code does** (`Session.Presents.of_admitted`).  A code that does not decode leaves
  the joiner where it is (`Refused`).  What decodes is the invite (`decodeInvite_payload`), so
  the joiner keeps to the script of its guest (`Heads`), and nobody gets past the introduction
  there whose name does not fit a frame.

`expiry_follows_host_iff` compares this rule with the host's.  The decoder of `base58` reads a
bounded length, which is where the length of the suggested name comes in.
-/

namespace Nullpipe

open Channel Room Framing Transition

variable {X : Crates} {cfg : HostConfig} {checks : Bool} {c : ConnId} {me : Guest} {r : Room}
  {j j' : Joiner} {s t : Session} {before : Room} {payload : InvitePayload}
  {config : JoinConfig} {now : ℕ}

/-! ## Invites -/

/-- The invite is in force, by the time to live of the host; zero means no expiry. -/
def HostConfig.Allows (cfg : HostConfig) (payload : InvitePayload) (now : ℕ) : Prop :=
  cfg.inviteTtlSecs = 0 ∨ now / 1000 ≤ payload.timestamp.toNat + cfg.inviteTtlSecs.toNat

/-- No invite was issued later than now. -/
theorem RoomReachable.issued_le (hs : RoomReachable X cfg r) :
    ∀ payload ∈ r.issued, payload.timestamp.toNat ≤ r.now / 1000 := by
  obtain ⟨start, hreach⟩ := hs
  refine hreach.invariant (I := fun r => ∀ payload ∈ r.issued,
    payload.timestamp.toNat ≤ r.now / 1000) nofun fun {l r r'} hs h => ?_
  have hclock : r.now ≤ r'.now := by
    by_cases htick : ∃ d, l = .tick d
    · obtain ⟨d, rfl⟩ := htick
      cases h with
      | tick => exact Nat.le_add_right ..
    · push Not at htick
      exact Nat.le_of_eq (h.now htick).symm
  intro payload hmem
  by_cases hinvite : ∃ nonce suggestedName, l = .user (.invite nonce suggestedName)
  · obtain ⟨nonce, suggestedName, rfl⟩ := hinvite
    cases h with
    | user h =>
        cases h with
        | invite =>
            rcases List.mem_append.mp hmem with hold | hnew
            · exact hs payload hold
            · rw [List.mem_singleton.mp hnew]
              show (UInt64.ofNat (r.now / 1000)).toNat ≤ r.now / 1000
              rw [UInt64.toNat_ofNat']
              exact Nat.mod_le _ _
  · push Not at hinvite
    rw [h.issued hinvite] at hmem
    exact (hs payload hmem).trans (Nat.div_le_div_right hclock)

/-! ## Presenting a code -/

/-- A joiner in front of `Joiner::connect` with the code of an invite that the room has
issued and nobody has used, and a clock that agrees with the room's.  `me` is what the
joiner will introduce itself as. -/
structure Session.Presents (X : Crates) (cfg : HostConfig) (c : ConnId) (payload : InvitePayload)
    (me : Guest) (s : Session) : Prop where
  reach : RoomReachable X cfg s.room
  service : s.room.InService
  lock : s.room.nonceLock = none
  conn : s.room.conns c = Conn.fresh
  issued : payload ∈ s.room.issued
  unused : payload.nonce ∉ s.room.used
  onion : IsOnionV3 payload.onionAddress
  code : encodeInvite X payload = .ok s.joiner.config.inviteCode
  start : s.joiner = Joiner.init s.room.now s.joiner.config
  clock : s.room.now / 1000 < 2 ^ 63
  name : me.name = chosenName s.joiner.config.name payload.suggestedName
  nonce : me.nonce = payload.nonce

/-- The code is decoded at once, the connector returns the stream, and the joiner draws
the discriminator of `me`. -/
def Presenting (me : Guest) (s : Session) : SessionLabel → Prop
  | .tick _ => s.joiner.main ≠ .connect
  | .joiner (.main (.connected d)) => d = me.discriminator
  | .joiner (.main (.connectFailed _)) => False
  | _ => True

/-- The steps of such a joiner and its hub. -/
abbrev PresentStep (X : Crates) (cfg : HostConfig) (checks : Bool) (c : ConnId) (me : Guest) :
    SessionLabel → Session → Session → Prop :=
  Guarded (QuietStep X cfg checks c me) (Presenting me)

/-- The joiner is in, on both sides. -/
structure Session.Admitted (X : Crates) (c : ConnId) (me : Guest) (s : Session) : Prop where
  joined : s.joiner.main.Joined
  serves : ∃ info, (s.room.conns c).handler = .serve info ∧ info.id = peerId X me.discriminator ∧
    info.name = me.name ∧ s.room.peers info.id = some info

/-- The joiner is let in: in every run it still can be, and where no task can go on and
no byte can move, it has been. -/
def Session.Admits (X : Crates) (cfg : HostConfig) (checks : Bool) (c : ConnId) (me : Guest)
    (s : Session) : Prop :=
  ∀ ls t, Run (PresentStep X cfg checks c me) s ls t →
    (∃ ms u, Run (PresentStep X cfg checks c me) t ms u ∧ u.Admitted X c me) ∧
      (Terminal (fun l s t => PresentStep X cfg checks c me l s t ∧ l.Works) t →
        t.Admitted X c me)

/-! ## A code in its five minutes -/

/-- A joiner that has not written anything: it is about to decode the code, or it waits
for its stream. -/
structure GuestWaits (X : Crates) (me : Guest) (payload : InvitePayload) (config : JoinConfig)
    (now : ℕ) (j : Joiner) : Prop where
  config : j.config = config
  stays : j.Stays
  reader : j.reader = .unspawned
  unread : j.sock.read = []
  unwritten : j.sock.written = []
  arrived : j.sock.arrived <+: me.greeting X
  untaken : j.messages.received = []
  texts : ∀ text ∈ j.messages.sent, Encodes X.json (.chat me.name text)
  place : j.main = .connect ∧ j.now = now ∨ j.main = .connecting payload.normalized

theorem GuestWaits.spoken (hs : GuestWaits X me payload config now j) : j.Spoken X me := by
  rcases hs.place with ⟨hmain, -⟩ | hmain <;>
  · rw [Joiner.Spoken, hmain]
    exact ⟨hs.untaken, hs.unwritten⟩

theorem GuestWaits.not_dropped (hs : GuestWaits X me payload config now j) :
    ¬ j.main.Dropped := by
  rcases hs.place with ⟨hmain, -⟩ | hmain <;>
  · rw [hmain]
    exact id

/-- **The joiner waits until it has its stream**, and then it starts on the
handshake. -/
theorem JoinMainStep.waits {l : JoinMainLabel} (h : JoinMainStep X checks l j j')
    (hconnected : ∀ d, l = .connected d → d = me.discriminator)
    (hfails : ∀ e, l ≠ .connectFailed e)
    (hname : me.name = effectiveName config payload.normalized) (hnonce : me.nonce = payload.nonce)
    (hcode : j.now = now → decodeInvite X checks config.inviteCode (some joinTtl) j.timestamp =
      some (.ok payload.normalized))
    (hs : GuestWaits X me payload config now j) :
    GuestWaits X me payload config now j' ∨ GuestSide X me j' := by
  have hplace := hs.place
  cases h with
  | decode hphase =>
      left
      rcases hplace with ⟨-, hnow⟩ | hmain
      · refine { hs with stays := { hs.stays with runs := ?_ }, place := .inr ?_ } <;>
          rw [hs.config, hcode hnow]
        · exact id
        · rfl
      · rw [hmain] at hphase
        cases hphase
  | @connected _ payload' d hphase =>
      right
      rcases hplace with ⟨hmain, -⟩ | hmain
      · rw [hmain] at hphase
        cases hphase
      · rw [hmain] at hphase
        cases hphase
        -- the guest that the code makes of its configuration is `me`
        let who : Guest := ⟨effectiveName j.config payload.normalized, payload.normalized.nonce, d⟩
        have hwho : who = me := by
          obtain ⟨name, nonce, discriminator⟩ := me
          show Guest.mk _ _ _ = _
          rw [hs.config, hconnected d rfl, ← hname]
          exact congrArg (Guest.mk name · discriminator) hnonce.symm
        have hstarts : JoinMain.writing who .hello who.hello (j.now + Nullpipe.writeTimeout) =
            .writing me .hello me.hello (j.now + Nullpipe.writeTimeout) := by
          rw [hwho]
        exact .hello hstarts { hs.stays with runs := id } hs.reader hs.unread hs.unwritten
          hs.arrived hs.untaken hs.texts
  | connectFailed => exact absurd rfl (hfails _)
  | _ hphase =>
      rcases hplace with ⟨hmain, -⟩ | hmain <;>
      · rw [hmain] at hphase
        cases hphase

/-- The hub and a joiner that waits. -/
structure Arriving (X : Crates) (cfg : HostConfig) (c : ConnId) (me : Guest)
    (payload : InvitePayload) (config : JoinConfig) (now : ℕ) (before : Room) (s : Session) : Prop
    extends Linked X cfg c me before s where
  guest : GuestWaits X me payload config now s.joiner

/-- What is known of the joiner and its code: the name and the nonce are those of `me`,
and the code is good at the time at which it is decoded. -/
structure Welcome (X : Crates) (checks : Bool) (me : Guest) (payload : InvitePayload)
    (config : JoinConfig) (now : ℕ) : Prop where
  fits : Encodes X.json (.system me.name)
  name : me.name = effectiveName config payload.normalized
  nonce : me.nonce = payload.nonce
  decodes : ∀ j : Joiner, j.now = now → decodeInvite X checks config.inviteCode (some joinTtl)
    j.timestamp = some (.ok payload.normalized)

section

variable (hwelcome : Welcome X checks me payload config now)
include hwelcome

/-- **A joiner that presents a good code** arrives at its session. -/
theorem SessionStep.arriving {l : SessionLabel} (h : SessionStep X cfg checks c l s t)
    (hl : l.Quiet X c me) (hguard : Presenting me s l)
    (hs : Arriving X cfg c me payload config now before s) :
    Arriving X cfg c me payload config now before t ∨ InSession X cfg c me before t := by
  have hguest := hs.guest
  have hlinked := h.linked hl hwelcome.fits hguest.spoken hguest.texts hguest.not_dropped
    hs.toLinked
  -- until it has its stream only the main task of the joiner moves
  cases h with
  | room | toHub | hubEnd => exact .inl ⟨hlinked, hguest⟩
  | joiner h hjoiner =>
      cases h with
      | main h =>
          refine (h.waits ?_ ?_ hwelcome.name hwelcome.nonce (hwelcome.decodes _) hguest).imp
            (fun hwaits => ⟨hlinked, hwaits⟩) (fun hside => ⟨hlinked, hside⟩)
          · rintro d rfl
            exact hguard
          · rintro e rfl
            exact hguard
      | reader h => exact absurd hguest.reader h.spawned
      | user h =>
          refine .inl ⟨hlinked, ?_⟩
          cases h with
          | @send _ text =>
              refine { hguest with stays := { hguest.stays with }, texts := fun more hmem => ?_ }
              rw [Mpsc.sent_push] at hmem
              rcases List.mem_append.mp hmem with hold | hnew
              · exact hguest.texts more hold
              · rw [List.mem_singleton.mp hnew]
                exact hl
          | takeEvent => exact { hguest with stays := { hguest.stays with } }
          | quit | dropSend | closeEvents => cases hl
      | net | finish | tick => cases hjoiner
  | toJoiner hchunk hnext h =>
      refine .inl ⟨hlinked, ?_⟩
      cases h with
      | net =>
          refine { hguest with stays := { hguest.stays with }, arrived := ?_ }
          rw [Socket.arrived_arrive]
          exact hnext.trans hs.hub.written_prefix
  | joinerEnd hgone => exact absurd hgone hs.hub.not_dropped
  | tick =>
      refine .inl ⟨hlinked, { hguest with stays := { hguest.stays with }, place := ?_ }⟩
      exact .inr (hguest.place.resolve_left fun hplace => hguard hplace.1)

/-- A joiner that waits has a next step. -/
theorem Arriving.next (hs : Arriving X cfg c me payload config now before s) :
    ∃ l t, PresentStep X cfg checks c me l s t ∧ l.Works ∧ t.joiner.main ≠ .connect ∧
      (s.joiner.main ≠ .connect → ∀ p, t.joiner.main ≠ .connecting p) := by
  have hguest := hs.guest
  rcases hguest.place with ⟨hmain, hnow⟩ | hmain
  · have hdecode : JoinMainStep X checks .decode s.joiner _ := .decode hmain
    refine ⟨_, _, ⟨⟨.joiner (.main hdecode) trivial, id, nofun⟩, trivial⟩, trivial, ?_,
      fun hne => absurd hmain hne⟩
    rw [hguest.config, hwelcome.decodes _ hnow]
    exact nofun
  · have hconnected : JoinMainStep X checks (.connected me.discriminator) s.joiner _ :=
      .connected hmain
    exact ⟨_, _, ⟨⟨.joiner (.main hconnected) trivial, id, nofun⟩, rfl⟩, trivial, nofun,
      fun _ _ => nofun⟩

/-- It gets to its session. -/
theorem Arriving.enters (hs : Arriving X cfg c me payload config now before s) :
    ∃ ms u, Run (PresentStep X cfg checks c me) s ms u ∧ InSession X cfg c me before u := by
  -- at most two steps: the decoding and the connection
  have hconnecting {s : Session} (hs : Arriving X cfg c me payload config now before s)
      (hmain : s.joiner.main ≠ .connect) :
      ∃ ms u, Run (PresentStep X cfg checks c me) s ms u ∧ InSession X cfg c me before u := by
    obtain ⟨l, t, hstep, -, hfirst, hnext⟩ := hs.next hwelcome
    refine ⟨[l], t, .single hstep, ?_⟩
    refine (hstep.1.1.arriving hwelcome hstep.1.2 hstep.2 hs).resolve_left fun hwaits => ?_
    rcases hwaits.guest.place with ⟨hplace, -⟩ | hplace
    · exact hfirst hplace
    · exact hnext hmain _ hplace
  obtain ⟨l, t, hstep, -, hfirst, -⟩ := hs.next hwelcome
  rcases hstep.1.1.arriving hwelcome hstep.1.2 hstep.2 hs with hwaits | hsession
  · obtain ⟨ms, u, hrun, hsession⟩ := hconnecting hwaits hfirst
    exact ⟨l :: ms, u, Run.cons hstep hrun, hsession⟩
  · exact ⟨[l], t, .single hstep, hsession⟩

end

/-- In a session nothing is left to present. -/
theorem InSession.presenting {l : SessionLabel} (hs : InSession X cfg c me before s)
    (h : SessionStep X cfg checks c l s t) : Presenting me s l := by
  have hcourse := hs.guest.course
  cases h with
  | room | toHub | toJoiner | hubEnd | joinerEnd => trivial
  | tick =>
      intro hmain
      rw [hmain] at hcourse
      cases hcourse
  | joiner h =>
      cases h with
      | main h =>
          cases h with
          | connected hphase | connectFailed hphase =>
              rw [hphase] at hcourse
              cases hcourse
          | _ => trivial
      | reader | user | net | finish | tick => trivial

theorem Session.Complete.admitted (h : s.Complete X c me before) : s.Admitted X c me where
  joined := by
    rw [h.writes.1]
    trivial
  serves := h.serves

/-- A session leads to the admission of its joiner. -/
theorem InSession.admitted (checks : Bool) (hfits : Encodes X.json (.system me.name))
    (hs : InSession X cfg c me before s) :
    ∃ ms u, Run (PresentStep X cfg checks c me) s ms u ∧ u.Admitted X c me := by
  obtain ⟨ms, u, hrun, hrest⟩ := hs.comes_to_rest checks hfits
  have hall : InSession X cfg c me before u ∧ Run (PresentStep X cfg checks c me) s ms u := by
    clear hrest
    induction hrun with
    | nil => exact ⟨hs, .nil⟩
    | snoc _ hstep ih =>
        obtain ⟨hstep, hquiet, -⟩ := hstep
        exact ⟨hstep.inSession hquiet hfits ih.1,
          ih.2.snoc ⟨⟨hstep, hquiet⟩, ih.1.presenting hstep⟩⟩
  exact ⟨ms, u, hall.2, (hrest.complete hfits hall.1).admitted⟩

/-- **A code in its five minutes admits**, if it can be read and the name fits a frame. -/
theorem Session.Presents.admits (h : s.Presents X cfg c payload me)
    (hreads : X.base58.Reads (utf8Bytes (joinFields X payload)))
    (hfits : Encodes X.json (.system me.name))
    (hwindow : s.room.now / 1000 ≤ payload.timestamp.toNat + 300) :
    s.Admits X cfg checks c me := by
  have hissued := h.reach.issued_le payload h.issued
  have hclock := h.clock
  have hwelcome : Welcome X checks me payload s.joiner.config s.room.now := by
    refine ⟨hfits, ?_, h.nonce, fun j hnow => ?_⟩
    · rw [effectiveName_normalized]
      exact h.name
    · exact decodeInvite_of_inWindow h.onion hreads h.code (by omega) (by omega) (by omega)
  have hstart : Arriving X cfg c me payload s.joiner.config s.room.now s.room s := by
    have hnew : me.nonce ∉ s.room.used := h.nonce ▸ h.unused
    refine ⟨⟨.start h.reach h.service h.lock hnew h.conn _, ?_, ?_, fun _ _ => rfl⟩, ?_⟩
    · rw [h.conn]
      exact List.nil_prefix
    · rw [h.start]
      exact List.nil_prefix
    · rw [h.start]
      exact ⟨rfl, .init .., rfl, rfl, rfl, List.nil_prefix, rfl, nofun, .inl ⟨rfl, rfl⟩⟩
  intro ls t hrun
  -- along the run the guest is still arriving, or its session has begun
  have ht : Arriving X cfg c me payload s.joiner.config s.room.now s.room t ∨
      InSession X cfg c me s.room t := by
    refine hrun.invariant (I := fun t =>
      Arriving X cfg c me payload s.joiner.config s.room.now s.room t ∨
        InSession X cfg c me s.room t) (.inl hstart) fun hs hstep => ?_
    obtain ⟨⟨hstep, hquiet⟩, hguard⟩ := hstep
    rcases hs with hwaits | hsession
    · exact hstep.arriving hwelcome hquiet hguard hwaits
    · exact .inr (hstep.inSession hquiet hfits hsession)
  rcases ht with hwaits | hsession
  · constructor
    · obtain ⟨ms, u, hfirst, hsession⟩ := hwaits.enters hwelcome
      obtain ⟨ms', u', hrest, hadmitted⟩ := hsession.admitted checks hfits
      exact ⟨ms ++ ms', u', hfirst.append hrest, hadmitted⟩
    -- an arriving guest can always go on
    · intro hterminal
      obtain ⟨l, u, hstep, hworks, -⟩ := hwaits.next hwelcome
      exact absurd ⟨hstep, hworks⟩ (hterminal l u)
  · refine ⟨hsession.admitted checks hfits, fun hterminal => ?_⟩
    have hrest : t.AtRest X cfg checks c me := by
      rintro l u ⟨hstep, hquiet, hworks⟩
      exact hterminal l u ⟨⟨⟨hstep, hquiet⟩, hsession.presenting hstep⟩, hworks⟩
    exact (hrest.complete hfits hsession).admitted

/-! ## A code that does not lead in -/

/-- The joiner of a session takes the steps of a joiner. -/
theorem SessionStep.joiner_step {l : SessionLabel} (h : SessionStep X cfg checks c l s t) :
    t.joiner = s.joiner ∨ ∃ l', JoinerStep X checks l' s.joiner t.joiner ∧
      (∀ d, l' = .tick d → l = .tick d) ∧ (∀ m, l' = .main m → l = .joiner (.main m)) := by
  cases h with
  | room | toHub | hubEnd => exact .inl rfl
  | joiner h hjoiner =>
      refine .inr ⟨_, h, ?_, fun _ => congrArg _⟩
      rintro d rfl
      cases hjoiner
  | toJoiner _ _ h => exact .inr ⟨_, h, nofun, nofun⟩
  | joinerEnd _ _ h => exact .inr ⟨_, h, nofun, nofun⟩
  | tick => exact .inr ⟨_, .tick, fun d heq => by cases heq; rfl, nofun⟩

/-- What decodes is the invite. -/
theorem decodeInvite_payload {token : String} {ttl : Option UInt64} {stamp : UInt64}
    {payload' : InvitePayload} (hvalid : IsOnionV3 payload.onionAddress)
    (hreads : X.base58.Reads (utf8Bytes (joinFields X payload)))
    (hencode : encodeInvite X payload = .ok token)
    (hdecode : decodeInvite X checks token ttl stamp = some (.ok payload')) :
    payload' = payload.normalized := by
  rw [decodeInvite, parseInvite_encodeInvite hvalid.colon_notMem hreads hencode] at hdecode
  dsimp only at hdecode
  split at hdecode
  · cases hdecode
  · cases hdecode
  · exact (Except.ok.inj (Option.some.inj hdecode)).symm

/-- A joiner that presents the code of `payload` and goes by the name and the nonce of
`me`. -/
structure Heads (X : Crates) (me : Guest) (payload : InvitePayload) (config : JoinConfig)
    (j : Joiner) : Prop where
  config : j.config = config
  target : ∀ payload', j.main = .connecting payload' → payload' = payload.normalized
  spoken : j.Spoken X me

theorem JoinerStep.heads {l : JoinerLabel} (h : JoinerStep X checks l j j')
    (hconnected : ∀ d, l = .main (.connected d) → d = me.discriminator)
    (hvalid : IsOnionV3 payload.onionAddress)
    (hreads : X.base58.Reads (utf8Bytes (joinFields X payload)))
    (hencode : encodeInvite X payload = .ok config.inviteCode)
    (hname : me.name = effectiveName config payload.normalized) (hnonce : me.nonce = payload.nonce)
    (hs : Heads X me payload config j) : Heads X me payload config j' := by
  have hconfig := h.config.trans hs.config
  refine ⟨hconfig, fun payload' hmain => ?_, ?_⟩
  · by_cases hdecode : l = .main .decode
    · subst hdecode
      cases h with
      | main h =>
          cases h with
          | decode =>
              rw [hs.config] at hmain
              -- only a code that is read leads on to the connection
              rcases hresult : decodeInvite X checks config.inviteCode (some joinTtl)
                j.timestamp with _ | _ | payload''
              · rw [hresult] at hmain
                cases hmain
              · rw [hresult] at hmain
                cases hmain
              · rw [hresult] at hmain
                cases hmain
                exact decodeInvite_payload hvalid hreads hencode hresult
    · by_cases hmainStep : ∃ l', l = .main l'
      · obtain ⟨l', rfl⟩ := hmainStep
        cases h with
        | main h =>
            have hafter := (h.not_dialing fun heq => hdecode (heq ▸ rfl)).2
            rw [hmain] at hafter
            exact absurd trivial hafter
      · push Not at hmainStep
        rw [(h.main_frame hmainStep).1] at hmain
        exact hs.target payload' hmain
  · by_cases hdraw : ∃ d, l = .main (.connected d)
    · obtain ⟨d, rfl⟩ := hdraw
      cases h with
      | main h =>
          -- here the guest gets its discriminator
          obtain ⟨payload', hphase, hspoken⟩ := h.spoken_connected hs.spoken
          rw [hs.target payload' hphase, hs.config, ← hname, hconnected d rfl] at hspoken
          rw [show payload.normalized.nonce = me.nonce from hnonce.symm] at hspoken
          exact hspoken
    · push Not at hdraw
      exact h.spoken hdraw hs.spoken

/-- A joiner whose code does not decode: it is about to find out, or it has. -/
def Refused (config : JoinConfig) (now : ℕ) (j : Joiner) : Prop :=
  j.main = .connect ∧ j.now = now ∧ j.config = config ∨ j.main = .panicked ∨
    (∃ e, j.main = .sendError e) ∨ ∃ e, j.main = .failed e

theorem JoinerStep.refused {l : JoinerLabel} (h : JoinerStep X checks l j j')
    (htick : ∀ d, l = .tick d → j.main ≠ .connect)
    (hcode : ∀ j : Joiner, j.now = now → ∀ payload,
      decodeInvite X checks config.inviteCode (some joinTtl) j.timestamp ≠ some (.ok payload))
    (hs : Refused config now j) : Refused config now j' := by
  by_cases hmain : ∃ l', l = .main l'
  · obtain ⟨l', rfl⟩ := hmain
    cases h with
    | main h =>
        cases h with
        | decode hphase =>
            -- the code is looked at while the clock still says `now`
            rcases hs with ⟨-, hnow, hconfig⟩ | hplace | ⟨e, hplace⟩ | ⟨e, hplace⟩
            · right
              rw [hconfig]
              rcases hresult : decodeInvite X checks config.inviteCode (some joinTtl)
                j.timestamp with _ | e | payload
              · exact .inl rfl
              · exact .inr (.inl ⟨e, rfl⟩)
              · exact absurd hresult (hcode _ hnow payload)
            all_goals
              rw [hphase] at hplace
              cases hplace
        | sendError | sendErrorClosed => exact .inr (.inr (.inr ⟨_, rfl⟩))
        | _ hphase =>
            rcases hs with ⟨hplace, -⟩ | hplace | ⟨e, hplace⟩ | ⟨e, hplace⟩ <;>
            · rw [hphase] at hplace
              cases hplace
  · push Not at hmain
    rw [Refused, (h.main_frame hmain).1, h.config]
    refine hs.imp_left fun hplace => ⟨hplace.1, ?_, hplace.2.2⟩
    cases h with
    | main => exact absurd rfl (hmain _)
    | reader h => cases h <;> exact hplace.2.1
    | user h => cases h <;> exact hplace.2.1
    | net | finish => exact hplace.2.1
    | tick => exact absurd hplace.1 (htick _ rfl)

theorem Refused.not_joined (h : Refused config now j) : ¬ j.main.Joined := by
  rcases h with ⟨hplace, -⟩ | hplace | ⟨e, hplace⟩ | ⟨e, hplace⟩ <;>
  · rw [hplace]
    exact id

/-- A joiner whose code does not decode is never let in. -/
theorem Session.Presents.not_joined {ls : List SessionLabel} (h : s.Presents X cfg c payload me)
    (hcode : ∀ j : Joiner, j.now = s.room.now → ∀ payload,
      decodeInvite X checks s.joiner.config.inviteCode (some joinTtl) j.timestamp ≠
        some (.ok payload))
    (hrun : Run (PresentStep X cfg checks c me) s ls t) : ¬ t.joiner.main.Joined := by
  have hrefused : Refused s.joiner.config s.room.now t.joiner := by
    refine hrun.invariant (I := fun t => Refused s.joiner.config s.room.now t.joiner) ?_
      fun {l u v} hs hstep => ?_
    · rw [h.start]
      exact .inl ⟨rfl, rfl, rfl⟩
    · obtain ⟨⟨hstep, -⟩, hguard⟩ := hstep
      rcases hstep.joiner_step with hsame | ⟨l', hstep', htick, -⟩
      · rwa [hsame]
      · refine hstep'.refused (fun d heq => ?_) hcode hs
        rw [htick d heq] at hguard
        exact hguard
  exact hrefused.not_joined

/-- **Only a code that can be read admits**, in its five minutes, and only a name that fits
a frame. -/
theorem Session.Presents.of_admitted {ls : List SessionLabel} (h : s.Presents X cfg c payload me)
    (hbase : X.base58.Buffered) (hrun : Run (PresentStep X cfg checks c me) s ls t)
    (hjoined : t.joiner.main.Joined) :
    s.room.now / 1000 ≤ payload.timestamp.toNat + 300 ∧ Encodes X.json (.system me.name) ∧
      (utf8Bytes (joinFields X payload)).length ≤ base58Buffer := by
  have hclock := h.clock
  have hlen : (utf8Bytes (joinFields X payload)).length ≤ base58Buffer := by
    by_contra hlong
    refine h.not_joined (fun j _ other hdecode => ?_) hrun hjoined
    exact parseInvite_of_oversized hbase h.code (Nat.not_le.mp hlong) _
      (parseInvite_of_decodeInvite hdecode)
  have hreads : X.base58.Reads (utf8Bytes (joinFields X payload)) :=
    Base58.reads_of_length_le hlen
  refine ⟨?_, ?_, hlen⟩
  -- too late, and the code has expired
  · by_contra hlate
    refine h.not_joined (fun j hnow other hdecode => ?_) hrun hjoined
    rw [decodeInvite_of_expired h.onion hreads h.code (by omega) (by omega)] at hdecode
    cases hdecode
  · have hname : me.name = effectiveName s.joiner.config payload.normalized := by
      rw [effectiveName_normalized]
      exact h.name
    -- a joiner in the room has written its name
    have hheads : Heads X me payload s.joiner.config t.joiner := by
      refine hrun.invariant (I := fun t => Heads X me payload s.joiner.config t.joiner) ?_
        fun {l u v} hs hstep => ?_
      · rw [h.start]
        exact ⟨rfl, nofun, .init ..⟩
      · obtain ⟨⟨hstep, -⟩, hguard⟩ := hstep
        rcases hstep.joiner_step with hsame | ⟨l', hstep', -, hmain⟩
        · rwa [hsame]
        · refine hstep'.heads (fun d heq => ?_) h.onion hreads h.code hname h.nonce hs
          rw [hmain _ heq] at hguard
          exact hguard
    exact (hheads.spoken.introduced.1 hjoined).1

/-- **When a joiner is let in.**  The host's time to live plays no part in it. -/
theorem Session.Presents.admits_iff (h : s.Presents X cfg c payload me)
    (hbase : X.base58.Buffered) :
    s.Admits X cfg checks c me ↔
      s.room.now / 1000 ≤ payload.timestamp.toNat + 300 ∧ Encodes X.json (.system me.name) ∧
        (utf8Bytes (joinFields X payload)).length ≤ base58Buffer := by
  constructor
  · intro hadmits
    obtain ⟨⟨ms, u, hrun, hadmitted⟩, -⟩ := hadmits [] s .nil
    exact h.of_admitted hbase hrun hadmitted.joined
  · rintro ⟨hwindow, hfits, hlen⟩
    exact h.admits (Base58.reads_of_length_le hlen) hfits hwindow

/-- **The host's setting decides exactly where it agrees with the joiner's own rule:** five
minutes, a name that fits a frame, and an invite whose text base58 decodes. -/
theorem expiry_follows_host_iff (X : Crates) (hbase : X.base58.Buffered) (cfg : HostConfig)
    (checks : Bool) (c : ConnId) (payload : InvitePayload) (me : Guest) (s : Session)
    (h : s.Presents X cfg c payload me) :
    (s.Admits X cfg checks c me ↔ cfg.Allows payload s.room.now) ↔
      (s.room.now / 1000 ≤ payload.timestamp.toNat + 300 ∧ Encodes X.json (.system me.name) ∧
          (utf8Bytes (joinFields X payload)).length ≤ base58Buffer ↔
        cfg.Allows payload s.room.now) := by
  rw [h.admits_iff hbase]

/-! ### Ann and her host -/

/-- The room `d` milliseconds after it issued ann's invite, and ann with her code. -/
def Session.annPresents (cfg : HostConfig) (d : ℕ) (token : String) : Session :=
  ⟨{ Room.hosting cfg with now := (Room.hosting cfg).now + d },
    Joiner.init ((Room.hosting cfg).now + d) ⟨"", token⟩⟩

theorem presents_annPresents (cfg : HostConfig) (d : ℕ) {token : String}
    (hencode : encodeInvite X annInvite = .ok token) (hclock : d / 1000 < 2 ^ 63) :
    (Session.annPresents cfg d token).Presents X cfg 0 annInvite annGuest where
  reach := ⟨0, ((run_hosting hencode).snoc .tick).reachable⟩
  service := ⟨rfl, fun h => h.elim (fun hne => hne rfl) nofun, trivial, rfl, rfl⟩
  lock := rfl
  conn := rfl
  issued := List.mem_singleton_self _
  unused := Finset.notMem_empty _
  onion := isOnionV3_onionA
  code := hencode
  start := rfl
  clock := by
    show (0 + d) / 1000 < 2 ^ 63
    rwa [Nat.zero_add]
  name := by
    show "ann" = chosenName "" (some "ann")
    decide
  nonce := rfl

/-- With the default setting the host's five minutes are the joiner's. -/
theorem expiry_follows_host_default :
    ∃ token, (Session.annPresents ⟨"host", 300⟩ 100000 token).Admits .standard ⟨"host", 300⟩ true 0
        annGuest ↔
      HostConfig.Allows ⟨"host", 300⟩ annInvite 100000 := by
  obtain ⟨token, hencode⟩ := exists_annToken .standard
  have hpresents := presents_annPresents ⟨"host", 300⟩ 100000 hencode (by decide)
  have hnow : (Session.annPresents ⟨"host", 300⟩ 100000 token).room.now = 100000 := Nat.zero_add _
  have hiff := expiry_follows_host_iff .standard Crates.standard_buffered ⟨"host", 300⟩ true 0
    _ _ _ hpresents
  rw [hnow] at hiff
  refine ⟨token, hiff.mpr ⟨fun _ => .inr (by decide), fun _ => ⟨by decide, by decide, ?_⟩⟩⟩
  decide +kernel

/-- A host that gives its invites one minute admits a guest who comes after a hundred
seconds. -/
theorem short_expiry_ignored :
    ∃ token, (Session.annPresents ⟨"host", 60⟩ 100000 token).Presents .standard ⟨"host", 60⟩ 0
        annInvite annGuest ∧
      (Session.annPresents ⟨"host", 60⟩ 100000 token).Admits .standard ⟨"host", 60⟩ true 0
        annGuest ∧
      ¬ HostConfig.Allows ⟨"host", 60⟩ annInvite 100000 := by
  obtain ⟨token, hencode⟩ := exists_annToken .standard
  have hpresents := presents_annPresents ⟨"host", 60⟩ 100000 hencode (by decide)
  have hnow : (Session.annPresents ⟨"host", 60⟩ 100000 token).room.now = 100000 := Nat.zero_add _
  refine ⟨token, hpresents, hpresents.admits (reads_annInvite _) (by decide) ?_, ?_⟩
  · rw [hnow]
    decide
  · rintro (hzero | hlate)
    · cases hzero
    · revert hlate
      decide

end Nullpipe

import Nullpipe.Room.Handshake
import Nullpipe.Room.Admit
import Nullpipe.Core.Standard

/-!
# Admission to a room

The handshakes of a room are lawful in the sense of `Handshakes.Lawful`, so its
nonces are single use (`roomHandshakes_singleUse`).  Nothing else decides about
admission; in particular the invites the room has issued do not
(`admission_by_single_use`).

To instantiate the library of `Core/SingleUse.lean` a handler is read at three levels.

* `Handler.stage`: undecided, refused or granted.  `HandlerStep.stage_cases` says what a step
  does to the stage and to the used nonces, and there are two steps that decide.
* `Handler.checking`: the nonce that is about to be looked up.  By coherence a handler that is
  there has read nonce and discriminator and written nothing, and an undecided handler that
  has read 32 bytes is there (`Conn.Coherent.checking_of_full`).
* The accept byte: an accepted connection is one whose stream starts with it, and only a
  granted handler writes it (`HandlerStep.accepted`).

`checking_enabled` says that the check can be made once the lock is free.  The lock is what
makes it atomic: `contains` and `insert` stand under one guard in the source, which is why they
are one step here.
-/

namespace Nullpipe

open Channel Room Transition

variable {X : Crates} {cfg : HostConfig} {s t : Room} {c d : ConnId}

/-! ## The stages of a handshake -/

def Handler.stage : Handler → Stage
  | .idle | .spawned | .readHandshake .. | .lockNonces .. => .undecided
  | .rejectReused _ => .refused
  | .failed _ => .failed
  | _ => .granted

/-- The nonce a handler is about to look up. -/
def Handler.checking : Handler → Option Bytes16
  | .lockNonces nonce _ => some nonce
  | _ => none

theorem stage_handshakeRead (buf : List UInt8) (deadline : ℕ) :
    (handshakeRead buf deadline).stage = .undecided :=
  handshakeRead_cases (P := fun h => h.stage = .undecided) (fun _ _ => rfl) (fun _ _ => rfl) ..

theorem stage_nameRead (json : SerdeJson) (id : PeerId) (got : List UInt8) (deadline now : ℕ) :
    (nameRead json id got deadline now).stage = .granted ∨
      (nameRead json id got deadline now).stage = .failed :=
  nameRead_cases (P := fun h => h.stage = .granted ∨ h.stage = .failed) (fun _ _ _ => .inl rfl)
    (fun _ => .inr rfl) (fun _ => .inl rfl) ..

theorem stage_afterEmitJoin (json : SerdeJson) (info : PeerInfo) :
    (afterEmitJoin json info).stage = .granted :=
  afterEmitJoin_cases (P := fun h => h.stage = .granted) (fun _ => rfl) rfl json

/-- Before the decision nothing was written, and a refusal is not an acceptance. -/
theorem Conn.Coherent.not_accepted {k : Conn} (h : k.Coherent X)
    (hstage : k.handler.stage = .undecided ∨ k.handler.stage = .refused) : ¬ Accepted k.sock := by
  have hfits := h.fits
  unfold Accepted
  cases hk : k.handler with
  | idle | spawned =>
      rw [hk] at hfits
      rw [hfits.2]
      simp
  | readHandshake =>
      rw [hk] at hfits
      rw [hfits.2.2]
      simp
  | lockNonces =>
      rw [hk] at hfits
      rw [hfits.2]
      simp
  | rejectReused =>
      rw [hk] at hfits
      rcases List.append_eq_singleton_iff.mp hfits.2 with ⟨hw, -⟩ | ⟨hw, -⟩ <;> rw [hw] <;> decide
  | _ => simp [hk, Handler.stage] at hstage

/-- A rejected handshake is not accepted by the write of its reject byte. -/
theorem HandlerStep.accepted {l : HandlerLabel} (h : HandlerStep X c l s t)
    (hs : (s.conns c).Coherent X) (haccepted : Accepted (t.conns c).sock) :
    Accepted (s.conns c).sock ∨ (s.conns c).handler.stage = .granted := by
  cases h with
  | @writeReject _ chunk rest hphase =>
      have hfits := hs.fits
      rw [hphase] at hfits
      have hwritten := hfits.2
      rw [← List.append_assoc] at hwritten
      simp only [Accepted, conns_setConn_self, Socket.written_write] at haccepted
      rcases List.append_eq_singleton_iff.mp hwritten with ⟨hw, -⟩ | ⟨hw, -⟩ <;>
        rw [hw] at haccepted <;> cases haccepted
  | writeAccept hphase | writeNotice hphase => exact .inr (by rw [hphase]; rfl)
  | start | readHandshake | handshakeReadFail | handshakeReadTimeout | insertNonce | refuseNonce
  | rejectFail | acceptFail | acceptTimeout | flushAccept | flushFail | flushTimeout | readName
  | nameReadFail | nameReadTimeout | register | emitJoin | noticeFail | spawnReader | subscribe
  | readerDone | shutdown | abortWriter | deregister | emitLeave =>
      left
      simpa [Accepted] using haccepted

/-- What a step of a handler does to its stage and to the used nonces. -/
theorem HandlerStep.stage_cases {l : HandlerLabel} (h : HandlerStep X c l s t) :
    (∃ nonce discriminator, l = .insertNonce ∧
      (s.conns c).handler = .lockNonces nonce discriminator ∧ nonce ∉ s.used ∧
      t.used = insert nonce s.used ∧ (t.conns c).handler.stage = .granted ∧
      (t.conns c).sock = (s.conns c).sock) ∨
    (∃ nonce discriminator, l = .refuseNonce ∧
      (s.conns c).handler = .lockNonces nonce discriminator ∧ nonce ∈ s.used ∧
      t.used = s.used ∧ (t.conns c).handler.stage = .refused ∧
      (t.conns c).sock = (s.conns c).sock) ∨
    (t.used = s.used ∧ (s.conns c).handler.checking = none ∧
      ((t.conns c).handler.stage = (s.conns c).handler.stage ∨
        (t.conns c).handler.stage = .failed) ∧
      ∃ chunk, (t.conns c).sock.read = (s.conns c).sock.read ++ chunk) := by
  cases h with
  | insertNonce hphase hlock hfresh =>
      exact .inl ⟨_, _, rfl, hphase, hfresh, rfl, by simp [Handler.stage], by simp⟩
  | refuseNonce hphase hlock hused =>
      exact .inr (.inl ⟨_, _, rfl, hphase, hused, rfl, by simp [Handler.stage], by simp⟩)
  | readHandshake hphase =>
      exact .inr (.inr ⟨rfl, by rw [hphase]; rfl, .inl (by simp [hphase, stage_handshakeRead]; rfl),
        _, by simp; rfl⟩)
  | readName hphase =>
      refine .inr (.inr ⟨rfl, by rw [hphase]; rfl, ?_, _, by simp; rfl⟩)
      simp only [conns_setConn_self, hphase]
      exact stage_nameRead ..
  | emitJoin hphase =>
      exact .inr (.inr ⟨rfl, by rw [hphase]; rfl, .inl (by simp [hphase, stage_afterEmitJoin]; rfl),
        [], by simp⟩)
  | writeReject hphase | writeAccept hphase | writeNotice hphase =>
      refine .inr (.inr ⟨rfl, by rw [hphase]; rfl, ?_, [], by simp⟩)
      simp only [conns_setConn_self, hphase]
      split
      · simp [Handler.stage]
      · exact .inl rfl
  | start hphase | handshakeReadFail hphase | handshakeReadTimeout hphase | rejectFail hphase
  | acceptFail hphase | acceptTimeout hphase | flushAccept hphase | flushFail hphase
  | flushTimeout hphase | nameReadFail hphase | nameReadTimeout hphase | register hphase
  | noticeFail hphase | spawnReader hphase | subscribe hphase | readerDone hphase
  | shutdown hphase | abortWriter hphase | deregister hphase | emitLeave hphase =>
      refine .inr (.inr ⟨rfl, by rw [hphase]; rfl, ?_, [], by simp⟩)
      simp only [conns_setConn_self, hphase]
      simp [Handler.stage]

/-! ## The laws of the handshakes -/

/-- The connection a step of a handler belongs to. -/
def Label.handshake : Label → Option ConnId
  | .handler c _ => some c
  | _ => none

/-- The handshakes of a room. -/
def roomHandshakes (X : Crates) (cfg : HostConfig) : Handshakes Room Label where
  step := Step X cfg
  start s := ∃ now, s = Room.init now
  used := Room.used
  lock := Room.nonceLock
  sock s c := (s.conns c).sock
  stage s c := (s.conns c).handler.stage
  checking s c := (s.conns c).handler.checking
  actor := Label.handshake

theorem reach_iff : (roomHandshakes X cfg).Reach s ↔ RoomReachable X cfg s := by
  constructor
  · rintro ⟨s₀, ⟨now, rfl⟩, hreach⟩
    exact ⟨now, hreach⟩
  · rintro ⟨now, hreach⟩
    exact ⟨_, ⟨now, rfl⟩, hreach⟩

/-- A handler at its check has read nonce and discriminator and written nothing. -/
theorem Conn.Coherent.checking {k : Conn} (h : k.Coherent X) {nonce : Bytes16}
    (hchecking : k.handler.checking = some nonce) :
    k.handler.stage = .undecided ∧ k.sock.read.length = 32 ∧
      k.sock.read.take 16 = nonce.val := by
  have hfits := h.fits
  cases hk : k.handler with
  | lockNonces n discriminator =>
      rw [hk] at hfits hchecking
      cases hchecking
      refine ⟨rfl, ?_, ?_⟩
      · rw [hfits.1, List.length_append, nonce.property, discriminator.property]
      · rw [hfits.1]
        exact List.take_left' nonce.property
  | _ => simp [hk, Handler.checking] at hchecking

/-- An undecided handler that has read 32 bytes is at its check. -/
theorem Conn.Coherent.checking_of_full {k : Conn} (h : k.Coherent X)
    (hstage : k.handler.stage = .undecided) (hlen : k.sock.read.length = 32) :
    ∃ nonce, k.handler.checking = some nonce := by
  have hfits := h.fits
  cases hk : k.handler with
  | lockNonces nonce => exact ⟨nonce, rfl⟩
  | idle | spawned =>
      rw [hk] at hfits
      rw [hfits.1] at hlen
      cases hlen
  | readHandshake buf =>
      rw [hk] at hfits
      rw [hfits.1] at hlen
      have hlt := hfits.2.1
      unfold handshakeLen at hlt
      omega
  | _ => simp [hk, Handler.stage] at hstage

theorem Handler.Spawned.granted {h : Handler} {reader : Reader} {writer : Writer}
    (hspawned : h.Spawned reader writer) (hwriter : writer ≠ .unspawned) : h.stage = .granted := by
  cases h with
  | serve | abortWriter | deregister | emitLeave | ended => rfl
  | _ => exact absurd hspawned.2 hwriter

/-- A step of a task other than a handler leaves the stage of every connection,
and it accepts nobody. -/
theorem Step.stage {l : Label} (h : Step X cfg l s t) (hl : ∀ l', l ≠ .handler c l')
    (hs : (s.conns c).Coherent X) :
    (t.conns c).handler.stage = (s.conns c).handler.stage ∧
      (∃ chunk, (t.conns c).sock.read = (s.conns c).sock.read ++ chunk) ∧
      (Accepted (t.conns c).sock → Accepted (s.conns c).sock ∨
        (s.conns c).handler.stage = .granted) := by
  by_cases hconn : l.conn = some c
  · cases h.connStep hconn with
    | accept _ _ hidle =>
        exact ⟨by simp [hidle, Handler.stage], ⟨[], by simp⟩,
          fun hacc => .inl (by simpa [Accepted] using hacc)⟩
    | handler h =>
        exact absurd rfl (hl _)
    | reader h =>
        obtain ⟨hhandler, -, -, -, -, -, hwritten⟩ := h.frame
        exact ⟨by rw [hhandler], h.spawned.2.2,
          fun hacc => .inl (by rwa [Accepted, hwritten] at hacc)⟩
    | writer h =>
        obtain ⟨hhandler, -, -, -, -, hread, -⟩ := h.frame
        exact ⟨by rw [hhandler], ⟨[], by rw [hread, List.append_nil]⟩,
          fun _ => .inr (hs.spawned.granted h.spawned.1)⟩
    | net h =>
        obtain ⟨hhandler, -, -, -, -, -, -, hread, hwritten⟩ := h.frame
        exact ⟨by rw [hhandler], ⟨[], by rw [hread, List.append_nil]⟩,
          fun hacc => .inl (by rwa [Accepted, hwritten] at hacc)⟩
  · rw [h.conns_of_ne hconn]
    exact ⟨rfl, ⟨[], by rw [List.append_nil]⟩, .inl⟩

/-- The check at the nonce set, once the lock is free: a new nonce is inserted and
a used one is refused. -/
theorem checking_enabled {nonce discriminator : Bytes16}
    (hphase : (s.conns c).handler = .lockNonces nonce discriminator) (hlock : s.nonceLock = none) :
    ((∃ t, Step X cfg (.handler c .insertNonce) s t) ↔ nonce ∉ s.used) ∧
      ((∃ t, Step X cfg (.handler c .refuseNonce) s t) ↔ nonce ∈ s.used) := by
  constructor
  · constructor
    · rintro ⟨t, h⟩
      cases h with
      | handler h =>
          cases h with
          | insertNonce hphase' hlock' hfresh =>
              rw [hphase] at hphase'
              cases hphase'
              exact hfresh
    · intro hfresh
      exact ⟨_, .handler (.insertNonce hphase hlock hfresh)⟩
  · constructor
    · rintro ⟨t, h⟩
      cases h with
      | handler h =>
          cases h with
          | refuseNonce hphase' hlock' hused =>
              rw [hphase] at hphase'
              cases hphase'
              exact hused
    · intro hused
      exact ⟨_, .handler (.refuseNonce hphase hlock hused)⟩

/-- **The handshakes of a room are lawful.** -/
theorem roomHandshakes_lawful (X : Crates) (cfg : HostConfig) : (roomHandshakes X cfg).Lawful where
  start_used := by
    rintro s ⟨now, rfl⟩
    rfl
  start_stage := by
    rintro s c ⟨now, rfl⟩
    exact ⟨rfl, by simp [roomHandshakes, Accepted, Room.init, Conn.fresh, Socket.fresh]⟩
  checking s c nonce hs hchecking := by
    have hc := (reach_iff.mp hs).coherent c
    obtain ⟨hstage, hlen, htake⟩ := hc.checking hchecking
    exact ⟨hstage, hc.not_accepted (.inl hstage), hlen, htake⟩
  checking_of_full s c hs hstage hlen :=
    ((reach_iff.mp hs).coherent c).checking_of_full hstage hlen
  enabled s c nonce hchecking hlock := by
    obtain ⟨discriminator, hphase⟩ : ∃ discriminator,
        (s.conns c).handler = .lockNonces nonce discriminator := by
      cases hphase : (s.conns c).handler with
      | lockNonces n discriminator =>
          simp only [roomHandshakes, hphase, Handler.checking] at hchecking
          cases hchecking
          exact ⟨discriminator, rfl⟩
      | _ => simp [roomHandshakes, hphase, Handler.checking] at hchecking
    by_cases hused : nonce ∈ s.used
    · obtain ⟨t, hstep⟩ := (checking_enabled hphase hlock).2.mpr hused
      exact ⟨_, t, hstep, rfl, hchecking⟩
    · obtain ⟨t, hstep⟩ := (checking_enabled hphase hlock).1.mpr hused
      exact ⟨_, t, hstep, rfl, hchecking⟩
  decides l s t c nonce _ h hdecides := by
    obtain ⟨hactor, hchecking⟩ := hdecides
    cases h with
    | handler h =>
        cases hactor
        rcases h.stage_cases with ⟨n, _, -, hphase, hfresh, hused, hstage, hsock⟩ |
          ⟨n, _, -, hphase, hmem, hused, hstage, hsock⟩ | ⟨-, hnone, -⟩
        · simp only [roomHandshakes, hphase, Handler.checking] at hchecking
          cases hchecking
          exact ⟨hsock, .inl ⟨hfresh, hused, hstage⟩⟩
        · simp only [roomHandshakes, hphase, Handler.checking] at hchecking
          cases hchecking
          exact ⟨hsock, .inr ⟨hmem, hused, hstage⟩⟩
        · simp only [roomHandshakes, hnone] at hchecking
          cases hchecking
    | user | host | accept | reader | writer | net | tick => cases hactor
  keeps_used l s t _ h hno := by
    by_cases hl : ∃ c l', l = .handler c l'
    · obtain ⟨c, l', rfl⟩ := hl
      cases h with
      | handler h =>
          rcases h.stage_cases with ⟨n, _, -, hphase, -⟩ | ⟨n, _, -, hphase, -⟩ | ⟨hused, -⟩
          · exact absurd ⟨rfl, by simp [roomHandshakes, hphase, Handler.checking]⟩ (hno c n)
          · exact absurd ⟨rfl, by simp [roomHandshakes, hphase, Handler.checking]⟩ (hno c n)
          · exact hused
    · push Not at hl
      exact Step.used h fun c => hl c _
  keeps l s t c hs h hno := by
    have hc := (reach_iff.mp hs).coherent c
    by_cases hl : ∃ l', l = .handler c l'
    · obtain ⟨l', rfl⟩ := hl
      cases h with
      | handler h =>
          rcases h.stage_cases with ⟨n, _, -, hphase, -⟩ | ⟨n, _, -, hphase, -⟩ |
            ⟨-, -, hstage, hread⟩
          · exact absurd ⟨rfl, by simp [roomHandshakes, hphase, Handler.checking]⟩ (hno n)
          · exact absurd ⟨rfl, by simp [roomHandshakes, hphase, Handler.checking]⟩ (hno n)
          · exact ⟨hstage, hread, h.accepted hc⟩
    · push Not at hl
      obtain ⟨hstage, hread, hacc⟩ := Step.stage h hl hc
      exact ⟨.inl hstage, hread, hacc⟩

/-! ## What admission depends on -/

/-- The nonces of a room are single use. -/
theorem roomHandshakes_singleUse (X : Crates) (cfg : HostConfig) :
    (roomHandshakes X cfg).SingleUse :=
  (roomHandshakes_lawful X cfg).singleUse

/-- **Admission is by single use alone.**  An accepted connection presented a
nonce that was recorded as used and that no other accepted connection presented;
whether the check passes depends on the used nonces and on nothing else, hence
not on the invites the room has issued. -/
theorem admission_by_single_use (hs : RoomReachable X cfg s) :
    (∀ c, Accepted (s.conns c).sock →
      (∃ nonce : Bytes16, (s.conns c).sock.read.take 16 = nonce.val ∧ nonce ∈ s.used) ∧
      ∀ d, Accepted (s.conns d).sock →
        (s.conns d).sock.read.take 16 = (s.conns c).sock.read.take 16 → d = c) ∧
    ∀ c nonce discriminator, (s.conns c).handler = .lockNonces nonce discriminator →
      s.nonceLock = none → ∀ (issued : List InvitePayload) (invite : Option InviteInfo),
        ((∃ t, Step X cfg (.handler c .insertNonce)
          { s with issued := issued, invite := invite } t) ↔
          nonce ∉ s.used) ∧
        ((∃ t, Step X cfg (.handler c .refuseNonce)
          { s with issued := issued, invite := invite } t) ↔
          nonce ∈ s.used) := by
  have hreach := reach_iff.mpr hs
  have hsingle := roomHandshakes_singleUse X cfg
  refine ⟨fun c hc => ⟨hsingle.accept_used s c hreach hc, fun d hd hnonce =>
    hsingle.accept_unique s d c hreach hd hc hnonce⟩, ?_⟩
  intro c nonce discriminator hphase hlock issued invite
  exact checking_enabled (s := { s with issued := issued, invite := invite }) hphase hlock

/-- A room in which no invite was ever made, after the handshake of a client that
sent zeros. -/
def Room.uninvited : Room :=
  (Room.opened ⟨"host", 300⟩ 0 "room.onion").greeted .standard 0 (.fill 0) (.fill 7) "eve"

theorem Room.reachable_uninvited : RoomReachable .standard ⟨"host", 300⟩ Room.uninvited :=
  (reachable_opened ..).run (run_handshake rfl (by decide) rfl rfl (by decide) (by decide))

/-- A client nobody invited is accepted with a nonce of its own making. -/
theorem invited_only_fails :
    ¬ ∀ s, RoomReachable .standard ⟨"host", 300⟩ s → ∀ c, Accepted (s.conns c).sock →
      ∃ payload ∈ s.issued, (s.conns c).sock.read.take 16 = payload.nonce.val := by
  intro hinvited
  obtain ⟨payload, hmem, -⟩ := hinvited _ Room.reachable_uninvited 0 rfl
  cases hmem

theorem admission_by_single_use_uninvited :
    Accepted (Room.uninvited.conns 0).sock ∧
      ∃ nonce : Bytes16, (Room.uninvited.conns 0).sock.read.take 16 = nonce.val ∧
        nonce ∈ Room.uninvited.used :=
  ⟨rfl, ((admission_by_single_use Room.reachable_uninvited).1 0 rfl).1⟩

end Nullpipe

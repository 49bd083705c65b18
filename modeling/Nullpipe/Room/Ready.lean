import Nullpipe.Room.Messages
import Nullpipe.Room.Admit
import Nullpipe.Core.Standard

/-!
# Room ready

The host loop first sends `RoomReady` and then stores what `RoomHandle::invite`
needs.  A user who has the event may therefore call `invite` too early:
`invite_iff_published` says that the call fails exactly while the host loop stands
between the two steps.

`Announced` is the invariant, from the event to the state: a `RoomReady` on the stream has the
port of the room and the address of the onion service, and either the host loop is about to
store that address or it is stored.  `Mpsc.sent` has all events ever accepted, so the
statement is not about a moment.

Nobody but the host loop announces anything or stores an address (`Step.announced_of_ne`), and
of its own steps three matter: `created` decides on the address, `sendReady` announces it, and
`publishInvite` stores it.
-/

namespace Nullpipe

open Channel Room Transition

variable {X : Crates} {cfg : HostConfig} {s t : Room} {l : Label}

/-- The host loop has not stored the invite info yet. -/
def HostLoop.Unpublished : HostLoop → Prop
  | .creating | .sendReady _ | .publishInvite _ => True
  | _ => False

/-- The host loop has not announced the room yet. -/
def HostLoop.Unannounced : HostLoop → Prop
  | .creating | .sendReady _ => True
  | _ => False

theorem HostLoop.Unannounced.unpublished {host : HostLoop} (h : host.Unannounced) :
    host.Unpublished := by
  cases host with
  | creating | sendReady => trivial
  | _ => cases h

/-- What a `RoomReady` on the event stream says about the invite info. -/
structure Announced (cfg : HostConfig) (s : Room) : Prop where
  unpublished : s.host.Unpublished → s.invite = none
  ready : ∀ addr port, .roomReady addr port ∈ s.events.sent → port = roomPort ∧
    ¬ s.host.Unannounced ∧ (s.host = .publishInvite addr ∨
      ¬ s.host.Unpublished ∧ s.invite = some ⟨addr, roomPort, cfg.inviteTtlSecs⟩)

theorem Announced.init (cfg : HostConfig) (now : ℕ) : Announced cfg (Room.init now) :=
  ⟨fun _ => rfl, nofun⟩

/-- A step outside the host loop announces nothing. -/
theorem Step.announced_of_ne (h : Step X cfg l s t) (hl : ∀ l', l ≠ .host l')
    (hs : Announced cfg s) : Announced cfg t := by
  have hhost := h.host_eq hl
  have hinvite : t.invite = s.invite := by
    cases h with
    | user h => cases h <;> rfl
    | host => exact absurd rfl (hl _)
    | accept h => cases h <;> rfl
    | handler h => cases h <;> rfl
    | reader h => cases h <;> rfl
    | writer h => cases h <;> rfl
    | net h => cases h <;> rfl
    | tick => rfl
  refine ⟨by rw [hhost, hinvite]; exact hs.unpublished, fun addr port hmem => ?_⟩
  rw [hhost, hinvite]
  apply hs.ready
  rcases h.events with hsame | ⟨ev, hemit, -, hsent⟩
  · rwa [hsame] at hmem
  · rw [hsent, List.mem_append, List.mem_singleton] at hmem
    refine hmem.resolve_right fun heq => ?_
    subst heq
    cases hemit with
    | roomReady => exact hl _ rfl

/-- A step of the host loop that is not about the announcement. -/
private theorem Announced.congr (hs : Announced cfg s) (hinvite : t.invite = s.invite)
    (hbefore : ¬ s.host.Unpublished) (hafter : ¬ t.host.Unpublished)
    (hsent : ∀ addr port, .roomReady addr port ∈ t.events.sent →
      .roomReady addr port ∈ s.events.sent) : Announced cfg t := by
  refine ⟨fun hun => absurd hun hafter, fun addr port hmem => ?_⟩
  obtain ⟨hport, -, hpublishing | ⟨-, hstored⟩⟩ := hs.ready addr port (hsent addr port hmem)
  · rw [hpublishing] at hbefore
    exact absurd trivial hbefore
  · exact ⟨hport, fun hun => hafter hun.unpublished, .inr ⟨hafter, hinvite.trans hstored⟩⟩

theorem HostStep.announced {l : HostLabel} (h : HostStep cfg l s t) (hs : Announced cfg s) :
    Announced cfg t := by
  have hevents := (Step.host (X := .standard) h).events
  cases h with
  | created hphase | createFailed hphase =>
      refine ⟨fun _ => hs.unpublished (by rw [hphase]; trivial), fun addr port hmem => ?_⟩
      obtain ⟨-, hun, -⟩ := hs.ready addr port hmem
      rw [hphase] at hun
      exact absurd trivial hun
  | @sendReady _ addr hphase =>
      -- the first announcement there is
      refine ⟨fun _ => hs.unpublished (by rw [hphase]; trivial), fun addr' port hmem => ?_⟩
      rw [Mpsc.sent_push, List.mem_append, List.mem_singleton] at hmem
      rcases hmem with hold | hnew
      · obtain ⟨-, hun, -⟩ := hs.ready addr' port hold
        rw [hphase] at hun
        exact absurd trivial hun
      · cases hnew
        exact ⟨rfl, id, .inl rfl⟩
  | sendReadyClosed hphase =>
      refine ⟨fun _ => hs.unpublished (by rw [hphase]; trivial), fun addr port hmem => ?_⟩
      obtain ⟨-, hun, -⟩ := hs.ready addr port hmem
      rw [hphase] at hun
      exact absurd trivial hun
  | publishInvite hphase =>
      -- the address that was announced is stored
      refine ⟨fun hun => (by cases hun), fun addr port hmem => ?_⟩
      obtain ⟨hport, -, hpublishing | ⟨hpublished, -⟩⟩ := hs.ready addr port hmem
      · rw [hphase] at hpublishing
        cases hpublishing
        exact ⟨hport, id, .inr ⟨id, rfl⟩⟩
      · rw [hphase] at hpublished
        exact absurd trivial hpublished
  | spawnAccept hphase | shutdown hphase | takeText hphase | sendClosed hphase | echo hphase
  | broadcast hphase | takeMessage hphase | deliver hphase | close hphase | abortAccept hphase
  | joinAccept hphase | sendError hphase | sendErrorClosed hphase | failedShutdown hphase
  | failedTakeText hphase | failedSendClosed hphase | failedClose hphase =>
      have hbefore : ¬ s.host.Unpublished := by
        rw [hphase]
        exact id
      refine hs.congr rfl hbefore (by first | exact id | exact hbefore) fun addr port hmem => ?_
      rcases hevents with hsame | ⟨ev, hemit, -, hsent⟩
      · rwa [hsame] at hmem
      · rw [hsent, List.mem_append, List.mem_singleton] at hmem
        refine hmem.resolve_right fun heq => ?_
        subst heq
        cases hemit

theorem RoomReachable.announced (hs : RoomReachable X cfg s) : Announced cfg s := by
  obtain ⟨now, hreach⟩ := hs
  refine hreach.invariant (.init cfg now) fun hs hstep => ?_
  rename_i l _ _
  by_cases hl : ∃ l', l = .host l'
  · obtain ⟨l', rfl⟩ := hl
    cases hstep with
    | host h => exact h.announced hs
  · exact hstep.announced_of_ne (fun l' heq => hl ⟨l', heq⟩) hs

/-- The result of a call of `invite` before anything is stored. -/
theorem inviteCode_of_none (hquit : s.quitFlag = false) (hinvite : s.invite = none)
    (nonce : Bytes16) (suggestedName : Option String) :
    s.inviteCode X nonce suggestedName =
      .error (.connection "invite generation only available on hub") := by
  rw [inviteCode, if_neg (by simp [hquit]), hinvite]

/-- **Once the user has `RoomReady`, every call of `invite` gives a code for that
address, unless the host loop has not stored the address yet.** -/
theorem invite_iff_published {addr : String} {port : UInt16} (hs : RoomReachable X cfg s)
    (hready : .roomReady addr port ∈ s.events.received) (hquit : s.quitFlag = false)
    (hvalid : validateAddress addr = .ok ()) :
    (∀ nonce suggestedName, ∃ code, s.inviteCode X nonce suggestedName = .ok code ∧
      encodeInvite X ⟨addr, nonce, s.timestamp, suggestedName⟩ = .ok code) ↔
      s.host ≠ .publishInvite addr := by
  have hsent := s.events.received_prefix_sent.subset hready
  obtain ⟨-, -, hcases⟩ := hs.announced.ready addr port hsent
  constructor
  · intro hcall hhost
    obtain ⟨code, hcode, -⟩ := hcall (.fill 0) none
    rw [inviteCode_of_none hquit (hs.announced.unpublished (by rw [hhost]; trivial))] at hcode
    cases hcode
  · intro hhost nonce suggestedName
    have hinvite := (hcases.resolve_left hhost).2
    obtain ⟨code, hcode⟩ : ∃ code,
        encodeInvite X ⟨addr, nonce, s.timestamp, suggestedName⟩ = .ok code :=
      ⟨_, encodeInvite_of_valid X _ hvalid⟩
    refine ⟨code, ?_, hcode⟩
    rw [inviteCode, if_neg (by simp [hquit]), hinvite]
    exact hcode

/-! ## The gap -/

/-- An onion address as Tor displays it. -/
def onionName : String :=
  "aaaaaaaaaaaaaaaaaaaaaaaaaaaaaaaaaaaaaaaaaaaaaaaaaaaaaaaa.onion"

theorem validateAddress_onionName : validateAddress onionName = .ok () := by
  rw [validateAddress, if_neg (by decide), if_neg (by decide)]

/-- A room whose user has `RoomReady` while nothing is stored. -/
def Room.unready : Room :=
  { Room.init 0 with
    host := .publishInvite onionName
    events := (Mpsc.empty.push (.roomReady onionName roomPort)).pop }

theorem run_unready (X : Crates) (cfg : HostConfig) :
    RoomRun X cfg (Room.init 0) [.host (.created onionName), .host .sendReady, .user .takeEvent]
      Room.unready := by
  have hrun : RoomRun X cfg (Room.init 0) _ (Room.init 0) := .nil
  have hrun := hrun.snoc (.host (show HostStep cfg (.created onionName) _ _ from .created rfl))
  have hrun := hrun.snoc (.host (.sendReady rfl ⟨rfl, Nat.zero_lt_succ _⟩))
  exact hrun.snoc (.user (.takeEvent rfl))

/-- Between the event and the store `invite` claims that this is no hub. -/
theorem invite_fails_when_ready :
    ∃ s, RoomReachable .standard ⟨"host", 300⟩ s ∧
      .roomReady onionName roomPort ∈ s.events.received ∧ s.quitFlag = false ∧
      validateAddress onionName = .ok () ∧ s.inviteCode .standard (.fill 0) none =
        .error (.connection "invite generation only available on hub") :=
  ⟨Room.unready, ⟨0, (run_unready _ _).reachable⟩, List.mem_singleton_self _, rfl,
    validateAddress_onionName, rfl⟩

/-- The same room one step later. -/
def Room.nowReady : Room :=
  { Room.unready with invite := some ⟨onionName, roomPort, 300⟩, host := .spawnAccept }

theorem invite_iff_published_nowReady :
    (∀ nonce suggestedName, ∃ code,
      Room.nowReady.inviteCode .standard nonce suggestedName = .ok code ∧
      encodeInvite .standard ⟨onionName, nonce, Room.nowReady.timestamp, suggestedName⟩ =
        .ok code) ↔ Room.nowReady.host ≠ .publishInvite onionName := by
  have hrun := (run_unready .standard ⟨"host", 300⟩).snoc (.host (.publishInvite rfl))
  have hready : ChatEvent.roomReady onionName roomPort ∈ Room.nowReady.events.received :=
    List.mem_singleton_self _
  exact invite_iff_published ⟨0, hrun.reachable⟩ hready rfl validateAddress_onionName

end Nullpipe

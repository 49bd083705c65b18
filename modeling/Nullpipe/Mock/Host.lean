import Nullpipe.Room.Texts
import Nullpipe.Core.Standard

/-!
# The mock host

`host_with_mock`, `host_task_mock` and `run_host_loop_mock` of `room.rs`: a host for tests.
There is no onion service to create; the task announces a made-up address, publishes it for
invites and runs a loop of its own over the streams of a `MockAcceptor`.

The task is embedded as it is written (`HostTaskMockStep`, `RunHostLoopMockStep`), next to
`run_host_loop`, and not taken to be the same.  That it is comes out of a comparison:

* `RunHostLoopMockStep.host`: each step of its loop is one of `run_host_loop`;
* `HostStep.mock`: where the mock may stand (`HostLoop.Mock`), so is each step of
  `run_host_loop` one of the mock.  It may not stand where an onion service is created, or
  where that has failed;
* `mockRun_iff`: the runs are the same from the point on at which the onion service is there.

So all that is said of every run of a room is said of this one, too, but for the invites: the
address is none that `invite::encode` takes, and there are no invites of a mock room
(`mock_room_conforms`).
-/

namespace Nullpipe

open Channel Room Transition

variable {X : Crates} {cfg : HostConfig} {s t : Room} {l : Label} {ls : List Label} {now : ℕ}

/-! ## The tasks -/

/-- `fake_address` -/
def fakeAddress : String := "mock://test-room"

/-- The room as `host_with_mock` spawns `host_task_mock`, whose first step sends `RoomReady`. -/
def Room.initMock (now : ℕ) : Room := { Room.init now with host := .sendReady fakeAddress }

/-- `run_host_loop_mock` -/
inductive RunHostLoopMockStep (cfg : HostConfig) : HostLabel → Room → Room → Prop
  | spawnAccept {s : Room} (hphase : s.host = .spawnAccept) :
      RunHostLoopMockStep cfg .spawnAccept s
        { s with accept := .running, acceptSeen := s.hostSeen, host := .select }
  | shutdown {s : Room} (hphase : s.host = .select) (hready : s.ShutdownReady s.hostSeen) :
      RunHostLoopMockStep cfg .shutdown s { s with hostSeen := s.watchVersion, host := .closing }
  | close {s : Room} (hphase : s.host = .closing) :
      RunHostLoopMockStep cfg .close s
        { s with events := s.events.trySend eventChanCap .roomClosed, host := .abortAccept }
  | takeText {s : Room} {text : String} {rest : List String} (hphase : s.host = .select)
      (hready : ¬ s.ShutdownReady s.hostSeen) (hqueue : s.sendQ.queue = text :: rest) :
      RunHostLoopMockStep cfg (.takeText text) s
        { s with sendQ := s.sendQ.pop, host := .echo text }
  | sendClosed {s : Room} (hphase : s.host = .select) (hready : ¬ s.ShutdownReady s.hostSeen)
      (hqueue : s.sendQ.queue = []) (hclosed : s.sendOpen = false) :
      RunHostLoopMockStep cfg .sendClosed s { s with host := .abortAccept }
  | echo {s : Room} {text : String} (hphase : s.host = .echo text) :
      RunHostLoopMockStep cfg .echo s
        { s with
          events := s.events.trySend eventChanCap (.message hubId cfg.name text)
          host := .broadcast text }
  | broadcast {s : Room} {text : String} (hphase : s.host = .broadcast text) :
      RunHostLoopMockStep cfg (.broadcast (.chat cfg.name text)) s
        { s with bcast := s.bcast ++ [.chat cfg.name text], host := .select }
  | takeMessage {s : Room} {id : PeerId} {msg : WireMessage}
      {rest : List (PeerId × WireMessage)} (hphase : s.host = .select)
      (hready : ¬ s.ShutdownReady s.hostSeen) (htexts : s.sendQ.queue = [])
      (hopen : s.sendOpen = true) (hqueue : s.msgs.queue = (id, msg) :: rest) :
      RunHostLoopMockStep cfg (.takeMessage id msg) s
        { s with msgs := s.msgs.pop, host := .deliver id msg }
  | deliver {s : Room} {id : PeerId} {msg : WireMessage} (hphase : s.host = .deliver id msg) :
      RunHostLoopMockStep cfg .deliver s
        { s with events := deliverEvent s.events id msg, host := .select }
  | abortAccept {s : Room} (hphase : s.host = .abortAccept) :
      RunHostLoopMockStep cfg .abortAccept s { s with acceptAborted := true, host := .joinAccept }
  | joinAccept {s : Room} (hphase : s.host = .joinAccept) (hended : s.accept = .ended) :
      RunHostLoopMockStep cfg .joinAccept s
        { s with msgs := s.msgs.close, sendQ := s.sendQ.close, host := .ended }

/-- `host_task_mock`: two steps of its own, and the loop. -/
inductive HostTaskMockStep (cfg : HostConfig) : HostLabel → Room → Room → Prop
  /-- `event_tx.send(..).await` waits for room -/
  | sendReady {s : Room} (hphase : s.host = .sendReady fakeAddress)
      (hroom : s.events.HasRoom eventChanCap) :
      HostTaskMockStep cfg .sendReady s
        { s with
          events := s.events.push (.roomReady fakeAddress 80)
          host := .publishInvite fakeAddress }
  | sendReadyClosed {s : Room} (hphase : s.host = .sendReady fakeAddress)
      (hclosed : s.events.isOpen = false) :
      HostTaskMockStep cfg .sendReady s { s with host := .publishInvite fakeAddress }
  | publishInvite {s : Room} (hphase : s.host = .publishInvite fakeAddress) :
      HostTaskMockStep cfg .publishInvite s
        { s with invite := some ⟨fakeAddress, 80, cfg.inviteTtlSecs⟩, host := .spawnAccept }
  | loop {l : HostLabel} {s t : Room} (h : RunHostLoopMockStep cfg l s t) :
      HostTaskMockStep cfg l s t

/-- The steps of a mock room: the accept loop, the handlers and the handle are those of any
other. -/
inductive MockStep (X : Crates) (cfg : HostConfig) : Label → Room → Room → Prop
  | host {l : HostLabel} {s t : Room} (h : HostTaskMockStep cfg l s t) :
      MockStep X cfg (.host l) s t
  | shared {l : Label} {s t : Room} (h : Step X cfg l s t) (hl : ∀ l', l ≠ .host l') :
      MockStep X cfg l s t

/-! ## The loop of `run_host_loop` -/

/-- Where `host_task_mock` may stand: it creates no onion service, and its address is made up. -/
def HostLoop.Mock : HostLoop → Prop
  | .creating | .sendError _ | .failedSelect | .failedClosing => False
  | .sendReady addr | .publishInvite addr => addr = fakeAddress
  | _ => True

/-- The loop of the mock is the one of `run_host_loop`. -/
theorem RunHostLoopMockStep.host {l : HostLabel} (h : RunHostLoopMockStep cfg l s t) :
    HostStep cfg l s t := by
  cases h with
  | spawnAccept hphase => exact .spawnAccept hphase
  | shutdown hphase hready => exact .shutdown hphase hready
  | close hphase => exact .close hphase
  | takeText hphase hready hqueue => exact .takeText hphase hready hqueue
  | sendClosed hphase hready hqueue hclosed => exact .sendClosed hphase hready hqueue hclosed
  | echo hphase => exact .echo hphase
  | broadcast hphase => exact .broadcast hphase
  | takeMessage hphase hready htexts hopen hqueue =>
      exact .takeMessage hphase hready htexts hopen hqueue
  | deliver hphase => exact .deliver hphase
  | abortAccept hphase => exact .abortAccept hphase
  | joinAccept hphase hended => exact .joinAccept hphase hended

theorem HostTaskMockStep.host {l : HostLabel} (h : HostTaskMockStep cfg l s t) :
    HostStep cfg l s t := by
  cases h with
  | sendReady hphase hroom => exact .sendReady hphase hroom
  | sendReadyClosed hphase hclosed => exact .sendReadyClosed hphase hclosed
  | publishInvite hphase => exact .publishInvite hphase
  | loop h => exact h.host

/-- What the host loop does where the mock may stand, the mock does. -/
theorem HostStep.mock {l : HostLabel} (h : HostStep cfg l s t) (hs : s.host.Mock) :
    HostTaskMockStep cfg l s t := by
  cases h with
  | created hphase | createFailed hphase | sendError hphase | sendErrorClosed hphase
  | failedShutdown hphase | failedTakeText hphase | failedSendClosed hphase
  | failedClose hphase =>
      -- a host that begins with an endpoint never gets to these places
      rw [hphase] at hs
      exact hs.elim
  | sendReady hphase hroom =>
      rw [hphase] at hs
      subst hs
      exact .sendReady hphase hroom
  | sendReadyClosed hphase hclosed =>
      rw [hphase] at hs
      subst hs
      exact .sendReadyClosed hphase hclosed
  | publishInvite hphase =>
      rw [hphase] at hs
      subst hs
      exact .publishInvite hphase
  -- from here on the host is in its loop, which the mock shares
  | spawnAccept hphase => exact .loop (.spawnAccept hphase)
  | shutdown hphase hready => exact .loop (.shutdown hphase hready)
  | takeText hphase hready hqueue => exact .loop (.takeText hphase hready hqueue)
  | sendClosed hphase hready hqueue hclosed =>
      exact .loop (.sendClosed hphase hready hqueue hclosed)
  | echo hphase => exact .loop (.echo hphase)
  | broadcast hphase => exact .loop (.broadcast hphase)
  | takeMessage hphase hready htexts hopen hqueue =>
      exact .loop (.takeMessage hphase hready htexts hopen hqueue)
  | deliver hphase => exact .loop (.deliver hphase)
  | close hphase => exact .loop (.close hphase)
  | abortAccept hphase => exact .loop (.abortAccept hphase)
  | joinAccept hphase hended => exact .loop (.joinAccept hphase hended)

/-- **Where the mock may stand the two rooms take the same steps.** -/
theorem mockStep_iff (hs : s.host.Mock) : MockStep X cfg l s t ↔ Step X cfg l s t := by
  constructor
  · intro h
    cases h with
    | host h => exact .host h.host
    | shared h => exact h
  · intro h
    by_cases hl : ∃ l', l = .host l'
    · obtain ⟨l', rfl⟩ := hl
      cases h with
      | host h => exact .host (h.mock hs)
    · push Not at hl
      exact .shared h hl

/-! ## Its address -/

/-- The address of the room, wherever it is kept, is made up. -/
structure Room.Mocked (s : Room) : Prop where
  host : s.host.Mock
  invite : ∀ info, s.invite = some info → info.onionAddress = fakeAddress

theorem HostTaskMockStep.mocked {l : HostLabel} (h : HostTaskMockStep cfg l s t)
    (hs : s.Mocked) : t.Mocked := by
  cases h with
  | sendReady | sendReadyClosed => exact ⟨rfl, hs.invite⟩
  | publishInvite => exact ⟨trivial, fun info hinfo => Option.some.inj hinfo ▸ rfl⟩
  | loop h => cases h <;> exact ⟨trivial, hs.invite⟩

theorem MockStep.mocked (h : MockStep X cfg l s t) (hs : s.Mocked) : t.Mocked := by
  cases h with
  | host h => exact h.mocked hs
  | shared h hl =>
      obtain ⟨hsame, hinvite, -⟩ := h.texts_frame hl
      exact ⟨hsame ▸ hs.host, hinvite ▸ hs.invite⟩

theorem Room.mocked_initMock (now : ℕ) : (Room.initMock now).Mocked := ⟨rfl, nofun⟩

/-- **The runs of a mock room** are those of a hosted room that has created its onion service
under the address of the mock. -/
theorem mockRun_iff : Run (MockStep X cfg) (Room.initMock now) ls s ↔
    RoomRun X cfg (Room.init now) (.host (.created fakeAddress) :: ls) s := by
  have hsame : Run (MockStep X cfg) (Room.initMock now) ls s ↔
      RoomRun X cfg (Room.initMock now) ls s :=
    Run.congr_on (I := Room.Mocked) (Room.mocked_initMock now) (fun hs => mockStep_iff hs.host)
      fun hs h => h.mocked hs
  rw [hsame]
  constructor
  · exact fun hrun => .cons (.host (.created rfl)) hrun
  · intro hrun
    obtain ⟨t, hstep, hrest⟩ := hrun.uncons
    cases hstep with
    | host h =>
        cases h with
        | created => exact hrest

/-! ## Its invites -/

/-- `invite::encode` does not take the address. -/
theorem encodeInvite_fakeAddress {payload : InvitePayload}
    (haddr : payload.onionAddress = fakeAddress) :
    encodeInvite X payload = .error (.invalidInvite "address must end with .onion") := by
  have hvalid : validateAddress fakeAddress =
      .error (.invalidInvite "address must end with .onion") := by decide
  rw [encodeInvite, haddr, hvalid]

theorem Room.Mocked.inviteCode (hs : s.Mocked) (nonce : Bytes16) (name : Option String) :
    s.inviteCode X nonce name = .error .shuttingDown ∨
      s.inviteCode X nonce name =
        .error (.connection "invite generation only available on hub") ∨
      s.inviteCode X nonce name = .error (.invalidInvite "address must end with .onion") := by
  unfold Room.inviteCode
  split
  · exact .inl rfl
  · cases hinvite : s.invite with
    | none => exact .inr (.inl rfl)
    | some info => exact .inr (.inr (encodeInvite_fakeAddress (hs.invite info hinvite)))

/-- No call of `invite` gets as far as to issue one. -/
theorem MockStep.issues_nothing (h : MockStep X cfg l s t) (hs : s.Mocked) :
    t.issued = s.issued := by
  have hstep := (mockStep_iff hs.host).mp h
  refine hstep.issued ?_
  rintro nonce name rfl
  cases hstep with
  | user h =>
      cases h with
      | invite _ hinfo hcode =>
          rw [encodeInvite_fakeAddress (hs.invite _ hinfo)] at hcode
          cases hcode

/-- **A mock room is a room without invites.**  Its runs are exactly those of a hosted room that
has created its onion service, under the address of the mock; but no invite is issued in it,
and every call of `invite` returns an error. -/
theorem mock_room_conforms (X : Crates) (cfg : HostConfig) (now : ℕ) (ls : List Label) (s : Room) :
    (Run (MockStep X cfg) (Room.initMock now) ls s ↔
      RoomRun X cfg (Room.init now) (.host (.created fakeAddress) :: ls) s) ∧
    (Run (MockStep X cfg) (Room.initMock now) ls s → s.issued = [] ∧
      ∀ nonce name, s.inviteCode X nonce name = .error .shuttingDown ∨
        s.inviteCode X nonce name =
          .error (.connection "invite generation only available on hub") ∨
        s.inviteCode X nonce name =
          .error (.invalidInvite "address must end with .onion")) := by
  refine ⟨mockRun_iff, fun hrun => ?_⟩
  have hissued : s.Mocked ∧ s.issued = [] := by
    refine hrun.invariant (I := fun s => s.Mocked ∧ s.issued = [])
      ⟨Room.mocked_initMock now, rfl⟩ ?_
    intro l s t hs h
    exact ⟨h.mocked hs.1, (h.issues_nothing hs.1).trans hs.2⟩
  exact ⟨hissued.2, fun nonce name => hissued.1.inviteCode nonce name⟩

theorem mock_room_conforms_ready : ∃ s : Room, s.invite = some ⟨fakeAddress, roomPort, 300⟩ ∧
    s.issued = [] ∧ ∀ nonce name, s.inviteCode .standard nonce name = .error .shuttingDown ∨
      s.inviteCode .standard nonce name =
        .error (.connection "invite generation only available on hub") ∨
      s.inviteCode .standard nonce name =
        .error (.invalidInvite "address must end with .onion") := by
  have hrun : Run (MockStep .standard ⟨"host", 300⟩) (Room.initMock 0) [] _ := .nil
  have hrun := hrun.snoc (l := .host .sendReady) (.host (.sendReady rfl ⟨rfl, by decide⟩))
  have hrun := hrun.snoc (l := .host .publishInvite) (.host (.publishInvite rfl))
  exact ⟨_, rfl, (mock_room_conforms .standard ⟨"host", 300⟩ 0 _ _).2 hrun⟩

end Nullpipe

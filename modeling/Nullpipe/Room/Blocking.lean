import Nullpipe.Room.Quit
import Nullpipe.Room.Alignment
import Nullpipe.Hub.Admit

/-!
# Peers that stop reading

A peer may leave a read or a write of the hub pending for ever.  The handler is safe
from it where a timeout or the shutdown signal ends the wait.  Two waits have neither:
the write of the reject byte, during which the lock on the used nonces is held, and the
write of the join notice, which the peer's entry in the map outlives.

That a peer cannot hold up the others is said with steps in which its stream takes no part
(`HandlerLabel.OnPeer`).

* The lock: whoever holds it has such a step, at once or when a timeout fires (`GoesOn`).
* The map: in a room that was told to shut down a registered handler has such a step that
  brings it nearer to its deregistration (`GoesToLeave`, with `Handler.toGo` as measure).

`Room.Unblocked` asks for both.  It fails in the two waits
(`not_goesOn_of_rejecting`, `not_goesToLeave_of_notifying`), and nowhere else: the lock is
held by nobody but a handler that writes a reject byte (`LockHeld`), and
`RoomReachable.goesToLeave` goes through the phases of a registered handler.  So
`RoomReachable.unblocked_iff` is an equivalence in every reachable state.  The handshakes of
`hub.rs` have the lock and the first wait; there the same argument gives `Hub.unblocked_iff`.

`stalled_peers_block` reaches the two waits, and `peers_cannot_block_interrupted` a room and a
hub that no peer holds up although a nonce is about to be checked.
-/

namespace Nullpipe

open Channel Room Transition

variable {X : Crates} {cfg : HostConfig} {c : ConnId} {s t : Room} {info : PeerInfo}

/-! ## The room: steps without the peer -/

/-- The stream of the peer takes part in the step. -/
def HandlerLabel.OnPeer : HandlerLabel → Prop
  | .read _ | .readFail _ | .write _ | .writeFail _ | .flush | .flushFail _ => True
  | _ => False

/-- The room after some time. -/
def Room.later (s : Room) (d : ℕ) : Room := { s with now := s.now + d }

/-- The handler of `c` has a step without its peer, at once or when a timeout fires. -/
def Room.GoesOn (X : Crates) (c : ConnId) (s : Room) : Prop :=
  ∃ d l t, ¬ HandlerLabel.OnPeer l ∧ HandlerStep X c l (s.later d) t

/-- How far a registered handler is from the end of its entry in the map. -/
def Handler.toGo : Handler → ℕ
  | .emitJoin _ => 7
  | .notifyJoin .. => 6
  | .spawnReader _ => 5
  | .subscribe _ => 4
  | .serve _ => 3
  | .abortWriter _ => 2
  | .deregister _ => 1
  | _ => 0

/-- The handler of `c` has a step without its peer that leads towards deregistration. -/
def Room.GoesToLeave (X : Crates) (c : ConnId) (s : Room) : Prop :=
  ∃ d l t, ¬ HandlerLabel.OnPeer l ∧ HandlerStep X c l (s.later d) t ∧
    (t.conns c).handler.toGo < (s.conns c).handler.toGo

/-- The handler of `c` has registered its peer, and the entry is in the map. -/
def Room.HasEntry (s : Room) (c : ConnId) (info : PeerInfo) : Prop :=
  (s.conns c).handler.registered = some info ∧ s.peers info.id = some info

/-- No peer can hold up the lock on the used nonces, nor an entry in the map once the
room is told to shut down. -/
structure Room.Unblocked (X : Crates) (s : Room) : Prop where
  lock : ∀ c, s.nonceLock = some c → s.GoesOn X c
  entries : s.Signalled → ∀ c info, s.HasEntry c info → s.GoesToLeave X c

/-- The room at a moment when no peer can hold it up: no reject byte is being written
and, once the room is told to shut down, no join notice of a peer in the map. -/
def Room.Unobstructed (s : Room) : Prop :=
  s.nonceLock = none ∧ (s.Signalled → ∀ c info rest,
    (s.conns c).handler = .notifyJoin info rest → s.peers info.id ≠ some info)

/-- A handler that writes the reject byte waits for its peer. -/
theorem not_goesOn_of_rejecting {rest : List UInt8}
    (hphase : (s.conns c).handler = .rejectReused rest) : ¬ s.GoesOn X c := by
  rintro ⟨d, l, t, hfree, hstep⟩
  cases hstep with
  | writeReject | rejectFail => exact hfree trivial
  | _ hother => cases hphase.symm.trans hother

/-- A handler that writes the join notice waits for its peer. -/
theorem not_goesToLeave_of_notifying {rest : List UInt8}
    (hphase : (s.conns c).handler = .notifyJoin info rest) : ¬ s.GoesToLeave X c := by
  rintro ⟨d, l, t, hfree, hstep, -⟩
  cases hstep with
  | writeNotice | noticeFail => exact hfree trivial
  | _ hother => cases hphase.symm.trans hother

theorem toGo_afterEmitJoin (json : SerdeJson) (info : PeerInfo) :
    (afterEmitJoin json info).toGo < 7 :=
  afterEmitJoin_cases (P := fun handler => handler.toGo < 7) (fun _ => Nat.lt_succ_self 6)
    (Nat.lt_of_lt_of_le (Nat.lt_succ_self 5) (Nat.le_succ 6)) json

/-- **Every other registered handler leaves a room that is told to shut down.** -/
theorem RoomReachable.goesToLeave (hs : RoomReachable X cfg s) (hsignal : s.Signalled)
    (hentry : (s.conns c).handler.registered = some info)
    (hnotice : ∀ rest, (s.conns c).handler ≠ .notifyJoin info rest) : s.GoesToLeave X c := by
  have hseen := hs.unseen c
  cases hk : (s.conns c).handler with
  | emitJoin =>
      refine ⟨0, .emitJoin, _, id, .emitJoin hk, ?_⟩
      rw [hk, conns_setConn_self]
      exact toGo_afterEmitJoin ..
  | notifyJoin =>
      -- the wait for the peer that the hypothesis excludes
      rw [hk] at hentry
      cases hentry
      exact absurd hk (hnotice _)
  | spawnReader =>
      refine ⟨0, .spawnReader, _, id, .spawnReader hk, ?_⟩
      rw [hk, conns_setConn_self]
      exact Nat.lt_succ_self 4
  | subscribe =>
      refine ⟨0, .subscribe, _, id, .subscribe hk, ?_⟩
      rw [hk, conns_setConn_self]
      exact Nat.lt_succ_self 3
  | serve =>
      -- the only wait, and by `Unseen` the signal is there for it
      have hready : s.ShutdownReady (s.conns c).watchSeen := by
        rw [hseen (by rw [hk]; exact id)]
        exact hsignal
      refine ⟨0, .shutdown, _, id, .shutdown hk hready, ?_⟩
      rw [hk, conns_setConn_self]
      exact Nat.lt_succ_self 2
  | abortWriter =>
      refine ⟨0, .abortWriter, _, id, .abortWriter hk, ?_⟩
      rw [hk, conns_setConn_self]
      exact Nat.lt_succ_self 1
  | deregister =>
      refine ⟨0, .deregister, _, id, .deregister hk, ?_⟩
      rw [hk, conns_setConn_self]
      exact Nat.lt_succ_self 0
  | _ =>
      rw [hk] at hentry
      cases hentry

/-- What it takes that nobody can hold up the room: no reject byte and, once the room
is told to shut down, no join notice is being written. -/
theorem RoomReachable.unblocked_iff (hs : RoomReachable X cfg s) :
    s.Unblocked X ↔ s.Unobstructed := by
  constructor
  · rintro ⟨hlock, hentries⟩
    refine ⟨?_, fun hsignal c info rest hphase hentry => ?_⟩
    · cases hholder : s.nonceLock with
      | none => rfl
      | some c =>
          obtain ⟨rest, hreject⟩ := hs.lockHeld c hholder
          exact absurd (hlock c hholder) (not_goesOn_of_rejecting hreject)
    · have hregistered : (s.conns c).handler.registered = some info := by
        rw [hphase]
        rfl
      exact not_goesToLeave_of_notifying hphase (hentries hsignal c info ⟨hregistered, hentry⟩)
  · rintro ⟨hfree, hnotices⟩
    refine ⟨fun c hholder => ?_, fun hsignal c info hentry => ?_⟩
    · rw [hfree] at hholder
      cases hholder
    · exact hs.goesToLeave hsignal hentry.1 fun rest hphase =>
        hnotices hsignal c info rest hphase hentry.2
/-! ## The handshakes of `hub.rs` -/

namespace Hub

/-- The stream of the peer takes part in the step. -/
def PhaseLabel.OnPeer : PhaseLabel → Prop
  | .read _ | .readEof | .readFail _ | .write _ | .writeFail _ | .flush | .flushFail _
  | .use .. => True
  | _ => False

/-- The hub after some time. -/
def HubState.later (s : HubState) (d : ℕ) : HubState := { s with now := s.now + d }

/-- The handshake of `c` has a step without its peer, at once or when a timeout fires. -/
def HubState.GoesOn (X : Crates) (c : ConnId) (s : HubState) : Prop :=
  ∃ d l t, ¬ PhaseLabel.OnPeer l ∧ PhaseStep X c l (s.later d) t

/-- No peer can hold up the lock on the used nonces. -/
def HubState.Unblocked (X : Crates) (s : HubState) : Prop :=
  ∀ c, s.nonceLock = some c → s.GoesOn X c

/-- Who holds the lock is writing a reject byte. -/
def HubState.LockHeld (s : HubState) : Prop :=
  ∀ c, s.nonceLock = some c → ∃ rest, (s.conns c).phase = .rejectReused rest

theorem PhaseStep.lockHeld {s t : HubState} {l : PhaseLabel} (h : PhaseStep X c l s t)
    (hs : s.LockHeld) : t.LockHeld := by
  intro d hlock
  have hother : s.nonceLock = some d → d ≠ c →
      ∃ rest, (t.conns d).phase = .rejectReused rest := fun hbefore hd => by
    rw [h.conns_of_ne hd]
    exact hs d hbefore
  have hown : s.nonceLock = some d → d = c →
      ∃ rest, (s.conns c).phase = .rejectReused rest := fun hbefore hd => hd ▸ hs d hbefore
  cases h with
  | refuseNonce =>
      cases hlock
      exact ⟨_, by rw [HubState.conns_setConn_self]⟩
  -- the last chunk of the reject byte releases the lock
  | @writeReject _ chunk rest =>
      dsimp only at hlock
      split at hlock
      · cases hlock
      · rename_i hrest
        by_cases hd : d = c
        · refine ⟨rest, ?_⟩
          rw [hd, HubState.conns_setConn_self]
          exact if_neg hrest
        · exact hother hlock hd
  | rejectFail => cases hlock
  | start hphase | read hphase | readEof hphase | readFail hphase | readTimeout hphase
  | writeEof hphase | eofFail hphase | insertNonce hphase | writeAccept hphase
  | acceptFail hphase | acceptTimeout hphase | flushAccept hphase | flushFail hphase
  | flushTimeout hphase | use hphase =>
      by_cases hd : d = c
      · obtain ⟨rest, hreject⟩ := hown hlock hd
        rw [hreject] at hphase
        cases hphase
      · exact hother hlock hd

theorem HubStep.lockHeld {s t : HubState} {l : HubLabel} (h : HubStep X l s t)
    (hs : s.LockHeld) : t.LockHeld := by
  by_cases hl : ∃ c l', l = .handshake c l'
  · obtain ⟨c, l', rfl⟩ := hl
    cases h with
    | handshake h => exact h.lockHeld hs
  · push Not at hl
    intro c hlock
    have hsame : t.nonceLock = s.nonceLock := by
      cases h with
      | handshake => exact absurd rfl (hl _ _)
      | arrive | finish | tick => rfl
    rw [hsame] at hlock
    obtain ⟨rest, hreject⟩ := hs c hlock
    exact ⟨rest, (h.frame (hl c)).1.trans hreject⟩

/-- A handshake that writes the reject byte under the lock waits for its peer. -/
theorem not_goesOn_of_rejecting {s : HubState} {rest : List UInt8}
    (hphase : (s.conns c).phase = .rejectReused rest) : ¬ s.GoesOn X c := by
  rintro ⟨d, l, t, hfree, hstep⟩
  cases hstep with
  | writeReject | rejectFail => exact hfree trivial
  | _ hother => cases hphase.symm.trans hother

theorem unblocked_iff {s : HubState} {now : ℕ}
    (hreach : Reachable (HubStep X) (HubState.init now) s) :
    s.Unblocked X ↔ s.nonceLock = none := by
  have hheld : s.LockHeld := hreach.invariant (I := HubState.LockHeld)
    (fun _ hlock => by cases hlock) fun hs h => HubStep.lockHeld h hs
  constructor
  · intro hlock
    cases hholder : s.nonceLock with
    | none => rfl
    | some c =>
        obtain ⟨rest, hreject⟩ := hheld c hholder
        exact absurd (hlock c hholder) (not_goesOn_of_rejecting hreject)
  · intro hfree c hholder
    rw [hfree] at hholder
    cases hholder

end Hub

/-! ### A client at the check of its nonce -/

/-- The steps from the connection of a client to the check of its nonce. -/
def checkLabels (c : ConnId) (nonce discriminator : Bytes16) : List Label :=
  [.accept (.accept c), .net c (.arrive (nonce.val ++ discriminator.val)), .handler c .start,
    .handler c (.read (nonce.val ++ discriminator.val))]

/-- A room with a further client that is about to have its nonce checked. -/
def Room.checking (s : Room) (c : ConnId) (nonce discriminator : Bytes16) : Room :=
  s.setConn c (.greeting s.acceptSeen ⟨nonce.val ++ discriminator.val, [], none, [], 0⟩
    (.lockNonces nonce discriminator))

/-- **A client that sends its 32 bytes comes to the check.** -/
theorem run_check {nonce : Bytes16} (discriminator : Bytes16) (haccept : s.accept = .running)
    (hready : ¬ s.ShutdownReady s.acceptSeen) (hfresh : s.conns c = Conn.fresh) :
    RoomRun X cfg s (checkLabels c nonce discriminator) (s.checking c nonce discriminator) := by
  let hello := nonce.val ++ discriminator.val
  have hrun : RoomRun X cfg s _ (s.setConn c (.greeting s.acceptSeen .fresh .spawned)) :=
    .single (.accept (l := .accept c) (by
      have hstep := AcceptStep.accept haccept hready (by rw [hfresh]; rfl)
      rwa [hfresh] at hstep))
  have hrun := hrun.extend
    (v := s.setConn c (.greeting s.acceptSeen ⟨[], hello, none, [], 0⟩ .spawned))
    (.net (c := c) (l := .arrive hello) (.arrive (by rw [conns_setConn_self]; rfl)))
    (by simp only [conns_setConn_self, setConn_setConn]; rfl)
  have hrun := hrun.extend
    (v := s.setConn c (.greeting s.acceptSeen ⟨[], hello, none, [], 0⟩
      (.readHandshake [] (s.now + readTimeout))))
    (.handler (c := c) (l := .start) (.start (by rw [conns_setConn_self]; rfl)))
    (by simp only [conns_setConn_self, setConn_setConn]; rfl)
  have hlen : hello.length = handshakeLen := by
    rw [List.length_append, nonce.property, discriminator.property]
    rfl
  have htake : Socket.CanTake ⟨[], hello, none, [], 0⟩ hello :=
    ⟨List.ne_nil_of_length_pos (by rw [hlen]; decide), List.prefix_refl _⟩
  exact hrun.extend
    (.handler (c := c) (l := .read hello) (.readHandshake (by rw [conns_setConn_self]; rfl)
      (by rw [conns_setConn_self]; exact htake) (by rw [hlen]; exact Nat.le_refl _)))
    (by
      simp only [conns_setConn_self, setConn_setConn, List.nil_append, hello, Room.checking,
        handshakeRead_full, Conn.greeting, Socket.take, List.drop_length])

/-- Ann's room, told to shut down while bob's nonce is about to be checked. -/
def Room.interrupted : Room :=
  { Room.visited.checking 1 (.fill 1) (.fill 8) with quitFlag := true, watchVersion := 1 }

theorem reachable_interrupted : RoomReachable .standard ⟨"host", 300⟩ Room.interrupted := by
  have hchecking : RoomRun .standard ⟨"host", 300⟩ Room.visited _
      (Room.visited.checking 1 (.fill 1) (.fill 8)) :=
    run_check (.fill 8) rfl (by decide) (conns_visited Nat.one_ne_zero)
  have hrun := ((run_arrive.append (.single step_arrive)).append run_visit).append hchecking
  exact ⟨0, ((hrun.snoc (.user (.quitFlag rfl))).snoc (.user (.quitSend rfl rfl rfl))).reachable⟩

/-- In `hub.rs`: a peer is admitted, and a second one is at the check of its nonce. -/
def Hub.HubState.checking : Hub.HubState :=
  (((Hub.HubState.init 0).accepted .standard 0 (.fill 0) (.fill 7)).setConn 1
    ⟨⟨(Bytes16.fill 1).val ++ (Bytes16.fill 8).val, [], none, [], 0⟩,
      .lockNonces (.fill 1) (.fill 8)⟩)

theorem Hub.run_checking : ∃ ls, Run (Hub.HubStep .standard) (.init 0) ls
    Hub.HubState.checking := by
  have haccepted : Run (Hub.HubStep .standard) (.init 0) _
      ((Hub.HubState.init 0).accepted .standard 0 (.fill 0) (.fill 7)) :=
    Hub.run_accept (.fill 7) rfl rfl (Finset.notMem_empty _)
  exact ⟨_, haccepted.append (Hub.run_check (.fill 1) (.fill 8) rfl)⟩

/-! ## The two hubs -/

/-- **What a peer that stops reading can hold up**, in the room and in `hub.rs`. -/
theorem peers_cannot_block_iff (X : Crates) (cfg : HostConfig) :
    (∀ s, RoomReachable X cfg s → (s.Unblocked X ↔ s.Unobstructed)) ∧
      ∀ now s, Reachable (Hub.HubStep X) (Hub.HubState.init now) s →
        (s.Unblocked X ↔ s.nonceLock = none) :=
  ⟨fun _ hs => hs.unblocked_iff, fun _ _ hreach => Hub.unblocked_iff hreach⟩

theorem peers_cannot_block_interrupted :
    (Room.interrupted.Signalled ∧ Room.interrupted.HasEntry 0 ann ∧
      (Room.interrupted.conns 1).handler = .lockNonces (.fill 1) (.fill 8) ∧
      Room.interrupted.Unblocked .standard) ∧
    (Hub.HubState.checking.conns 0).phase =
        .admitted (peerId .standard (.fill 7)) (Hub.peerName .standard (.fill 7)) ∧
      (Hub.HubState.checking.conns 1).phase = .lockNonces (.fill 1) (.fill 8) ∧
      Hub.HubState.checking.Unblocked .standard := by
  have hunobstructed : Room.interrupted.Unobstructed := by
    refine ⟨rfl, fun _ c info rest hphase => ?_⟩
    -- ann is served, bob is not registered, and there is nobody else
    by_cases hbob : c = 1
    · rw [hbob] at hphase
      cases hphase
    · have hvisited : Room.interrupted.conns c = Room.visited.conns c :=
        conns_setConn_of_ne _ _ _ _ hbob
      rw [hvisited] at hphase
      by_cases hann : c = 0
      · rw [hann] at hphase
        cases hphase
      · rw [conns_visited hann] at hphase
        cases hphase
  obtain ⟨ls, hrun⟩ := Hub.run_checking
  exact ⟨⟨.inl Nat.one_ne_zero, ⟨rfl, peers_visited⟩, rfl,
      ((peers_cannot_block_iff .standard ⟨"host", 300⟩).1 _ reachable_interrupted).mpr
        hunobstructed⟩, rfl, rfl,
    ((peers_cannot_block_iff .standard ⟨"host", 300⟩).2 0 _ hrun.reachable).mpr rfl⟩

/-! ### Peers that stop reading -/

/-- A client that presents a used nonce is refused under the lock. -/
theorem exists_run_refuse {nonce : Bytes16} (discriminator : Bytes16)
    (haccept : s.accept = .running)
    (hready : ¬ s.ShutdownReady s.acceptSeen) (hfresh : s.conns c = Conn.fresh)
    (hlock : s.nonceLock = none) (hnonce : nonce ∈ s.used) :
    ∃ ls t, RoomRun X cfg s ls t ∧ t.nonceLock = some c ∧
      (t.conns c).handler = .rejectReused [1] := by
  have hrun : RoomRun X cfg s (checkLabels c nonce discriminator)
      (s.checking c nonce discriminator) :=
    run_check discriminator haccept hready hfresh
  have hrefuse : HandlerStep X c .refuseNonce (s.checking c nonce discriminator) _ :=
    .refuseNonce (by rw [Room.checking, conns_setConn_self]; rfl) hlock hnonce
  refine ⟨_, _, hrun.snoc (.handler hrefuse), rfl, ?_⟩
  simp only [conns_setConn_self]

namespace Hub

/-- Two clients present one nonce. -/
theorem exists_run_refuse (X : Crates) :
    ∃ ls t, Run (HubStep X) (HubState.init 0) ls t ∧ t.nonceLock = some 1 ∧
      (t.conns 1).phase = .rejectReused [1] := by
  have hfirst := run_check (X := X) (c := 0) (.fill 0) (.fill 7) (s := HubState.init 0) rfl
  generalize hv : (HubState.init 0).setConn 0 _ = v at hfirst
  have hfresh : Bytes16.fill 0 ∉ v.used := by
    rw [← hv]
    exact Finset.notMem_empty _
  have hinsert : PhaseStep X 0 .insertNonce v _ :=
    .insertNonce (by rw [← hv, HubState.conns_setConn_self]) (by rw [← hv]; rfl) hfresh
  have hrun := hfirst.snoc (.handshake hinsert)
  generalize hu : HubState.mk _ _ _ _ = u at hrun
  have hidle : u.conns 1 = ⟨.fresh, .idle⟩ := by
    rw [← hu, ← hv]
    rfl
  have hsecond := run_check (X := X) (.fill 0) (.fill 7) hidle
  have hused : Bytes16.fill 0 ∈ u.used := by
    rw [← hu]
    exact Finset.mem_insert_self ..
  have hrun := hrun.append hsecond
  generalize hw : u.setConn 1 _ = w at hrun
  have hrefuse : PhaseStep X 1 .refuseNonce w _ :=
    .refuseNonce (by rw [← hw, HubState.conns_setConn_self]) (by rw [← hw, ← hu, ← hv]; rfl)
      (by rw [← hw]; exact hused)
  refine ⟨_, _, hrun.snoc (.handshake hrefuse), rfl, ?_⟩
  rw [HubState.conns_setConn_self]

end Hub

theorem peers_registered (s : Room) (c : ConnId) (info : PeerInfo) :
    (s.registered c info).peers info.id = some info := Function.update_self ..

/-- Each of the two unguarded waits holds up a hub: a client that does not read its
reject byte, in the room and in `hub.rs`, and ann, who does not read her join notice
when the host quits. -/
theorem stalled_peers_block :
    (∃ s, RoomReachable .standard ⟨"host", 300⟩ s ∧
      ∃ c, s.nonceLock = some c ∧ ¬ s.GoesOn .standard c) ∧
    (∃ s, RoomReachable .standard ⟨"host", 300⟩ s ∧ s.Signalled ∧
      ∃ c info, s.HasEntry c info ∧ ¬ s.GoesToLeave .standard c) ∧
    (∃ s, Reachable (Hub.HubStep .standard) (Hub.HubState.init 0) s ∧
      ∃ c, s.nonceLock = some c ∧ ¬ s.GoesOn .standard c) := by
  refine ⟨?_, ?_, ?_⟩
  · obtain ⟨ls, t, hrun, hlock, hphase⟩ := exists_run_refuse (X := .standard)
      (s := Room.uninvited) (c := 1) (.fill 7) rfl (by decide) rfl rfl
      (show Bytes16.fill 0 ∈ Room.uninvited.used from Finset.mem_insert_self ..)
    exact ⟨t, Room.reachable_uninvited.run hrun, 1, hlock, not_goesOn_of_rejecting hphase⟩
  · have hrun := run_announce.snoc (.user (.quitFlag rfl))
    have hrun := hrun.snoc (.user (.quitSend rfl rfl rfl))
    have hentry : Room.announcing.peers (peerId .standard (.fill 7)) =
        some ⟨peerId .standard (.fill 7), "ann", 0⟩ :=
      peers_registered ((Room.opened ⟨"host", 300⟩ 0 "room.onion").greeted .standard 0
        (.fill 0) (.fill 7) "ann") 0 ⟨peerId .standard (.fill 7), "ann", 0⟩
    exact ⟨_, ⟨0, hrun.reachable⟩, .inl Nat.one_ne_zero, 0, _, ⟨rfl, hentry⟩,
      not_goesToLeave_of_notifying rfl⟩
  · obtain ⟨ls, t, hrun, hlock, hphase⟩ := Hub.exists_run_refuse .standard
    exact ⟨t, hrun.reachable, 1, hlock, Hub.not_goesOn_of_rejecting hphase⟩

end Nullpipe

import Nullpipe.Cli.Window
import Nullpipe.Room.Lifecycle
import Nullpipe.Room.Texts

/-!
# The application of a host

The terminal of `chat host` with its room.  `hostSide` is the hosted room behind its handle: the
calls of the terminal are steps of its users, and nobody else puts texts on its send channel or
takes its events (`Step.keeps_users`).  A run of the application is then a run of the room with
the terminal as its only user (`HostAppStep.room_step`), so what is known of rooms holds here.

* `only_typed_lines`: what the room broadcasts was typed.  This is the ledger of `Desk.lean` and
  the accounts of the room, one behind the other.
* `typing_window`: the input line is unlocked from the moment the room is ready until it is
  closed.  For `Window.lean` the room has to be orderly, which is what the life cycle of a host
  says about its first event (`orderly_hostSide`); that an event which unlocks the line comes
  behind the news that the room is ready is `RoomReachable.toldReady`.
-/

namespace Nullpipe

open Channel Room Transition

variable {X : Crates} {cfg : HostConfig} {checks : Bool}

/-! ## The room behind the handle -/

/-- The user of the room that makes the call. -/
def HandleCall.user : HandleCall → UserLabel
  | .takeEvent => .takeEvent
  | .send text => .send text
  | .quitFlag => .quitFlag
  | .quitSend => .quitSend

/-- Every sender of the event stream is gone: those of the host loop, of the accept loop and
of the handlers. -/
def Room.EventsOver (s : Room) : Prop :=
  s.host = .ended ∧ s.accept ≠ .running ∧ ∀ c, (s.conns c).handler.Over

/-- `invite` returns a code, or an error; the quit flag may be set when it has been looked
at. -/
inductive Invites (X : Crates) (nonce : Bytes16) (name : Option String) (s : Room) :
    Room → Except ChatError String → Prop
  | code {info : InviteInfo} {code : String} {t : Room} (hinfo : s.invite = some info)
      (hcode : encodeInvite X (s.invitePayload info nonce name) = .ok code)
      (hroom : UserStep X (.invite nonce name) s t) : Invites X nonce name s t (.ok code)
  | refused {e : ChatError} (hcode : s.inviteCode X nonce name = .error e) :
      Invites X nonce name s s (.error e)
  | late {e : ChatError} (hquit : s.quitFlag = true)
      (hcode : { s with quitFlag := false }.inviteCode X nonce name = .error e) :
      Invites X nonce name s s (.error e)

variable {s t : Room}

theorem UserStep.sendQ_sent {l : HandleCall} (h : UserStep X l.user s t) :
    t.sendQ.sent = s.sendQ.sent ++ l.texts := by
  cases l with
  | send text =>
      cases h
      exact Mpsc.sent_push ..
  | takeEvent | quitFlag | quitSend =>
      cases h
      exact (List.append_nil _).symm

theorem UserStep.listen {l : HandleCall} (h : UserStep X l.user s t) :
    t.events = l.listen s.events := by
  cases l <;> cases h <;> rfl

theorem Invites.keeps {nonce : Bytes16} {name : Option String} {answer : Except ChatError String}
    (h : Invites X nonce name s t answer) :
    t.sendQ.sent = s.sendQ.sent ∧ t.events = s.events := by
  cases h with
  | code _ _ hroom =>
      cases hroom
      exact ⟨rfl, rfl⟩
  | refused | late => exact ⟨rfl, rfl⟩

/-- Only the users put texts on the send channel, take events and close their stream. -/
theorem Step.keeps_users {l : Label} (h : Step X cfg l s t) (hl : ∀ l', l ≠ .user l') :
    t.sendQ.sent = s.sendQ.sent ∧ t.events.received = s.events.received ∧
      t.events.isOpen = s.events.isOpen := by
  cases h with
  | user => exact absurd rfl (hl _)
  | host h =>
      cases h with
      | takeText | failedTakeText => exact ⟨Mpsc.sent_pop _, rfl, rfl⟩
      | echo | close | failedClose =>
          exact ⟨rfl, Mpsc.received_trySend .., Mpsc.isOpen_trySend ..⟩
      | deliver =>
          dsimp only [deliverEvent]
          split
          · exact ⟨rfl, Mpsc.received_trySend .., Mpsc.isOpen_trySend ..⟩
          · exact ⟨rfl, rfl, rfl⟩
      | _ => exact ⟨rfl, rfl, rfl⟩
  | accept h => cases h <;> exact ⟨rfl, rfl, rfl⟩
  | handler h =>
      cases h with
      | emitJoin | emitLeave => exact ⟨rfl, Mpsc.received_trySend .., Mpsc.isOpen_trySend ..⟩
      | _ => exact ⟨rfl, rfl, rfl⟩
  | reader h => cases h <;> exact ⟨rfl, rfl, rfl⟩
  | writer h => cases h <;> exact ⟨rfl, rfl, rfl⟩
  | net h => cases h <;> exact ⟨rfl, rfl, rfl⟩
  | tick => exact ⟨rfl, rfl, rfl⟩

/-- A hosted room behind its handle. -/
def hostSide (X : Crates) (cfg : HostConfig) : RoomSide Room Label where
  now := Room.now
  events := Room.events
  sent s := s.sendQ.sent
  Over := Room.EventsOver
  Quit s := s.quitFlag = true
  Deaf s := s.sendQ.isOpen = false
  call l s t := UserStep X l.user s t
  invite nonce name s t answer := Invites X nonce name s t answer
  Lists s peers := peers.Nodup ∧ ∀ info, info ∈ peers ↔ ∃ p, s.peers p = some info
  move l s t := Step X cfg l s t ∧ ∀ l', l ≠ .user l'
  sent_call h := h.sendQ_sent
  events_call h := h.listen
  invite_keeps h := h.keeps
  move_keeps h := h.1.keeps_users h.2

/-- The steps of the host's application. -/
abbrev HostAppStep (X : Crates) (cfg : HostConfig) (checks : Bool) :
    StationLabel Label → Station Room → Station Room → Prop :=
  StationStep (hostSide X cfg) checks

/-- The host's application when the Tor client is up. -/
def HostApp.start (timestamps : Bool) (progress : UInt8) (msg : String) (now : ℕ) : Station Room :=
  ⟨.start timestamps progress msg, .init now⟩

variable {a b : Station Room} {l : StationLabel Label} {ls : List (StationLabel Label)}

/-! ## The room of the application -/

/-- The terminal is one of the users of the room. -/
theorem HostAppStep.user_step (h : HostAppStep X cfg checks l a b) (hl : l.AtTerminal) :
    b.room = a.room ∨ ∃ k, UserStep X k a.room b.room := by
  cases h with
  | event _ _ hroom | send _ hroom | quitFlag _ hroom | quitSend _ hroom => exact .inr ⟨_, hroom⟩
  | invite _ hroom =>
      cases hroom with
      | code _ _ hroom => exact .inr ⟨_, hroom⟩
      | refused | late => exact .inl rfl
  | own => exact absurd hl id
  | key | noEvent | result | tick | sendRefused | peers | quitDone => exact .inl rfl

/-- The room of the application takes a step of a room, or none. -/
theorem HostAppStep.room_step (h : HostAppStep X cfg checks l a b) :
    b.room = a.room ∨ ∃ k, Step X cfg k a.room b.room := by
  by_cases hl : l.AtTerminal
  · exact (h.user_step hl).imp_right fun ⟨k, hroom⟩ => ⟨.user k, .user hroom⟩
  · cases h with
    | own hroom => exact .inr ⟨_, hroom.1⟩
    | _ => exact absurd trivial hl

theorem hostApp_reachable {timestamps : Bool} {progress : UInt8} {msg : String} {now : ℕ}
    (hrun : Run (HostAppStep X cfg checks) (HostApp.start timestamps progress msg now) ls a) :
    RoomReachable X cfg a.room := by
  obtain ⟨ks, hroom⟩ := hrun.project Station.room fun h => HostAppStep.room_step h
  exact ⟨now, ks, hroom⟩

/-! ## What is sent was typed -/

/-- A step of the host loop. -/
theorem HostAppStep.ofHost {k : HostLabel} {r : Room} (h : HostStep cfg k a.room r) :
    HostAppStep X cfg checks (.own (.host k)) a { a with room := r } :=
  .own ⟨.host h, fun _ heq => nomatch heq⟩

/-- A key with no modifier. -/
def KeyEvent.plain (code : KeyCode) : KeyEvent := ⟨code, 0⟩

/-- The host types `hi`, and the room broadcasts it. -/
theorem run_hi : ∃ ls s,
    Run (HostAppStep .standard ⟨"host", 300⟩ true) (HostApp.start false 100 "tor is up" 0) ls s ∧
    s.lines = ["hi"] ∧ s.room.bcast = [.chat "host" "hi"] ∧ s.tui.mode = .running ∧
    s.room.events.received = [.roomReady "room.onion" 80] ∧ .noEvent ∉ ls := by
  have hrun : Run (HostAppStep .standard ⟨"host", 300⟩ true)
    (HostApp.start false 100 "tor is up" 0) [] _ := .nil
  have hrun := hrun.snoc (l := .own (.host (.created "room.onion"))) (.ofHost (.created rfl))
  have hrun := hrun.snoc (l := .own (.host .sendReady))
    (.ofHost (.sendReady rfl ⟨rfl, by decide⟩))
  have hrun := hrun.snoc (l := .own (.host .publishInvite)) (.ofHost (.publishInvite rfl))
  have hrun := hrun.snoc (l := .own (.host .spawnAccept)) (.ofHost (.spawnAccept rfl))
  have hrun := hrun.snoc (l := .event)
    (.event rfl rfl (UserStep.takeEvent rfl) (.event rfl))
  have hrun := hrun.snoc (l := .key (.plain (.char 'h'))) (.key rfl (.key rfl))
  have hrun := hrun.snoc (l := .key (.plain (.char 'i'))) (.key rfl (.key rfl))
  have hrun := hrun.snoc (l := .key (.plain .enter)) (.key rfl (.key rfl))
  have hrun := hrun.snoc (l := .send "hi")
    (@StationStep.send _ _ _ _ _ _ [] [] _ rfl (UserStep.send rfl ⟨rfl, by decide⟩))
  have hrun := hrun.snoc (l := .own (.host (.takeText "hi")))
    (.ofHost (.takeText rfl (by decide) rfl))
  have hrun := hrun.snoc (l := .own (.host .echo)) (.ofHost (.echo rfl))
  have hrun := hrun.snoc (l := .own (.host (.broadcast (.chat "host" "hi"))))
    (.ofHost (.broadcast rfl))
  exact ⟨_, _, hrun, rfl, rfl, rfl, rfl, by simp⟩

/-- **Nothing is sent that was not typed.**  What the room broadcasts to the guests, and what
the host is shown as its own messages, are lines that were entered at its keyboard, each at
most as often as it was entered; none of them is empty or a command. -/
theorem only_typed_lines (X : Crates) (cfg : HostConfig) (checks timestamps : Bool)
    (progress : UInt8) (msg : String) (now : ℕ) (ls : List (StationLabel Label))
    (s : Station Room)
    (hrun : Run (HostAppStep X cfg checks) (HostApp.start timestamps progress msg now) ls s) :
    (∃ told : List String, s.room.bcast = told.map (.chat cfg.name) ∧ told.Subperm s.lines) ∧
      (∃ shown : List String, messagesFrom hubId s.room.events.sent = shown.map (.chat cfg.name) ∧
        shown.Subperm s.lines) ∧
      ∀ line ∈ s.lines, line ≠ "" ∧ line.toList.head? ≠ some '/' := by
  have hledger := RoomSide.ledger_of_run hrun rfl
  have hreach := hostApp_reachable hrun
  have htaken : s.room.sendQ.received.Subperm s.lines := hledger.taken (List.prefix_append _ _)
  obtain ⟨told, hlog, haccount⟩ := hreach.account
  obtain ⟨shown, hevents, hshown⟩ := hreach.shows
  exact ⟨⟨told, hlog, haccount.prefix.sublist.subperm.trans htaken⟩, ⟨shown, hevents,
    ((List.sublist_append_left _ _).trans hshown).subperm.trans htaken⟩, hledger.lines⟩

theorem only_typed_lines_hi : ∃ s : Station Room,
    s.lines = ["hi"] ∧ s.room.bcast = [.chat "host" "hi"] ∧
    (∃ told : List String, s.room.bcast = told.map (.chat "host") ∧ told.Subperm s.lines) ∧
      (∃ shown : List String, messagesFrom hubId s.room.events.sent = shown.map (.chat "host") ∧
        shown.Subperm s.lines) ∧
      ∀ line ∈ s.lines, line ≠ "" ∧ line.toList.head? ≠ some '/' := by
  obtain ⟨ls, s, hrun, hlines, hbcast, -⟩ := run_hi
  exact ⟨s, hlines, hbcast, only_typed_lines .standard ⟨"host", 300⟩ true false 100 "tor is up" 0
    ls s hrun⟩

/-! ## The window for typing -/

/-- A hosted room tells first of all that it is ready, or why it is not there. -/
theorem orderly_hostSide (X : Crates) (cfg : HostConfig) :
    (hostSide X cfg).Orderly (RoomReachable X cfg) where
  call hs h := hs.run (.single (.user h))
  invite hs h := by
    cases h with
    | code _ _ hroom => exact hs.run (.single (.user hroom))
    | refused | late => exact hs
  move hs h := hs.run (.single h.1)
  first {r before addr port rest} hs hopen hsent := by
    have hstory := (hs.chapter hopen).story
    rw [show r.events.sent = _ from hsent] at hstory
    rcases hstory.next with ⟨hnone, -⟩ | hclosed | ⟨hlive, -⟩
    · exact hnone
    · cases hclosed
    · cases hlive
  silent {r} hs hopen hover hnone := by
    -- a room that is over has said why
    have hchapter := hs.chapter hopen
    rw [hover.1, show r.events.sent = [] from hnone] at hchapter
    exfalso
    rcases hchapter with ⟨-, hrefused⟩ | ⟨-, htold | htold⟩
    · cases hrefused
    · cases htold
    · exact htold.ne_nil rfl

/-- An event that unlocks the line comes behind the news that the room is ready. -/
theorem RoomReachable.toldReady {s : Room} (hs : RoomReachable X cfg s)
    (hopen : s.events.isOpen = true) :
    (∃ ev ∈ s.events.received, ev.Opens) ↔ ToldReady s.events.received := by
  constructor
  · rintro ⟨ev, hmem, hopens⟩
    obtain ⟨before, rest, hsplit⟩ := List.append_of_mem hmem
    have hstory := (hs.chapter hopen).story
    rw [Mpsc.sent, hsplit, List.append_assoc, List.cons_append] at hstory
    rcases hstory.next with ⟨-, ⟨e, rfl⟩ | ⟨addr, port, rfl⟩⟩ | rfl | ⟨-, addr, port, hready⟩
    · cases hopens
    · exact ⟨addr, port, hmem⟩
    · cases hopens
    · exact ⟨addr, port, hsplit ▸ List.mem_append_left _ hready⟩
  · rintro ⟨addr, port, hmem⟩
    exact ⟨_, hmem, trivial⟩

/-- **The window for typing.**  In every run of the host's application the input line is
unlocked exactly when the loop has been told that the room is ready, and neither that it is
closed nor, by the end of the stream, that it is gone; once it has been told one of these
two, the application shuts down, whatever else comes in. -/
theorem typing_window (X : Crates) (cfg : HostConfig) (checks timestamps : Bool)
    (progress : UInt8) (msg : String) (now : ℕ) (ls : List (StationLabel Label))
    (s : Station Room)
    (hrun : Run (HostAppStep X cfg checks) (HostApp.start timestamps progress msg now) ls s) :
    (s.tui.mode = .running ↔
      (∃ addr port, .roomReady addr port ∈ s.room.events.received) ∧
        .roomClosed ∉ s.room.events.received ∧ .noEvent ∉ ls) ∧
      ((∃ since, s.tui.mode = .shuttingDown since) ↔
        .roomClosed ∈ s.room.events.received ∨ .noEvent ∈ ls) := by
  have hwindowed := RoomSide.windowed_of_run (orderly_hostSide X cfg) hrun ⟨now, .refl _⟩ rfl
  have hready : (hostSide X cfg).ToldOpen s ↔ ToldReady s.room.events.received :=
    hwindowed.inv.toldReady hwindowed.isOpen
  obtain ⟨hwindow, hshut⟩ := hwindowed.window
  rw [hready] at hwindow
  rw [← not_or]
  exact ⟨hwindow, hshut⟩

theorem typing_window_hi : ∃ (ls : List (StationLabel Label)) (s : Station Room),
    s.tui.mode = .running ∧
    (s.tui.mode = .running ↔
      (∃ addr port, .roomReady addr port ∈ s.room.events.received) ∧
        .roomClosed ∉ s.room.events.received ∧ .noEvent ∉ ls) ∧
      ((∃ since, s.tui.mode = .shuttingDown since) ↔
        .roomClosed ∈ s.room.events.received ∨ .noEvent ∈ ls) := by
  obtain ⟨ls, s, hrun, -, -, hmode, -⟩ := run_hi
  exact ⟨ls, s, hmode, typing_window .standard ⟨"host", 300⟩ true false 100 "tor is up" 0 ls s
    hrun⟩

end Nullpipe

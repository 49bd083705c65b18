import Nullpipe.Cli.Window
import Nullpipe.Joiner.Credit
import Nullpipe.Joiner.Connect
import Nullpipe.Joiner.Progress

/-!
# The application of a guest

The terminal of `chat join` with the joiner behind its handle, laid out as `HostApp.lean`.
`guestSide` is the joiner together with the quit flag of its `RoomInner`, and the steps of the
application are steps of the joiner with the terminal as its user
(`GuestAppStep.joiner_step`, `GuestAppStep.user_step`).

No joiner says that a room is ready (`orderly_guestSide`): the input line is unlocked by the
guest's own `PeerJoin`.  So for `Window.lean` a joiner is of the other kind of room, the one that
may end in silence.

`guest_typing_window` says when a guest can type: from the moment its loop has taken a `PeerJoin`
with its own name and id until it has taken the news that the room is closed, or found the end
of the stream.  Whose `PeerJoin` this is comes from the credits of the joiner, which are kept by
every step of the application too (`JoinRoom.Credited.step`, `guestApp_credits`).
-/

namespace Nullpipe

open Channel Transition

variable {X : Crates} {checks : Bool}

/-! ## The room behind the handle -/

/-- What the handle and the event stream of `join` have to do with: the joiner, and the quit
flag of its `RoomInner`. -/
structure JoinRoom where
  joiner : Joiner
  quitFlag : Bool

/-- Every sender of the event stream is gone: those of the main task and of the reader. -/
def JoinRoom.EventsOver (r : JoinRoom) : Prop :=
  r.joiner.main.Returned ∧ (r.joiner.reader = .unspawned ∨ r.joiner.reader = .ended)

/-- What a call does to the joiner and to the quit flag. -/
inductive JoinCall : HandleCall → JoinRoom → JoinRoom → Prop
  | takeEvent {r : JoinRoom} {j : Joiner} (hjoiner : JoinUserStep .takeEvent r.joiner j) :
      JoinCall .takeEvent r { r with joiner := j }
  | send {r : JoinRoom} {text : String} {j : Joiner}
      (hjoiner : JoinUserStep (.send text) r.joiner j) :
      JoinCall (.send text) r { r with joiner := j }
  | quitFlag {r : JoinRoom} : JoinCall .quitFlag r { r with quitFlag := true }
  | quitSend {r : JoinRoom} {j : Joiner} (hflag : r.quitFlag = true)
      (hjoiner : JoinUserStep .quit r.joiner j) :
      JoinCall .quitSend r { r with joiner := j }

/-- `invite` on the handle of a joiner; the quit flag may be set when it has been looked at. -/
inductive JoinInvite (r : JoinRoom) : Except ChatError String → Prop
  | quit (hflag : r.quitFlag = true) : JoinInvite r (.error .shuttingDown)
  | unavailable : JoinInvite r (.error (.connection "invite generation only available on hub"))

variable {r r' : JoinRoom} {j j' : Joiner}

theorem JoinCall.sent {l : HandleCall} (h : JoinCall l r r') :
    r'.joiner.messages.sent = r.joiner.messages.sent ++ l.texts := by
  cases h with
  | send hjoiner =>
      cases hjoiner
      exact Mpsc.sent_push ..
  | takeEvent hjoiner | quitSend _ hjoiner =>
      cases hjoiner
      exact (List.append_nil _).symm
  | quitFlag => exact (List.append_nil _).symm

theorem JoinCall.listen {l : HandleCall} (h : JoinCall l r r') :
    r'.joiner.events = l.listen r.joiner.events := by
  cases h with
  | takeEvent hjoiner | send hjoiner | quitSend _ hjoiner =>
      cases hjoiner
      rfl
  | quitFlag => rfl

/-- What the main task says without waiting is not taken yet. -/
theorem keeps_tryEmit (j : Joiner) (ev : ChatEvent) :
    (tryEmit j ev).events.received = j.events.received ∧
      (tryEmit j ev).events.isOpen = j.events.isOpen := by
  unfold tryEmit
  split <;> exact ⟨rfl, rfl⟩

/-- Only the users put texts on the send channel, take events and close their stream. -/
theorem JoinerStep.keeps_users {l : JoinerLabel} (h : JoinerStep X checks l j j')
    (hl : ∀ l', l ≠ .user l') : j'.messages.sent = j.messages.sent ∧
      j'.events.received = j.events.received ∧ j'.events.isOpen = j.events.isOpen := by
  cases h with
  | user => exact absurd rfl (hl _)
  | main h =>
      cases h with
      | takeText => exact ⟨Mpsc.sent_pop _, rfl, rfl⟩
      | emitJoin | emitError | emitClosed =>
          exact ⟨rfl, Mpsc.received_trySend .., Mpsc.isOpen_trySend ..⟩
      | @echo _ me text =>
          obtain ⟨hreceived, hopen⟩ := keeps_tryEmit j (makeEvent X me text)
          exact ⟨by simp only [messages_tryEmit], hreceived, hopen⟩
      | @drainText _ me text =>
          obtain ⟨hreceived, hopen⟩ := keeps_tryEmit j (makeEvent X me text)
          exact ⟨Mpsc.sent_pop _, hreceived, hopen⟩
      | _ => exact ⟨rfl, rfl, rfl⟩
  | reader h => cases h <;> exact ⟨rfl, rfl, rfl⟩
  | net | finish | tick => exact ⟨rfl, rfl, rfl⟩

/-- A joiner behind its handle. -/
def guestSide (X : Crates) (checks : Bool) : RoomSide JoinRoom JoinerLabel where
  now r := r.joiner.now
  events r := r.joiner.events
  sent r := r.joiner.messages.sent
  Over := JoinRoom.EventsOver
  Quit r := r.quitFlag = true
  Deaf r := r.joiner.messages.isOpen = false
  call := JoinCall
  invite _ _ r r' answer := r' = r ∧ JoinInvite r answer
  -- nobody writes to the map of peers of a joiner
  Lists _ peers := peers = []
  move l r r' := JoinerStep X checks l r.joiner r'.joiner ∧ (∀ l', l ≠ .user l') ∧
    r'.quitFlag = r.quitFlag
  sent_call h := h.sent
  events_call h := h.listen
  invite_keeps h := h.1 ▸ ⟨rfl, rfl⟩
  move_keeps h := h.1.keeps_users h.2.1

/-- The steps of a guest's application. -/
abbrev GuestAppStep (X : Crates) (checks : Bool) :
    StationLabel JoinerLabel → Station JoinRoom → Station JoinRoom → Prop :=
  StationStep (guestSide X checks) checks

/-- The guest's application when the Tor client is up. -/
def GuestApp.start (timestamps : Bool) (progress : UInt8) (msg : String) (now : ℕ)
    (config : JoinConfig) : Station JoinRoom :=
  ⟨.start timestamps progress msg, .init now config, false⟩

variable {a b : Station JoinRoom} {l : StationLabel JoinerLabel}
  {ls : List (StationLabel JoinerLabel)}

/-! ## The joiner of the application -/

theorem JoinCall.user_step {l : HandleCall} (h : JoinCall l r r') :
    r'.joiner = r.joiner ∨ ∃ k, JoinUserStep k r.joiner r'.joiner := by
  cases h with
  | takeEvent hjoiner | send hjoiner | quitSend _ hjoiner => exact .inr ⟨_, hjoiner⟩
  | quitFlag => exact .inl rfl

theorem JoinCall.joiner_step {l : HandleCall} (h : JoinCall l r r') :
    r'.joiner = r.joiner ∨ ∃ k, JoinerStep X checks k r.joiner r'.joiner :=
  h.user_step.imp_right fun ⟨k, hjoiner⟩ => ⟨.user k, .user hjoiner⟩

/-- The terminal is the user of the joiner. -/
theorem GuestAppStep.user_step (h : GuestAppStep X checks l a b) (hl : l.AtTerminal) :
    b.room.joiner = a.room.joiner ∨ ∃ k, JoinUserStep k a.room.joiner b.room.joiner := by
  cases h with
  | event _ _ hroom | send _ hroom | quitFlag _ hroom | quitSend _ hroom =>
      exact JoinCall.user_step hroom
  | invite _ hroom =>
      obtain ⟨rfl, -⟩ := hroom
      exact .inl rfl
  | own => exact absurd hl id
  | key | noEvent | result | tick | sendRefused | peers | quitDone => exact .inl rfl

/-- The joiner of the application takes a step of a joiner, or none. -/
theorem GuestAppStep.joiner_step (h : GuestAppStep X checks l a b) :
    b.room.joiner = a.room.joiner ∨
      ∃ k, JoinerStep X checks k a.room.joiner b.room.joiner := by
  by_cases hl : l.AtTerminal
  · exact (h.user_step hl).imp_right fun ⟨k, hjoiner⟩ => ⟨.user k, .user hjoiner⟩
  · cases h with
    | own hroom => exact .inr ⟨_, hroom.1⟩
    | _ => exact absurd trivial hl

/-! ## The window for typing -/

/-- A state that keeps the credits of some guest. -/
def JoinRoom.Credited (X : Crates) (r : JoinRoom) : Prop := ∃ me heard, r.joiner.Credits X me heard

theorem JoinRoom.Credited.step (hs : r.Credited X)
    (h : r'.joiner = r.joiner ∨ ∃ k, JoinerStep X checks k r.joiner r'.joiner) :
    r'.Credited X := by
  obtain ⟨me, heard, hcredits⟩ := hs
  rcases h with hsame | ⟨k, hstep⟩
  · exact ⟨me, heard, by rwa [hsame]⟩
  · obtain ⟨me', hcredits'⟩ := hstep.credits hcredits
    exact ⟨me', _, hcredits'⟩

/-- A joiner never says that the room is ready. -/
theorem orderly_guestSide (X : Crates) (checks : Bool) :
    (guestSide X checks).Orderly (JoinRoom.Credited X) where
  call hs h := by
    have hstep : _ ∨ ∃ k, JoinerStep X checks k _ _ := h.joiner_step
    exact hs.step hstep
  invite hs h := h.1 ▸ hs
  move hs h := hs.step (.inr ⟨_, h.1⟩)
  first {r before addr port rest} hs _ hsent := by
    obtain ⟨_, _, hcredits⟩ := hs
    have hmem : .roomReady addr port ∈ r.joiner.events.sent := by
      rw [show r.joiner.events.sent = _ from hsent]
      exact List.mem_append_right _ List.mem_cons_self
    exact absurd hmem (hcredits.unready addr port)
  silent _ _ _ _ := fun _ addr port ⟨_, _, hcredits⟩ => hcredits.unready addr port

/-- The joiner of the application is that of a run. -/
theorem guestApp_credits {timestamps : Bool} {progress : UInt8} {msg : String} {now : ℕ}
    {config : JoinConfig}
    (hrun : Run (GuestAppStep X checks) (GuestApp.start timestamps progress msg now config) ls a) :
    ∃ me heard, a.room.joiner.Credits X me heard ∧ a.room.joiner.config = config := by
  obtain ⟨ks, hjoiner⟩ := hrun.project (fun s => s.room.joiner) fun h => GuestAppStep.joiner_step h
  exact credits_of_run hjoiner

/-- A run of the joiner with nobody at the terminal. -/
theorem run_guestApp (desk : Desk) (quitFlag : Bool) {ks : List JoinerLabel}
    (hrun : Run (JoinerStep X checks) j ks j') (hks : ∀ k ∈ ks, ∀ l, k ≠ .user l) :
    Run (GuestAppStep X checks) ⟨desk, j, quitFlag⟩ (ks.map .own) ⟨desk, j', quitFlag⟩ := by
  apply hrun.relabel_map (fun j => (⟨desk, j, quitFlag⟩ : Station JoinRoom)) _ hks
  intro l j j' hl hstep
  exact .own ⟨hstep, hl, rfl⟩

/-- **When a guest can type.**  In every run of a guest's application the input line is
unlocked exactly when the loop has been told that the guest has joined, under the name and
the id of the guest that its invite admits, and neither that the room is closed nor, by the
end of the stream, that it is gone; once it has been told one of these two, the application
shuts down. -/
theorem guest_typing_window (X : Crates) (checks timestamps : Bool) (progress : UInt8)
    (msg : String) (now : ℕ) (config : JoinConfig) (ls : List (StationLabel JoinerLabel))
    (s : Station JoinRoom)
    (hrun : Run (GuestAppStep X checks) (GuestApp.start timestamps progress msg now config)
      ls s) :
    (s.tui.mode = .running ↔
      (∃ me : Guest, ∃ info : PeerInfo, me.Invited X config ∧ info.name = me.name ∧
        info.id = peerId X me.discriminator ∧
        .peerJoin info ∈ s.room.joiner.events.received) ∧
        .roomClosed ∉ s.room.joiner.events.received ∧ .noEvent ∉ ls) ∧
      ((∃ since, s.tui.mode = .shuttingDown since) ↔
        .roomClosed ∈ s.room.joiner.events.received ∨ .noEvent ∈ ls) := by
  have hstart : JoinRoom.Credited X ⟨.init now config, false⟩ :=
    ⟨⟨"", .fill 0, .fill 0⟩, [], .init ..⟩
  have hwindowed := RoomSide.windowed_of_run (orderly_guestSide X checks) hrun hstart rfl
  obtain ⟨me, heard, hcredits, hconfig⟩ := guestApp_credits hrun
  have hsent : ∀ ev ∈ s.room.joiner.events.received, ev ∈ s.room.joiner.events.sent :=
    fun ev hev => List.mem_append_left _ hev
  have hjoined : (guestSide X checks).ToldOpen s ↔
      ∃ me : Guest, ∃ info : PeerInfo, me.Invited X config ∧ info.name = me.name ∧
        info.id = peerId X me.discriminator ∧
        .peerJoin info ∈ s.room.joiner.events.received := by
    constructor
    · rintro ⟨ev, hmem, hopens⟩
      cases ev with
      | peerJoin info =>
          obtain ⟨hin, hid, hname⟩ := hcredits.speaks.told info (hsent _ hmem)
          exact ⟨me, info, hconfig ▸ hcredits.speaks.guest hin, hname, hid, hmem⟩
      | roomReady addr port => exact absurd (hsent _ hmem) (hcredits.unready addr port)
      | _ => cases hopens
    · rintro ⟨_, info, -, -, -, hmem⟩
      exact ⟨_, hmem, trivial⟩
  obtain ⟨hwindow, hshut⟩ := hwindowed.window
  rw [hjoined] at hwindow
  rw [← not_or]
  exact ⟨hwindow, hshut⟩

theorem guest_typing_window_ann :
    ∃ (token : String) (ls : List (StationLabel JoinerLabel)) (s : Station JoinRoom),
      s.tui.mode = .running ∧
      (s.tui.mode = .running ↔
        (∃ me : Guest, ∃ info : PeerInfo, me.Invited .standard ⟨"", token⟩ ∧
          info.name = me.name ∧ info.id = peerId .standard me.discriminator ∧
          .peerJoin info ∈ s.room.joiner.events.received) ∧
          .roomClosed ∉ s.room.joiner.events.received ∧ .noEvent ∉ ls) := by
  obtain ⟨token, hencode⟩ := exists_annToken .standard
  have hjoins : Run (JoinerStep .standard true) (Joiner.init 0 ⟨"", token⟩)
      (.main .decode :: annLabels) (Joiner.entered .standard 0 ⟨"", token⟩ annGuest) :=
    .cons (step_decode (decodeInvite_annInvite hencode)) (run_ann _ rfl)
  have hown := run_guestApp (.start false 100 "tor is up") false hjoins
    (by simp [annLabels, answeredLabels, hailLabels, replyLabels, enteredLabels])
  have hrun := hown.snoc (l := .event)
    (.event rfl rfl (JoinCall.takeEvent (.takeEvent rfl)) (.event rfl))
  exact ⟨token, _, _, rfl,
    (guest_typing_window .standard true false 100 "tor is up" 0 ⟨"", token⟩ _ _ hrun).1⟩

end Nullpipe

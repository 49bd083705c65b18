import Nullpipe.Cli.Window

/-!
# What is on the screen

The messages on the screen that are no notices of the application are those the loop has taken
from the event stream: each of them once, in their order.  Neither a key nor a command nor the
result of one adds to them.

A notice of the application is a message that is marked as one, so what is said on the screen
(`App.conversation`) can be read off the list of messages.  An event adds to it what it says
(`App.conversation_handleEvent`), every other step of the loop adds nothing, and a text that is
typed is shown when it comes back as an event.

`StationStep.mirrors` says this of a terminal and its room, whatever room it is, and
`RoomSide.mirrors_of_run` of a whole run.  Who has said what is on the event stream is another
matter, and one for the modules about the room and the network.
-/

namespace Nullpipe

open Channel Transition

/-! ## The conversation -/

/-- What a message on the screen says, unless it is a notice. -/
def DispMsg.line (m : DispMsg) : Option (String × String) :=
  if m.system then none else some (m.name, m.text)

/-- What is said on the screen. -/
def App.conversation (app : App) : List (String × String) := app.msgs.filterMap DispMsg.line

variable {checks : Bool} {tui tui' : Tui} {now : ℕ} {key : KeyEvent}

/-! ## The steps of the loop -/

theorem App.conversation_push (app : App) (now : ℕ) (name text : String) (system : Bool) :
    (app.push now name text system).conversation =
      app.conversation ++ if system then [] else [(name, text)] := by
  rw [App.conversation, App.push, List.filterMap_append]
  cases system <;> rfl

@[simp] theorem Tui.conversation_pushSystem (tui : Tui) (now : ℕ) (text : String) :
    (tui.pushSystem now text).conversation = tui.conversation :=
  (tui.toApp.conversation_push now "system" text true).trans (List.append_nil _)

/-- **An event is shown when it says something.** -/
theorem App.conversation_handleEvent {app app' : App} {ev : ChatEvent}
    (h : app.handleEvent now ev = some app') :
    app'.conversation = app.conversation ++ said [ev] := by
  have hnotice : ∀ app : App, ∀ text, (app.push now "system" text true).conversation =
      app.conversation ++ [] := fun app text => app.conversation_push now "system" text true
  cases ev with
  | message _ name text =>
      cases h
      exact app.conversation_push now name text false
  | roomReady =>
      obtain ⟨shown, -, heq⟩ := Option.bind_eq_some_iff.mp h
      cases heq
      exact hnotice _ _
  | bootstrapProgress =>
      unfold App.handleEvent at h
      dsimp only at h
      split at h <;> cases h <;> exact (List.append_nil _).symm
  | peerJoin =>
      unfold App.handleEvent at h
      dsimp only at h
      split at h <;> cases h <;> exact hnotice _ _
  | peerLeave | inviteCreated | roomClosed | error =>
      cases h
      exact hnotice _ _

theorem Tui.conversation_pushLines (tui : Tui) (now : ℕ) (lines : List String) :
    (lines.foldl (fun tui line => tui.pushSystem now line) tui).conversation =
      tui.conversation := by
  induction lines generalizing tui with
  | nil => rfl
  | cons line lines ih => exact (ih _).trans (tui.conversation_pushSystem now line)

theorem Tui.conversation_dispatchCommand (tui : Tui) (now : ℕ) (cmd : List Char) :
    (tui.dispatchCommand now cmd).conversation = tui.conversation := by
  unfold Tui.dispatchCommand
  split_ifs
  · exact tui.conversation_pushSystem now _
  · exact tui.conversation_pushSystem now _
  · dsimp only
    split
    · rfl
    · rfl
    · rfl
    · exact tui.conversation_pushLines now helpLines
    · exact tui.conversation_pushSystem now _

theorem Tui.conversation_send (tui : Tui) (now : ℕ) :
    (tui.send now).conversation = tui.conversation := by
  unfold Tui.send
  dsimp only
  split
  · rfl
  · exact Tui.conversation_dispatchCommand _ now _
  · split <;> rfl

/-- No key says anything: what is typed is shown when it comes back as an event. -/
theorem Tui.conversation_handleKey (h : tui.handleKey checks now key = some tui') :
    tui'.conversation = tui.conversation := by
  unfold Tui.handleKey at h
  split at h
  · cases h
    rfl
  · split at h
    · cases h
      rfl
    · cases h
      rfl
    · rcases Tui.handleRunning_cases h with
        ⟨-, rfl⟩ | ⟨-, rfl | ⟨lines, rfl⟩ | ⟨input, cursor, rfl⟩⟩
      · rfl
      · exact tui.conversation_send now
      · rfl
      · rfl

theorem Tui.conversation_handleResult (tui : Tui) (now : ℕ) (result : CmdResult) :
    (tui.handleResult now result).conversation = tui.conversation := by
  unfold Tui.handleResult
  split
  · exact tui.conversation_pushSystem now _
  · exact tui.conversation_pushSystem now _
  · split <;> exact tui.conversation_pushSystem now _
  · rfl

theorem Tui.conversation_expire (tui : Tui) (now : ℕ) :
    (tui.expire now).conversation = tui.conversation := by
  rcases tui.expire_cases now with heq | heq <;> rw [heq]

/-- What a label of the loop says. -/
def TuiLabel.spoken : TuiLabel → List (String × String)
  | .event _ (some ev) => said [ev]
  | _ => []

theorem TuiStep.conversation {l : TuiLabel} (h : TuiStep checks l tui tui') :
    tui'.conversation = tui.conversation ++ l.spoken := by
  cases h with
  | key hkey =>
      rw [Tui.conversation_expire, Tui.conversation_handleKey hkey]
      exact (List.append_nil _).symm
  | @event _ _ now event hevent =>
      rw [Tui.conversation_expire]
      cases event with
      | some ev =>
          obtain ⟨app, happ, heq⟩ := Option.map_eq_some_iff.mp hevent
          cases heq
          exact App.conversation_handleEvent happ
      | none =>
          unfold Tui.handleMaybeEvent at hevent
          dsimp only at hevent
          split at hevent
          · cases hevent
            exact (List.append_nil _).symm
          all_goals
            cases hevent
            exact (tui.conversation_pushSystem now "connection lost").trans
              (List.append_nil _).symm
  | result =>
      rw [Tui.conversation_expire, Tui.conversation_handleResult]
      exact (List.append_nil _).symm
  | tick =>
      rw [Tui.conversation_expire]
      exact (List.append_nil _).symm

/-! ## The terminal and its room -/

variable {ρ κ : Type} {R : RoomSide ρ κ} {s t : Station ρ} {l : StationLabel κ}
  {ls : List (StationLabel κ)}

/-- The screen says what the loop has been told. -/
def RoomSide.Mirrors (R : RoomSide ρ κ) (s : Station ρ) : Prop :=
  s.tui.conversation = said (R.told s)

theorem RoomSide.Mirrors.quiet (hs : R.Mirrors s)
    (hshown : t.tui.conversation = s.tui.conversation)
    (htold : (R.events t.room).received = (R.events s.room).received) : R.Mirrors t := by
  rw [RoomSide.Mirrors, RoomSide.told, hshown, htold]
  exact hs

/-- **Step lemma.** -/
theorem StationStep.mirrors (h : StationStep R checks l s t) (hs : R.Mirrors s) :
    R.Mirrors t := by
  have hstill : ∀ {l : TuiLabel} {tui : Tui}, TuiStep checks l s.tui tui → l.spoken = [] →
      tui.conversation = s.tui.conversation := fun hstep hsilent => by
    rw [hstep.conversation, hsilent, List.append_nil]
  cases h with
  | key _ hstep | result _ _ hstep | tick _ hstep | noEvent _ _ _ hstep =>
      exact hs.quiet (hstill hstep rfl) rfl
  | @event _ ev rest tui room _ hqueue hroom hstep =>
      have hreceived : (R.events room).received = R.told s ++ [ev] := by
        rw [R.events_call hroom, HandleCall.listen, Mpsc.pop_of_queue hqueue]
        rfl
      rw [RoomSide.Mirrors, RoomSide.told, hreceived, said_append, ← hs]
      exact hstep.conversation
  | send _ hroom | quitFlag _ hroom | quitSend _ hroom =>
      exact hs.quiet rfl (by rw [R.events_call hroom]; rfl)
  | sendRefused | peers | quitDone => exact hs.quiet rfl rfl
  | invite _ hroom => exact hs.quiet rfl (by rw [(R.invite_keeps hroom).2])
  | own hroom => exact hs.quiet rfl (R.move_keeps hroom).2.1

/-- The screen after a whole run. -/
theorem RoomSide.mirrors_of_run {timestamps : Bool} {progress : UInt8} {msg : String} {room : ρ}
    (hrun : Run (StationStep R checks) ⟨.start timestamps progress msg, room⟩ ls s)
    (hevents : (R.events room).received = []) : R.Mirrors s :=
  hrun.invariant (I := R.Mirrors) (by rw [RoomSide.Mirrors, RoomSide.told, hevents]; rfl)
    fun hs h => h.mirrors hs

end Nullpipe

import Nullpipe.Cli.Desk

/-!
# When the input line is unlocked

`App::handle_key` takes text in `Mode::Running` only, and the events of the room decide on the
mode.  In a room that is announced as ready first of all, if at all, and whose stream does not
end before anything was said, the mode follows from what the loop has been told, whatever the
order of its steps.  A room that is never announced may end in silence: there it is the peer
itself that joins and unlocks the line.

`RoomSide.Orderly` is what is asked of the room, in the states with some invariant `I` of it.
The conclusion is `RoomSide.Windowed`: the mode tells whether an event has unlocked the line
(`ToldOpen`) and whether the room is gone (`ToldGone`).

* `StationStep.windowed` is the step lemma.  The events that matter are treated one by one,
  since a join may come after the room has closed and must not unlock the line again.
* `RoomSide.windowed_of_run` is the run lemma.
* `RoomSide.Windowed.window` puts it in terms of the input line.
-/

namespace Nullpipe

open Channel Transition

/-! ## Modes -/

/-- An event that unlocks the input line. -/
def ChatEvent.Opens : ChatEvent → Prop
  | .roomReady .. | .peerJoin _ => True
  | _ => False

/-- What a mode tells: whether the line was unlocked, and whether the room is gone. -/
def Mode.Tells (opened gone : Prop) : Mode → Prop
  | .bootstrap .. => ¬ opened ∧ ¬ gone
  | .running => opened ∧ ¬ gone
  | .shuttingDown _ => gone

variable {tui tui' : Tui} {now : ℕ}

/-- An event that neither ends the room nor unlocks the line. -/
theorem Tui.handleMaybeEvent_other {ev : ChatEvent} {opened gone : Prop}
    (h : tui.handleMaybeEvent now (some ev) = some tui') (hopens : ¬ ev.Opens)
    (hclosed : ev ≠ .roomClosed) (hs : tui.mode.Tells opened gone) :
    tui'.mode.Tells opened gone := by
  obtain ⟨app, happ, heq⟩ := Option.map_eq_some_iff.mp h
  cases heq
  cases ev with
  | roomReady | peerJoin => exact absurd trivial hopens
  | roomClosed => exact absurd rfl hclosed
  | bootstrapProgress percent =>
      unfold App.handleEvent at happ
      dsimp only at happ
      split at happ
      · rename_i hboot
        cases happ
        rw [hboot] at hs
        exact hs
      · cases happ
        exact hs
  | peerLeave | message | inviteCreated | error =>
      cases happ
      exact hs

/-- A peer joins, before the room is gone or behind that. -/
theorem Tui.handleMaybeEvent_peerJoin {info : PeerInfo} {opened gone : Prop}
    (h : tui.handleMaybeEvent now (some (.peerJoin info)) = some tui')
    (hs : tui.mode.Tells opened gone) : tui'.mode.Tells True gone := by
  obtain ⟨app, happ, heq⟩ := Option.map_eq_some_iff.mp h
  cases heq
  unfold App.handleEvent at happ
  dsimp only at happ
  split at happ
  · rename_i hboot
    cases happ
    rw [show tui.mode = _ from hboot] at hs
    exact ⟨trivial, hs.2⟩
  · rename_i hmode
    cases happ
    cases hphase : tui.mode with
    | bootstrap progress msg => exact absurd hphase (hmode progress msg)
    | running =>
        rw [hphase] at hs
        exact (show Mode.Tells True gone .running from ⟨trivial, hs.2⟩)
    | shuttingDown since =>
        rw [hphase] at hs
        exact (show Mode.Tells True gone (.shuttingDown since) from hs)

theorem Tui.handleMaybeEvent_roomReady {addr : String} {port : UInt16}
    (h : tui.handleMaybeEvent now (some (.roomReady addr port)) = some tui') :
    tui'.mode = .running := by
  obtain ⟨app, happ, heq⟩ := Option.map_eq_some_iff.mp h
  obtain ⟨shown, -, happ⟩ := Option.bind_eq_some_iff.mp happ
  cases happ
  cases heq
  rfl

/-- The room is closed, or its stream has ended. -/
theorem Tui.handleMaybeEvent_gone {event : Option ChatEvent}
    (h : tui.handleMaybeEvent now event = some tui')
    (hevent : event = some .roomClosed ∨ event = none) :
    ∃ since, tui'.mode = .shuttingDown since := by
  rcases hevent with rfl | rfl
  · cases h
    exact ⟨now, rfl⟩
  · unfold Tui.handleMaybeEvent at h
    dsimp only at h
    split at h
    · rename_i since hmode
      cases h
      exact ⟨since, hmode⟩
    · cases h
      exact ⟨now, rfl⟩
    · cases h
      exact ⟨now, rfl⟩

/-! ## What the loop has been told -/

variable {ρ κ : Type} {R : RoomSide ρ κ} {I : ρ → Prop} {checks : Bool} {s t : Station ρ}
  {l : StationLabel κ} {ls : List (StationLabel κ)}

/-- The events that were handled by the loop. -/
def RoomSide.told (R : RoomSide ρ κ) (s : Station ρ) : List ChatEvent :=
  (R.events s.room).received

/-- Some event has unlocked the line. -/
def RoomSide.ToldOpen (R : RoomSide ρ κ) (s : Station ρ) : Prop := ∃ ev ∈ R.told s, ev.Opens

/-- The room has said that it is closed, or its stream has ended. -/
def RoomSide.ToldGone (R : RoomSide ρ κ) (ls : List (StationLabel κ)) (s : Station ρ) : Prop :=
  .roomClosed ∈ R.told s ∨ .noEvent ∈ ls

/-- No state with `I` has told that the room is ready. -/
def RoomSide.Unannounced (R : RoomSide ρ κ) (I : ρ → Prop) : Prop :=
  ∀ r addr port, I r → .roomReady addr port ∉ (R.events r).sent

/-- A room whose states with `I` tell first of all that they are ready, if at all; one whose
stream ends in silence is of a kind that never tells. -/
structure RoomSide.Orderly (R : RoomSide ρ κ) (I : ρ → Prop) : Prop where
  call : ∀ {l r r'}, I r → R.call l r r' → I r'
  invite : ∀ {nonce name r r' answer}, I r → R.invite nonce name r r' answer → I r'
  move : ∀ {k r r'}, I r → R.move k r r' → I r'
  first : ∀ {r before addr port rest}, I r → (R.events r).isOpen = true →
    (R.events r).sent = before ++ .roomReady addr port :: rest → before = []
  silent : ∀ {r}, I r → (R.events r).isOpen = true → R.Over r → (R.events r).sent = [] →
    R.Unannounced I

/-- The mode tells what the loop has been told; the end of the stream comes behind an
event, unless the room is never announced. -/
structure RoomSide.Windowed (R : RoomSide ρ κ) (I : ρ → Prop) (ls : List (StationLabel κ))
    (s : Station ρ) : Prop where
  inv : I s.room
  isOpen : (R.events s.room).isOpen = true
  behind : .noEvent ∈ ls → R.told s = [] → R.Unannounced I
  mode : s.tui.mode.Tells (R.ToldOpen s) (R.ToldGone ls s)

/-- A step that neither takes an event nor finds the end of the stream. -/
theorem RoomSide.Windowed.quiet (hs : R.Windowed I ls s) (hinv : I t.room) (hl : l ≠ .noEvent)
    (hreceived : (R.events t.room).received = (R.events s.room).received)
    (hopen : (R.events t.room).isOpen = (R.events s.room).isOpen)
    (hmode : t.tui.mode = s.tui.mode) : R.Windowed I (ls ++ [l]) t := by
  have hsame : StationLabel.noEvent ∈ ls ++ [l] ↔ .noEvent ∈ ls := by
    rw [List.mem_append, List.mem_singleton, or_iff_left (Ne.symm hl)]
  have htold : R.told t = R.told s := hreceived
  refine ⟨hinv, hopen.trans hs.isOpen, fun hended hnone => ?_, ?_⟩
  · rw [htold] at hnone
    exact hs.behind (hsame.mp hended) hnone
  · rw [hmode, ToldGone, ToldOpen, hsame, htold]
    exact hs.mode

theorem RoomSide.Windowed.event {ev : ChatEvent} {rest : List ChatEvent} {room : ρ}
    (hR : R.Orderly I) (hs : R.Windowed I ls s) (hqueue : (R.events s.room).queue = ev :: rest)
    (hroom : R.call .takeEvent s.room room)
    (hevent : s.tui.handleMaybeEvent now (some ev) = some tui') :
    R.Windowed I (ls ++ [.event]) { s with tui := tui'.expire now, room := room } := by
  have hevents := R.events_call hroom
  have hpop : R.events room = (R.events s.room).pop := hevents
  have htold : (R.events room).received = R.told s ++ [ev] := by
    rw [hpop, Mpsc.pop_of_queue hqueue]
    rfl
  have hended : StationLabel.noEvent ∈ ls ++ [.event] ↔ .noEvent ∈ ls := by simp
  have hmode := hs.mode
  refine ⟨hR.call hs.inv hroom, by rw [hpop]; exact hs.isOpen, fun _ hnone => ?_, ?_⟩
  · simp [RoomSide.told, htold] at hnone
  dsimp only [ToldGone, ToldOpen, RoomSide.told]
  rw [(Tui.keeps_expire tui' now).mode, hended, htold]
  by_cases hclosed : ev = .roomClosed
  · obtain ⟨since, hshut⟩ := Tui.handleMaybeEvent_gone hevent (.inl (congrArg some hclosed))
    rw [hshut]
    exact .inl (by simp [hclosed])
  have hgone : (.roomClosed ∈ R.told s ++ [ev] ∨ .noEvent ∈ ls) ↔ R.ToldGone ls s := by
    rw [List.mem_append, List.mem_singleton, or_iff_left (Ne.symm hclosed), ToldGone]
  rw [hgone]
  by_cases hopens : ev.Opens
  · have hopened : ∃ ev' ∈ R.told s ++ [ev], ev'.Opens := ⟨ev, by simp, hopens⟩
    rw [eq_true hopened]
    cases ev with
    | peerJoin info => exact Tui.handleMaybeEvent_peerJoin hevent hmode
    | roomReady addr port =>
        -- the room is announced before anything else, and so before it is gone
        have hsent : (R.events s.room).sent = R.told s ++ .roomReady addr port :: rest := by
          rw [Mpsc.sent, hqueue]
          rfl
        have hnone : R.told s = [] := hR.first hs.inv hs.isOpen hsent
        rw [Tui.handleMaybeEvent_roomReady hevent]
        refine ⟨trivial, ?_⟩
        rintro (hmem | hlost)
        · rw [hnone] at hmem
          cases hmem
        · refine hs.behind hlost hnone s.room addr port hs.inv ?_
          rw [hsent]
          exact List.mem_append_right _ List.mem_cons_self
    | _ => cases hopens
  · have hopened : (∃ ev' ∈ R.told s ++ [ev], ev'.Opens) ↔ R.ToldOpen s := by
      simp [ToldOpen, or_and_right, exists_or, hopens]
    rw [hopened]
    exact Tui.handleMaybeEvent_other hevent hopens hclosed hmode

theorem RoomSide.Windowed.noEvent (hR : R.Orderly I) (hs : R.Windowed I ls s)
    (hqueue : (R.events s.room).queue = []) (hover : R.Over s.room)
    (hevent : s.tui.handleMaybeEvent now none = some tui') :
    R.Windowed I (ls ++ [.noEvent]) { s with tui := tui'.expire now } := by
  obtain ⟨since, hshut⟩ := Tui.handleMaybeEvent_gone hevent (.inr rfl)
  refine ⟨hs.inv, hs.isOpen, fun _ hnone => ?_, ?_⟩
  · refine hR.silent hs.inv hs.isOpen hover ?_
    rw [Mpsc.sent, hqueue, List.append_nil]
    exact hnone
  · rw [(Tui.keeps_expire tui' now).mode, hshut]
    exact .inr (by simp)

/-- **Step lemma.** -/
theorem StationStep.windowed (hR : R.Orderly I) (h : StationStep R checks l s t)
    (hs : R.Windowed I ls s) : R.Windowed I (ls ++ [l]) t := by
  have hcall : ∀ {call : HandleCall} {room : ρ}, call.listen (R.events s.room) = R.events s.room →
      R.call call s.room room → I room ∧ R.events room = R.events s.room :=
    fun hlisten hroom => ⟨hR.call hs.inv hroom, (R.events_call hroom).trans hlisten⟩
  cases h with
  | key _ hstep =>
      cases hstep with
      | key hkey =>
          exact hs.quiet hs.inv nofun rfl rfl
            ((Tui.keeps_handleKey hkey).trans (Tui.keeps_expire _ _)).mode
  | event _ hqueue hroom hstep =>
      cases hstep with
      | event hevent => exact hs.event hR hqueue hroom hevent
  | noEvent _ hqueue hover hstep =>
      cases hstep with
      | event hevent => exact hs.noEvent hR hqueue hover hevent
  | result _ _ hstep =>
      cases hstep
      exact hs.quiet hs.inv nofun rfl rfl
        ((Tui.keeps_handleResult _ _ _).trans (Tui.keeps_expire _ _)).mode
  | tick _ hstep =>
      cases hstep
      exact hs.quiet hs.inv nofun rfl rfl (Tui.keeps_expire _ _).mode
  | sendRefused | peers | quitDone => exact hs.quiet hs.inv nofun rfl rfl rfl
  | send _ hroom | quitFlag _ hroom | quitSend _ hroom =>
      obtain ⟨hinv, hsame⟩ := hcall rfl hroom
      exact hs.quiet hinv nofun (by rw [hsame]) (by rw [hsame]) rfl
  | invite _ hroom =>
      have hsame := (R.invite_keeps hroom).2
      exact hs.quiet (hR.invite hs.inv hroom) nofun (by rw [hsame]) (by rw [hsame]) rfl
  | own hroom =>
      obtain ⟨-, hreceived, hopen⟩ := R.move_keeps hroom
      exact hs.quiet (hR.move hs.inv hroom) nofun hreceived hopen rfl

/-- **Run lemma.** -/
theorem RoomSide.windowed_of_run (hR : R.Orderly I) {timestamps : Bool} {progress : UInt8}
    {msg : String} {room : ρ}
    (hrun : Run (StationStep R checks) ⟨.start timestamps progress msg, room⟩ ls s)
    (hinit : I room) (hevents : R.events room = .empty) : R.Windowed I ls s :=
  hrun.history (I := fun ls s => R.Windowed I ls s)
    ⟨hinit, by rw [hevents]; rfl, nofun, by
      simp [Desk.start, Mode.Tells, ToldOpen, ToldGone, RoomSide.told, hevents, Mpsc.empty]⟩
    fun hs h => h.windowed hR hs

/-- **What the mode tells.**  The input line is unlocked once the loop has been told so, until
it has been told that the room is gone; from then on the application shuts down. -/
theorem RoomSide.Windowed.window (hs : R.Windowed I ls s) :
    (s.tui.mode = .running ↔ R.ToldOpen s ∧ ¬ R.ToldGone ls s) ∧
      ((∃ since, s.tui.mode = .shuttingDown since) ↔ R.ToldGone ls s) := by
  have hmode := hs.mode
  cases h : s.tui.mode with
  | bootstrap progress msg =>
      rw [h] at hmode
      exact ⟨iff_of_false nofun fun hopen => hmode.1 hopen.1, iff_of_false (by simp) hmode.2⟩
  | running =>
      rw [h] at hmode
      exact ⟨iff_of_true rfl hmode, iff_of_false (by simp) hmode.2⟩
  | shuttingDown since =>
      rw [h] at hmode
      exact ⟨iff_of_false nofun fun hopen => hopen.2 hmode, iff_of_true ⟨since, rfl⟩ hmode⟩

end Nullpipe

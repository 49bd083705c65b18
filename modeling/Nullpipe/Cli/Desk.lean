import Nullpipe.Cli.Screen
import Nullpipe.Lib.Channel
import Mathlib.Data.List.Perm.Subperm

/-!
# A terminal and the room behind its handle

`run_tui` is one loop, whether `create_room` has hosted a room or joined one.  What the loop asks
of its room it asks through the handle and the event stream, and `RoomSide` is a room as seen
from there: the calls it answers, its events, and what it does by itself.  The results about the
terminal are proved for any such room; `HostApp.lean` and `GuestApp.lean` put in the two there
are.

Some of what the loop asks runs in tasks of their own: one for each line that is sent and each
command.  A task runs when the scheduler lets it, so two lines may reach the room in either
order; what a command comes back with waits for the loop on a channel of its own.

Between the keyboard and the room nothing is added and nothing is doubled.  The ledger
(`RoomSide.Ledger`) says so of the texts that have gone to the room together with those of the
tasks that still run: as a multiset they are among the lines that were entered.  A key adds a
line and the task for it (`Tui.spawns_handleKey`), a task that ends moves its text over
(`sendTexts_moved`), and no other step touches either (`StationStep.ledger`).
-/

namespace Nullpipe

open Channel Transition String

/-! ## The room behind the handle -/

/-- What a terminal asks of its room and gets no answer to. -/
inductive HandleCall
  | takeEvent
  | send (text : String)
  /-- `do_quit` up to the quit flag -/
  | quitFlag
  /-- `do_quit` up to the shutdown signal -/
  | quitSend

/-- The text a call puts on the send channel. -/
def HandleCall.texts : HandleCall → List String
  | .send text => [text]
  | _ => []

/-- The event stream after a call. -/
def HandleCall.listen (events : Mpsc ChatEvent) : HandleCall → Mpsc ChatEvent
  | .takeEvent => events.pop
  | _ => events

/-- A room of the states `ρ` as its terminal sees it, and what it does by itself. -/
structure RoomSide (ρ κ : Type) where
  now : ρ → ℕ
  events : ρ → Mpsc ChatEvent
  /-- every text the send channel has accepted -/
  sent : ρ → List String
  /-- every sender of the event stream is gone -/
  Over : ρ → Prop
  /-- the quit flag is set -/
  Quit : ρ → Prop
  /-- the receiver of the send channel is gone -/
  Deaf : ρ → Prop
  call : HandleCall → ρ → ρ → Prop
  /-- `invite`, with the nonce it draws -/
  invite : Bytes16 → Option String → ρ → ρ → Except ChatError String → Prop
  /-- `peers`, the values of a map in any order -/
  Lists : ρ → List PeerInfo → Prop
  move : κ → ρ → ρ → Prop
  sent_call : ∀ {l r r'}, call l r r' → sent r' = sent r ++ l.texts
  events_call : ∀ {l r r'}, call l r r' → events r' = l.listen (events r)
  invite_keeps : ∀ {nonce name r r' answer}, invite nonce name r r' answer →
    sent r' = sent r ∧ events r' = events r
  move_keeps : ∀ {k r r'}, move k r r' → sent r' = sent r ∧
    (events r').received = (events r).received ∧ (events r').isOpen = (events r).isOpen

/-! ## The terminal -/

/-- The line a key enters: it is not empty, and not a command. -/
def Tui.entered (tui : Tui) (key : KeyEvent) : List String :=
  if key.IsInterrupt then []
  else
    match tui.mode, key.code, tui.input with
    | .running, .enter, c :: rest => if c = '/' then [] else [ofList (c :: rest)]
    | _, _, _ => []

/-- The loop of `run_tui`, the tasks that run, the results they have posted, and every line
that was entered. -/
structure Desk where
  tui : Tui
  tasks : List Spawned
  results : List CmdResult
  lines : List String

/-- A terminal and its room. -/
structure Station (ρ : Type) extends Desk where
  room : ρ

/-- The terminal when the Tor client is up. -/
def Desk.start (timestamps : Bool) (progress : UInt8) (msg : String) : Desk where
  tui := { Tui.new timestamps true true with mode := .bootstrap progress msg }
  tasks := []
  results := []
  lines := []

/-- The tasks that a step of the loop has spawned. -/
def Tui.spawnedSince (tui before : Tui) : List Spawned := tui.spawned.drop before.spawned.length

inductive StationLabel (κ : Type)
  | key (key : KeyEvent)
  | event
  | noEvent
  | result
  | tick
  | send (text : String)
  | sendRefused (text : String)
  | invite (nonce : Bytes16) (name : Option String)
  | peers
  | quitFlag
  | quitSend
  | quitDone
  | own (k : κ)

/-- What the terminal does, or somebody at it. -/
def StationLabel.AtTerminal {κ : Type} : StationLabel κ → Prop
  | .own _ => False
  | _ => True

/-- The steps of a terminal and its room.  The loop goes on until `quit` is set; then the
handle is told to quit, too.  `send` and `invite` look at the quit flag before they act, and
one that has passed the check may act after `quit`. -/
inductive StationStep {ρ κ : Type} (R : RoomSide ρ κ) (checks : Bool) :
    StationLabel κ → Station ρ → Station ρ → Prop
  | key {s : Station ρ} {key : KeyEvent} {tui : Tui} (hloop : s.tui.quit = false)
      (hstep : TuiStep checks (.key (R.now s.room) key) s.tui tui) :
      StationStep R checks (.key key) s
        { s with
          tui := tui
          tasks := s.tasks ++ tui.spawnedSince s.tui
          lines := s.lines ++ s.tui.entered key }
  | event {s : Station ρ} {ev : ChatEvent} {rest : List ChatEvent} {tui : Tui} {room : ρ}
      (hloop : s.tui.quit = false) (hqueue : (R.events s.room).queue = ev :: rest)
      (hroom : R.call .takeEvent s.room room)
      (hstep : TuiStep checks (.event (R.now s.room) (some ev)) s.tui tui) :
      StationStep R checks .event s { s with tui := tui, room := room }
  | noEvent {s : Station ρ} {tui : Tui} (hloop : s.tui.quit = false)
      (hqueue : (R.events s.room).queue = []) (hover : R.Over s.room)
      (hstep : TuiStep checks (.event (R.now s.room) none) s.tui tui) :
      StationStep R checks .noEvent s { s with tui := tui }
  | result {s : Station ρ} {result : CmdResult} {rest : List CmdResult} {tui : Tui}
      (hloop : s.tui.quit = false) (hqueue : s.results = result :: rest)
      (hstep : TuiStep checks (.result (R.now s.room) result) s.tui tui) :
      StationStep R checks .result s { s with tui := tui, results := rest }
  | tick {s : Station ρ} {tui : Tui} (hloop : s.tui.quit = false)
      (hstep : TuiStep checks (.tick (R.now s.room)) s.tui tui) :
      StationStep R checks .tick s { s with tui := tui }
  /-- `h.send(&t).await` -/
  | send {s : Station ρ} {text : String} {front back : List Spawned} {room : ρ}
      (htask : s.tasks = front ++ .send text :: back)
      (hroom : R.call (.send text) s.room room) :
      StationStep R checks (.send text) s { s with room := room, tasks := front ++ back }
  | sendRefused {s : Station ρ} {text : String} {front back : List Spawned}
      (htask : s.tasks = front ++ .send text :: back)
      (hclosed : R.Quit s.room ∨ R.Deaf s.room) :
      StationStep R checks (.sendRefused text) s { s with tasks := front ++ back }
  | invite {s : Station ρ} {nonce : Bytes16} {name : Option String} {front back : List Spawned}
      {answer : Except ChatError String} {room : ρ}
      (htask : s.tasks = front ++ .invite name :: back)
      (hroom : R.invite nonce name s.room room answer) :
      StationStep R checks (.invite nonce name) s
        { s with
          room := room
          tasks := front ++ back
          results := s.results ++ [.invite (answer.mapError ChatError.display)] }
  | peers {s : Station ρ} {peers : List PeerInfo} {front back : List Spawned}
      (htask : s.tasks = front ++ .peers :: back) (hpeers : R.Lists s.room peers) :
      StationStep R checks .peers s
        { s with tasks := front ++ back, results := s.results ++ [.peers peers] }
  | quitFlag {s : Station ρ} {room : ρ} (htask : .quit ∈ s.tasks ∨ s.tui.quit = true)
      (hroom : R.call .quitFlag s.room room) :
      StationStep R checks .quitFlag s { s with room := room }
  | quitSend {s : Station ρ} {room : ρ} (htask : .quit ∈ s.tasks ∨ s.tui.quit = true)
      (hroom : R.call .quitSend s.room room) :
      StationStep R checks .quitSend s { s with room := room }
  | quitDone {s : Station ρ} {front back : List Spawned}
      (htask : s.tasks = front ++ .quit :: back) (hflag : R.Quit s.room) :
      StationStep R checks .quitDone s
        { s with tasks := front ++ back, results := s.results ++ [.quit] }
  | own {s : Station ρ} {k : κ} {room : ρ} (hroom : R.move k s.room room) :
      StationStep R checks (.own k) s { s with room := room }

variable {ρ κ : Type} {R : RoomSide ρ κ} {checks : Bool} {tui tui' : Tui} {now : ℕ}
  {key : KeyEvent} {s t : Station ρ} {l : StationLabel κ} {ls : List (StationLabel κ)}

/-! ## What a key spawns -/

/-- The texts that tasks are to send. -/
def sendTexts (tasks : List Spawned) : List String :=
  tasks.filterMap fun
    | .send text => some text
    | _ => none

@[simp] theorem sendTexts_append (tasks more : List Spawned) :
    sendTexts (tasks ++ more) = sendTexts tasks ++ sendTexts more := List.filterMap_append

/-- What a change of the terminal's state spawns. -/
structure Tui.Spawns (new : List Spawned) (tui tui' : Tui) : Prop where
  spawned : tui'.spawned = tui.spawned ++ new
  handle : tui'.handle = tui.handle

theorem Tui.Spawns.of_eq (hspawned : tui'.spawned = tui.spawned)
    (hhandle : tui'.handle = tui.handle) : Tui.Spawns [] tui tui' :=
  ⟨by rw [hspawned, List.append_nil], hhandle⟩

theorem Tui.Spawns.expire {new : List Spawned} (h : Tui.Spawns new tui tui') (now : ℕ) :
    Tui.Spawns new tui (tui'.expire now) := by
  rcases tui'.expire_cases now with heq | heq
  · rw [heq]
    exact h
  · rw [heq]
    exact ⟨h.spawned, h.handle⟩

theorem Tui.spawns_pushLines (tui : Tui) (now : ℕ) (lines : List String) :
    Tui.Spawns [] tui (lines.foldl (fun tui line => tui.pushSystem now line) tui) := by
  induction lines generalizing tui with
  | nil => exact .of_eq rfl rfl
  | cons line lines ih =>
      exact ⟨(ih (tui.pushSystem now line)).spawned, (ih (tui.pushSystem now line)).handle⟩

/-- A command is not sent. -/
theorem Tui.spawns_dispatchCommand (tui : Tui) (now : ℕ) (cmd : List Char) :
    ∃ new, Tui.Spawns new tui (tui.dispatchCommand now cmd) ∧ sendTexts new = [] := by
  unfold Tui.dispatchCommand
  split_ifs
  · exact ⟨[], .of_eq rfl rfl, rfl⟩
  · exact ⟨[], .of_eq rfl rfl, rfl⟩
  · dsimp only
    split
    · exact ⟨_, ⟨rfl, rfl⟩, rfl⟩
    · exact ⟨_, ⟨rfl, rfl⟩, rfl⟩
    · exact ⟨_, ⟨rfl, rfl⟩, rfl⟩
    · exact ⟨[], tui.spawns_pushLines now helpLines, rfl⟩
    · exact ⟨[], .of_eq rfl rfl, rfl⟩

theorem Tui.spawns_send (tui : Tui) (now : ℕ) (hhandle : tui.handle = true)
    (hrunning : tui.mode = .running) (hcode : key.code = .enter) :
    ∃ new, Tui.Spawns new tui (tui.send now) ∧ sendTexts new = tui.entered key := by
  have hkey : ¬ key.IsInterrupt := fun h => by
    rw [KeyEvent.IsInterrupt, hcode] at h
    cases h.1
  unfold Tui.send Tui.entered
  rw [if_neg hkey, hrunning, hcode]
  cases hinput : tui.input with
  | nil => exact ⟨[], .of_eq rfl rfl, rfl⟩
  | cons c rest =>
      by_cases hc : c = '/'
      · subst hc
        obtain ⟨new, hnew, hnone⟩ := Tui.spawns_dispatchCommand
          { tui with input := [], cursor := 0, scroll := 0 } now rest
        exact ⟨new, ⟨hnew.spawned, hnew.handle⟩, by simpa using hnone⟩
      · dsimp only
        rw [if_neg hc]
        split
        · rename_i heq
          cases heq
        · rename_i heq
          cases heq
          exact absurd rfl hc
        · rw [if_pos hhandle]
          exact ⟨_, ⟨rfl, rfl⟩, rfl⟩

theorem Tui.entered_of_ne (hcode : key.code ≠ .enter) : tui.entered key = [] := by
  unfold Tui.entered
  split
  · rfl
  · split
    · rename_i hkey _
      exact absurd hkey hcode
    · rfl

/-- Any other key edits the line or scrolls. -/
theorem Tui.spawns_edit (h : tui.handleRunning checks now key = some tui')
    (hcode : key.code ≠ .enter) : Tui.Spawns [] tui tui' := by
  obtain ⟨code, modifiers⟩ := key
  cases code with
  | enter => exact absurd rfl hcode
  | up | pageUp =>
      rw [Tui.eq_of_scrollUp h]
      exact .of_eq rfl rfl
  | down | pageDown | left | home | endKey | other =>
      cases h
      exact .of_eq rfl rfl
  | right =>
      cases h
      split <;> exact .of_eq rfl rfl
  | char | backspace | delete =>
      unfold Tui.handleRunning at h
      dsimp only at h
      split at h
      · obtain ⟨input, -, heq⟩ := Option.bind_eq_some_iff.mp h
        cases heq
        exact .of_eq rfl rfl
      · cases h
        exact .of_eq rfl rfl

/-- **A key spawns what it enters.** -/
theorem Tui.spawns_handleKey (h : tui.handleKey checks now key = some tui')
    (hhandle : tui.handle = true) :
    ∃ new, Tui.Spawns new tui tui' ∧ sendTexts new = tui.entered key := by
  unfold Tui.handleKey at h
  split at h
  · rename_i hinterrupt
    cases h
    exact ⟨[], .of_eq rfl rfl, by rw [Tui.entered, if_pos hinterrupt]; rfl⟩
  · rename_i hinterrupt
    split at h
    · rename_i hmode
      cases h
      exact ⟨[], .of_eq rfl rfl, by rw [Tui.entered, if_neg hinterrupt, hmode]; rfl⟩
    · rename_i hmode
      cases h
      exact ⟨[], .of_eq rfl rfl, by rw [Tui.entered, if_neg hinterrupt, hmode]; rfl⟩
    · rename_i hrunning
      by_cases hcode : key.code = .enter
      · unfold Tui.handleRunning at h
        rw [hcode] at h
        cases h
        exact tui.spawns_send now hhandle hrunning hcode
      · exact ⟨[], Tui.spawns_edit h hcode, (tui.entered_of_ne hcode).symm ▸ rfl⟩

theorem TuiStep.spawns {l : TuiLabel} (h : TuiStep checks l tui tui')
    (hl : ∀ now key, l ≠ .key now key) : Tui.Spawns [] tui tui' := by
  cases h with
  | key => exact absurd rfl (hl _ _)
  | @event _ tui' now event hevent =>
      refine Tui.Spawns.expire ?_ now
      unfold Tui.handleMaybeEvent at hevent
      split at hevent
      · obtain ⟨app, -, heq⟩ := Option.map_eq_some_iff.mp hevent
        cases heq
        exact .of_eq rfl rfl
      · split at hevent <;> cases hevent <;> exact .of_eq rfl rfl
  | @result _ now result =>
      refine Tui.Spawns.expire ?_ now
      unfold Tui.handleResult
      split
      · exact .of_eq rfl rfl
      · exact .of_eq rfl rfl
      · split <;> exact .of_eq rfl rfl
      · exact .of_eq rfl rfl
  | tick => exact Tui.Spawns.expire (.of_eq rfl rfl) _

/-- A line that is entered has text in it, and is no command. -/
theorem Tui.of_mem_entered {line : String} (h : line ∈ tui.entered key) :
    line ≠ "" ∧ line.toList.head? ≠ some '/' := by
  unfold Tui.entered at h
  split at h
  · cases h
  · split at h
    · rename_i c rest _
      split at h
      · cases h
      · rename_i hc
        rw [List.mem_singleton.mp h]
        constructor
        · intro hempty
          have hlist := congrArg String.toList hempty
          simp at hlist
        · simpa using hc
    · cases h

/-! ## The ledger -/

/-- The texts that have gone to the room, or are to go there, are lines that were entered. -/
structure RoomSide.Ledger (R : RoomSide ρ κ) (s : Station ρ) : Prop where
  handle : s.tui.handle = true
  texts : (R.sent s.room ++ sendTexts s.tasks).Subperm s.lines
  lines : ∀ line ∈ s.lines, line ≠ "" ∧ line.toList.head? ≠ some '/'

/-- What the room has taken was typed. -/
theorem RoomSide.Ledger.taken (h : R.Ledger s) {texts : List String}
    (htexts : texts <+: R.sent s.room) : texts.Subperm s.lines :=
  (htexts.sublist.trans (List.sublist_append_left _ _)).subperm.trans h.texts

/-- A task that ends without a text for the room. -/
theorem sendTexts_remove (front back : List Spawned) (task : Spawned) :
    (sendTexts (front ++ back)).Sublist (sendTexts (front ++ task :: back)) :=
  List.Sublist.filterMap _ ((List.Sublist.refl front).append (List.sublist_cons_self task back))

/-- A task that sends its text. -/
theorem sendTexts_moved (R : RoomSide ρ κ) {room room' : ρ} {tasks front back : List Spawned}
    {text : String} (htask : tasks = front ++ .send text :: back)
    (hroom : R.call (.send text) room room') :
    (R.sent room' ++ sendTexts (front ++ back)).Subperm (R.sent room ++ sendTexts tasks) := by
  have htext : sendTexts (.send text :: back) = text :: sendTexts back := rfl
  have hmoved : ([text] ++ (sendTexts front ++ sendTexts back)).Perm
      (sendTexts front ++ text :: sendTexts back) := by
    rw [List.singleton_append]
    exact List.perm_middle.symm
  rw [R.sent_call hroom, htask, sendTexts_append, sendTexts_append, htext, List.append_assoc]
  exact (hmoved.append_left _).subperm

/-- **Every text for the room is a line that was entered.** -/
theorem StationStep.ledger (h : StationStep R checks l s t) (hs : R.Ledger s) : R.Ledger t := by
  obtain ⟨hhandle, htexts, hlines⟩ := hs
  have hcall : ∀ {call : HandleCall} {room : ρ}, call.texts = [] → R.call call s.room room →
      (R.sent room ++ sendTexts s.tasks).Subperm s.lines := fun hnone hroom => by
    rw [R.sent_call hroom, hnone, List.append_nil]
    exact htexts
  have hdone : ∀ {front back : List Spawned} {task : Spawned}, s.tasks = front ++ task :: back →
      (R.sent s.room ++ sendTexts (front ++ back)).Subperm s.lines := fun htask => by
    rw [htask] at htexts
    exact ((sendTexts_remove _ _ _).append_left _).subperm.trans htexts
  cases h with
  | @key _ key tui _ hstep =>
      cases hstep with
      | @key _ tui₁ _ _ hkey =>
          -- a line is entered and its task spawned, both at the end of their lists
          obtain ⟨new, hspawns, hnew⟩ := Tui.spawns_handleKey hkey hhandle
          have hexpired := hspawns.expire (R.now s.room)
          refine ⟨hexpired.handle.trans hhandle, ?_, ?_⟩
          · dsimp only
            rw [Tui.spawnedSince, hexpired.spawned, List.drop_left, sendTexts_append, hnew,
              ← List.append_assoc]
            exact htexts.append (List.Subperm.refl _)
          · intro line hline
            rcases List.mem_append.mp hline with hline | hline
            · exact hlines line hline
            · exact Tui.of_mem_entered hline
  | event _ _ hroom hstep =>
      exact ⟨(hstep.spawns nofun).handle.trans hhandle, hcall rfl hroom, hlines⟩
  | noEvent _ _ _ hstep | result _ _ hstep | tick _ hstep =>
      exact ⟨(hstep.spawns nofun).handle.trans hhandle, htexts, hlines⟩
  | send htask hroom =>
      exact ⟨hhandle, (sendTexts_moved R htask hroom).trans htexts, hlines⟩
  | sendRefused htask | peers htask | quitDone htask => exact ⟨hhandle, hdone htask, hlines⟩
  | invite htask hroom =>
      refine ⟨hhandle, ?_, hlines⟩
      dsimp only
      rw [(R.invite_keeps hroom).1]
      exact hdone htask
  | quitFlag _ hroom | quitSend _ hroom => exact ⟨hhandle, hcall rfl hroom, hlines⟩
  | own hroom =>
      refine ⟨hhandle, ?_, hlines⟩
      dsimp only
      rw [(R.move_keeps hroom).1]
      exact htexts

/-- The ledger after a whole run. -/
theorem RoomSide.ledger_of_run {timestamps : Bool} {progress : UInt8} {msg : String} {room : ρ}
    (hrun : Run (StationStep R checks) ⟨.start timestamps progress msg, room⟩ ls s)
    (hsent : R.sent room = []) : R.Ledger s :=
  hrun.invariant (I := R.Ledger) ⟨rfl, by rw [hsent]; exact List.nil_subperm, nofun⟩
    fun hs h => h.ledger hs

end Nullpipe

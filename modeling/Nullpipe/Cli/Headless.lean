import Nullpipe.Cli.HostApp
import Nullpipe.Cli.Shown
import Mathlib.Data.List.DropRight

/-!
# The application without a screen

`run_headless` has the same room behind its handle as `run_tui`, and another loop: lines of the
standard input instead of keys, lines on the standard output instead of a screen.  A line is
sent if the room has been ready when the loop took it; one that comes earlier is dropped.  A
task prints what its command comes back with.

The model follows that of the terminal, with the same `RoomSide`, so that the two can be
compared.

* `RoomSide.Follows` is what the loop owes to the events and the lines it has taken: whether it
  is ready, whether it has ended, and every message among what it has printed.
  `PipedStep.follows` is its step lemma.
* `RoomSide.PipedLedger` is the ledger of the texts: those that have gone to the room, or are to
  go there, are lines of the standard input, taken when the room was ready.

Two theorems are about a host with this front end: `only_read_lines`, that its room broadcasts
only lines that came in, and `front_ends_agree`, that a loop with a screen and one without that
have been told the same events take lines in the same window and show the same conversation.
-/

namespace Nullpipe

open Channel Room Transition String

/-! ## The loop -/

/-- What is printed, line breaks included. -/
inductive Printed
  | out (text : String)
  | err (text : String)
  deriving DecidableEq, Repr

/-- The loop of `run_headless` with the tasks it has spawned. -/
structure Headless where
  /-- `room_ready` -/
  ready : Bool
  /-- the loop was left -/
  broken : Bool
  tasks : List Spawned
  printed : List Printed
  deriving DecidableEq, Repr

/-- `str::trim`. -/
def trim (text : List Char) : List Char := (text.dropWhile isWhitespace).rdropWhile isWhitespace

namespace Headless

def spawn (h : Headless) (task : Spawned) : Headless := { h with tasks := h.tasks ++ [task] }

def print (h : Headless) (line : Printed) : Headless := { h with printed := h.printed ++ [line] }

/-- A line that begins with a slash. -/
def dispatch (h : Headless) (cmd : List Char) : Headless :=
  let parts := splitWhitespace cmd
  match parts.head?.getD "" with
  | "invite" => h.spawn (.invite parts[1]?)
  | "peers" => h.spawn .peers
  | _ => h.print (.out ("[system] unknown command: /" ++ ofList cmd ++ "\n"))

/-- A line of the standard input. -/
def handleLine (h : Headless) (text : String) : Headless :=
  let line := trim text.toList
  if line = [] then h
  else if line = "/quit".toList then { h with broken := true }
  else
    match line with
    | '/' :: cmd => h.dispatch cmd
    | _ => if h.ready then h.spawn (.send (ofList line)) else h

/-- The line of a message. -/
def messageLine (said : String × String) : Printed :=
  .out ("[" ++ said.1 ++ "] " ++ said.2 ++ "\n")

/-- An event of the room, or the end of its channel.  As in `App.handleEvent`, the slice of
`truncate_onion` may panic. -/
def handleMaybeEvent (h : Headless) : Option ChatEvent → Option Headless
  | none => some { h.print (.err "\n[system] connection lost\n") with broken := true }
  | some (.bootstrapProgress percent) =>
    some (if 0 < percent ∧ percent < 100 then
      h.print (.err ("\rBootstrapping: " ++ toString percent.toNat ++ "%  ")) else h)
  | some (.roomReady onionAddress _) => do
    let shown ← truncateOnion onionAddress
    some ({ h with ready := true }.print (.out ("\n[system] room ready: " ++ shown ++ "...\n")))
  | some (.peerJoin info) =>
    some { h.print (.out ("[system] " ++ info.name ++ " joined\n")) with ready := true }
  | some (.peerLeave id) => some (h.print (.out ("[system] " ++ id.val ++ " left\n")))
  | some (.message _ name text) => some (h.print (messageLine (name, text)))
  | some (.inviteCreated code) =>
    some (h.print (.out ("[system] new invite code: " ++ code ++ "\n")))
  | some .roomClosed => some { h.print (.out "[system] room closed\n") with broken := true }
  | some (.error e) => some (h.print (.err ("\n[error] " ++ e.display ++ "\n")))

/-- What the task of `/invite` prints. -/
def inviteAnswer : Except ChatError String → Printed
  | .ok code => .out ("[system] invite code: " ++ code ++ "\n")
  | .error e => .err ("[error] invite failed: " ++ e.display ++ "\n")

/-- What the task of `/peers` prints. -/
def peersAnswer (peers : List PeerInfo) : Printed :=
  if peers = [] then .out "[system] no peers\n"
  else .out ("[system] peers: " ++ ", ".intercalate (peers.map PeerInfo.name) ++ "\n")

end Headless

/-! ## The loop and its room -/

/-- The text that a line is to send: none if it is blank or a command. -/
def textOf (text : String) : List String :=
  match trim text.toList with
  | [] => []
  | c :: rest => if c = '/' then [] else [ofList (c :: rest)]

/-- The text that the loop sends when it takes a line. -/
def Headless.entered (h : Headless) (text : String) : List String :=
  if h.ready then textOf text else []

/-- The loop with its room, the channel that a thread fills with the lines of the standard
input, and every text that was to be sent. -/
structure Piped (ρ : Type) extends Headless where
  stdin : Mpsc String
  lines : List String
  room : ρ

/-- `run_headless` when the Tor client is up. -/
def Piped.start {ρ : Type} (room : ρ) : Piped ρ := ⟨⟨false, false, [], []⟩, .empty, [], room⟩

inductive PipedLabel (κ : Type)
  /-- the thread reads a line -/
  | read (text : String)
  | line
  | event
  | noEvent
  | send (text : String)
  | sendRefused (text : String)
  | invite (nonce : Bytes16) (name : Option String)
  | peers
  | quitFlag
  | quitSend
  | own (k : κ)

/-- The steps of the loop, of the tasks it has spawned and of the room.  As in `StationStep`,
`send` and `invite` may act after `quit`, which is called once the loop was left. -/
inductive PipedStep {ρ κ : Type} (R : RoomSide ρ κ) : PipedLabel κ → Piped ρ → Piped ρ → Prop
  | read {s : Piped ρ} {text : String} :
      PipedStep R (.read text) s { s with stdin := s.stdin.push text }
  | line {s : Piped ρ} {text : String} {rest : List String} (hloop : s.broken = false)
      (hqueue : s.stdin.queue = text :: rest) :
      PipedStep R .line s
        { s with
          toHeadless := s.toHeadless.handleLine text
          stdin := s.stdin.pop
          lines := s.lines ++ s.entered text }
  | event {s : Piped ρ} {ev : ChatEvent} {rest : List ChatEvent} {h : Headless} {room : ρ}
      (hloop : s.broken = false) (hqueue : (R.events s.room).queue = ev :: rest)
      (hroom : R.call .takeEvent s.room room)
      (hevent : s.toHeadless.handleMaybeEvent (some ev) = some h) :
      PipedStep R .event s { s with toHeadless := h, room := room }
  | noEvent {s : Piped ρ} {h : Headless} (hloop : s.broken = false)
      (hqueue : (R.events s.room).queue = []) (hover : R.Over s.room)
      (hevent : s.toHeadless.handleMaybeEvent none = some h) :
      PipedStep R .noEvent s { s with toHeadless := h }
  /-- `h.send(&line).await` -/
  | send {s : Piped ρ} {text : String} {front back : List Spawned} {room : ρ}
      (htask : s.tasks = front ++ .send text :: back)
      (hroom : R.call (.send text) s.room room) :
      PipedStep R (.send text) s { s with room := room, tasks := front ++ back }
  | sendRefused {s : Piped ρ} {text : String} {front back : List Spawned}
      (htask : s.tasks = front ++ .send text :: back)
      (hclosed : R.Quit s.room ∨ R.Deaf s.room) :
      PipedStep R (.sendRefused text) s { s with tasks := front ++ back }
  | invite {s : Piped ρ} {nonce : Bytes16} {name : Option String} {front back : List Spawned}
      {answer : Except ChatError String} {room : ρ}
      (htask : s.tasks = front ++ .invite name :: back)
      (hroom : R.invite nonce name s.room room answer) :
      PipedStep R (.invite nonce name) s
        { s with
          toHeadless :=
            { s.toHeadless with tasks := front ++ back }.print (Headless.inviteAnswer answer)
          room := room }
  | peers {s : Piped ρ} {peers : List PeerInfo} {front back : List Spawned}
      (htask : s.tasks = front ++ .peers :: back) (hpeers : R.Lists s.room peers) :
      PipedStep R .peers s
        { s with
          toHeadless :=
            { s.toHeadless with tasks := front ++ back }.print (Headless.peersAnswer peers) }
  | quitFlag {s : Piped ρ} {room : ρ} (hover : s.broken = true)
      (hroom : R.call .quitFlag s.room room) :
      PipedStep R .quitFlag s { s with room := room }
  | quitSend {s : Piped ρ} {room : ρ} (hover : s.broken = true)
      (hroom : R.call .quitSend s.room room) :
      PipedStep R .quitSend s { s with room := room }
  | own {s : Piped ρ} {k : κ} {room : ρ} (hroom : R.move k s.room room) :
      PipedStep R (.own k) s { s with room := room }

variable {ρ κ : Type} {R : RoomSide ρ κ} {h h' : Headless} {text : String} {s t : Piped ρ}
  {l : PipedLabel κ} {ls : List (PipedLabel κ)}

/-! ## Lines -/

/-- A line that ends the loop. -/
def QuitLine (text : String) : Prop := trim text.toList = "/quit".toList

/-- What a line does to the loop. -/
structure Headless.Takes (text : String) (h h' : Headless) : Prop where
  ready : h'.ready = h.ready
  broken : h'.broken = true ↔ h.broken = true ∨ QuitLine text
  tasks : ∃ new, h'.tasks = h.tasks ++ new ∧ sendTexts new = h.entered text
  printed : h.printed <+: h'.printed

/-- A command is not sent. -/
theorem Headless.takes_dispatch {cmd : List Char} (htext : trim text.toList = '/' :: cmd)
    (hquit : ¬ QuitLine text) : Headless.Takes text h (h.dispatch cmd) := by
  have hnone : h.entered text = [] := by
    rw [entered, textOf, htext]
    simp
  have hspawn : ∀ task, sendTexts [task] = [] → Headless.Takes text h (h.spawn task) :=
    fun task htask => ⟨rfl, (or_iff_left hquit).symm, ⟨[task], rfl, htask.trans hnone.symm⟩,
      List.prefix_rfl⟩
  unfold dispatch
  dsimp only
  split
  · exact hspawn _ rfl
  · exact hspawn _ rfl
  · exact ⟨rfl, (or_iff_left hquit).symm, ⟨[], (List.append_nil _).symm, hnone.symm⟩,
      List.prefix_append _ _⟩

/-- Any other line is sent, if the room is ready. -/
theorem Headless.takes_text {line : List Char} (htext : textOf text = [ofList line])
    (hquit : ¬ QuitLine text) :
    Headless.Takes text h (if h.ready then h.spawn (.send (ofList line)) else h) := by
  split
  · rename_i hready
    refine ⟨rfl, (or_iff_left hquit).symm, ⟨_, rfl, ?_⟩, List.prefix_rfl⟩
    rw [entered, if_pos hready, htext]
    rfl
  · rename_i hready
    refine ⟨rfl, (or_iff_left hquit).symm, ⟨[], (List.append_nil _).symm, ?_⟩, List.prefix_rfl⟩
    rw [entered, if_neg hready]
    rfl

theorem textOf_of_ne {line : List Char} (htrim : trim text.toList = line) (hblank : line ≠ [])
    (hplain : ∀ cmd, line ≠ '/' :: cmd) : textOf text = [ofList line] := by
  unfold textOf
  rw [htrim]
  cases line with
  | nil => exact absurd rfl hblank
  | cons c rest =>
      refine if_neg ?_
      rintro rfl
      exact hplain rest rfl

/-- **A line spawns what it enters.** -/
theorem Headless.takes_handleLine (h : Headless) (text : String) :
    Headless.Takes text h (h.handleLine text) := by
  -- a blank line and `/quit` spawn nothing
  have hkeep : ∀ {b : Bool}, (b = true ↔ h.broken = true ∨ QuitLine text) →
      h.entered text = [] → Headless.Takes text h { h with broken := b } := fun hb hnone =>
    ⟨rfl, hb, ⟨[], (List.append_nil _).symm, hnone.symm⟩, List.prefix_rfl⟩
  unfold handleLine
  dsimp only
  split
  · rename_i hblank
    refine hkeep (or_iff_left ?_).symm ?_
    · rw [QuitLine, hblank]
      decide
    · rw [entered, textOf, hblank]
      exact ite_self _
  · rename_i hblank
    split
    · rename_i hquit
      refine hkeep (iff_of_true rfl (.inr hquit)) ?_
      rw [entered, textOf, hquit]
      exact ite_self _
    · rename_i hquit
      split
      · rename_i cmd hcmd
        exact takes_dispatch hcmd hquit
      · rename_i hplain
        exact takes_text (textOf_of_ne rfl hblank hplain) hquit

/-- Nothing is left to trim. -/
@[simp] theorem trim_trim (text : List Char) : trim (trim text) = trim text := by
  have hfront : (trim text).dropWhile isWhitespace = trim text := by
    rw [List.dropWhile_eq_self_iff]
    intro hne
    have hfirst : trim text <+: text.dropWhile isWhitespace := List.rdropWhile_prefix _ _
    rw [hfirst.getElem hne]
    exact List.dropWhile_get_zero_not _ _ (hne.trans_le hfirst.length_le)
  rw [trim, hfront]
  exact List.rdropWhile_idempotent _ _

/-- A text that is sent has no white space at its ends, has text in it, and is no command. -/
theorem of_mem_textOf {line : String} (h : line ∈ textOf text) :
    trim line.toList = line.toList ∧ line ≠ "" ∧ line.toList.head? ≠ some '/' := by
  unfold textOf at h
  split at h
  · cases h
  · rename_i c rest htrim
    split at h
    · cases h
    · rename_i hc
      rw [List.mem_singleton.mp h, toList_ofList, ← htrim, trim_trim]
      refine ⟨rfl, ?_, ?_⟩
      · intro hempty
        have hlist := congrArg String.toList hempty
        rw [toList_ofList, htrim] at hlist
        cases hlist
      · rw [htrim]
        simpa using hc

/-! ## Events -/

/-- What an event does to the loop. -/
structure Headless.Hears (ev : ChatEvent) (h h' : Headless) : Prop where
  ready : h'.ready = true ↔ h.ready = true ∨ ev.Opens
  broken : h'.broken = true ↔ h.broken = true ∨ ev = .roomClosed
  tasks : h'.tasks = h.tasks
  printed : ∃ new, h'.printed = h.printed ++ new ∧ ((said [ev]).map messageLine).Sublist new

/-- **A message is printed; the room is announced and closed.** -/
theorem Headless.hears_event {ev : ChatEvent} (hevent : h.handleMaybeEvent (some ev) = some h') :
    Headless.Hears ev h h' := by
  have hsame : ∀ {b : Bool} {p : Prop}, ¬ p → (b = true ↔ b = true ∨ p) :=
    fun hp => (or_iff_left hp).symm
  cases ev with
  | roomReady addr port =>
      obtain ⟨shown, -, heq⟩ := Option.bind_eq_some_iff.mp hevent
      cases heq
      exact ⟨iff_of_true rfl (.inr trivial), hsame nofun, rfl, _, rfl, List.nil_sublist _⟩
  | peerJoin =>
      cases hevent
      exact ⟨iff_of_true rfl (.inr trivial), hsame nofun, rfl, _, rfl, List.nil_sublist _⟩
  | roomClosed =>
      cases hevent
      exact ⟨hsame id, iff_of_true rfl (.inr rfl), rfl, _, rfl, List.nil_sublist _⟩
  | bootstrapProgress percent =>
      have hprogress := Option.some.inj hevent
      split at hprogress
      · subst hprogress
        exact ⟨hsame id, hsame nofun, rfl, _, rfl, List.nil_sublist _⟩
      · subst hprogress
        exact ⟨hsame id, hsame nofun, rfl, [], (List.append_nil _).symm, List.Sublist.refl _⟩
  | message =>
      cases hevent
      exact ⟨hsame id, hsame nofun, rfl, _, rfl, List.Sublist.refl _⟩
  | peerLeave | inviteCreated | error =>
      cases hevent
      exact ⟨hsame id, hsame nofun, rfl, _, rfl, List.nil_sublist _⟩

/-- The events that the loop has taken. -/
def RoomSide.taken (R : RoomSide ρ κ) (r : ρ) : List ChatEvent := (R.events r).received

/-- The loop is as the events and the lines it has taken tell, and has printed every message. -/
structure RoomSide.Follows (R : RoomSide ρ κ) (ls : List (PipedLabel κ)) (s : Piped ρ) : Prop where
  ready : s.ready = true ↔ ∃ ev ∈ R.taken s.room, ev.Opens
  broken : s.broken = true ↔ .roomClosed ∈ R.taken s.room ∨ .noEvent ∈ ls ∨
    ∃ text ∈ s.stdin.received, QuitLine text
  printed : ((said (R.taken s.room)).map Headless.messageLine).Sublist s.printed
  isOpen : (R.events s.room).isOpen = true

/-- A step that takes neither an event nor a line. -/
theorem RoomSide.Follows.quiet (hs : R.Follows ls s) (hl : l ≠ .noEvent)
    (hready : t.ready = s.ready) (hover : t.broken = s.broken) (hprinted : s.printed <+: t.printed)
    (hstdin : t.stdin.received = s.stdin.received)
    (htaken : R.taken t.room = R.taken s.room)
    (hopen : (R.events t.room).isOpen = (R.events s.room).isOpen) :
    R.Follows (ls ++ [l]) t := by
  have hended : PipedLabel.noEvent ∈ ls ++ [l] ↔ .noEvent ∈ ls := by
    rw [List.mem_append, List.mem_singleton, or_iff_left (Ne.symm hl)]
  refine ⟨?_, ?_, ?_, hopen.trans hs.isOpen⟩
  · rw [hready, htaken]
    exact hs.ready
  · rw [hover, htaken, hended, hstdin]
    exact hs.broken
  · rw [htaken]
    exact hs.printed.trans hprinted.sublist

theorem RoomSide.Follows.line {rest : List String} (hs : R.Follows ls s)
    (hqueue : s.stdin.queue = text :: rest) :
    R.Follows (ls ++ [.line])
      { s with
        toHeadless := s.toHeadless.handleLine text
        stdin := s.stdin.pop
        lines := s.lines ++ s.entered text } := by
  have htakes := s.toHeadless.takes_handleLine text
  have hstdin : s.stdin.pop.received = s.stdin.received ++ [text] := by
    rw [Mpsc.pop_of_queue hqueue]
  refine ⟨?_, ?_, hs.printed.trans htakes.printed.sublist, hs.isOpen⟩
  · exact (Bool.eq_iff_iff.mp htakes.ready).trans hs.ready
  · have hlabels : PipedLabel.noEvent ∈ ls ++ [.line] ↔ .noEvent ∈ ls := by simp
    refine htakes.broken.trans ?_
    rw [hs.broken, hlabels, hstdin]
    simp only [List.mem_append, List.mem_singleton, or_and_right, exists_or, exists_eq_left,
      RoomSide.taken, or_assoc]

theorem RoomSide.Follows.event {ev : ChatEvent} {rest : List ChatEvent} {room : ρ}
    (hs : R.Follows ls s) (hqueue : (R.events s.room).queue = ev :: rest)
    (hroom : R.call .takeEvent s.room room)
    (hevent : s.toHeadless.handleMaybeEvent (some ev) = some h) :
    R.Follows (ls ++ [.event]) { s with toHeadless := h, room := room } := by
  obtain ⟨hready, hover, -, new, hprinted, hsaid⟩ := Headless.hears_event hevent
  have hpop : R.events room = (R.events s.room).pop := R.events_call hroom
  have htaken : R.taken room = R.taken s.room ++ [ev] := by
    rw [taken, hpop, Mpsc.pop_of_queue hqueue]
    rfl
  have hlabels : PipedLabel.noEvent ∈ ls ++ [.event] ↔ .noEvent ∈ ls := by simp
  refine ⟨hready.trans ?_, hover.trans ?_, ?_, by rw [hpop]; exact hs.isOpen⟩
  · rw [hs.ready, htaken]
    simp [or_and_right, exists_or]
  · rw [hs.broken, hlabels, htaken, List.mem_append, List.mem_singleton, or_right_comm,
      eq_comm (a := ev)]
  · rw [htaken, hprinted, said_append, List.map_append]
    exact hs.printed.append hsaid

theorem RoomSide.Follows.noEvent (hs : R.Follows ls s)
    (hevent : s.toHeadless.handleMaybeEvent none = some h) :
    R.Follows (ls ++ [.noEvent]) { s with toHeadless := h } := by
  cases hevent
  exact ⟨hs.ready, iff_of_true rfl (.inr (.inl (by simp))),
    hs.printed.trans (List.sublist_append_left _ _), hs.isOpen⟩

/-- **Step lemma.** -/
theorem PipedStep.follows (h : PipedStep R l s t) (hs : R.Follows ls s) :
    R.Follows (ls ++ [l]) t := by
  cases h with
  | line _ hqueue => exact hs.line hqueue
  | event _ hqueue hroom hevent => exact hs.event hqueue hroom hevent
  | noEvent _ _ _ hevent => exact hs.noEvent hevent
  | read | sendRefused => exact hs.quiet nofun rfl rfl List.prefix_rfl rfl rfl rfl
  | peers => exact hs.quiet nofun rfl rfl (List.prefix_append _ _) rfl rfl rfl
  | send _ hroom | quitFlag _ hroom | quitSend _ hroom =>
      have hsame := R.events_call hroom
      exact hs.quiet nofun rfl rfl List.prefix_rfl rfl (by rw [RoomSide.taken, hsame]; rfl)
        (by rw [hsame]; rfl)
  | invite _ hroom =>
      have hsame := (R.invite_keeps hroom).2
      exact hs.quiet nofun rfl rfl (List.prefix_append _ _) rfl (by rw [RoomSide.taken, hsame]; rfl)
        (by rw [hsame])
  | own hroom =>
      obtain ⟨-, hreceived, hopen⟩ := R.move_keeps hroom
      exact hs.quiet nofun rfl rfl List.prefix_rfl rfl hreceived hopen

theorem RoomSide.follows_of_run {room : ρ} (hrun : Run (PipedStep R) (.start room) ls s)
    (hevents : R.events room = .empty) : R.Follows ls s := by
  refine hrun.history (I := fun ls s => R.Follows ls s) ?_ fun hs h => h.follows hs
  have hnone : R.taken (Piped.start room).room = [] := congrArg Mpsc.received hevents
  constructor
  · rw [hnone]
    exact iff_of_false nofun nofun
  · rw [hnone]
    exact iff_of_false nofun (by simp [Piped.start, Mpsc.empty])
  · rw [hnone]
    exact List.nil_sublist _
  · exact congrArg Mpsc.isOpen hevents

/-! ## The ledger -/

/-- The texts that have gone to the room, or are to go there, are lines of the standard
input, taken when the room was ready. -/
structure RoomSide.PipedLedger (R : RoomSide ρ κ) (s : Piped ρ) : Prop where
  texts : (R.sent s.room ++ sendTexts s.tasks).Subperm s.lines
  lines : s.lines.Sublist (s.stdin.received.flatMap textOf)
  early : s.ready = false → s.lines = []

theorem RoomSide.PipedLedger.quiet (hs : R.PipedLedger s)
    (htexts : (R.sent t.room ++ sendTexts t.tasks).Subperm (R.sent s.room ++ sendTexts s.tasks))
    (hlines : t.lines = s.lines) (hstdin : t.stdin.received = s.stdin.received)
    (hready : s.ready = true → t.ready = true) : R.PipedLedger t := by
  refine ⟨?_, ?_, fun hearly => ?_⟩
  · rw [hlines]
    exact htexts.trans hs.texts
  · rw [hlines, hstdin]
    exact hs.lines
  · rw [hlines]
    exact hs.early (Bool.eq_false_iff.mpr fun h => Bool.eq_false_iff.mp hearly (hready h))

theorem RoomSide.PipedLedger.line {rest : List String} (hs : R.PipedLedger s)
    (hqueue : s.stdin.queue = text :: rest) :
    R.PipedLedger
      { s with
        toHeadless := s.toHeadless.handleLine text
        stdin := s.stdin.pop
        lines := s.lines ++ s.entered text } := by
  obtain ⟨hready, -, ⟨new, htasks, hnew⟩, -⟩ := s.toHeadless.takes_handleLine text
  have hstdin : s.stdin.pop.received = s.stdin.received ++ [text] := by
    rw [Mpsc.pop_of_queue hqueue]
  refine ⟨?_, ?_, fun hearly => ?_⟩
  · dsimp only
    rw [htasks, sendTexts_append, hnew, ← List.append_assoc]
    exact hs.texts.append (List.Subperm.refl _)
  · dsimp only
    rw [hstdin, List.flatMap_append, List.flatMap_singleton]
    refine hs.lines.append ?_
    rw [Headless.entered]
    split
    · exact List.Sublist.refl _
    · exact List.nil_sublist _
  · have hunready : s.ready = false := hready.symm.trans hearly
    dsimp only
    -- before the room is ready a line enters nothing
    rw [hs.early hunready, Headless.entered, hunready]
    rfl

/-- **Every text for the room is a line of the standard input.** -/
theorem PipedStep.ledger (h : PipedStep R l s t) (hs : R.PipedLedger s) : R.PipedLedger t := by
  have hcall : ∀ {call : HandleCall} {room : ρ}, call.texts = [] → R.call call s.room room →
      (R.sent room ++ sendTexts s.tasks).Subperm (R.sent s.room ++ sendTexts s.tasks) :=
    fun hnone hroom => by
      rw [R.sent_call hroom, hnone, List.append_nil]
  -- a task that ends takes its text out of the ledger, or sends it
  have hdone : ∀ {front back : List Spawned} {task : Spawned}, s.tasks = front ++ task :: back →
      (R.sent s.room ++ sendTexts (front ++ back)).Subperm
        (R.sent s.room ++ sendTexts s.tasks) := fun htask => by
    rw [htask]
    exact ((sendTexts_remove _ _ _).append_left _).subperm
  cases h with
  | line _ hqueue => exact hs.line hqueue
  | event _ _ hroom hevent =>
      obtain ⟨hready, -, htasks, -⟩ := Headless.hears_event hevent
      refine hs.quiet ?_ rfl rfl fun h => hready.mpr (.inl h)
      dsimp only
      rw [htasks]
      exact hcall rfl hroom
  | noEvent _ _ _ hevent =>
      cases hevent
      exact hs.quiet (List.Subperm.refl _) rfl rfl id
  | read => exact hs.quiet (List.Subperm.refl _) rfl rfl id
  | send htask hroom =>
      exact hs.quiet (sendTexts_moved R htask hroom) rfl rfl id
  | sendRefused htask | peers htask => exact hs.quiet (hdone htask) rfl rfl id
  | invite htask hroom =>
      refine hs.quiet ?_ rfl rfl id
      dsimp only
      rw [(R.invite_keeps hroom).1]
      exact hdone htask
  | quitFlag _ hroom | quitSend _ hroom => exact hs.quiet (hcall rfl hroom) rfl rfl id
  | own hroom =>
      refine hs.quiet ?_ rfl rfl id
      dsimp only
      rw [(R.move_keeps hroom).1]

theorem RoomSide.pipedLedger_of_run {room : ρ} (hrun : Run (PipedStep R) (.start room) ls s)
    (hsent : R.sent room = []) : R.PipedLedger s := by
  refine hrun.invariant (I := R.PipedLedger) ⟨?_, List.nil_sublist _, fun _ => rfl⟩
    fun hs h => h.ledger hs
  dsimp only [Piped.start]
  rw [hsent]
  exact List.nil_subperm

/-! ## Two front ends -/

/-- **The front ends agree.**  A loop with a screen and one without that have been told the
same take text in the same window, and what is said on the screen is printed. -/
theorem RoomSide.Windowed.agree {I : ρ → Prop} {a : Station ρ} {ks : List (StationLabel κ)}
    (hwindowed : R.Windowed I ks a) (hmirrors : R.Mirrors a) (hfollows : R.Follows ls s)
    (htold : R.taken s.room = R.told a) (hended : .noEvent ∈ ls ↔ .noEvent ∈ ks)
    (hquit : ∀ text ∈ s.stdin.received, ¬ QuitLine text) :
    (a.tui.mode = .running ↔ s.ready = true ∧ s.broken = false) ∧
      (a.tui.conversation.map Headless.messageLine).Sublist s.printed := by
  constructor
  · have hnoquit : ¬ ∃ text ∈ s.stdin.received, QuitLine text :=
      fun ⟨text, hmem, h⟩ => hquit text hmem h
    rw [hwindowed.window.1, hfollows.ready, Bool.eq_false_iff, Ne, hfollows.broken, htold, hended,
      or_iff_left hnoquit]
    rfl
  · rw [show a.tui.conversation = _ from hmirrors, ← htold]
    exact hfollows.printed

/-! ## The application of a host -/

/-- The steps of `chat host --headless`. -/
abbrev PipedHostStep (X : Crates) (cfg : HostConfig) :
    PipedLabel Label → Piped Room → Piped Room → Prop :=
  PipedStep (hostSide X cfg)

variable {X : Crates} {cfg : HostConfig} {a b : Piped Room} {k : PipedLabel Label}
  {ks : List (PipedLabel Label)} {now : ℕ}

/-- The room takes a step of a room, or none. -/
theorem PipedHostStep.room_step (h : PipedHostStep X cfg k a b) :
    b.room = a.room ∨ ∃ l, Step X cfg l a.room b.room := by
  cases h with
  | read | line | noEvent | sendRefused | peers => exact .inl rfl
  | event _ _ hroom | send _ hroom | quitFlag _ hroom | quitSend _ hroom =>
      exact .inr ⟨_, .user hroom⟩
  | invite _ hroom =>
      cases hroom with
      | code _ _ hroom => exact .inr ⟨_, .user hroom⟩
      | refused | late => exact .inl rfl
  | own hroom => exact .inr ⟨_, hroom.1⟩

theorem pipedHost_reachable
    (hrun : Run (PipedHostStep X cfg) (.start (Room.init now)) ks a) :
    RoomReachable X cfg a.room := by
  obtain ⟨ls, hroom⟩ := hrun.project Piped.room fun h => PipedHostStep.room_step h
  exact ⟨now, ls, hroom⟩

/-- A step of the host loop. -/
theorem PipedHostStep.ofHost {l : HostLabel} {r : Room} (h : HostStep cfg l a.room r) :
    PipedHostStep X cfg (.own (.host l)) a { a with room := r } :=
  .own ⟨.host h, fun _ heq => nomatch heq⟩

/-- A line comes in, and the room broadcasts it. -/
theorem run_piped : ∃ ks a,
    Run (PipedHostStep .standard ⟨"host", 300⟩) (.start (Room.init 0)) ks a ∧
    a.stdin.received = [" hi "] ∧ a.room.bcast = [.chat "host" "hi"] ∧
    a.room.events.received = [.roomReady "room.onion" 80] ∧ .noEvent ∉ ks := by
  have hrun : Run (PipedHostStep .standard ⟨"host", 300⟩) (.start (Room.init 0)) [] _ := .nil
  have hrun := hrun.snoc (l := .own (.host (.created "room.onion"))) (.ofHost (.created rfl))
  have hrun := hrun.snoc (l := .own (.host .sendReady))
    (.ofHost (.sendReady rfl ⟨rfl, by decide⟩))
  have hrun := hrun.snoc (l := .own (.host .publishInvite)) (.ofHost (.publishInvite rfl))
  have hrun := hrun.snoc (l := .own (.host .spawnAccept)) (.ofHost (.spawnAccept rfl))
  have hrun := hrun.snoc (l := .event) (.event rfl rfl (UserStep.takeEvent rfl) rfl)
  have hrun := hrun.snoc (l := .read " hi ") .read
  have hrun := hrun.snoc (l := .line) (.line rfl rfl)
  have hrun := hrun.snoc (l := .send "hi")
    (@PipedStep.send _ _ _ _ _ [] [] _ rfl (UserStep.send rfl ⟨rfl, by decide⟩))
  have hrun := hrun.snoc (l := .own (.host (.takeText "hi")))
    (.ofHost (.takeText rfl (by decide) rfl))
  have hrun := hrun.snoc (l := .own (.host .echo)) (.ofHost (.echo rfl))
  have hrun := hrun.snoc (l := .own (.host (.broadcast (.chat "host" "hi"))))
    (.ofHost (.broadcast rfl))
  exact ⟨_, _, hrun, rfl, rfl, rfl, by simp⟩

/-- **Only lines of the standard input are sent.**  What the room broadcasts are texts of
lines that came in, each at most as often as it came in: trimmed, neither blank nor a command;
nothing is broadcast before the loop has been told that the room is ready. -/
theorem only_read_lines (X : Crates) (cfg : HostConfig) (now : ℕ)
    (ks : List (PipedLabel Label)) (a : Piped Room)
    (hrun : Run (PipedHostStep X cfg) (.start (Room.init now)) ks a) :
    (∃ told : List String, a.room.bcast = told.map (.chat cfg.name) ∧
      told.Subperm (a.stdin.received.flatMap textOf) ∧
      ∀ text ∈ told, trim text.toList = text.toList ∧ text ≠ "" ∧
        text.toList.head? ≠ some '/') ∧
      ((∀ addr port, .roomReady addr port ∉ a.room.events.received) → a.room.bcast = []) := by
  have hledger := RoomSide.pipedLedger_of_run hrun rfl
  have hfollows := RoomSide.follows_of_run hrun rfl
  have hreach := pipedHost_reachable hrun
  obtain ⟨told, hlog, haccount⟩ := hreach.account
  have htold : told.Subperm a.lines := by
    have hsent : told <+: (hostSide X cfg).sent a.room :=
      haccount.prefix.trans (Mpsc.received_prefix_sent _)
    exact (hsent.sublist.trans (List.sublist_append_left _ _)).subperm.trans hledger.texts
  refine ⟨⟨told, hlog, htold.trans hledger.lines.subperm, fun text htext => ?_⟩, fun hsilent => ?_⟩
  · obtain ⟨line, -, hline⟩ := List.mem_flatMap.mp (hledger.lines.subset (htold.subset htext))
    exact of_mem_textOf hline
  -- without a `RoomReady` the loop is not ready, and has sent nothing
  · have hunready : a.ready = false := by
      refine Bool.eq_false_iff.mpr fun hready => ?_
      obtain ⟨addr, port, hmem⟩ :=
        (hreach.toldReady hfollows.isOpen).mp (hfollows.ready.mp hready)
      exact hsilent addr port hmem
    have hnone : told = [] := by
      rw [hledger.early hunready] at htold
      exact List.subperm_nil.mp htold
    rw [hlog, hnone]
    rfl

theorem only_read_lines_hi : ∃ a : Piped Room,
    a.stdin.received = [" hi "] ∧ a.room.bcast = [.chat "host" "hi"] ∧
    (∃ told : List String, a.room.bcast = told.map (.chat "host") ∧
      told.Subperm (a.stdin.received.flatMap textOf) ∧
      ∀ text ∈ told, trim text.toList = text.toList ∧ text ≠ "" ∧
        text.toList.head? ≠ some '/') ∧
      ((∀ addr port, .roomReady addr port ∉ a.room.events.received) → a.room.bcast = []) := by
  obtain ⟨ks, a, hrun, hstdin, hbcast, -⟩ := run_piped
  exact ⟨a, hstdin, hbcast, only_read_lines .standard ⟨"host", 300⟩ 0 ks a hrun⟩

/-- **The host's front ends agree.**  A host with a screen and one without whose loops have
been told the same, one of them with no `/quit`, take text in the same window, and what is
said on the screen of the one is printed by the other, in the same order. -/
theorem front_ends_agree (X : Crates) (cfg : HostConfig) (checks timestamps : Bool)
    (progress : UInt8) (msg : String) (now now' : ℕ) (ls : List (StationLabel Label))
    (ks : List (PipedLabel Label)) (s : Station Room) (a : Piped Room)
    (hscreen : Run (HostAppStep X cfg checks) (HostApp.start timestamps progress msg now) ls s)
    (hpiped : Run (PipedHostStep X cfg) (.start (Room.init now')) ks a)
    (htold : a.room.events.received = s.room.events.received)
    (hended : .noEvent ∈ ks ↔ .noEvent ∈ ls)
    (hquit : ∀ text ∈ a.stdin.received, ¬ QuitLine text) :
    (s.tui.mode = .running ↔ a.ready = true ∧ a.broken = false) ∧
      (s.tui.conversation.map Headless.messageLine).Sublist a.printed := by
  have hwindowed := RoomSide.windowed_of_run (orderly_hostSide X cfg) hscreen ⟨now, .refl _⟩ rfl
  have hmirrors : (hostSide X cfg).Mirrors s := RoomSide.mirrors_of_run hscreen rfl
  exact hwindowed.agree hmirrors (RoomSide.follows_of_run hpiped rfl) htold hended hquit

theorem front_ends_agree_hi : ∃ (s : Station Room) (a : Piped Room), s.tui.mode = .running ∧
    (s.tui.mode = .running ↔ a.ready = true ∧ a.broken = false) ∧
      (s.tui.conversation.map Headless.messageLine).Sublist a.printed := by
  obtain ⟨ls, s, hscreen, -, -, hmode, htold, hended⟩ := run_hi
  obtain ⟨ks, a, hpiped, hstdin, -, htold', hended'⟩ := run_piped
  refine ⟨s, a, hmode, front_ends_agree .standard ⟨"host", 300⟩ true false 100 "tor is up" 0 0
    ls ks s a hscreen hpiped (htold'.trans htold.symm) (iff_of_false hended' hended) ?_⟩
  intro text htext
  rw [hstdin] at htext
  rw [List.mem_singleton.mp htext, QuitLine]
  decide

end Nullpipe

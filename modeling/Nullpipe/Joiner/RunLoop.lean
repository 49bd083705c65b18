import Nullpipe.Joiner.Step

/-!
# The two run loops of a joiner

`Joiner::run` is `run_disconnected` where there is no stream and `write_loop` where there is
one.  Both take texts, show them with `try_emit` and end with `drain_and_flush`; here they
are one relation, over an event channel of any capacity, with the kind of the loop as a
parameter where the two differ: a connected loop writes a text before it shows it, and has a
reader whose events go on the same channel.

* The stream is the environment's: a frame is written or it is not (`RunLabel`).
* Texts bear the number under which they were taken, so that two equal texts differ.
* An entry of the event channel is an own message or an event of the reader (`Entry`).

`try_emit` keeps back what the channel does not take, and `flush_pending` takes the last
event that was kept back first, as `Vec::pop` does.  `RunLoop.tryEmit_cases` and
`RunLoop.mem_emitted_tryEmit` say what the former changes; the order of the messages is the
subject of `Ordering.lean`, and `WriteLoop.lean` finds this loop in the joiner.
-/

namespace Nullpipe

open Channel Transition

/-! ## The state -/

inductive RunKind
  /-- `run_disconnected` -/
  | disconnected
  /-- `write_loop` -/
  | connected
  deriving DecidableEq

/-- A text with its number among the texts the loop has taken. -/
abbrev Numbered : Type := ℕ × String

/-- What is on the event channel: an own message of the loop, or an event of the reader. -/
inductive Entry
  | own (p : Numbered)
  | other (event : ChatEvent)
  deriving DecidableEq

/-- Where a run loop stands. -/
inductive RunPlace
  | select
  /-- `process_outgoing_message`, while the frame is written and flushed -/
  | writing (p : Numbered)
  /-- `drain_and_flush` -/
  | drain
  | flushPending
  | returned (result : Option ChatError)
  deriving DecidableEq

/-- The text on its way to the stream. -/
def RunPlace.held : RunPlace → List Numbered
  | .writing p => [p]
  | _ => []

structure RunLoop where
  place : RunPlace
  messages : Mpsc String
  /-- some sender of `messages` lives -/
  sendOpen : Bool
  shutdown : Bool
  readerDone : Bool
  events : Mpsc Entry
  pending : List Numbered
  deriving DecidableEq

namespace RunLoop

/-- The loop as `run` starts it. -/
def init : RunLoop := ⟨.select, .empty, true, false, false, .empty, []⟩

/-- `try_emit` on an event channel of capacity `cap`. -/
def tryEmit (cap : ℕ) (s : RunLoop) (p : Numbered) : RunLoop :=
  if s.events.HasRoom cap then { s with events := s.events.push (.own p) }
  else { s with pending := s.pending ++ [p] }

/-- The number of the next text. -/
def next (s : RunLoop) : ℕ := s.messages.received.length

end RunLoop

/-! ## The steps -/

inductive RunLabel
  | shutdown
  | readerDone
  | takeText (text : String)
  | written
  | writeFail (e : ChatError)
  | inputClosed
  | eventsClosed
  | drainText
  | drained
  | flushEvent
  | flushed
  /-- the reader of `write_loop` -/
  | hear (event : ChatEvent)
  | finish
  /-- the handles and the consumer -/
  | send (text : String)
  | quit
  | dropSend
  | takeEvent
  | closeEvents
  deriving DecidableEq

/-- Nothing of higher priority is ready in the `select!`. -/
def RunLoop.Calm (s : RunLoop) : Prop := s.shutdown = false ∧ s.readerDone = false

/-- What follows a text in `write_loop`: one that does not fit a frame ends the loop. -/
def outgoing (json : SerdeJson) (name : String) (p : Numbered) : RunPlace :=
  match encodeMessage json (.chat name p.2) with
  | .error e => .returned (some e)
  | .ok _ => .writing p

section

variable (json : SerdeJson) (name : String) (kind : RunKind) (cap : ℕ)

/-- The steps of a run loop and of those around it. -/
inductive RunStep : RunLabel → RunLoop → RunLoop → Prop
  | shutdown {s : RunLoop} (hphase : s.place = .select) (hshutdown : s.shutdown = true) :
      RunStep .shutdown s { s with place := .drain }
  | readerDone {s : RunLoop} (hphase : s.place = .select) (hshutdown : s.shutdown = false)
      (hdone : s.readerDone = true) : RunStep .readerDone s { s with place := .drain }
  | takeText {s : RunLoop} {text : String} {rest : List String} (hkind : kind = .connected)
      (hphase : s.place = .select) (hcalm : s.Calm) (hqueue : s.messages.queue = text :: rest) :
      RunStep (.takeText text) s
        { s with messages := s.messages.pop, place := outgoing json name (s.next, text) }
  | showText {s : RunLoop} {text : String} {rest : List String} (hkind : kind = .disconnected)
      (hphase : s.place = .select) (hcalm : s.Calm) (hqueue : s.messages.queue = text :: rest) :
      RunStep (.takeText text) s
        { s.tryEmit cap (s.next, text) with messages := s.messages.pop }
  | written {s : RunLoop} {p : Numbered} (hphase : s.place = .writing p) :
      RunStep .written s { s.tryEmit cap p with place := .select }
  | writeFail {s : RunLoop} {p : Numbered} {e : ChatError} (hphase : s.place = .writing p) :
      RunStep (.writeFail e) s { s with place := .returned (some e) }
  | inputClosed {s : RunLoop} (hphase : s.place = .select) (hcalm : s.Calm)
      (hqueue : s.messages.queue = []) (hclosed : s.sendOpen = false) :
      RunStep .inputClosed s { s with place := .drain }
  | eventsClosed {s : RunLoop} (hphase : s.place = .select) (hcalm : s.Calm)
      (hqueue : s.messages.queue = []) (hopen : s.sendOpen = true)
      (hclosed : s.events.isOpen = false) :
      RunStep .eventsClosed s
        { s with place := .returned (some (.connection "event receiver dropped")) }
  | drainText {s : RunLoop} {text : String} {rest : List String} (hphase : s.place = .drain)
      (hqueue : s.messages.queue = text :: rest) :
      RunStep .drainText s { s.tryEmit cap (s.next, text) with messages := s.messages.pop }
  | drained {s : RunLoop} (hphase : s.place = .drain) (hqueue : s.messages.queue = []) :
      RunStep .drained s { s with place := .flushPending }
  /-- `pending.pop()` takes the event that was kept back last -/
  | flushEvent {s : RunLoop} {p : Numbered} {rest : List Numbered}
      (hphase : s.place = .flushPending) (hpending : s.pending = rest ++ [p])
      (hroom : s.events.HasRoom cap) :
      RunStep .flushEvent s { s with events := s.events.push (.own p), pending := rest }
  | flushed {s : RunLoop} (hphase : s.place = .flushPending)
      (hstop : s.pending = [] ∨ ¬ s.events.HasRoom cap) :
      RunStep .flushed s { s with pending := [], place := .returned none }
  | hear {s : RunLoop} {event : ChatEvent} (hkind : kind = .connected)
      (hroom : s.events.HasRoom cap) :
      RunStep (.hear event) s { s with events := s.events.push (.other event) }
  | finish {s : RunLoop} (hkind : kind = .connected) :
      RunStep .finish s { s with readerDone := true }
  | send {s : RunLoop} {text : String} (hopen : s.sendOpen = true) :
      RunStep (.send text) s { s with messages := s.messages.push text }
  | quit {s : RunLoop} : RunStep .quit s { s with shutdown := true }
  | dropSend {s : RunLoop} (hopen : s.sendOpen = true) :
      RunStep .dropSend s { s with sendOpen := false }
  | takeEvent {s : RunLoop} {entry : Entry} {rest : List Entry}
      (hqueue : s.events.queue = entry :: rest) :
      RunStep .takeEvent s { s with events := s.events.pop }
  | closeEvents {s : RunLoop} (hopen : s.events.isOpen = true) :
      RunStep .closeEvents s { s with events := s.events.close }

end

variable {json : SerdeJson} {name : String} {kind : RunKind} {cap : ℕ} {l : RunLabel}
  {s t : RunLoop} {p : Numbered}

/-! ## Own messages -/

/-- The own messages among the entries. -/
def ownOf (entries : List Entry) : List Numbered :=
  entries.filterMap fun entry => match entry with
    | .own p => some p
    | .other _ => none

@[simp] theorem ownOf_nil : ownOf [] = [] := rfl

theorem ownOf_push_own (q : Mpsc Entry) (p : Numbered) :
    ownOf (q.push (.own p)).sent = ownOf q.sent ++ [p] := by
  rw [Mpsc.sent_push, ownOf, List.filterMap_append]
  rfl

theorem ownOf_push_other (q : Mpsc Entry) (event : ChatEvent) :
    ownOf (q.push (.other event)).sent = ownOf q.sent := by
  rw [Mpsc.sent_push, ownOf, List.filterMap_append]
  exact List.append_nil _

/-- The own messages that are on the event channel or kept back. -/
def RunLoop.emitted (s : RunLoop) : List Numbered := ownOf s.events.sent ++ s.pending

/-- What `try_emit` changes: its message goes behind those shown, or behind those kept back. -/
theorem RunLoop.tryEmit_cases (cap : ℕ) (s : RunLoop) (p : Numbered) :
    (s.events.HasRoom cap ∧ ownOf (s.tryEmit cap p).events.sent = ownOf s.events.sent ++ [p] ∧
      (s.tryEmit cap p).pending = s.pending) ∨
    (¬ s.events.HasRoom cap ∧ ownOf (s.tryEmit cap p).events.sent = ownOf s.events.sent ∧
      (s.tryEmit cap p).pending = s.pending ++ [p]) := by
  unfold RunLoop.tryEmit
  split
  · rename_i hroom
    exact .inl ⟨hroom, ownOf_push_own _ _, rfl⟩
  · rename_i hfull
    exact .inr ⟨hfull, rfl, rfl⟩

/-- Its message is among those emitted, and no other is new. -/
theorem RunLoop.mem_emitted_tryEmit {q : Numbered} :
    q ∈ (s.tryEmit cap p).emitted ↔ q ∈ s.emitted ∨ q = p := by
  unfold RunLoop.emitted
  rcases s.tryEmit_cases cap p with ⟨-, hown, hpending⟩ | ⟨-, hown, hpending⟩
  · rw [hown, hpending]
    simp only [List.mem_append, List.mem_singleton]
    exact or_right_comm
  · rw [hown, hpending]
    simp only [List.mem_append, List.mem_singleton]
    exact (or_assoc).symm

@[simp] theorem RunLoop.tryEmit_messages :
    (s.tryEmit cap p).messages = s.messages := by
  unfold RunLoop.tryEmit
  split <;> rfl

@[simp] theorem RunLoop.tryEmit_place : (s.tryEmit cap p).place = s.place := by
  unfold RunLoop.tryEmit
  split <;> rfl

end Nullpipe

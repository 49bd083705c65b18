import Nullpipe.Joiner.Ordering
import Nullpipe.Joiner.Events

/-!
# The write loop as a run loop

A joiner that has entered its write loop is a run loop of the connected kind over an event
channel of capacity `eventChanCap`: every step of the joiner is a step of the run loop or
none (`JoinerStep.runLoop`), so that what holds of the own messages of every run loop holds
of the joiner's.

`Joiner.RunsAs` is the relation of the simulation.

* The places correspond (`JoinMain.RunsAt`).  A joiner that writes, or flushes, stands at one
  place of the run loop, which does not look at the stream.
* The channels correspond entry by entry (`Entry.event`): both have room together, and
  `try_emit` and `try_send` do the same to both (`Joiner.RunsAs.tryEmit`,
  `Joiner.RunsAs.trySend`).
* Shutdown signal, report of the reader, and the queue of texts are the same.

What the run loop does not have are the bytes, the timeouts and the reader's own place; these
steps are matched by none.  `exists_runLoop_run` is the simulation of runs, from the moment
the joiner enters its write loop.
-/

namespace Nullpipe

open Channel Transition

variable {X : Crates} {checks : Bool} {me : Guest} {j j' : Joiner} {s t : RunLoop}

/-! ## The relation -/

/-- The event behind an entry. -/
def Entry.event (X : Crates) (me : Guest) : Entry → ChatEvent
  | .own p => makeEvent X me p.2
  | .other event => event

/-- Where the joiner stands in its write loop, and behind it. -/
inductive JoinMain.RunsAt (me : Guest) : JoinMain → RunPlace → Prop
  | select : RunsAt me (.select me) .select
  | writing {p : Numbered} {rest : List UInt8} {deadline : ℕ} :
      RunsAt me (.writing me (.text p.2) rest deadline) (.writing p)
  | flushing {p : Numbered} {deadline : ℕ} :
      RunsAt me (.flushing me (.text p.2) deadline) (.writing p)
  | echo {p : Numbered} : RunsAt me (.echo me p.2) (.writing p)
  | drain : RunsAt me (.drain me) .drain
  | flushPending : RunsAt me .flushPending .flushPending
  | abortReader {result : Option ChatError} : RunsAt me (.abortReader result) (.returned result)
  | awaitReader {result : Option ChatError} : RunsAt me (.awaitReader result) (.returned result)
  | emitError {e : ChatError} : RunsAt me (.emitError e) (.returned (some e))
  | emitClosed {result : Option ChatError} : RunsAt me .emitClosed (.returned result)
  | ended {result : Option ChatError} : RunsAt me .ended (.returned result)

/-- The joiner is the run loop with a stream, a reader and a clock. -/
structure Joiner.RunsAs (X : Crates) (me : Guest) (j : Joiner) (s : RunLoop) : Prop where
  place : j.main.RunsAt me s.place
  taken : j.messages.received = s.messages.received
  queued : j.messages.queue = s.messages.queue
  sendOpen : j.sendOpen = s.sendOpen
  shutdown : j.shutdown = s.shutdown
  readerDone : j.readerDone = s.readerDone
  received : j.events.received = s.events.received.map (Entry.event X me)
  queue : j.events.queue = s.events.queue.map (Entry.event X me)
  isOpen : j.events.isOpen = s.events.isOpen
  pending : j.pending = s.pending.map fun p => makeEvent X me p.2

theorem Joiner.RunsAs.hasRoom (h : j.RunsAs X me s) {cap : ℕ} :
    j.events.HasRoom cap ↔ s.events.HasRoom cap := by
  rw [Mpsc.HasRoom, Mpsc.HasRoom, h.isOpen, h.queue, List.length_map]

/-- An event goes on both channels. -/
theorem Joiner.RunsAs.push (h : j.RunsAs X me s) (entry : Entry) :
    (j.events.push (entry.event X me)).received =
        (s.events.push entry).received.map (Entry.event X me) ∧
      (j.events.push (entry.event X me)).queue =
        (s.events.push entry).queue.map (Entry.event X me) := by
  refine ⟨h.received, ?_⟩
  rw [Mpsc.push, Mpsc.push, h.queue, List.map_append]
  rfl

/-- `try_emit` does the same to both. -/
theorem Joiner.RunsAs.tryEmit (h : j.RunsAs X me s) (p : Numbered) {main : JoinMain}
    {place : RunPlace} (hplace : main.RunsAt me place) {messages : Mpsc String}
    {messages' : Mpsc String} (htaken : messages.received = messages'.received)
    (hqueued : messages.queue = messages'.queue) :
    Joiner.RunsAs X me { Nullpipe.tryEmit j (makeEvent X me p.2) with main, messages }
      { s.tryEmit eventChanCap p with place, messages := messages' } := by
  unfold Nullpipe.tryEmit RunLoop.tryEmit
  by_cases hroom : s.events.HasRoom eventChanCap
  · obtain ⟨hreceived, hqueue⟩ := h.push (.own p)
    rw [if_pos hroom, if_pos (h.hasRoom.mpr hroom)]
    exact ⟨hplace, htaken, hqueued, h.sendOpen, h.shutdown, h.readerDone, hreceived, hqueue,
      h.isOpen, h.pending⟩
  · rw [if_neg hroom, if_neg (fun hj => hroom (h.hasRoom.mp hj))]
    refine ⟨hplace, htaken, hqueued, h.sendOpen, h.shutdown, h.readerDone, h.received, h.queue,
      h.isOpen, ?_⟩
    dsimp only
    rw [h.pending, List.map_append]
    rfl

/-- An event of the reader, or one that announces the end, is dropped on both sides where
there is no room. -/
theorem Joiner.RunsAs.trySend (h : j.RunsAs X me s) (event : ChatEvent) {main : JoinMain}
    (hplace : main.RunsAt me s.place) :
    ∃ ks t, Run (RunStep X.json me.name .connected eventChanCap) s ks t ∧
      Joiner.RunsAs X me
        { j with events := j.events.trySend eventChanCap event, main } t := by
  by_cases hroom : s.events.HasRoom eventChanCap
  · obtain ⟨hreceived, hqueue⟩ := h.push (.other event)
    refine ⟨[.hear event], _, .single (.hear rfl hroom), ?_⟩
    rw [Mpsc.trySend_of_hasRoom (h.hasRoom.mpr hroom)]
    exact ⟨hplace, h.taken, h.queued, h.sendOpen, h.shutdown, h.readerDone, hreceived, hqueue,
      h.isOpen, h.pending⟩
  · refine ⟨[], s, .nil, ?_⟩
    rw [Mpsc.trySend_of_not_hasRoom (fun hj => hroom (h.hasRoom.mp hj))]
    exact { h with place := hplace }

/-! ## The steps -/

/-- What the run loop does at the same time. -/
def Matched (X : Crates) (me : Guest) (s : RunLoop) (j' : Joiner) : Prop :=
  ∃ ks t, Run (RunStep X.json me.name .connected eventChanCap) s ks t ∧ j'.RunsAs X me t

theorem Matched.single {l : RunLabel}
    (hstep : RunStep X.json me.name .connected eventChanCap l s t) (h : j'.RunsAs X me t) :
    Matched X me s j' := ⟨_, t, .single hstep, h⟩

theorem Matched.still (h : j'.RunsAs X me s) : Matched X me s j' := ⟨[], s, .nil, h⟩

theorem JoinMainStep.runLoop {l : JoinMainLabel} (h : JoinMainStep X checks l j j')
    (hs : j.RunsAs X me s) : Matched X me s j' := by
  have hplace := hs.place
  generalize hat : s.place = place at hplace
  cases h with
  | shutdown hphase hshutdown =>
      rw [hphase] at hplace
      cases hplace
      exact .single (.shutdown hat (hs.shutdown ▸ hshutdown)) { hs with place := .drain }
  | readerDone hphase hshutdown hdone =>
      rw [hphase] at hplace
      cases hplace
      exact .single (.readerDone hat (hs.shutdown ▸ hshutdown) (hs.readerDone ▸ hdone))
        { hs with place := .drain }
  | @takeText _ _ text rest hphase hshutdown hdone hqueue =>
      rw [hphase] at hplace
      cases hplace
      have hqueue' : s.messages.queue = text :: rest := hs.queued ▸ hqueue
      refine .single (.takeText rfl hat ⟨hs.shutdown ▸ hshutdown, hs.readerDone ▸ hdone⟩ hqueue') ?_
      refine { hs with place := ?_, taken := ?_, queued := ?_ }
      · dsimp only
        cases hencode : encodeMessage X.json (.chat me.name text) with
        | error e =>
            rw [afterText, outgoing, hencode]
            exact .abortReader
        | ok frame =>
            rw [afterText, outgoing, hencode]
            exact .writing (p := (s.next, text))
      · rw [Mpsc.pop_of_queue hqueue, Mpsc.pop_of_queue hqueue', hs.taken]
      · rw [Mpsc.pop_of_queue hqueue, Mpsc.pop_of_queue hqueue']
  | @write _ _ what chunk rest _ hphase =>
      rw [hphase] at hplace
      cases hplace
      refine .still { hs with place := ?_ }
      rw [hat]
      dsimp only
      split
      · exact .flushing
      · exact .writing
  | writeFail hphase | writeTimeout hphase | flushFail hphase | flushTimeout hphase =>
      rw [hphase] at hplace
      cases hplace
      exact .single (.writeFail hat) { hs with place := .abortReader }
  | flush hphase =>
      rw [hphase] at hplace
      cases hplace
      refine .still { hs with place := ?_ }
      rw [hat]
      exact .echo
  | echo hphase =>
      rw [hphase] at hplace
      cases hplace with
      | @echo p =>
          refine .single (.written hat) (hs.tryEmit p .select ?_ ?_)
          · rw [messages_tryEmit, RunLoop.tryEmit_messages, hs.taken]
          · rw [messages_tryEmit, RunLoop.tryEmit_messages, hs.queued]
  | inputClosed hphase hshutdown hdone hqueue hclosed =>
      rw [hphase] at hplace
      cases hplace
      exact .single (.inputClosed hat ⟨hs.shutdown ▸ hshutdown, hs.readerDone ▸ hdone⟩
        (hs.queued ▸ hqueue) (hs.sendOpen ▸ hclosed)) { hs with place := .drain }
  | eventsClosed hphase hshutdown hdone hqueue hopen hclosed =>
      rw [hphase] at hplace
      cases hplace
      exact .single (.eventsClosed hat ⟨hs.shutdown ▸ hshutdown, hs.readerDone ▸ hdone⟩
        (hs.queued ▸ hqueue) (hs.sendOpen ▸ hopen) (hs.isOpen ▸ hclosed))
        { hs with place := .abortReader }
  | @drainText _ _ text rest hphase hqueue =>
      rw [hphase] at hplace
      cases hplace
      have hqueue' : s.messages.queue = text :: rest := hs.queued ▸ hqueue
      refine .single (.drainText hat hqueue') (hs.tryEmit (s.next, text) ?_ ?_ ?_)
      · rw [main_tryEmit, hphase, RunLoop.tryEmit_place, hat]
        exact .drain
      · rw [Mpsc.pop_of_queue hqueue, Mpsc.pop_of_queue hqueue', hs.taken]
      · rw [Mpsc.pop_of_queue hqueue, Mpsc.pop_of_queue hqueue']
  | drained hphase hqueue =>
      rw [hphase] at hplace
      cases hplace
      exact .single (.drained hat (hs.queued ▸ hqueue)) { hs with place := .flushPending }
  | @flushEvent _ event rest hphase hpending hroom =>
      rw [hphase] at hplace
      cases hplace
      have hkept := hs.pending
      rw [hpending] at hkept
      obtain ⟨front, last, hsplit, rfl, hlast⟩ := List.append_eq_map_iff.mp hkept
      obtain ⟨p, rfl, rfl⟩ : ∃ p, last = [p] ∧ makeEvent X me p.2 = event := by
        cases last with
        | nil => cases hlast
        | cons p more =>
            rw [List.map_cons, List.cons_eq_cons, List.map_eq_nil_iff] at hlast
            exact ⟨p, by rw [hlast.2], hlast.1⟩
      obtain ⟨hreceived, hqueue⟩ := hs.push (.own p)
      refine .single (.flushEvent hat hsplit (hs.hasRoom.mp hroom)) ?_
      refine { hs with received := hreceived, queue := hqueue, pending := rfl, place := ?_ }
      rw [hphase, hat]
      exact .flushPending
  | flushed hphase hstop =>
      rw [hphase] at hplace
      cases hplace
      have hstop' : s.pending = [] ∨ ¬ s.events.HasRoom eventChanCap := by
        refine hstop.imp (fun hnil => ?_) fun hfull hroom => hfull (hs.hasRoom.mpr hroom)
        rw [hs.pending] at hnil
        exact List.map_eq_nil_iff.mp hnil
      exact .single (.flushed hat hstop') { hs with place := .abortReader, pending := rfl }
  | abortReader hphase =>
      rw [hphase] at hplace
      cases hplace
      refine .still { hs with place := ?_ }
      rw [hat]
      exact .awaitReader
  | @awaitReader _ result hphase =>
      rw [hphase] at hplace
      cases hplace
      refine .still { hs with place := ?_ }
      rw [hat]
      cases result with
      | none => exact .emitClosed
      | some e => exact .emitError
  | emitError hphase =>
      rw [hphase] at hplace
      refine hs.trySend _ ?_
      rw [hat]
      cases hplace
      exact .emitClosed
  | emitClosed hphase =>
      rw [hphase] at hplace
      refine hs.trySend _ ?_
      rw [hat]
      cases hplace
      exact .ended
  | decode hphase | connected hphase | connectFailed hphase | reply hphase | replyFail hphase
  | replyTimeout hphase | emitJoin hphase | spawnReader hphase | sendError hphase
  | sendErrorClosed hphase =>
      rw [hphase] at hplace
      cases hplace

theorem JoinReaderStep.runLoop {l : JoinReaderLabel} (h : JoinReaderStep X l j j')
    (hs : j.RunsAs X me s) : Matched X me s j' := by
  cases h with
  | @emit _ event hphase hroom =>
      obtain ⟨hreceived, hqueue⟩ := hs.push (.other event)
      exact .single (.hear rfl (hs.hasRoom.mp hroom))
        { hs with received := hreceived, queue := hqueue }
  | done => exact .single (.finish rfl) { hs with readerDone := rfl }
  | start | read | message | skip | malformed | readFail | readTimeout | emitClosed | cancel =>
      exact .still { hs with }

theorem JoinUserStep.runLoop {l : JoinUserLabel} (h : JoinUserStep l j j')
    (hs : j.RunsAs X me s) : Matched X me s j' := by
  cases h with
  | @send _ text hopen =>
      have hsend : RunStep X.json me.name .connected eventChanCap (.send text) s _ :=
        .send (hs.sendOpen ▸ hopen)
      refine .single hsend { hs with queued := ?_ }
      rw [Mpsc.push, Mpsc.push, hs.queued]
  | quit => exact .single .quit { hs with shutdown := rfl }
  | dropSend hopen => exact .single (.dropSend (hs.sendOpen ▸ hopen)) { hs with sendOpen := rfl }
  | @takeEvent _ event rest hqueue =>
      have hentries := hs.queue
      rw [hqueue] at hentries
      obtain ⟨entry, entries, hsplit, hentry, hrest⟩ := List.map_eq_cons_iff.mp hentries.symm
      refine .single (.takeEvent hsplit) { hs with received := ?_, queue := ?_ }
      · rw [Mpsc.pop_of_queue hqueue, Mpsc.pop_of_queue hsplit]
        dsimp only
        rw [List.map_append, ← hs.received, ← hentry]
        rfl
      · rw [Mpsc.pop_of_queue hqueue, Mpsc.pop_of_queue hsplit]
        exact hrest.symm
  | closeEvents hopen =>
      exact .single (.closeEvents (hs.isOpen ▸ hopen)) { hs with isOpen := rfl }

/-- **Each step of the joiner is one of the run loop, or none.** -/
theorem JoinerStep.runLoop {l : JoinerLabel} (h : JoinerStep X checks l j j')
    (hs : j.RunsAs X me s) : Matched X me s j' := by
  cases h with
  | main h => exact h.runLoop hs
  | reader h => exact h.runLoop hs
  | user h => exact h.runLoop hs
  | net | finish | tick => exact .still { hs with }

/-- A joiner that enters its write loop is a run loop that begins. -/
theorem exists_begins (hphase : j.main = .select me) (hreceived : j.messages.received = [])
    (hpending : j.pending = []) : ∃ s : RunLoop, s.Begins ∧ j.RunsAs X me s := by
  refine ⟨⟨.select, ⟨[], j.messages.queue, true⟩, j.sendOpen, j.shutdown, j.readerDone,
    ⟨j.events.received.map .other, j.events.queue.map .other, j.events.isOpen⟩, []⟩, ?_, ?_⟩
  · refine ⟨rfl, rfl, rfl, ?_⟩
    rw [Mpsc.sent, ← List.map_append, ownOf, List.filterMap_map]
    exact List.filterMap_eq_nil_iff.mpr fun _ _ => rfl
  · refine ⟨?_, hreceived, rfl, rfl, rfl, rfl, ?_, ?_, rfl, hpending⟩
    · rw [hphase]
      exact .select
    · rw [List.map_map]
      exact (List.map_id _).symm
    · rw [List.map_map]
      exact (List.map_id _).symm

/-- **The joiner is a run loop:** from the moment it enters its write loop every run is
matched by one of a run loop that begins there. -/
theorem exists_runLoop_run {ls : List JoinerLabel} (hphase : j.main = .select me)
    (hreceived : j.messages.received = []) (hpending : j.pending = [])
    (hrun : Run (JoinerStep X checks) j ls j') :
    ∃ start ks t, start.Begins ∧
      Run (RunStep X.json me.name .connected eventChanCap) start ks t ∧ j'.RunsAs X me t := by
  obtain ⟨start, hbegins, hstart⟩ := exists_begins (X := X) hphase hreceived hpending
  obtain ⟨ks, t, hrun', hend⟩ := hrun.simulate (R := fun j s => j.RunsAs X me s) hstart
    (fun hs hstep => by
      obtain ⟨ks, t, hrun, ht⟩ := hstep.runLoop hs
      exact ⟨ks, t, hrun, ht⟩)
  exact ⟨start, ks, t, hbegins, hrun', hend⟩

end Nullpipe

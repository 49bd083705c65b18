import Nullpipe.Joiner.Listening

/-!
# A joiner left alone comes to rest

The joiner's side of `Room/Progress.lean`.  Every step of a joiner but new input lowers its
load, in any state: `JoinMain.load` counts the steps that are still to come, with the first
one of the reader it spawns, a text in the queue weighs what it takes to write and show it,
and a byte in the inbox what it may become.  So a joiner left alone comes to rest
(`Joiner.exists_rest`).

What a joiner at rest looks like that was told to quit is `Joiner.Kept.down`.  Two waits must
be excluded, and `Joiner.Kept` is the invariant that does it.

* The main task waits for room on the event channel when it announces itself or an error.  It
  has emitted nothing before that (`JoinMain.Early`), so there is room.
* Behind its write loop it waits for the reader.  It has aborted it
  (`JoinMainStep.aborts`), and an aborted reader ends.

What remains is a joiner that has returned, or one that still waits: for the Tor client, or
for the hub's reply.  The first wait has no timeout of the joiner's own.  The second one has,
so once it has a stream (`JoinMain.Online`) a joiner that is told to quit returns with time,
whatever the hub does or does not do: `quit_joiner_returns`.
-/

namespace Nullpipe

open Channel Framing Transition

variable {X : Crates} {checks : Bool} {j j' : Joiner} {ls : List JoinerLabel}

/-! ## The load -/

/-- What is left of a write when its bytes are written. -/
def JoinWrite.load : JoinWrite → ℕ
  | .text _ => 10
  | .name => 13
  | .hello => 16 + frameBound

/-- The steps of the main task that are still to come, with the first one of the reader it
spawns. -/
def JoinMain.load : JoinMain → ℕ
  | .connecting _ | .ended | .failed _ | .panicked => 0
  | .sendError _ | .emitClosed => 1
  | .connect | .emitError _ => 2
  | .awaitReader _ => 3
  | .abortReader _ => 4
  | .flushPending => 5
  | .drain _ => 6
  | .select _ => 7
  | .echo .. => 9
  | .spawnReader _ => 11
  | .emitJoin _ => 12
  | .readReply .. => 15 + frameBound
  | .flushing _ what _ => what.load
  | .writing _ what rest _ => what.load + 1 + rest.length

def JoinReader.load : JoinReader → ℕ
  | .unspawned | .ended => 0
  | .finished => 1
  | .reading .. => 2
  | .spawned | .emitting _ => 3

/-- The load of a joiner. -/
def Joiner.load (j : Joiner) : ℕ :=
  j.main.load + j.reader.load + 2 * j.sock.inbox.length + j.pending.length +
    (5 + frameBound) * j.messages.queue.length

theorem load_afterDecode (result : Option (Except ChatError InvitePayload)) :
    (afterDecode result).load ≤ 1 := by
  rcases result with _ | _ | _
  · exact Nat.zero_le _
  · exact le_rfl
  · exact Nat.zero_le _

theorem load_afterReply (json : SerdeJson) (me : Guest) (byte : UInt8) (now : ℕ) :
    (afterReply json me byte now).load ≤ 14 + frameBound := by
  unfold afterReply
  split
  · simp only [JoinMain.load]
    omega
  · split
    · simp only [JoinMain.load]
      omega
    · rename_i frame hencode
      have hlen := length_le_frameBound hencode
      simp only [JoinMain.load, JoinWrite.load]
      omega

theorem load_afterFlush (me : Guest) (now : ℕ) (what : JoinWrite) :
    (afterFlush me now what).load < what.load := by
  cases what with
  | hello =>
      simp only [afterFlush, JoinMain.load, JoinWrite.load]
      omega
  | name | text => simp [afterFlush, JoinMain.load, JoinWrite.load]

theorem load_afterFailure (e : ChatError) (what : JoinWrite) :
    (afterFailure e what).load < what.load := by
  cases what with
  | hello =>
      simp only [afterFailure, JoinMain.load, JoinWrite.load]
      omega
  | name | text => simp [afterFailure, JoinMain.load, JoinWrite.load]

theorem load_afterText (json : SerdeJson) (me : Guest) (text : String) (now : ℕ) :
    (afterText json me text now).load ≤ 11 + frameBound := by
  unfold afterText
  split
  · simp only [JoinMain.load]
    omega
  · rename_i frame hencode
    have hlen := length_le_frameBound hencode
    simp only [JoinMain.load, JoinWrite.load]
    omega

theorem load_afterRun (result : Option ChatError) : (afterRun result).load ≤ 2 := by
  cases result with
  | none => decide
  | some => exact le_rfl

/-- What the event channel does not take is kept back. -/
theorem length_pending_tryEmit (j : Joiner) (event : ChatEvent) :
    (tryEmit j event).pending.length ≤ j.pending.length + 1 := by
  unfold tryEmit
  split
  · exact Nat.le_succ _
  · exact (List.length_append).le

/-! ## Rest -/

/-- The steps by which a joiner gets new input: from its users, the hub, the Tor client and
the clock. -/
def JoinerLabel.Input : JoinerLabel → Prop
  | .user _ | .net _ | .finish _ | .tick _ | .main (.connected _) | .main (.connectFailed _) =>
    True
  | _ => False

theorem JoinMainStep.load {l : JoinMainLabel} (h : JoinMainStep X checks l j j')
    (hl : ¬ (JoinerLabel.main l).Input) : j'.load < j.load := by
  cases h with
  | connected | connectFailed => exact absurd trivial hl
  | decode hphase =>
      -- from here on: the place behind the step weighs less than the place before it
      have hnext := load_afterDecode
        (decodeInvite X checks j.config.inviteCode (some joinTtl) j.timestamp)
      have hbefore : j.main.load = 2 := by rw [hphase]; rfl
      simp only [Joiner.load, hbefore]
      omega
  | write hphase hchunk =>
      have hpos := List.length_pos_of_ne_nil hchunk
      simp only [Joiner.load, hphase, Socket.inbox_write]
      split <;> simp only [JoinMain.load, List.length_append] <;> omega
  | @writeFail _ _ what _ _ reason hphase =>
      have hnext := load_afterFailure (writeFailed reason what) what
      have hbefore : what.load ≤ j.main.load := by
        rw [hphase, JoinMain.load]
        omega
      simp only [Joiner.load]
      omega
  | @writeTimeout _ _ what _ _ hphase =>
      have hnext := load_afterFailure (writeTimedOut what) what
      have hbefore : what.load ≤ j.main.load := by
        rw [hphase, JoinMain.load]
        omega
      simp only [Joiner.load]
      omega
  | @flush _ me what _ hphase =>
      have hnext := load_afterFlush me j.now what
      have hbefore : j.main.load = what.load := by rw [hphase, JoinMain.load]
      simp only [Joiner.load, hbefore, Socket.inbox_flush]
      omega
  | @flushFail _ _ what _ reason hphase =>
      have hnext := load_afterFailure (flushFailed reason what) what
      have hbefore : j.main.load = what.load := by rw [hphase, JoinMain.load]
      simp only [Joiner.load, hbefore]
      omega
  | @flushTimeout _ _ what _ hphase =>
      have hnext := load_afterFailure (flushTimedOut what) what
      have hbefore : j.main.load = what.load := by rw [hphase, JoinMain.load]
      simp only [Joiner.load, hbefore]
      omega
  | @reply _ me _ byte hphase htake =>
      have hinbox := Socket.length_take_lt htake
      have hnext := load_afterReply X.json me byte j.now
      have hbefore : j.main.load = 15 + frameBound := by rw [hphase]; rfl
      simp only [Joiner.load, hbefore]
      omega
  | @takeText _ me text _ hphase _ _ hqueue =>
      have hnext := load_afterText X.json me text j.now
      have hbefore : j.main.load = 7 := by rw [hphase]; rfl
      simp only [Joiner.load, hbefore, Mpsc.pop_of_queue hqueue, hqueue, List.length_cons,
        Nat.mul_succ]
      omega
  | @echo _ me text hphase =>
      -- an event that is put aside weighs less than the text it came from
      have hpending := length_pending_tryEmit j (makeEvent X me text)
      simp only [Joiner.load, hphase, JoinMain.load, reader_tryEmit, sock_tryEmit,
        messages_tryEmit]
      omega
  | @drainText _ me text _ hphase hqueue =>
      have hpending := length_pending_tryEmit j (makeEvent X me text)
      simp only [Joiner.load, main_tryEmit, reader_tryEmit, sock_tryEmit,
        Mpsc.pop_of_queue hqueue, hqueue, List.length_cons, Nat.mul_succ]
      omega
  | flushEvent _ hpending =>
      simp only [Joiner.load, hpending, List.length_append, List.length_singleton]
      omega
  | flushed hphase =>
      simp only [Joiner.load, hphase, JoinMain.load, List.length_nil]
      omega
  | @awaitReader _ result hphase =>
      have hnext := load_afterRun result
      have hbefore : j.main.load = 3 := by rw [hphase]; rfl
      simp only [Joiner.load, hbefore]
      omega
  | spawnReader hphase =>
      simp only [Joiner.load, hphase, JoinMain.load, JoinReader.load]
      omega
  | replyFail hphase | replyTimeout hphase | emitJoin hphase | shutdown hphase
  | readerDone hphase | inputClosed hphase | eventsClosed hphase | drained hphase
  | abortReader hphase | emitError hphase | emitClosed hphase | sendError hphase
  | sendErrorClosed hphase =>
      simp only [Joiner.load, hphase, JoinMain.load, Mpsc.close]
      omega

theorem JoinReaderStep.load {l : JoinReaderLabel} (h : JoinReaderStep X l j j') :
    j'.load < j.load := by
  cases h with
  | read hphase htake | message hphase htake | skip hphase htake | malformed hphase htake =>
      have hinbox := Socket.length_take_lt htake
      simp only [Joiner.load, hphase, JoinReader.load]
      omega
  | start hphase | readFail hphase | readTimeout hphase | emit hphase | emitClosed hphase
  | done hphase =>
      simp only [Joiner.load, hphase, JoinReader.load]
      omega
  | cancel _ hspawned hlive =>
      have hpos : 0 < j.reader.load := by
        cases hreader : j.reader with
        | unspawned => exact absurd hreader hspawned
        | ended => exact absurd hreader hlive
        | _ => simp [JoinReader.load]
      have hafter : JoinReader.ended.load = 0 := rfl
      simp only [Joiner.load, hafter]
      omega

/-- **Every step but new input takes some load away.** -/
theorem JoinerStep.load {l : JoinerLabel} (h : JoinerStep X checks l j j') (hl : ¬ l.Input) :
    j'.load < j.load := by
  cases h with
  | main h => exact h.load hl
  | reader h => exact h.load
  | user | net | finish | tick => exact absurd trivial hl

/-- The steps of a joiner to which no new input comes. -/
abbrev JoinerAlone (X : Crates) (checks : Bool) : JoinerLabel → Joiner → Joiner → Prop :=
  Guarded (JoinerStep X checks) fun _ l => ¬ l.Input

/-- **A joiner left alone comes to rest**, and its load bounds how often it moves. -/
theorem Joiner.exists_rest (X : Crates) (checks : Bool) (j : Joiner) :
    ∃ ls j', Run (JoinerAlone X checks) j ls j' ∧ Terminal (JoinerAlone X checks) j' :=
  exists_terminal Joiner.load (fun _ _ _ hmove => hmove.1.load hmove.2) j

theorem Joiner.length_le (hrun : Run (JoinerAlone X checks) j ls j') :
    ls.length + j'.load ≤ j.load :=
  (hrun.length_add_rank_le (I := fun _ => True) Joiner.load trivial
    fun _ hmove => ⟨trivial, hmove.1.load hmove.2⟩).2

/-! ## Where the tasks stand -/

/-- The joiner has not emitted its own join event. -/
def JoinMain.Early : JoinMain → Prop
  | .connect | .connecting _ | .readReply .. | .emitJoin _ | .sendError _ => True
  | .writing _ what _ _ | .flushing _ what _ => what.stage = .silent
  | _ => False

/-- The joiner has spawned its reader and has not waited for it. -/
def JoinMain.Late : JoinMain → Prop
  | .select _ | .echo .. | .drain _ | .flushPending | .abortReader _ | .awaitReader _ => True
  | .writing _ what _ _ | .flushing _ what _ => what.stage = .running
  | _ => False

/-- What the main task has done where it stands. -/
structure Joiner.Kept (j : Joiner) : Prop where
  minds : j.main.Minds j.reader
  silent : j.main.Early → j.events.sent = []
  spawned : j.main.Late → j.reader ≠ .unspawned
  aborted : ∀ result, j.main = .awaitReader result → j.readerAborted = true

theorem not_early_afterRun (result : Option ChatError) : ¬ (afterRun result).Early := by
  cases result <;> exact id

theorem not_late_afterDecode (result : Option (Except ChatError InvitePayload)) :
    ¬ (afterDecode result).Late := by
  rcases result with _ | _ | _ <;> exact id

theorem not_early_afterText (json : SerdeJson) (me : Guest) (text : String) (now : ℕ) :
    ¬ (afterText json me text now).Early := by
  unfold afterText
  split
  · exact id
  · exact JoinStage.noConfusion

theorem not_late_afterReply (json : SerdeJson) (me : Guest) (byte : UInt8) (now : ℕ) :
    ¬ (afterReply json me byte now).Late := by
  unfold afterReply
  split
  · exact id
  · split
    · exact id
    · exact JoinStage.noConfusion

theorem not_late_afterRun (result : Option ChatError) : ¬ (afterRun result).Late := by
  cases result <;> exact id

/-- Before its own join event the main task has emitted nothing. -/
theorem JoinMainStep.early {l : JoinMainLabel} (h : JoinMainStep X checks l j j')
    (hearly : j'.main.Early) : j.main.Early ∧ j'.events = j.events := by
  cases h with
  | decode hphase | connected hphase | connectFailed hphase | reply hphase | replyFail hphase
  | replyTimeout hphase => exact ⟨by rw [hphase]; trivial, rfl⟩
  | write hphase =>
      dsimp only at hearly
      refine ⟨?_, rfl⟩
      rw [hphase]
      split at hearly <;> exact hearly
  | @writeFail _ _ what _ _ _ hphase | @writeTimeout _ _ what _ _ hphase
  | @flush _ _ what _ hphase | @flushFail _ _ what _ _ hphase | @flushTimeout _ _ what _ hphase =>
      cases what with
      | text => cases hearly
      | hello | name => exact ⟨by rw [hphase]; rfl, rfl⟩
  | takeText => exact absurd hearly (not_early_afterText _ _ _ _)
  | drainText hphase =>
      rw [main_tryEmit, hphase] at hearly
      cases hearly
  | flushEvent hphase =>
      rw [hphase] at hearly
      cases hearly
  | awaitReader => exact absurd hearly (not_early_afterRun _)
  | emitJoin | spawnReader | shutdown | readerDone | inputClosed | eventsClosed | echo | drained
  | flushed | abortReader | emitError | emitClosed | sendError | sendErrorClosed => cases hearly

/-- Behind the join event there is a reader. -/
theorem JoinMainStep.late {l : JoinMainLabel} (h : JoinMainStep X checks l j j')
    (hs : j.main.Late → j.reader ≠ .unspawned) (hlate : j'.main.Late) :
    j'.reader ≠ .unspawned := by
  cases h with
  | spawnReader => exact JoinReader.noConfusion
  | decode => exact absurd hlate (not_late_afterDecode _)
  | reply => exact absurd hlate (not_late_afterReply _ _ _ _)
  | awaitReader => exact absurd hlate (not_late_afterRun _)
  | write hphase =>
      dsimp only at hlate
      refine hs ?_
      rw [hphase]
      split at hlate <;> exact hlate
  | @writeFail _ _ what _ _ _ hphase | @writeTimeout _ _ what _ _ hphase
  | @flush _ _ what _ hphase | @flushFail _ _ what _ _ hphase | @flushTimeout _ _ what _ hphase =>
      cases what with
      | text => exact hs (by rw [hphase]; rfl)
      | hello | name => cases hlate
  | takeText hphase | shutdown hphase | readerDone hphase | inputClosed hphase
  | eventsClosed hphase | drained hphase | flushEvent hphase | flushed hphase
  | abortReader hphase => exact hs (by rw [hphase]; trivial)
  | echo hphase | drainText hphase =>
      have hbefore := hs (by rw [hphase]; trivial)
      simpa only [reader_tryEmit] using hbefore
  | connected | connectFailed | replyFail | replyTimeout | emitJoin | emitError | emitClosed
  | sendError | sendErrorClosed => cases hlate

/-- The main task waits for a reader that it has aborted. -/
theorem JoinMainStep.aborts {l : JoinMainLabel} (h : JoinMainStep X checks l j j')
    {result : Option ChatError} (hawait : j'.main = .awaitReader result) :
    j'.readerAborted = true := by
  cases h with
  -- only this step leads to the wait
  | abortReader => rfl
  | decode =>
      dsimp only at hawait
      unfold afterDecode at hawait
      split at hawait <;> cases hawait
  | reply =>
      dsimp only at hawait
      unfold afterReply at hawait
      split at hawait
      · cases hawait
      · split at hawait <;> cases hawait
  | takeText =>
      dsimp only at hawait
      unfold afterText at hawait
      split at hawait <;> cases hawait
  | @awaitReader _ result' => cases result' <;> cases hawait
  | write =>
      dsimp only at hawait
      split at hawait <;> cases hawait
  | @writeFail _ _ what | @writeTimeout _ _ what | @flush _ _ what | @flushFail _ _ what
  | @flushTimeout _ _ what => cases what <;> cases hawait
  | drainText hphase =>
      rw [main_tryEmit, hphase] at hawait
      cases hawait
  | flushEvent hphase =>
      rw [hphase] at hawait
      cases hawait
  | connected | connectFailed | replyFail | replyTimeout | emitJoin | spawnReader | shutdown
  | readerDone | inputClosed | eventsClosed | echo | drained | flushed | emitError | emitClosed
  | sendError | sendErrorClosed => cases hawait

/-- There is no reader to emit anything before the join event. -/
theorem JoinMain.Early.unspawned {main : JoinMain} {reader : JoinReader} (h : main.Early)
    (hminds : main.Minds reader) : reader = .unspawned := by
  cases main with
  | connect | connecting | readReply | emitJoin | sendError => exact hminds
  | writing _ what | flushing _ what =>
      refine hminds.resolve_left ?_
      rw [show what.stage = .silent from h]
      exact JoinStage.noConfusion
  | _ => cases h

theorem JoinReaderStep.shared {l : JoinReaderLabel} (h : JoinReaderStep X l j j') :
    j'.shutdown = j.shutdown ∧ j'.readerAborted = j.readerAborted ∧ j'.reader ≠ .unspawned := by
  cases h <;> exact ⟨rfl, rfl, JoinReader.noConfusion⟩

theorem JoinerStep.kept {l : JoinerLabel} (h : JoinerStep X checks l j j') (hs : j.Kept) :
    j'.Kept := by
  have hminds := h.minds hs.minds
  cases h with
  | main h =>
      refine ⟨hminds, fun hearly => ?_, h.late hs.spawned, fun _ => h.aborts⟩
      obtain ⟨hbefore, hevents⟩ := h.early hearly
      rw [hevents]
      exact hs.silent hbefore
  | reader h =>
      have hbusy := h.busy
      have hmain := h.frame.1
      obtain ⟨-, haborted, hspawned⟩ := h.shared
      refine ⟨hminds, fun hearly => ?_, fun _ => hspawned, fun result hawait => ?_⟩
      · rw [hmain] at hearly
        exact absurd (hearly.unspawned hs.minds) hbusy.1
      · rw [haborted]
        exact hs.aborted result (hmain ▸ hawait)
  | user h =>
      cases h with
      | takeEvent =>
          exact ⟨hminds, fun h => by rw [Mpsc.sent_pop, hs.silent h], hs.spawned, hs.aborted⟩
      | _ => exact ⟨hminds, hs.silent, hs.spawned, hs.aborted⟩
  | net | finish | tick => exact ⟨hminds, hs.silent, hs.spawned, hs.aborted⟩

theorem Joiner.Kept.init (now : ℕ) (config : JoinConfig) : (Joiner.init now config).Kept :=
  ⟨rfl, fun _ => rfl, False.elim, fun _ => JoinMain.noConfusion⟩

theorem kept_of_run {now : ℕ} {config : JoinConfig}
    (hrun : Run (JoinerStep X checks) (Joiner.init now config) ls j) : j.Kept :=
  hrun.invariant (.init now config) fun hs hmove => hmove.kept hs

/-! ## Quitting -/

/-- The joiner's task has returned. -/
def JoinMain.Returned : JoinMain → Prop
  | .ended | .failed _ | .panicked => True
  | _ => False

/-- The main task waits for the hub's reply or for the Tor client. -/
def JoinMain.Waits : JoinMain → Prop
  | .connecting _ | .readReply .. => True
  | _ => False

/-- A joiner that was told to quit and cannot move: it has returned, or still connects. -/
structure Joiner.Down (j : Joiner) : Prop where
  main : j.main.Returned ∨ j.main.Waits
  reader : j.reader = .unspawned ∨ j.reader = .ended

theorem Joiner.Kept.hasRoom (hs : j.Kept) (hearly : j.main.Early)
    (hopen : j.events.isOpen = true) : j.events.HasRoom eventChanCap := by
  refine ⟨hopen, ?_⟩
  rw [(List.append_eq_nil_iff.mp (hs.silent hearly)).2]
  decide

theorem input_of_terminal {l : JoinerLabel} (h : Terminal (JoinerAlone X checks) j)
    (hmove : JoinerStep X checks l j j') : l.Input := by
  by_contra hl
  exact h l j' ⟨hmove, hl⟩

/-- A joiner at rest that was told to quit has returned or waits to be connected. -/
theorem Joiner.Kept.main (hs : j.Kept) (hrest : Terminal (JoinerAlone X checks) j)
    (hquit : j.shutdown = true) : j.main.Returned ∨ j.main.Waits := by
  have hstuck : ∀ {l j'}, JoinMainStep X checks l j j' → (JoinerLabel.main l).Input :=
    fun hmove => input_of_terminal hrest (.main hmove)
  cases hphase : j.main with
  | ended | failed | panicked => exact .inl trivial
  | connecting | readReply => exact .inr trivial
  | connect => cases hstuck (.decode hphase)
  | writing => cases hstuck (l := .writeFail "") (.writeFail hphase)
  | flushing => cases hstuck (.flush hphase)
  | emitJoin => cases hstuck (.emitJoin hphase)
  | spawnReader => cases hstuck (.spawnReader hphase)
  | select => cases hstuck (.shutdown hphase hquit)
  | echo => cases hstuck (.echo hphase)
  | drain =>
      cases hqueue : j.messages.queue with
      | nil => cases hstuck (.drained hphase hqueue)
      | cons => cases hstuck (.drainText hphase hqueue)
  | flushPending =>
      -- the event kept back last is tried first
      rcases List.eq_nil_or_concat j.pending with hnone | ⟨rest, event, hpending⟩
      · cases hstuck (.flushed hphase (.inl hnone))
      · by_cases hroom : j.events.HasRoom eventChanCap
        · cases hstuck (.flushEvent hphase (hpending.trans List.concat_eq_append) hroom)
        · cases hstuck (.flushed hphase (.inr hroom))
  | abortReader => cases hstuck (.abortReader hphase)
  | awaitReader result =>
      have hspawned := hs.spawned (by rw [hphase]; trivial)
      by_cases hended : j.reader = .ended
      · cases hstuck (.awaitReader hphase hended)
      · cases input_of_terminal hrest
          (.reader (.cancel (hs.aborted result hphase) hspawned hended))
  | emitError => cases hstuck (.emitError hphase)
  | emitClosed => cases hstuck (.emitClosed hphase)
  | sendError =>
      cases hopen : j.events.isOpen with
      | false => cases hstuck (.sendErrorClosed hphase hopen)
      | true => cases hstuck (.sendError hphase (hs.hasRoom (by rw [hphase]; trivial) hopen))

theorem Joiner.Kept.down (hs : j.Kept) (hrest : Terminal (JoinerAlone X checks) j)
    (hquit : j.shutdown = true) : j.Down := by
  have hmain := hs.main hrest hquit
  refine ⟨hmain, ?_⟩
  have hminds := hs.minds
  cases hphase : j.main with
  | ended =>
      rw [hphase] at hminds
      exact .inr hminds
  | failed | panicked | connecting | readReply =>
      rw [hphase] at hminds
      exact .inl hminds
  | _ =>
      rw [hphase] at hmain
      exact hmain.elim False.elim False.elim

/-- Nothing takes the signal back. -/
theorem JoinerStep.shutdown {l : JoinerLabel} (h : JoinerStep X checks l j j')
    (hquit : j.shutdown = true) : j'.shutdown = true := by
  cases h with
  | main h => rw [h.frame.2.1, hquit]
  | reader h => rw [h.shared.1, hquit]
  | user h =>
      cases h with
      | quit => rfl
      | _ => exact hquit
  | net | finish | tick => exact hquit

/-- The joiner has its stream, or never will. -/
def JoinMain.Online : JoinMain → Prop
  | .connect | .connecting _ => False
  | _ => True

theorem JoinMainStep.online {l : JoinMainLabel} (h : JoinMainStep X checks l j j')
    (hs : j.main.Online) : j'.main.Online := by
  cases h with
  | decode hphase | connected hphase | connectFailed hphase =>
      rw [hphase] at hs
      cases hs
  | write =>
      dsimp only
      split <;> trivial
  | @writeFail _ _ what | @writeTimeout _ _ what | @flush _ _ what | @flushFail _ _ what
  | @flushTimeout _ _ what => cases what <;> trivial
  | reply =>
      dsimp only
      unfold afterReply
      split
      · trivial
      · split <;> trivial
  | takeText =>
      dsimp only
      unfold afterText
      split <;> trivial
  | @awaitReader _ result => cases result <;> trivial
  | drainText hphase =>
      rw [main_tryEmit, hphase]
      trivial
  | flushEvent hphase =>
      rw [hphase]
      trivial
  | _ => trivial

theorem JoinerStep.online {l : JoinerLabel} (h : JoinerStep X checks l j j')
    (hs : j.main.Online) : j'.main.Online := by
  cases h with
  | main h => exact h.online hs
  | reader h =>
      rw [h.frame.1]
      exact hs
  | user h => cases h <;> exact hs
  | net | finish | tick => exact hs

/-- A joiner whose hub does not reply gives up. -/
theorem Joiner.Kept.expire (X : Crates) (checks : Bool) (hs : j.Kept) {me : Guest} {deadline : ℕ}
    (hphase : j.main = .readReply me deadline) :
    ∃ ls j', Run (JoinerStep X checks) j ls j' ∧ (∀ l ∈ ls, l.Input → ∃ d, l = .tick d) ∧
      j'.main.Returned ∧ j'.reader = j.reader := by
  have htick : JoinerStep X checks (.tick deadline) j { j with now := j.now + deadline } := .tick
  have htimeout : JoinMainStep X checks .replyTimeout { j with now := j.now + deadline } _ :=
    .replyTimeout hphase (Nat.le_add_left _ _)
  have hwaited := (Run.single htick).snoc (.main htimeout)
  have hkept := JoinerStep.kept (.main htimeout) (htick.kept hs)
  cases hopen : j.events.isOpen with
  | false =>
      refine ⟨_, _, hwaited.snoc (.main (.sendErrorClosed rfl hopen)), ?_, trivial, rfl⟩
      simp [JoinerLabel.Input]
  | true =>
      refine ⟨_, _, hwaited.snoc (.main (.sendError rfl (hkept.hasRoom trivial hopen))), ?_,
        trivial, rfl⟩
      simp [JoinerLabel.Input]

/-- **A joiner that is told to quit returns.**  Left alone it cannot move for ever; where it
cannot move it has returned or waits to be connected; and once it has its stream it returns
with time, whatever the hub does not do. -/
theorem quit_joiner_returns (X : Crates) (checks : Bool) (now : ℕ) (config : JoinConfig)
    (ls : List JoinerLabel) (j : Joiner)
    (hrun : Run (JoinerStep X checks) (Joiner.init now config) ls j) (hquit : j.shutdown = true) :
    (∀ ms k, Run (JoinerAlone X checks) j ms k → ms.length + k.load ≤ j.load) ∧
      (∀ ms k, Run (JoinerAlone X checks) j ms k → Terminal (JoinerAlone X checks) k → k.Down) ∧
      (j.main.Online → ∃ ms k, Run (JoinerStep X checks) j ms k ∧
        (∀ l ∈ ms, l.Input → ∃ d, l = .tick d) ∧ k.main.Returned ∧
        (k.reader = .unspawned ∨ k.reader = .ended)) := by
  have hkeeps : ∀ {ms k}, Run (JoinerAlone X checks) j ms k → k.Kept ∧ k.shutdown = true :=
    fun hrun' => hrun'.invariant (I := fun j => j.Kept ∧ j.shutdown = true)
      ⟨kept_of_run hrun, hquit⟩ fun hs hmove => ⟨hmove.1.kept hs.1, hmove.1.shutdown hs.2⟩
  refine ⟨fun _ _ => Joiner.length_le, fun ms k hrun' hrest => ?_, fun honline => ?_⟩
  · obtain ⟨hkept, hquit'⟩ := hkeeps hrun'
    exact hkept.down hrest hquit'
  · obtain ⟨ms, k, hrun', hrest⟩ := Joiner.exists_rest X checks j
    obtain ⟨hkept, hquit'⟩ := hkeeps hrun'
    have hdown := hkept.down hrest hquit'
    have honline' : k.main.Online :=
      hrun'.invariant (I := fun j => j.main.Online) honline fun hs hmove => hmove.1.online hs
    have halone : ∀ l ∈ ms, ¬ l.Input := by
      refine hrun'.history (I := fun ls _ => ∀ l ∈ ls, ¬ l.Input) (by simp)
        fun hs hmove l hl => ?_
      rcases List.mem_append.mp hl with hl | hl
      · exact hs l hl
      · rw [List.mem_singleton.mp hl]
        exact hmove.2
    -- at rest the joiner has returned, or it waits for a reply and the clock will end that
    cases hphase : k.main with
    | readReply me deadline =>
        obtain ⟨more, k', hmore, hticks, hreturned, hreader⟩ :=
          Joiner.Kept.expire X checks hkept hphase
        refine ⟨ms ++ more, k', hrun'.unguard.append hmore, fun l hl hinput => ?_, hreturned,
          hreader ▸ hdown.reader⟩
        rcases List.mem_append.mp hl with hl | hl
        · exact absurd hinput (halone l hl)
        · exact hticks l hl hinput
    | ended | failed | panicked =>
        exact ⟨ms, k, hrun'.unguard, fun l hl hinput => absurd hinput (halone l hl),
          by rw [hphase]; trivial, hdown.reader⟩
    | connecting =>
        rw [hphase] at honline'
        cases honline'
    | _ =>
        have hmain := hdown.main
        rw [hphase] at hmain
        exact hmain.elim False.elim False.elim

/-- The hub does not reply to ann, and she quits. -/
theorem quit_joiner_returns_hailed :
    ∃ token ls j, Run (JoinerStep .standard true) (Joiner.init 0 ⟨"", token⟩) ls j ∧
      j.main = .readReply annGuest readTimeout ∧
      ∃ ms k, Run (JoinerStep .standard true) j ms k ∧
        (∀ l ∈ ms, l.Input → ∃ d, l = .tick d) ∧ k.main.Returned := by
  obtain ⟨token, hencode⟩ := exists_annToken .standard
  let config : JoinConfig := ⟨"", token⟩
  have hdecode : decodeInvite .standard true token (some joinTtl) (Joiner.init 0 config).timestamp =
      some (.ok annInvite.normalized) := decodeInvite_annInvite hencode
  have hhailed : Run (JoinerStep .standard true) (Joiner.init 0 config)
      (.main .decode :: hailLabels annGuest) (Joiner.hailed 0 config annGuest) :=
    .cons (step_decode hdecode) (run_hailed rfl rfl)
  have hquit := hhailed.snoc (.user .quit)
  obtain ⟨-, -, hreturns⟩ := quit_joiner_returns .standard true 0 config _ _ hquit rfl
  obtain ⟨ms, k, hrun, hticks, hreturned, -⟩ := hreturns trivial
  exact ⟨token, _, _, hquit, rfl, ms, k, hrun, hticks, hreturned⟩

end Nullpipe

import Nullpipe.Joiner.Connect

/-!
# The event stream of a joiner

The stream is a small automaton: silent until the joiner has announced itself or
failed, then messages, then the end (`JoinStage`, with the transitions `JoinStage.Plays`).
`join_stream` says that every run plays a front part of a whole stream, and a whole one if
the joiner is done and the channel was never full.

The place of the main task says where the stream stands (`JoinMain.stage`), and the invariant
`Performs` that the events sent are those of that stage, as long as somebody listens.  Two
obstacles.

* **Two tasks hold the sender.**  `JoinMainStep.continues` reads off every step of
  `joiner_task` which transition of the automaton it makes, if any.  The reader only adds
  messages (`JoinReaderStep.events`), and only while the joiner runs: it has ended before the
  end is announced, which is `JoinMain.Minds`.
* **A full channel drops the end, or keeps a message back.**  So the stage is exact in runs in
  which the channel always has room, and every run that is short enough is one
  (`roomy_of_short`).  Without a receiver nothing is sent any more, and what was sent before
  remains a front part.

The one who is announced is the one whom the joiner has introduced to the hub
(`Joiner.Introduced`); behind the last place nothing moves (`JoinerStep.of_done`).
-/

namespace Nullpipe

open Channel Framing Transition

variable {X : Crates} {checks : Bool} {me : Guest} {j j' : Joiner} {ls : List JoinerLabel}
  {self : PeerInfo} {sent : List ChatEvent} {ev : ChatEvent}

/-! ## The automaton -/

/-- Where an event stream stands. -/
inductive JoinStage
  | silent
  | failed (e : ChatError)
  | running
  | closing
  | complete

/-- A `Message` event. -/
def ChatEvent.IsMessage : ChatEvent → Prop
  | .message .. => True
  | _ => False

/-- An event moves the stream on. -/
inductive JoinStage.Plays : JoinStage → ChatEvent → JoinStage → Prop
  | join (self : PeerInfo) : Plays .silent (.peerJoin self) .running
  | fail (e : ChatError) : Plays .silent (.error e) (.failed e)
  | message {ev : ChatEvent} (h : ev.IsMessage) : Plays .running ev .running
  | error (e : ChatError) : Plays .running (.error e) .closing
  | close : Plays .closing .roomClosed .complete

/-- The whole event stream of a joiner that goes by `self`. -/
inductive JoinStream (self : PeerInfo) : List ChatEvent → Prop
  /-- connecting has failed -/
  | failed (e : ChatError) : JoinStream self [.error e]
  | ran {msgs : List ChatEvent} (hmsgs : ∀ ev ∈ msgs, ev.IsMessage) (result : Option ChatError) :
      JoinStream self (.peerJoin self :: msgs ++ (result.map .error).toList ++ [.roomClosed])

/-- What has been played when the stream stands here. -/
def JoinStage.Played (self : PeerInfo) (sent : List ChatEvent) : JoinStage → Prop
  | .silent => sent = []
  | .failed e => sent = [.error e]
  | .running => ∃ msgs, (∀ ev ∈ msgs, ev.IsMessage) ∧ sent = .peerJoin self :: msgs
  | .closing => ∃ msgs, ∃ result : Option ChatError, (∀ ev ∈ msgs, ev.IsMessage) ∧
      sent = .peerJoin self :: msgs ++ (result.map .error).toList
  | .complete => JoinStream self sent

/-- What has been played is the front part of a whole stream. -/
theorem JoinStage.Played.front {stage : JoinStage} (h : stage.Played self sent) :
    ∃ whole, JoinStream self whole ∧ sent <+: whole := by
  cases stage with
  | silent => exact ⟨_, .failed .shuttingDown, by rw [show sent = [] from h]; exact List.nil_prefix⟩
  | failed e =>
      exact ⟨sent, by rw [show sent = [.error e] from h]; exact .failed e, List.prefix_refl _⟩
  | running =>
      obtain ⟨msgs, hmsgs, rfl⟩ := h
      refine ⟨_, .ran hmsgs none, ?_⟩
      rw [List.append_assoc]
      exact List.prefix_append ..
  | closing =>
      obtain ⟨msgs, result, hmsgs, rfl⟩ := h
      exact ⟨_, .ran hmsgs result, List.prefix_append ..⟩
  | complete => exact ⟨sent, h, List.prefix_refl _⟩

/-- The stream may end without an error. -/
theorem JoinStage.Played.closing (h : JoinStage.running.Played self sent) :
    JoinStage.closing.Played self sent := by
  obtain ⟨msgs, hmsgs, rfl⟩ := h
  exact ⟨msgs, none, hmsgs, (List.append_nil _).symm⟩

/-- **A transition keeps to the stream.** -/
theorem JoinStage.Plays.played {stage next : JoinStage} (h : stage.Plays ev next)
    (hplayed : stage.Played self sent) : ∃ self', next.Played self' (sent ++ [ev]) := by
  cases h with
  | join self' =>
      refine ⟨self', [], nofun, ?_⟩
      rw [show sent = [] from hplayed]
      rfl
  | fail e =>
      refine ⟨self, ?_⟩
      rw [show sent = [] from hplayed]
      rfl
  | message hmessage =>
      obtain ⟨msgs, hmsgs, rfl⟩ := hplayed
      refine ⟨self, msgs ++ [ev], ?_, rfl⟩
      intro ev' hmem
      rcases List.mem_append.mp hmem with hold | hnew
      · exact hmsgs ev' hold
      · rw [List.mem_singleton.mp hnew]
        exact hmessage
  | error e =>
      obtain ⟨msgs, hmsgs, rfl⟩ := hplayed
      exact ⟨self, msgs, some e, hmsgs, rfl⟩
  | close =>
      obtain ⟨msgs, result, hmsgs, rfl⟩ := hplayed
      exact ⟨self, .ran hmsgs result⟩

/-! ## The place of the main task -/

def JoinWrite.stage : JoinWrite → JoinStage
  | .text _ => .running
  | _ => .silent

/-- Where the event stream stands when `joiner_task` stands here. -/
def JoinMain.stage : JoinMain → JoinStage
  | .writing _ what _ _ | .flushing _ what _ => what.stage
  | .spawnReader _ | .select _ | .echo .. | .drain _ | .flushPending | .abortReader _
  | .awaitReader _ | .emitError _ => .running
  | .emitClosed => .closing
  | .ended => .complete
  | .failed e => .failed e
  | _ => .silent

/-- What the place says about the reader: there is none before the joiner runs, and it
has ended before the end is announced. -/
def JoinMain.Minds (reader : JoinReader) : JoinMain → Prop
  | .emitError _ | .emitClosed | .ended => reader = .ended
  | .select _ | .echo .. | .drain _ | .flushPending | .abortReader _ | .awaitReader _ => True
  | .writing _ what _ _ | .flushing _ what _ => what.stage = .running ∨ reader = .unspawned
  | _ => reader = .unspawned

theorem stage_afterDecode (result : Option (Except ChatError InvitePayload)) :
    (afterDecode result).stage = .silent := by
  rcases result with _ | _ | _ <;> rfl

theorem stage_afterReply {json : SerdeJson} {byte : UInt8} {now : ℕ} :
    (afterReply json me byte now).stage = .silent := by
  unfold afterReply
  split
  · rfl
  · split <;> rfl

theorem stage_afterFlush (me : Guest) (now : ℕ) (what : JoinWrite) :
    (afterFlush me now what).stage = what.stage := by
  cases what <;> rfl

theorem stage_afterFailure (e : ChatError) (what : JoinWrite) :
    (afterFailure e what).stage = what.stage := by
  cases what <;> rfl

theorem stage_afterText {json : SerdeJson} {text : String} {now : ℕ} :
    (afterText json me text now).stage = .running := by
  unfold afterText
  split <;> rfl

/-! ## What a step plays -/

/-- The steps of `joiner_task` that use `try_send`. -/
def JoinMainLabel.TrySends : JoinMainLabel → Prop
  | .emitJoin | .echo | .drainText _ | .flushEvent | .emitError | .emitClosed => True
  | _ => False

/-- A `try_send` does not find the event channel full. -/
def Roomy (j : Joiner) (l : JoinerLabel) : Prop :=
  ∀ l', l = .main l' → l'.TrySends → j.events.isOpen = true →
    j.events.queue.length < eventChanCap

/-- An event goes on the channel and moves the stream on; the announcement names the
joiner. -/
structure Joiner.Emits (X : Crates) (j j' : Joiner) (ev : ChatEvent) : Prop where
  isOpen : j.events.isOpen = true
  events : j'.events = j.events.push ev
  plays : j.main.stage.Plays ev j'.main.stage
  self : ∀ info, ev = .peerJoin info →
    ∃ me, j.main = .emitJoin me ∧ info = ⟨peerId X me.discriminator, me.name, j.now⟩

/-- A step keeps the events, and the stream at most stops to run; or it emits one; or
the receiver is gone. -/
def Joiner.Continues (X : Crates) (j j' : Joiner) : Prop :=
  (j'.events = j.events ∧ (j'.main.stage = j.main.stage ∨
    j.main.stage = .running ∧ j'.main.stage = .closing)) ∨
  (∃ ev, j.Emits X j' ev) ∨ j.events.isOpen = false ∧ j'.events = j.events

/-- A `try_send` that finds room, or nobody. -/
theorem Joiner.Continues.of_trySend
    (hroom : j.events.isOpen = true → j.events.queue.length < eventChanCap)
    (hevents : j'.events = j.events.trySend eventChanCap ev)
    (hplays : j.main.stage.Plays ev j'.main.stage)
    (hself : ∀ info, ev = .peerJoin info →
      ∃ me, j.main = .emitJoin me ∧ info = ⟨peerId X me.discriminator, me.name, j.now⟩) :
    j.Continues X j' := by
  by_cases hopen : j.events.isOpen = true
  · rw [Mpsc.trySend_of_hasRoom ⟨hopen, hroom hopen⟩] at hevents
    exact .inr (.inl ⟨ev, hopen, hevents, hplays, hself⟩)
  · rw [Mpsc.trySend_of_not_hasRoom fun hhas => hopen hhas.1] at hevents
    exact .inr (.inr ⟨Bool.eq_false_of_not_eq_true hopen, hevents⟩)

@[simp] theorem events_tryEmit (j : Joiner) (event : ChatEvent) :
    (tryEmit j event).events = j.events.trySend eventChanCap event := by
  by_cases hroom : j.events.HasRoom eventChanCap
  · rw [tryEmit, if_pos hroom, Mpsc.trySend_of_hasRoom hroom]
  · rw [tryEmit, if_neg hroom, Mpsc.trySend_of_not_hasRoom hroom]

/-- **What a step of `joiner_task` plays.** -/
theorem JoinMainStep.continues {l : JoinMainLabel} (h : JoinMainStep X checks l j j')
    (hroomy : Roomy j (.main l)) (hpending : j.events.isOpen = true → j.pending = []) :
    j.Continues X j' := by
  have hroom : l.TrySends → j.events.isOpen = true → j.events.queue.length < eventChanCap :=
    hroomy l rfl
  cases h with
  | emitJoin hphase =>
      refine .of_trySend (hroom trivial) rfl ?_ fun info heq => ⟨_, hphase, ?_⟩
      · rw [hphase]
        exact .join _
      · exact (ChatEvent.peerJoin.inj heq).symm
  | echo hphase | drainText hphase =>
      refine .of_trySend (hroom trivial) (events_tryEmit ..) ?_ nofun
      simp only [main_tryEmit, hphase]
      exact .message trivial
  | flushEvent hphase hkept hhas =>
      -- nothing is kept back while the channel is open
      rw [hpending hhas.1] at hkept
      simp at hkept
  | emitError hphase =>
      refine .of_trySend (hroom trivial) rfl ?_ nofun
      rw [hphase]
      exact .error _
  | emitClosed hphase =>
      refine .of_trySend (hroom trivial) rfl ?_ nofun
      rw [hphase]
      exact .close
  | sendError hphase hhas =>
      refine .inr (.inl ⟨_, hhas.1, rfl, ?_, nofun⟩)
      rw [hphase]
      exact .fail _
  | sendErrorClosed _ hclosed => exact .inr (.inr ⟨hclosed, rfl⟩)
  | @awaitReader _ result hphase =>
      refine .inl ⟨rfl, ?_⟩
      rw [hphase]
      cases result with
      | none => exact .inr ⟨rfl, rfl⟩
      | some => exact .inl rfl
  | write hphase =>
      refine .inl ⟨rfl, .inl ?_⟩
      rw [hphase]
      dsimp only
      split <;> rfl
  | decode hphase =>
      refine .inl ⟨rfl, .inl ?_⟩
      rw [hphase]
      exact stage_afterDecode _
  | flush hphase =>
      refine .inl ⟨rfl, .inl ?_⟩
      rw [hphase]
      exact stage_afterFlush ..
  | writeFail hphase | writeTimeout hphase | flushFail hphase | flushTimeout hphase =>
      refine .inl ⟨rfl, .inl ?_⟩
      rw [hphase]
      exact stage_afterFailure ..
  | reply hphase =>
      refine .inl ⟨rfl, .inl ?_⟩
      rw [hphase]
      exact stage_afterReply
  | takeText hphase =>
      refine .inl ⟨rfl, .inl ?_⟩
      rw [hphase]
      exact stage_afterText
  | _ hphase =>
      refine .inl ⟨rfl, .inl ?_⟩
      rw [hphase]
      rfl

/-! ## The two tasks -/

/-- What is kept back stays empty while the event channel is open and has room. -/
theorem JoinMainStep.pending {l : JoinMainLabel} (h : JoinMainStep X checks l j j')
    (hroomy : Roomy j (.main l)) (hpending : j.events.isOpen = true → j.pending = []) :
    j'.events.isOpen = true → j'.pending = [] := by
  have hroom : l.TrySends → j.events.isOpen = true → j.events.queue.length < eventChanCap :=
    hroomy l rfl
  cases h with
  | echo | drainText =>
      intro hopen
      rw [tryEmit] at hopen ⊢
      split at hopen
      · rename_i hhas
        rw [if_pos hhas]
        exact hpending hopen
      · rename_i hhas
        exact absurd ⟨hopen, hroom trivial hopen⟩ hhas
  | flushEvent _ hkept hhas =>
      rw [hpending hhas.1] at hkept
      simp at hkept
  | flushed => exact fun _ => rfl
  | emitJoin | emitError | emitClosed =>
      intro hopen
      rw [Mpsc.isOpen_trySend] at hopen
      exact hpending hopen
  | _ => exact hpending

/-- The reader is at work. -/
def JoinReader.Busy (reader : JoinReader) : Prop := reader ≠ .unspawned ∧ reader ≠ .ended

/-- A busy reader is that of a joiner in its write loop. -/
theorem JoinMain.Minds.of_busy {main : JoinMain} {reader : JoinReader} (h : main.Minds reader)
    (hbusy : reader.Busy) : main.stage = .running ∧ ∀ next, main.Minds next := by
  cases main with
  | emitError | emitClosed | ended => exact absurd h hbusy.2
  | select | echo | drain | flushPending | abortReader | awaitReader =>
      exact ⟨rfl, fun _ => trivial⟩
  | writing _ what | flushing _ what =>
      have hrunning : what.stage = .running := Or.resolve_right h hbusy.1
      exact ⟨hrunning, fun _ => .inl hrunning⟩
  | _ => exact absurd h hbusy.1

theorem JoinReaderStep.busy {l : JoinReaderLabel} (h : JoinReaderStep X l j j') :
    j.reader.Busy := by
  cases h with
  | cancel _ hspawned hlive => exact ⟨hspawned, hlive⟩
  | _ hphase => exact ⟨hphase ▸ nofun, hphase ▸ nofun⟩

theorem JoinMainStep.minds {l : JoinMainLabel} (h : JoinMainStep X checks l j j')
    (hs : j.main.Minds j.reader) : j'.main.Minds j'.reader := by
  cases h with
  | decode hphase =>
      rw [hphase] at hs
      dsimp only
      -- whatever becomes of the code, there is no reader
      rcases decodeInvite X checks j.config.inviteCode (some joinTtl) j.timestamp with _ | _ | _
      · exact hs
      · exact hs
      · exact hs
  | connected hphase =>
      rw [hphase] at hs
      exact .inr hs
  | connectFailed hphase | emitJoin hphase | replyFail hphase | replyTimeout hphase
  | sendError hphase | sendErrorClosed hphase =>
      rw [hphase] at hs
      exact hs
  | write hphase =>
      rw [hphase] at hs
      dsimp only
      split <;> exact hs
  | @writeFail _ _ what _ _ _ hphase | @writeTimeout _ _ what _ _ hphase
  | @flushFail _ _ what _ _ hphase | @flushTimeout _ _ what _ hphase =>
      rw [hphase] at hs
      cases what with
      | text => trivial
      | _ => exact hs.resolve_left nofun
  | @flush _ _ what _ hphase =>
      rw [hphase] at hs
      cases what with
      | text => trivial
      | _ => exact hs.resolve_left nofun
  | reply hphase =>
      rw [hphase] at hs
      dsimp only
      unfold afterReply
      split
      · exact hs
      · split
        · exact hs
        · exact .inr hs
  | takeText hphase =>
      dsimp only
      unfold afterText
      split
      · trivial
      · exact .inl rfl
  | drainText hphase | flushEvent hphase =>
      simp only [main_tryEmit, hphase]
      trivial
  | @awaitReader _ result hphase hended =>
      cases result <;> exact hended
  | emitError hphase | emitClosed hphase =>
      rw [hphase] at hs
      exact hs
  | _ => trivial

/-- The reader emits messages only. -/
theorem JoinReaderStep.events {l : JoinReaderLabel} (h : JoinReaderStep X l j j') :
    (j'.events = j.events ∨ ∃ ev, j.reader = .emitting ev ∧ j.events.isOpen = true ∧
      j'.events = j.events.push ev) ∧
    ∀ ev, j'.reader = .emitting ev → ev.IsMessage := by
  cases h with
  | message =>
      refine ⟨.inl rfl, fun ev heq => ?_⟩
      rw [← JoinReader.emitting.inj heq]
      trivial
  | emit hphase hhas => exact ⟨.inr ⟨_, hphase, hhas.1, rfl⟩, nofun⟩
  | _ => exact ⟨.inl rfl, nofun⟩

theorem JoinReaderStep.frame {l : JoinReaderLabel} (h : JoinReaderStep X l j j') :
    j'.main = j.main ∧ j'.sock.written = j.sock.written ∧ j'.pending = j.pending := by
  cases h <;> exact ⟨rfl, rfl, rfl⟩

/-! ## Every run -/

/-- The one the joiner announces on its stream is the one it introduced to the hub. -/
def Joiner.Introduced (X : Crates) (j : Joiner) (info : PeerInfo) : Prop :=
  ∃ me : Guest, info.id = peerId X me.discriminator ∧ info.name = me.name ∧
    helloBytes X me.nonce me.discriminator me.name <+: j.sock.written

/-- The joiner's events agree with its place, as long as somebody listens. -/
structure Performs (X : Crates) (j : Joiner) : Prop where
  spoken : ∃ me, j.Spoken X me
  introduced : ∀ info, .peerJoin info ∈ j.events.sent → j.Introduced X info
  exact : j.events.isOpen = true → ∃ self, j.main.stage.Played self j.events.sent
  front : ∃ self whole, JoinStream self whole ∧ j.events.sent <+: whole
  pending : j.events.isOpen = true → j.pending = []
  minds : j.main.Minds j.reader
  holding : ∀ ev, j.reader = .emitting ev → ev.IsMessage

theorem Performs.init (X : Crates) (now : ℕ) (config : JoinConfig) :
    Performs X (Joiner.init now config) := by
  have hplayed : JoinStage.silent.Played ⟨⟨""⟩, "", 0⟩ [] := rfl
  exact ⟨⟨⟨"", .fill 0, .fill 0⟩, .init ..⟩, nofun, fun _ => ⟨_, hplayed⟩, ⟨_, hplayed.front⟩,
    fun _ => rfl, rfl, nofun⟩

theorem Joiner.Introduced.mono {info : PeerInfo} (h : j.Introduced X info)
    (hwritten : j.sock.written <+: j'.sock.written) : j'.Introduced X info := by
  obtain ⟨me, hid, hname, hprefix⟩ := h
  exact ⟨me, hid, hname, hprefix.trans hwritten⟩

theorem JoinMainStep.performs {l : JoinMainLabel} (h : JoinMainStep X checks l j j')
    (hroomy : Roomy j (.main l)) (hs : Performs X j) : Performs X j' := by
  have hcontinues := h.continues hroomy hs.pending
  have hpending := h.pending hroomy hs.pending
  have hminds := h.minds hs.minds
  have hreader : ∀ ev, j'.reader = .emitting ev → ev.IsMessage := by
    cases h with
    | spawnReader => exact nofun
    | echo | drainText =>
        simp only [tryEmit]
        split <;> exact hs.holding
    | _ => exact hs.holding
  obtain ⟨me, hspoken⟩ := hs.spoken
  have hspoken' : ∃ me, j'.Spoken X me := by
    by_cases hconnected : ∃ d, l = .connected d
    · obtain ⟨d, rfl⟩ := hconnected
      obtain ⟨payload, -, hnew⟩ := h.spoken_connected hspoken
      exact ⟨_, hnew⟩
    · push Not at hconnected
      exact ⟨me, h.spoken hconnected hspoken⟩
  -- no event, one event of the script, or a stream that is closed
  rcases hcontinues with ⟨hevents, hstage⟩ | ⟨ev, hopen, hevents, hplays, hself⟩ |
    ⟨hclosed, hevents⟩
  · refine ⟨hspoken', ?_, fun hopen => ?_, hevents ▸ hs.front, hpending, hminds, hreader⟩
    · rw [hevents]
      exact fun info hmem => (hs.introduced info hmem).mono h.written
    · rw [hevents] at hopen ⊢
      obtain ⟨self, hplayed⟩ := hs.exact hopen
      rcases hstage with hsame | ⟨hrunning, hclosing⟩
      · exact ⟨self, hsame ▸ hplayed⟩
      · rw [hrunning] at hplayed
        exact ⟨self, hclosing ▸ hplayed.closing⟩
  · obtain ⟨self, hplayed⟩ := hs.exact hopen
    obtain ⟨self', hplayed'⟩ := hplays.played hplayed
    rw [← Mpsc.sent_push, ← hevents] at hplayed'
    refine ⟨hspoken', fun info hmem => ?_, fun _ => ⟨self', hplayed'⟩, ⟨self', hplayed'.front⟩,
      hpending, hminds, hreader⟩
    rw [hevents, Mpsc.sent_push] at hmem
    rcases List.mem_append.mp hmem with hold | hnew
    · exact (hs.introduced info hold).mono h.written
    · -- the joiner announces itself
      obtain ⟨who, hphase, hinfo⟩ := hself info (List.mem_singleton.mp hnew).symm
      have hwritten := hspoken
      rw [Joiner.Spoken, hphase] at hwritten
      obtain ⟨rfl, -, -, hwritten⟩ := hwritten
      refine ⟨who, by rw [hinfo], by rw [hinfo], ?_⟩
      rw [← Guest.script_nil, ← hwritten]
      exact h.written
  · refine ⟨hspoken', ?_, fun hopen => ?_, hevents ▸ hs.front, hpending, hminds, hreader⟩
    · rw [hevents]
      exact fun info hmem => (hs.introduced info hmem).mono h.written
    · rw [hevents, hclosed] at hopen
      cases hopen

theorem JoinReaderStep.performs {l : JoinReaderLabel} (h : JoinReaderStep X l j j')
    (hspoken : ∃ me, j'.Spoken X me) (hs : Performs X j) : Performs X j' := by
  obtain ⟨hevents, hholding⟩ := h.events
  obtain ⟨hmain, hwritten, hpending⟩ := h.frame
  obtain ⟨hrunning, hany⟩ := hs.minds.of_busy h.busy
  have hminds : j'.main.Minds j'.reader := hmain ▸ hany _
  have hintroduced : ∀ info, j.Introduced X info → j'.Introduced X info := fun info hold =>
    hold.mono (by rw [hwritten])
  rcases hevents with hevents | ⟨ev, hphase, hopen, hevents⟩
  · refine ⟨hspoken, ?_, ?_, hevents ▸ hs.front, ?_, hminds, hholding⟩
    · rw [hevents]
      exact fun info hmem => hintroduced info (hs.introduced info hmem)
    · rw [hevents, hmain]
      exact hs.exact
    · rw [hevents, hpending]
      exact hs.pending
  · -- a message, while the write loop is running
    obtain ⟨self, hplayed⟩ := hs.exact hopen
    rw [hrunning] at hplayed
    obtain ⟨self', hplayed'⟩ := (JoinStage.Plays.message (hs.holding ev hphase)).played hplayed
    rw [← Mpsc.sent_push, ← hevents] at hplayed'
    refine ⟨hspoken, fun info hmem => ?_, fun _ => ?_, ⟨self', hplayed'.front⟩, fun _ => ?_, hminds,
      hholding⟩
    · rw [hevents, Mpsc.sent_push] at hmem
      rcases List.mem_append.mp hmem with hold | hnew
      · exact hintroduced info (hs.introduced info hold)
      · have hmessage := hs.holding ev hphase
        rw [← List.mem_singleton.mp hnew] at hmessage
        cases hmessage
    · rw [hmain, hrunning]
      exact ⟨self', hplayed'⟩
    · rw [hpending]
      exact hs.pending hopen

/-- A step that leaves both tasks alone and sends no event. -/
theorem Performs.still (hs : Performs X j) (hspoken : ∃ me, j'.Spoken X me)
    (hmain : j'.main = j.main) (hreader : j'.reader = j.reader)
    (hsent : j'.events.sent = j.events.sent)
    (hopen : j'.events.isOpen = true → j.events.isOpen = true) (hpending : j'.pending = j.pending)
    (hwritten : j'.sock.written = j.sock.written) : Performs X j' := by
  refine ⟨hspoken, ?_, ?_, hsent ▸ hs.front, fun h => hpending ▸ hs.pending (hopen h), ?_, ?_⟩
  · rw [hsent]
    exact fun info hmem => (hs.introduced info hmem).mono (by rw [hwritten])
  · rw [hmain, hsent]
    exact fun h => hs.exact (hopen h)
  · rw [hmain, hreader]
    exact hs.minds
  · rw [hreader]
    exact hs.holding

/-- **Step lemma.** -/
theorem JoinerStep.performs {l : JoinerLabel} (h : JoinerStep X checks l j j')
    (hroomy : Roomy j l) (hs : Performs X j) : Performs X j' := by
  by_cases hmain : ∃ l', l = .main l'
  · obtain ⟨l', rfl⟩ := hmain
    cases h with
    | main h => exact h.performs hroomy hs
  push Not at hmain
  obtain ⟨me, hme⟩ := hs.spoken
  have hspoken : ∃ me, j'.Spoken X me := ⟨me, h.spoken (fun d => hmain _) hme⟩
  cases h with
  | main => exact absurd rfl (hmain _)
  | reader h => exact h.performs hspoken hs
  | user h =>
      cases h with
      | takeEvent => exact hs.still hspoken rfl rfl (Mpsc.sent_pop _) id rfl rfl
      | closeEvents => exact hs.still hspoken rfl rfl rfl nofun rfl rfl
      | send | quit | dropSend => exact hs.still hspoken rfl rfl rfl id rfl rfl
  | net | finish | tick => exact hs.still hspoken rfl rfl rfl id rfl rfl

/-! ## The end -/

/-- `joiner_task` has returned. -/
def JoinMain.Done : JoinMain → Prop
  | .ended | .failed _ => True
  | _ => False

/-- Nothing moves a joiner that is done, except what the user and the transport do. -/
theorem JoinerStep.of_done {l : JoinerLabel} (h : JoinerStep X checks l j j')
    (hdone : j.main.Done) (hminds : j.main.Minds j.reader) :
    j'.main = j.main ∧ j'.reader = j.reader ∧ j'.events.sent = j.events.sent := by
  cases h with
  | main h =>
      cases h with
      | _ hphase =>
          rw [hphase] at hdone
          cases hdone
  | reader h =>
      have hrunning := (hminds.of_busy h.busy).1
      cases hmain : j.main with
      | ended | failed =>
          rw [hmain] at hrunning
          cases hrunning
      | _ =>
          rw [hmain] at hdone
          cases hdone
  | user h =>
      cases h with
      | takeEvent => exact ⟨rfl, rfl, Mpsc.sent_pop _⟩
      | _ => exact ⟨rfl, rfl, rfl⟩
  | net | finish | tick => exact ⟨rfl, rfl, rfl⟩

/-- **The shape of a joiner's event stream.**  It is the front part of a whole one; it
is whole when the joiner is done, unless nobody listened to the end, and then nothing
is added to it; and the one that is announced on it is the one the hub was given. -/
theorem join_stream (X : Crates) (checks : Bool) (now : ℕ) (config : JoinConfig)
    (ls : List JoinerLabel) (j : Joiner)
    (hrun : Run (Guarded (JoinerStep X checks) Roomy) (Joiner.init now config) ls j) :
    (∃ self whole, JoinStream self whole ∧ j.events.sent <+: whole) ∧
      (∀ info, .peerJoin info ∈ j.events.sent → j.Introduced X info) ∧
      (j.main.Done → (j.events.isOpen = true → ∃ self, JoinStream self j.events.sent) ∧
        ∀ ms j', Run (JoinerStep X checks) j ms j' → j'.events.sent = j.events.sent) := by
  have hs : Performs X j := hrun.invariant (.init ..) fun hs hstep => hstep.1.performs hstep.2 hs
  refine ⟨hs.front, hs.introduced, fun hdone => ⟨fun hopen => ?_, fun ms j' hrest => ?_⟩⟩
  · obtain ⟨self, hplayed⟩ := hs.exact hopen
    cases hmain : j.main with
    | ended =>
        rw [hmain] at hplayed
        exact ⟨self, hplayed⟩
    | failed e =>
        rw [hmain] at hplayed
        exact ⟨self, by rw [show j.events.sent = [.error e] from hplayed]; exact .failed e⟩
    | _ =>
        rw [hmain] at hdone
        cases hdone
  · let I : Joiner → Prop := fun k =>
      k.main = j.main ∧ k.reader = j.reader ∧ k.events.sent = j.events.sent
    have hfinal : I j' := hrest.invariant (I := I) ⟨rfl, rfl, rfl⟩ fun hk hstep => by
      obtain ⟨hmain, hreader, hsent⟩ := hk
      obtain ⟨hmain', hreader', hsent'⟩ := hstep.of_done (hmain ▸ hdone)
        (by rw [hmain, hreader]; exact hs.minds)
      exact ⟨hmain'.trans hmain, hreader'.trans hreader, hsent'.trans hsent⟩
    exact hfinal.2.2

/-! ## A visit -/

theorem length_push (q : Mpsc ChatEvent) (ev : ChatEvent) :
    (q.push ev).queue.length = q.queue.length + 1 := by
  simp [Mpsc.push]

theorem length_trySend_le (q : Mpsc ChatEvent) (ev : ChatEvent) :
    (q.trySend eventChanCap ev).queue.length ≤ q.queue.length + 1 := by
  rcases Mpsc.trySend_cases eventChanCap q ev with h | h
  · rw [h, length_push]
  · rw [h]
    exact Nat.le_succ _

theorem JoinerStep.length_events_le {l : JoinerLabel} (h : JoinerStep X checks l j j') :
    j'.events.queue.length ≤ j.events.queue.length + 1 := by
  cases h with
  | main h =>
      cases h with
      | emitJoin | emitError | emitClosed => exact length_trySend_le ..
      | echo | drainText => exact events_tryEmit j _ ▸ length_trySend_le ..
      | flushEvent | sendError => exact (length_push ..).le
      | _ => exact Nat.le_succ _
  | reader h =>
      cases h with
      | emit => exact (length_push ..).le
      | _ => exact Nat.le_succ _
  | user h =>
      cases h with
      | takeEvent => simp [Mpsc.pop]; omega
      | _ => exact Nat.le_succ _
  | net | finish | tick => exact Nat.le_succ _

/-- A short run never fills the event channel. -/
theorem roomy_of_short (hrun : Run (JoinerStep X checks) j ls j')
    (hshort : j.events.queue.length + ls.length ≤ eventChanCap) :
    Run (Guarded (JoinerStep X checks) Roomy) j ls j' ∧
      j'.events.queue.length ≤ j.events.queue.length + ls.length := by
  induction hrun with
  | nil => exact ⟨.nil, Nat.le_refl _⟩
  | snoc _ hstep ih =>
      rw [List.length_append, List.length_singleton] at hshort ⊢
      obtain ⟨hguarded, hlen⟩ := ih (by omega)
      have hnext := hstep.length_events_le
      exact ⟨hguarded.snoc ⟨hstep, fun _ _ _ _ => by omega⟩, by omega⟩

/-- A joiner whose user has quit. -/
def Joiner.left (X : Crates) (now : ℕ) (config : JoinConfig) (me : Guest) : Joiner :=
  { Joiner.entered X now config me with
    main := .ended
    reader := .ended
    readerAborted := true
    messages := Mpsc.empty.close
    shutdown := true
    events := Mpsc.empty.push (.peerJoin ⟨peerId X me.discriminator, me.name, now⟩) |>.push
      .roomClosed }

def leaveLabels : List JoinerLabel :=
  [.user .quit, .main .shutdown, .main .drained, .main .flushed, .main .abortReader,
    .reader .cancel, .main .awaitReader, .main .emitClosed]

theorem run_leave (X : Crates) (now : ℕ) (config : JoinConfig) (me : Guest) :
    Run (JoinerStep X checks) (Joiner.entered X now config me) leaveLabels
      (Joiner.left X now config me) := by
  -- nothing is queued, so there is nothing to drain
  have hquit : JoinerStep X checks (.user .quit) (Joiner.entered X now config me)
      { Joiner.entered X now config me with shutdown := true } := .user .quit
  have hshutdown : JoinerStep X checks (.main .shutdown)
      { Joiner.entered X now config me with shutdown := true }
      { Joiner.entered X now config me with shutdown := true, main := .drain me } :=
    .main (.shutdown rfl rfl)
  have hdrained : JoinerStep X checks (.main .drained)
      { Joiner.entered X now config me with shutdown := true, main := .drain me }
      { Joiner.entered X now config me with shutdown := true, main := .flushPending } :=
    .main (.drained rfl rfl)
  have hflushed : JoinerStep X checks (.main .flushed)
      { Joiner.entered X now config me with shutdown := true, main := .flushPending }
      { Joiner.entered X now config me with shutdown := true, main := .abortReader none } :=
    .main (.flushed rfl (.inl rfl))
  have habort : JoinerStep X checks (.main .abortReader)
      { Joiner.entered X now config me with shutdown := true, main := .abortReader none }
      { Joiner.left X now config me with
        main := .awaitReader none, reader := .reading [] (now + readTimeout)
        events := (Joiner.entered X now config me).events } :=
    .main (.abortReader rfl)
  have hcancel : JoinerStep X checks (.reader .cancel)
      { Joiner.left X now config me with
        main := .awaitReader none, reader := .reading [] (now + readTimeout)
        events := (Joiner.entered X now config me).events }
      { Joiner.left X now config me with
        main := .awaitReader none, events := (Joiner.entered X now config me).events } :=
    .reader (.cancel rfl nofun nofun)
  have hawait : JoinerStep X checks (.main .awaitReader)
      { Joiner.left X now config me with
        main := .awaitReader none, events := (Joiner.entered X now config me).events }
      { Joiner.left X now config me with
        main := .emitClosed, events := (Joiner.entered X now config me).events } :=
    .main (.awaitReader (show _ = JoinMain.awaitReader none from rfl) rfl)
  have hclose : JoinerStep X checks (.main .emitClosed)
      { Joiner.left X now config me with
        main := .emitClosed, events := (Joiner.entered X now config me).events }
      (Joiner.left X now config me) := .main (.emitClosed rfl)
  exact (((((((Run.single hquit).snoc hshutdown).snoc hdrained).snoc hflushed).snoc habort).snoc
    hcancel).snoc hawait).snoc hclose

/-- Ann joins and quits. -/
theorem join_stream_left :
    ∃ token ls j, Run (Guarded (JoinerStep .standard true) Roomy) (Joiner.init 0 ⟨"", token⟩) ls j ∧
      j.events.sent = [.peerJoin ⟨peerId .standard (.fill 7), "ann", 0⟩, .roomClosed] ∧
      ∃ self, JoinStream self j.events.sent := by
  obtain ⟨token, hencode⟩ := exists_annToken .standard
  let config : JoinConfig := ⟨"", token⟩
  have hdecode : decodeInvite .standard true token (some joinTtl) (Joiner.init 0 config).timestamp =
      some (.ok annInvite.normalized) := decodeInvite_annInvite hencode
  have hrun : Run (JoinerStep .standard true) (Joiner.init 0 config)
      (.main .decode :: (annLabels ++ leaveLabels)) (Joiner.left .standard 0 config annGuest) :=
    .cons (step_decode hdecode) ((run_ann config rfl).append (run_leave ..))
  obtain ⟨hguarded, -⟩ := roomy_of_short hrun (by
    simp [Joiner.init, Mpsc.empty, annLabels, answeredLabels, hailLabels, replyLabels,
      enteredLabels, leaveLabels,
      eventChanCap])
  exact ⟨token, _, _, hguarded, rfl,
    ((join_stream .standard true 0 config _ _ hguarded).2.2 trivial).1 rfl⟩

end Nullpipe

import Nullpipe.Core.Payload
import Nullpipe.Joiner.Staying
import Nullpipe.Joiner.Events

/-!
# What the reader of a joiner emits

The reader of a joiner is a `Listener` of the frame format that passes over the frames it
cannot decode.  It has the stream from the byte behind the reply
of the hub on, and the event channel in common with the main task; what it emits itself is
watched as it happens (`HearStep`).

* `JoinReaderStep.total` is the heart: a step of the reader moves events and loses none.  What
  it has handed on, what it holds and what is ahead of it is the same list before and after
  (`Joiner.heardOf`), be it a chunk, a whole frame or the emission of an event.
* `Joiner.Follows` is the invariant built on it, for runs in which no read times out.  Before
  the reader is there the main task reads the stream; it has taken nothing but the reply
  (`JoinMain.Taken`).
* `JoinerHears` adds the channel: while somebody listens, what was handed on is on it.

A reader also comes to its end.  As on the host's side, `Joiner.rank` bounds the steps it can
still take once nothing more arrives, and a reader that cannot take one has ended or waits
for room on the event channel (`exists_joinReaderStep`).  `JoinerReads` collects all of this,
and `joinerReads_of_run` has it for every run.
-/

namespace Nullpipe

open Channel Framing Transition

variable {X : Crates} {checks : Bool} {j j' : Joiner} {handed out : List ChatEvent}
  {later : List UInt8}

/-! ## The reader as a listener -/

def JoinReader.ear : JoinReader → Ear ChatEvent
  | .unspawned | .spawned => .reading []
  | .reading got _ => .reading got
  | .emitting event => .holding event
  | .finished | .ended => .finished

/-- What the reader makes of a frame. -/
abbrev incoming (X : Crates) : List UInt8 → Verdict ChatEvent := readAll X.json incomingEvent

/-- All events of the reader of `j` when it has handed on `handed` and the bytes `later`
still come. -/
def Joiner.heardOf (X : Crates) (j : Joiner) (handed : List ChatEvent) (later : List UInt8) :
    List ChatEvent :=
  Listener.total wireFormat (incoming X) ⟨j.reader.ear, j.sock.inbox ++ later, handed⟩

/-- What a step of the reader hands on, whether or not the event channel is still open. -/
def JoinReaderLabel.hands (reader : JoinReader) (l : JoinReaderLabel) : List ChatEvent :=
  match reader with
  | .emitting event => if l = .emit then [event] else []
  | _ => []

theorem hands_of_ne {reader : JoinReader} {l : JoinReaderLabel} (h : l ≠ .emit) :
    l.hands reader = [] := by
  unfold JoinReaderLabel.hands
  split
  · rw [if_neg h]
  · rfl

theorem hands_emitting (event : ChatEvent) :
    JoinReaderLabel.hands (.emitting event) .emit = [event] := rfl

private theorem inbox_take_append {k : Socket} {chunk : List UInt8} (h : k.CanTake chunk)
    (later : List UInt8) : k.inbox ++ later = chunk ++ ((k.take chunk).inbox ++ later) := by
  rw [← List.append_assoc, ← Socket.inbox_take h]

private theorem heardOf_eq {reader : JoinReader} {unread : List UInt8}
    (hreader : j.reader = reader) (hunread : j.sock.inbox ++ later = unread) :
    j.heardOf X handed later =
      Listener.total wireFormat (incoming X) ⟨reader.ear, unread, handed⟩ := by
  rw [Joiner.heardOf, hreader, hunread]

/-- A read of the reader that completes a frame. -/
private theorem heardOf_frame {got chunk frame : List UInt8} {deadline k : ℕ} {reader : JoinReader}
    (hphase : j.reader = .reading got deadline) (htake : j.sock.CanTake chunk)
    (hneeds : readFrame got = .needs k) (hfit : chunk.length ≤ k)
    (hframe : readFrame (got ++ chunk) = .frame frame)
    (hear : (incoming X frame).ear = reader.ear) :
    Joiner.heardOf X { j with sock := j.sock.take chunk, reader := reader } handed later =
      j.heardOf X handed later := by
  have hstep : ListenStep wireFormat (incoming X) (.frame chunk)
      ⟨.reading got, chunk ++ ((j.sock.take chunk).inbox ++ later), handed⟩
      ⟨(incoming X frame).ear, (j.sock.take chunk).inbox ++ later, handed⟩ :=
    .frame htake.1 hneeds hfit hframe
  calc Joiner.heardOf X { j with sock := j.sock.take chunk, reader := reader } handed later
      = Listener.total wireFormat (incoming X)
          ⟨(incoming X frame).ear, (j.sock.take chunk).inbox ++ later, handed⟩ := by
        rw [hear]
        rfl
    _ = Listener.total wireFormat (incoming X)
          ⟨.reading got, chunk ++ ((j.sock.take chunk).inbox ++ later), handed⟩ := hstep.total
    _ = j.heardOf X handed later := (heardOf_eq hphase (inbox_take_append htake later)).symm

/-- **A step of the reader moves events and loses none.** -/
theorem JoinReaderStep.total {l : JoinReaderLabel} (h : JoinReaderStep X l j j')
    (hwaits : j.reader.ear.Waits wireFormat) (htimeout : l ≠ .readTimeout) (hcancel : l ≠ .cancel)
    (hlater : j.sock.readEnd.isSome → later = []) :
    j'.heardOf X (handed ++ l.hands j.reader) later = j.heardOf X handed later := by
  cases h with
  | start hphase | done hphase =>
      rw [hands_of_ne (by simp), List.append_nil, heardOf_eq hphase rfl]
      rfl
  | @read _ got chunk deadline k k' hphase htake hneeds hfit hmore =>
      -- a step of the listener, with what is still to come behind the inbox
      have hstep : ListenStep wireFormat (incoming X) (.read chunk)
          ⟨.reading got, chunk ++ ((j.sock.take chunk).inbox ++ later), handed⟩
          ⟨.reading (got ++ chunk), (j.sock.take chunk).inbox ++ later, handed⟩ :=
        .read htake.1 hneeds hfit hmore
      rw [hands_of_ne (by simp), List.append_nil,
        heardOf_eq hphase (inbox_take_append htake later)]
      exact hstep.total
  | message hphase htake hneeds hfit hframe hdecode =>
      rw [hands_of_ne (by simp), List.append_nil]
      refine heardOf_frame hphase htake hneeds hfit hframe ?_
      rw [incoming, readAll, decoded, hdecode]
      rfl
  | skip hphase htake hneeds hfit hframe hdecode =>
      rw [hands_of_ne (by simp), List.append_nil]
      refine heardOf_frame hphase htake hneeds hfit hframe ?_
      rw [incoming, readAll, decoded, hdecode]
      rfl
  | @malformed _ got chunk deadline k e hphase htake hneeds hfit hfailed =>
      have hstep : ListenStep wireFormat (incoming X) (.malformed chunk)
          ⟨.reading got, chunk ++ ((j.sock.take chunk).inbox ++ later), handed⟩
          ⟨.finished, (j.sock.take chunk).inbox ++ later, handed⟩ :=
        .malformed htake.1 hneeds hfit hfailed
      rw [hands_of_ne (by simp), List.append_nil,
        heardOf_eq hphase (inbox_take_append htake later)]
      exact hstep.total
  | @readFail _ got deadline hphase hend =>
      rw [hphase] at hwaits
      -- the stream ends here, within a frame
      obtain ⟨k, hneeds⟩ := hwaits
      have hstep : ListenStep wireFormat (incoming X) .finish ⟨.reading got, [], handed⟩
          ⟨.finished, [], handed⟩ := .finish hneeds
      have hnone : j.sock.inbox ++ later = [] := by rw [hend.1, hlater hend.2, List.append_nil]
      rw [hands_of_ne (by simp), List.append_nil, heardOf_eq hphase hnone]
      rw [Joiner.heardOf, hnone]
      exact hstep.total
  | readTimeout => exact absurd rfl htimeout
  | @emit _ event hphase | @emitClosed _ event hphase =>
      have hstep : ListenStep wireFormat (incoming X) .hand
          ⟨.holding event, j.sock.inbox ++ later, handed⟩
          ⟨.reading [], j.sock.inbox ++ later, handed ++ [event]⟩ := .hand
      rw [hphase, hands_emitting, heardOf_eq hphase rfl]
      exact hstep.total
  | cancel => exact absurd rfl hcancel

theorem JoinReaderStep.arrived {l : JoinReaderLabel} (h : JoinReaderStep X l j j') :
    j'.sock.arrived = j.sock.arrived ∧ j'.sock.readEnd = j.sock.readEnd ∧
      (j.sock.read ≠ [] → j'.sock.read ≠ []) := by
  cases h with
  | read _ htake | message _ htake | skip _ htake | malformed _ htake =>
      refine ⟨Socket.arrived_take htake, rfl, fun hne => ?_⟩
      rw [Socket.read_take]
      exact List.append_ne_nil_of_left_ne_nil hne _
  | _ => exact ⟨rfl, rfl, id⟩

/-- A reader that goes on is in the middle of a frame or holds an event. -/
theorem JoinReaderStep.waits {l : JoinReaderLabel} (h : JoinReaderStep X l j j') :
    j'.reader.ear.Waits wireFormat := by
  cases h with
  | read _ _ _ _ hmore => exact ⟨_, hmore⟩
  | start | skip | emit | emitClosed => exact waits_nil
  | _ => trivial

/-! ## The bytes behind the reply -/

/-- Behind the one byte of the reply a new reader has all of the stream before it. -/
theorem heardOf_of_reply (hread : j.sock.read.length = 1) (hreader : j.reader.ear = .reading []) :
    j.heardOf X [] later = wireFormat.heard (incoming X) (j.sock.arrived.tail ++ later) := by
  obtain ⟨byte, hbyte⟩ := List.length_eq_one_iff.mp hread
  rw [Joiner.heardOf, hreader, Socket.arrived, hbyte]
  rfl

/-- What arrives was still to come. -/
theorem heardOf_arrive {chunk : List UInt8} :
    Joiner.heardOf X { j with sock := j.sock.arrive chunk } handed later =
      j.heardOf X handed (chunk ++ later) :=
  heardOf_eq rfl (List.append_assoc ..)

/-- What the place of the main task says about the bytes it has read, before the reader is
there: none until the reply of the hub, then the reply. -/
def JoinMain.Taken (read : List UInt8) : JoinMain → Prop
  | .connect | .connecting _ | .readReply _ _ | .writing _ .hello _ _ | .flushing _ .hello _ =>
    read = []
  | .writing _ .name _ _ | .flushing _ .name _ | .emitJoin _ | .spawnReader _ => read.length = 1
  | _ => True

/-- The reader has handed on `handed` of the stream behind the reply, and what is ahead of
it is the rest, whatever still comes. -/
structure Joiner.Follows (X : Crates) (j : Joiner) (handed : List ChatEvent) : Prop where
  minds : j.main.Minds j.reader
  taken : j.reader = .unspawned → handed = [] ∧ j.main.Taken j.sock.read
  listens : j.reader ≠ .unspawned → j.readerAborted = false →
    j.sock.read ≠ [] ∧ j.reader.ear.Waits wireFormat ∧
      ∀ later, (j.sock.readEnd.isSome → later = []) →
        j.heardOf X handed later =
          wireFormat.heard (incoming X) (j.sock.arrived.tail ++ later)

theorem JoinMainStep.taken {l : JoinMainLabel} (h : JoinMainStep X checks l j j')
    (hs : j.main.Taken j.sock.read) (hspawn : l ≠ .spawnReader) :
    j'.main.Taken j'.sock.read := by
  cases h with
  | decode hphase =>
      rw [hphase] at hs
      dsimp only
      rcases decodeInvite X checks j.config.inviteCode (some joinTtl) j.timestamp with _ | _ | _
      · trivial
      · trivial
      · exact hs
  | connected hphase | emitJoin hphase =>
      rw [hphase] at hs
      exact hs
  | @write _ _ what _ _ _ hphase =>
      rw [hphase] at hs
      dsimp only
      split <;> cases what <;> exact hs
  | @writeFail _ _ what | @writeTimeout _ _ what | @flushFail _ _ what | @flushTimeout _ _ what =>
      cases what <;> trivial
  | @flush _ _ what _ hphase =>
      rw [hphase] at hs
      cases what with
      | hello | name => exact hs
      | text => trivial
  | reply hphase =>
      rw [hphase] at hs
      -- the reply is one byte, and the only one the main task reads
      have hread : j.sock.read = [] := hs
      dsimp only
      unfold afterReply
      split
      · trivial
      · split
        · trivial
        · show (j.sock.read ++ [_]).length = 1
          rw [hread]
          rfl
  | spawnReader => exact absurd rfl hspawn
  | takeText =>
      dsimp only
      unfold afterText
      split <;> trivial
  | drainText hphase =>
      simp only [main_tryEmit, hphase]
      trivial
  | awaitReader => cases ‹Option ChatError› <;> trivial
  | _ => trivial

/-- What else a step of the main task leaves to the reader. -/
theorem JoinMainStep.leaves {l : JoinMainLabel} (h : JoinMainStep X checks l j j')
    (hspawn : l ≠ .spawnReader) : j'.reader = j.reader ∧
      (j'.readerAborted = false → j.readerAborted = false) ∧
      ((∃ byte, l = .reply byte) ∨ j'.sock.read = j.sock.read ∧ j'.sock.inbox = j.sock.inbox) := by
  cases h with
  | spawnReader => exact absurd rfl hspawn
  | reply => exact ⟨rfl, id, .inl ⟨_, rfl⟩⟩
  | abortReader =>
      refine ⟨rfl, ?_, .inr ⟨rfl, rfl⟩⟩
      intro hlive
      cases hlive
  | echo | drainText =>
      unfold tryEmit
      split <;> exact ⟨rfl, id, .inr ⟨rfl, rfl⟩⟩
  | _ => exact ⟨rfl, id, .inr ⟨rfl, rfl⟩⟩

/-- The reader is not there when the reply is read. -/
theorem JoinMainStep.reply_minds {byte : UInt8} (h : JoinMainStep X checks (.reply byte) j j')
    (hs : j.main.Minds j.reader) : j.reader = .unspawned := by
  cases h with
  | reply hphase =>
      rw [hphase] at hs
      exact hs

theorem JoinMainStep.follows {l : JoinMainLabel} (h : JoinMainStep X checks l j j')
    (hs : j.Follows X handed) : j'.Follows X handed := by
  by_cases hspawn : l = .spawnReader
  · subst hspawn
    have hminds := h.minds hs.minds
    cases h with
    | spawnReader hphase =>
        have hnone := hs.minds
        rw [hphase] at hnone
        have htaken := hs.taken hnone
        rw [hphase] at htaken
        obtain ⟨rfl, hread⟩ := htaken
        refine ⟨hminds, JoinReader.noConfusion, fun _ _ => ⟨?_, waits_nil, fun later _ => ?_⟩⟩
        · exact List.ne_nil_of_length_eq_add_one hread
        · exact heardOf_of_reply hread rfl
  · obtain ⟨hreader, haborted, hsock⟩ := h.leaves hspawn
    have hend := h.frame.2.2.2.2.1
    refine ⟨h.minds hs.minds, fun hnone => ?_, fun hlive habort => ?_⟩
    · rw [hreader] at hnone
      exact ⟨(hs.taken hnone).1, h.taken (hs.taken hnone).2 hspawn⟩
    -- the reader is there, so the reply was read before
    · rw [hreader] at hlive
      rcases hsock with ⟨byte, rfl⟩ | ⟨hread, hinbox⟩
      · exact absurd (h.reply_minds hs.minds) hlive
      · obtain ⟨hne, hwaits, hall⟩ := hs.listens hlive (haborted habort)
        refine ⟨by rwa [hread], by rwa [hreader], fun later hlater => ?_⟩
        rw [hend] at hlater
        rw [Joiner.heardOf, Socket.arrived, hreader, hread, hinbox]
        exact hall later hlater

theorem JoinReaderStep.follows {l : JoinReaderLabel} (h : JoinReaderStep X l j j')
    (htimeout : l ≠ .readTimeout) (hs : j.Follows X handed) :
    j'.Follows X (handed ++ l.hands j.reader) := by
  have hbusy := h.busy
  obtain ⟨hrunning, hminds⟩ := hs.minds.of_busy hbusy
  have hspawned : j'.reader ≠ .unspawned := by
    cases h <;> simp
  refine ⟨?_, fun hnone => absurd hnone hspawned, fun _ habort => ?_⟩
  · rw [h.frame.1]
    exact hminds _
  · have hlive : j.readerAborted = false := by
      cases h <;> exact habort
    obtain ⟨hne, hwaits, hall⟩ := hs.listens hbusy.1 hlive
    -- a reader that is cancelled is not followed any further
    have hcancel : l ≠ .cancel := by
      rintro rfl
      cases h with
      | cancel haborted =>
          rw [hlive] at haborted
          cases haborted
    obtain ⟨harrived, hend, hread⟩ := h.arrived
    refine ⟨hread hne, h.waits, fun later hlater => ?_⟩
    rw [hend] at hlater
    rw [h.total hwaits htimeout hcancel hlater, hall later hlater, harrived]

/-! ## Watching the reader -/

/-- What a step of the reader hands on. -/
def JoinerLabel.hands (j : Joiner) : JoinerLabel → List ChatEvent
  | .reader l => l.hands j.reader
  | _ => []

/-- What a step of the reader puts on the event channel. -/
def JoinerLabel.emits (j : Joiner) (l : JoinerLabel) : List ChatEvent :=
  if j.events.isOpen = true then l.hands j else []

/-- The steps of a joiner, with what its reader has emitted so far. -/
def HearStep (X : Crates) (checks : Bool) (l : JoinerLabel) (s t : Joiner × List ChatEvent) :
    Prop :=
  JoinerStep X checks l s.1 t.1 ∧ t.2 = s.2 ++ l.emits s.1

theorem JoinReaderStep.sent {l : JoinReaderLabel} (h : JoinReaderStep X l j j') :
    j'.events.sent = j.events.sent ++ JoinerLabel.emits j (.reader l) := by
  unfold JoinerLabel.emits JoinerLabel.hands
  dsimp only
  cases h with
  | emit hphase hroom =>
      rw [if_pos hroom.1, hphase, hands_emitting]
      exact Mpsc.sent_push ..
  | emitClosed _ hclosed =>
      rw [if_neg (by simp [hclosed]), List.append_nil]
  | _ => simp [hands_of_ne]

theorem JoinerStep.minds {l : JoinerLabel} (h : JoinerStep X checks l j j')
    (hs : j.main.Minds j.reader) : j'.main.Minds j'.reader := by
  cases h with
  | main h => exact h.minds hs
  | reader h =>
      rw [h.frame.1]
      exact (hs.of_busy h.busy).2 _
  | user h => cases h <;> exact hs
  | net | finish | tick => exact hs

theorem JoinerStep.follows {l : JoinerLabel} (h : JoinerStep X checks l j j')
    (htimeout : l ≠ .reader .readTimeout) (hs : j.Follows X handed) :
    j'.Follows X (handed ++ l.hands j) := by
  cases h with
  | main h =>
      show Joiner.Follows X _ (handed ++ [])
      rw [List.append_nil]
      exact h.follows hs
  | reader h => exact h.follows (fun heq => htimeout (by rw [heq])) hs
  | user h =>
      show Joiner.Follows X _ (handed ++ [])
      rw [List.append_nil]
      cases h <;> exact ⟨hs.minds, hs.taken, hs.listens⟩
  | @net _ chunk hopen =>
      show Joiner.Follows X _ (handed ++ [])
      rw [List.append_nil]
      refine ⟨hs.minds, hs.taken, fun hlive habort => ?_⟩
      obtain ⟨hne, hwaits, hall⟩ := hs.listens hlive habort
      refine ⟨hne, hwaits, fun later hlater => ?_⟩
      have hmore := hall (chunk ++ later) fun hend => by
        rw [hopen] at hend
        cases hend
      -- the reply is there already, so what arrives comes behind it
      rw [Socket.tail_arrived_arrive hne, List.append_assoc, ← hmore]
      exact heardOf_arrive
  | finish hopen =>
      show Joiner.Follows X _ (handed ++ [])
      rw [List.append_nil]
      refine ⟨hs.minds, hs.taken, fun hlive habort => ?_⟩
      obtain ⟨hne, hwaits, hall⟩ := hs.listens hlive habort
      refine ⟨hne, hwaits, fun later _ => ?_⟩
      refine hall later fun hend => ?_
      rw [hopen] at hend
      cases hend
  | tick =>
      show Joiner.Follows X _ (handed ++ [])
      rw [List.append_nil]
      exact ⟨hs.minds, hs.taken, hs.listens⟩

/-- The reader has handed on what it follows; while somebody listens, all of it is on the
event channel. -/
def JoinerHears (X : Crates) (s : Joiner × List ChatEvent) : Prop :=
  ∃ handed, s.1.Follows X handed ∧ s.2 <+: handed ∧ (s.1.events.isOpen = true → s.2 = handed)

theorem JoinerStep.events_isOpen {l : JoinerLabel} (h : JoinerStep X checks l j j')
    (hopen : j'.events.isOpen = true) : j.events.isOpen = true := by
  cases h with
  | main h => rwa [h.frame.2.2.2.1] at hopen
  | reader h => cases h <;> exact hopen
  | user h =>
      cases h with
      | closeEvents => cases hopen
      | _ => exact hopen
  | net | finish | tick => exact hopen

theorem HearStep.hears {l : JoinerLabel} {s t : Joiner × List ChatEvent}
    (h : HearStep X checks l s t) (htimeout : l ≠ .reader .readTimeout) (hs : JoinerHears X s) :
    JoinerHears X t := by
  obtain ⟨hstep, hout⟩ := h
  obtain ⟨handed, hfollows, hfront, hall⟩ := hs
  refine ⟨handed ++ l.hands s.1, hstep.follows htimeout hfollows, ?_, fun hopen => ?_⟩
  · rw [hout, JoinerLabel.emits]
    split
    · rename_i hopen
      rw [hall hopen]
    · rw [List.append_nil]
      exact hfront.trans (List.prefix_append _ _)
  · have hopen' := hstep.events_isOpen hopen
    rw [hout, JoinerLabel.emits, if_pos hopen', hall hopen']

/-- **Every run without a timeout of the reader.** -/
theorem hears_of_run {now : ℕ} {config : JoinConfig} {ls : List JoinerLabel}
    {t : Joiner × List ChatEvent}
    (hrun : Run (Guarded (HearStep X checks) fun _ l => l ≠ .reader .readTimeout)
      (Joiner.init now config, []) ls t) : JoinerHears X t := by
  refine hrun.invariant ⟨[], ⟨rfl, fun _ => ⟨rfl, rfl⟩, fun hne => absurd rfl hne⟩,
    List.prefix_refl _, fun _ => rfl⟩ ?_
  intro l u v hu hstep
  exact hstep.1.hears hstep.2 hu

/-! ## The end of the reader -/

/-- A bound on the steps the reader still takes when nothing more arrives. -/
def Joiner.rank (j : Joiner) : ℕ :=
  2 * j.sock.inbox.length + match j.reader with
    | .unspawned => 4
    | .spawned => 3
    | .reading _ _ => 2
    | .emitting _ => 3
    | .finished => 1
    | .ended => 0

/-- The steps of the reader. -/
def JoinerLabel.reads : JoinerLabel → Bool
  | .reader _ => true
  | _ => false

theorem JoinReaderStep.rank_lt {l : JoinReaderLabel} (h : JoinReaderStep X l j j') :
    j'.rank < j.rank := by
  unfold Joiner.rank
  cases h with
  | start hphase | readFail hphase | readTimeout hphase | emit hphase | emitClosed hphase
  | done hphase =>
      simp only [hphase]
      omega
  | read hphase htake | message hphase htake | skip hphase htake | malformed hphase htake =>
      have htaken := Socket.length_take_lt htake
      simp only [hphase]
      omega
  | cancel habort hspawned hlive =>
      cases hreader : j.reader with
      | unspawned => exact absurd hreader hspawned
      | ended => exact absurd hreader hlive
      | spawned | reading | emitting | finished =>
          dsimp only
          omega

theorem JoinMainStep.rank_le {l : JoinMainLabel} (h : JoinMainStep X checks l j j')
    (hs : j.main.Minds j.reader) : j'.rank ≤ j.rank := by
  by_cases hspawn : l = .spawnReader
  · subst hspawn
    cases h with
    | spawnReader hphase =>
        rw [hphase] at hs
        have hnone : j.reader = .unspawned := hs
        simp only [Joiner.rank, hnone]
        omega
  · obtain ⟨hreader, -, hsock⟩ := h.leaves hspawn
    unfold Joiner.rank
    rw [hreader]
    rcases hsock with ⟨byte, rfl⟩ | ⟨-, hinbox⟩
    · cases h with
      | reply _ htake =>
          have htaken := Socket.length_take_lt htake
          dsimp only
          omega
    · rw [hinbox]

/-- Once the stream has ended no step makes more work for the reader, and a step of the
reader makes less. -/
theorem JoinerStep.rank {l : JoinerLabel} (h : JoinerStep X checks l j j')
    (hs : j.main.Minds j.reader) (hend : j.sock.readEnd.isSome) :
    j'.rank + (if l.reads then 1 else 0) ≤ j.rank ∧ j'.sock.readEnd.isSome := by
  cases h with
  | main h =>
      refine ⟨h.rank_le hs, ?_⟩
      rw [h.frame.2.2.2.2.1]
      exact hend
  | reader h =>
      refine ⟨h.rank_lt, ?_⟩
      cases h <;> exact hend
  | user h => cases h <;> exact ⟨Nat.le_refl _, hend⟩
  | net hopen | finish hopen =>
      rw [hopen] at hend
      cases hend
  | tick => exact ⟨Nat.le_refl _, hend⟩

/-- **A reader whose stream has ended can go on until it has ended itself,** unless the
event channel is full. -/
theorem exists_joinReaderStep (hwaits : j.reader.ear.Waits wireFormat)
    (hbusy : j.reader.Busy) (hend : j.sock.readEnd.isSome) :
    (∃ l j', JoinReaderStep X l j j' ∧ l ≠ .readTimeout ∧ l ≠ .cancel) ∨
      ((∃ event, j.reader = .emitting event) ∧ eventChanCap ≤ j.events.queue.length) := by
  cases hreader : j.reader with
  | unspawned => exact absurd hreader hbusy.1
  | ended => exact absurd hreader hbusy.2
  | spawned => exact .inl ⟨_, _, .start hreader, by simp, by simp⟩
  | finished => exact .inl ⟨_, _, .done hreader, by simp, by simp⟩
  | emitting event =>
      by_cases hopen : j.events.isOpen = true
      · by_cases hroom : j.events.queue.length < eventChanCap
        · exact .inl ⟨_, _, .emit hreader ⟨hopen, hroom⟩, by simp, by simp⟩
        · exact .inr ⟨⟨event, rfl⟩, Nat.le_of_not_lt hroom⟩
      · exact .inl ⟨_, _, .emitClosed hreader (by simpa using hopen), by simp, by simp⟩
  | reading got deadline =>
      refine .inl ?_
      rw [hreader] at hwaits
      obtain ⟨k, hneeds⟩ := hwaits
      cases hinbox : j.sock.inbox with
      | nil => exact ⟨_, _, .readFail hreader ⟨hinbox, hend⟩, by simp, by simp⟩
      | cons byte rest =>
          -- one byte will do
          have htake : j.sock.CanTake [byte] := by
            refine ⟨List.cons_ne_nil _ _, ?_⟩
            rw [hinbox]
            exact ⟨rest, rfl⟩
          have hfit : [byte].length ≤ k := Format.progress_needs_pos hneeds
          cases hprogress : readFrame (got ++ [byte]) with
          | needs k' => exact ⟨_, _, .read hreader htake hneeds hfit hprogress, by simp, by simp⟩
          | failed e =>
              exact ⟨_, _, .malformed hreader htake hneeds hfit hprogress, by simp, by simp⟩
          | frame frame =>
              cases hdecode : decodeMessage X.json frame with
              | error e =>
                  exact ⟨_, _, .skip hreader htake hneeds hfit hprogress hdecode, by simp, by simp⟩
              | ok msg =>
                  exact ⟨_, _, .message hreader htake hneeds hfit hprogress hdecode,
                    by simp, by simp⟩

/-! ## Any bytes -/

/-- What the joiner's reader does with the bytes behind the reply of the hub. -/
structure JoinerReads (X : Crates) (checks : Bool) (s : Joiner × List ChatEvent) : Prop where
  front : ∀ ps, Payloads s.1.sock.arrived.tail ps → s.2 <+: (readable X.json ps).map incomingEvent
  whole : ∀ ps, Payloads s.1.sock.arrived.tail ps → s.1.events.isOpen = true →
    s.1.reader.ear = .finished → s.2 = (readable X.json ps).map incomingEvent
  bounded : s.1.sock.readEnd.isSome → ∀ ls j, Run (JoinerStep X checks) s.1 ls j →
    ls.countP JoinerLabel.reads ≤ s.1.rank
  goesOn : s.1.sock.readEnd.isSome → s.1.reader.Busy →
    (∃ l j, JoinReaderStep X l s.1 j ∧ l ≠ .readTimeout ∧ l ≠ .cancel) ∨
      ((∃ event, s.1.reader = .emitting event) ∧ eventChanCap ≤ s.1.events.queue.length)

/-- **A reader whose stream has ended takes no more steps than its rank.** -/
theorem joinReads_le_rank {ls : List JoinerLabel} (hs : j.main.Minds j.reader)
    (hend : j.sock.readEnd.isSome) (hrun : Run (JoinerStep X checks) j ls j') :
    ls.countP JoinerLabel.reads ≤ j.rank := by
  have hall : j'.main.Minds j'.reader ∧ j'.sock.readEnd.isSome ∧
      j'.rank + ls.countP JoinerLabel.reads ≤ j.rank := by
    refine hrun.history (I := fun ls j' => j'.main.Minds j'.reader ∧ j'.sock.readEnd.isSome ∧
      j'.rank + ls.countP JoinerLabel.reads ≤ j.rank) ⟨hs, hend, Nat.le_refl _⟩ ?_
    rintro ls l u v ⟨hu, hend, hle⟩ hstep
    obtain ⟨hrank, hend'⟩ := hstep.rank hu hend
    refine ⟨hstep.minds hu, hend', ?_⟩
    rw [List.countP_append, List.countP_singleton]
    omega
  omega

theorem joinerReads_of_run {now : ℕ} {config : JoinConfig} {ls : List JoinerLabel}
    {t : Joiner × List ChatEvent}
    (hrun : Run (Guarded (HearStep X checks) fun _ l => l ≠ .reader .readTimeout)
      (Joiner.init now config, []) ls t)
    (hspawned : t.1.reader ≠ .unspawned) (habort : t.1.readerAborted = false) :
    JoinerReads X checks t := by
  obtain ⟨handed, hfollows, hfront, hall⟩ := hears_of_run hrun
  obtain ⟨-, hwaits, htotal⟩ := hfollows.listens hspawned habort
  -- what was handed on and what is ahead are the messages of the stream
  have hstream : ∀ ps, Payloads t.1.sock.arrived.tail ps →
      handed ++ t.1.reader.ear.ahead wireFormat (incoming X) t.1.sock.inbox =
        (readable X.json ps).map incomingEvent := by
    intro ps hps
    have hnow := htotal [] fun _ => rfl
    rw [Joiner.heardOf, Listener.total, List.append_nil, List.append_nil] at hnow
    rw [hnow, incoming, hps.heard_readAll]
  refine ⟨?_, ?_, ?_, ?_⟩
  · intro ps hps
    rw [← hstream ps hps]
    exact hfront.trans (List.prefix_append _ _)
  · intro ps hps hopen hfinished
    rw [← hstream ps hps, hall hopen, hfinished]
    exact (List.append_nil _).symm
  · intro hend ls j hrun
    exact joinReads_le_rank hfollows.minds hend hrun
  · intro hend hbusy
    exact exists_joinReaderStep hwaits hbusy hend

end Nullpipe

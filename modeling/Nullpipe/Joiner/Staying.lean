import Nullpipe.Joiner.Writing

/-!
# A joiner that stays

What keeps the write loop going: nobody quits, no write fails, the reader goes on, the
texts fit a frame, and the user listens.  Each of these is a condition on labels or on one
step (`JoinMainLabel.Fails`, `JoinReaderLabel.GivesUp`, `JoinUserLabel.Leaves`,
`TakesFitting`), and `Joiner.Stays` is what they keep.

`JoinMain.Over` are the places behind the loop, and nothing leads back from there
(`JoinerStep.over`): what a joiner has written by then is all it ever writes.
-/

namespace Nullpipe

open Channel Transition

variable {X : Crates} {checks : Bool} {j j' : Joiner}

/-! ## The end of the write loop -/

/-- The write loop sends no text any more. -/
def JoinMain.Over : JoinMain → Prop
  | .drain _ | .flushPending | .abortReader _ | .awaitReader _ | .emitError _ | .emitClosed
  | .ended => True
  | _ => False

theorem JoinMainStep.over {l : JoinMainLabel} (h : JoinMainStep X checks l j j')
    (hover : j.main.Over) : j'.main.Over ∧ j'.sock.written = j.sock.written := by
  cases h with
  | drained | flushed | abortReader | emitError | emitClosed => exact ⟨trivial, rfl⟩
  | drainText => exact ⟨by simpa using hover, by simp⟩
  | flushEvent => exact ⟨hover, rfl⟩
  | @awaitReader _ result =>
      refine ⟨?_, rfl⟩
      cases result <;> trivial
  | _ hphase =>
      rw [hphase] at hover
      cases hover

/-- **What is behind the write loop stays there and writes nothing.** -/
theorem JoinerStep.over {l : JoinerLabel} (h : JoinerStep X checks l j j') (hover : j.main.Over) :
    j'.main.Over ∧ j'.sock.written = j.sock.written := by
  by_cases hmain : ∃ l', l = .main l'
  · obtain ⟨l', rfl⟩ := hmain
    cases h with
    | main h => exact h.over hover
  · push Not at hmain
    obtain ⟨hphase, -, hwritten⟩ := h.main_frame hmain
    exact ⟨hphase ▸ hover, hwritten⟩

/-! ## Staying in it -/

/-- A joiner whose write loop and reader go on. -/
structure Joiner.Stays (j : Joiner) : Prop where
  calm : j.shutdown = false
  handles : j.sendOpen = true
  listens : j.events.isOpen = true
  stream : j.sock.readEnd = none
  live : j.reader ≠ .finished ∧ j.reader ≠ .ended
  undone : j.readerDone = false
  spared : j.readerAborted = false
  runs : ¬ j.main.Over

/-- A write of the joiner fails. -/
def JoinMainLabel.Fails : JoinMainLabel → Prop
  | .writeFail _ | .writeTimeout | .flushFail _ | .flushTimeout => True
  | _ => False

/-- The joiner's reader gives up. -/
def JoinReaderLabel.GivesUp : JoinReaderLabel → Prop
  | .malformed _ | .readTimeout => True
  | _ => False

/-- The joiner's user leaves. -/
def JoinUserLabel.Leaves : JoinUserLabel → Prop
  | .quit | .dropSend | .closeEvents => True
  | _ => False

/-- The texts the joiner takes fit a frame. -/
def TakesFitting (X : Crates) (j : Joiner) (l : JoinMainLabel) : Prop :=
  ∀ me text, l = .takeText text → j.main = .select me → Encodes X.json (.chat me.name text)

/-- What no step of the main task touches. -/
theorem JoinMainStep.frame {l : JoinMainLabel} (h : JoinMainStep X checks l j j') :
    j'.now = j.now ∧ j'.shutdown = j.shutdown ∧ j'.sendOpen = j.sendOpen ∧
      j'.events.isOpen = j.events.isOpen ∧ j'.sock.readEnd = j.sock.readEnd ∧
      j'.readerDone = j.readerDone := by
  cases h with
  | echo | drainText =>
      unfold tryEmit
      split <;> exact ⟨rfl, rfl, rfl, rfl, rfl, rfl⟩
  | emitJoin | emitError | emitClosed => exact ⟨rfl, rfl, rfl, Mpsc.isOpen_trySend .., rfl, rfl⟩
  | _ => exact ⟨rfl, rfl, rfl, rfl, rfl, rfl⟩

/-- Only the transport adds to what has arrived. -/
theorem JoinerStep.arrived {l : JoinerLabel} (h : JoinerStep X checks l j j')
    (hl : ∀ chunk, l ≠ .net chunk) : j'.sock.arrived = j.sock.arrived := by
  cases h with
  | main h =>
      cases h with
      | reply _ htake => exact Socket.arrived_take htake
      | echo | drainText => simp
      | _ => rfl
  | reader h =>
      cases h with
      | read _ htake | message _ htake | skip _ htake | malformed _ htake =>
          exact Socket.arrived_take htake
      | _ => rfl
  | user h => cases h <;> rfl
  | net => exact absurd rfl (hl _)
  | finish | tick => rfl

/-- The write loop goes on, and so does the reader. -/
theorem JoinMainStep.runs {l : JoinMainLabel} (h : JoinMainStep X checks l j j')
    (hl : ¬ l.Fails) (hfits : TakesFitting X j l) (hs : j.Stays) :
    ¬ j'.main.Over ∧ j'.readerAborted = false ∧ (j'.reader = j.reader ∨ j'.reader = .spawned) := by
  have hruns := hs.runs
  have hspared := hs.spared
  cases h with
  | writeFail | writeTimeout | flushFail | flushTimeout => exact absurd trivial hl
  | connected | connectFailed | replyFail | replyTimeout | emitJoin | sendError
  | sendErrorClosed => exact ⟨id, hspared, .inl rfl⟩
  | decode =>
      refine ⟨?_, hspared, .inl rfl⟩
      rcases decodeInvite X checks j.config.inviteCode (some joinTtl) j.timestamp with _ | _ | _ <;>
        exact id
  | write hphase =>
      refine ⟨?_, hspared, .inl rfl⟩
      dsimp only
      split <;> exact id
  | @flush _ _ what =>
      refine ⟨?_, hspared, .inl rfl⟩
      cases what <;> exact id
  | reply =>
      refine ⟨?_, hspared, .inl rfl⟩
      dsimp only [afterReply]
      split
      · exact id
      · split <;> exact id
  | spawnReader => exact ⟨id, hspared, .inr rfl⟩
  | shutdown _ hshutdown =>
      rw [hs.calm] at hshutdown
      cases hshutdown
  | readerDone _ _ hdone =>
      rw [hs.undone] at hdone
      cases hdone
  | takeText hphase =>
      refine ⟨?_, hspared, .inl rfl⟩
      -- a text that fits is written, so the joiner does not give up
      rw [afterText, (hfits _ _ rfl hphase).encodeMessage]
      exact id
  | inputClosed _ _ _ _ hclosed =>
      rw [hs.handles] at hclosed
      cases hclosed
  | eventsClosed _ _ _ _ _ hclosed =>
      rw [hs.listens] at hclosed
      cases hclosed
  | echo =>
      unfold tryEmit
      split <;> exact ⟨id, hspared, .inl rfl⟩
  | drainText hphase | drained hphase | flushEvent hphase | flushed hphase | abortReader hphase
  | awaitReader hphase | emitError hphase | emitClosed hphase =>
      rw [hphase] at hruns
      exact absurd trivial hruns

theorem JoinMainStep.stays {l : JoinMainLabel} (h : JoinMainStep X checks l j j')
    (hl : ¬ l.Fails) (hfits : TakesFitting X j l) (hs : j.Stays) : j'.Stays := by
  obtain ⟨-, hshutdown, hopen, hevents, hend, hdone⟩ := h.frame
  obtain ⟨hruns, hspared, hreader⟩ := h.runs hl hfits hs
  refine ⟨hshutdown.trans hs.calm, hopen.trans hs.handles, hevents.trans hs.listens,
    hend.trans hs.stream, ?_, hdone.trans hs.undone, hspared, hruns⟩
  rcases hreader with hsame | hspawned
  · rw [hsame]
    exact hs.live
  · rw [hspawned]
    exact ⟨nofun, nofun⟩

theorem JoinReaderStep.stays {l : JoinReaderLabel} (h : JoinReaderStep X l j j')
    (hl : ¬ l.GivesUp) (hs : j.Stays) : j'.Stays := by
  cases h with
  | start | read | message | skip | emit | emitClosed => exact { hs with live := ⟨nofun, nofun⟩ }
  | malformed | readTimeout => exact absurd trivial hl
  | readFail _ hend =>
      have hclosed := hend.2
      rw [hs.stream] at hclosed
      cases hclosed
  | done hphase => exact absurd hphase hs.live.1
  | cancel haborted =>
      rw [hs.spared] at haborted
      cases haborted

theorem JoinUserStep.stays {l : JoinUserLabel} (h : JoinUserStep l j j') (hl : ¬ l.Leaves)
    (hs : j.Stays) : j'.Stays := by
  cases h with
  | send | takeEvent => exact { hs with }
  | quit | dropSend | closeEvents => exact absurd trivial hl

theorem Joiner.Stays.init (now : ℕ) (config : JoinConfig) : (Joiner.init now config).Stays :=
  ⟨rfl, rfl, rfl, rfl, ⟨nofun, nofun⟩, rfl, rfl, id⟩

end Nullpipe

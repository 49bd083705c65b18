import Nullpipe.Session.Script

/-!
# What a joiner writes

`JoinMain.Spoken` reads off the place of `joiner_task` what it has written so far:
a front part of the script of one joiner, cut where the place says.  The texts of the
script are those the write loop has taken from its queue.  One that does not fit a
frame contributes nothing to the script, as `frameBytes` is empty for it.

* While the task writes `what`, the stream and the rest of `what` make up the script up to it
  (`Guest.upTo`), so that the end of the write needs no argument.
* Once a write has failed, or timed out, the stream ends somewhere within it.  All that is said
  then is that it is a front part of the script, and not shorter than what had been flushed
  before (`Guest.Within`, `Guest.before`).

`JoinMainStep.spoken` is the step lemma; where the source computes the next place, a lemma of
its own says what is spoken there (`spoken_afterReply`, `spoken_afterFlush`,
`spoken_afterFailure`, `spoken_afterText`).  The discriminator is drawn in the step that gives
the joiner its stream.  So a joiner without one speaks as any guest, and
`JoinMainStep.spoken_connected` is the step at which that ends.
-/

namespace Nullpipe

open Channel Framing Transition

variable {X : Crates} {checks : Bool} {me : Guest} {j j' : Joiner} {ls : List JoinerLabel}

/-! ## Place and stream -/

/-- What a joiner that has taken `texts` has written when `what` is complete. -/
def Guest.upTo (X : Crates) (me : Guest) (texts : List String) : JoinWrite → List UInt8
  | .hello => me.hello
  | .name => me.script X []
  | .text _ => me.script X (me.messages texts)

/-- What a joiner is certain to have written before it starts on `what`. -/
def Guest.before (X : Crates) (me : Guest) : JoinWrite → List UInt8
  | .hello => []
  | .name => me.hello
  | .text _ => me.script X []

/-- A joiner that has introduced itself has written the script of `texts`, or a part of
it that ends behind the name. -/
structure Guest.Within (X : Crates) (me : Guest) (texts : List String) (written : List UInt8) :
    Prop where
  name : Encodes X.json (.system me.name)
  low : me.script X [] <+: written
  high : written <+: me.script X (me.messages texts)

/-- What is known when `what` is being written. -/
def JoinWrite.Begun (X : Crates) (me : Guest) (texts : List String) : JoinWrite → Prop
  | .hello => texts = []
  | .name => texts = [] ∧ Encodes X.json (.system me.name)
  | .text last => (∃ before, texts = before ++ [last]) ∧ Encodes X.json (.system me.name) ∧
      Encodes X.json (.chat me.name last)

/-- A joiner `me` that has taken `texts` has written `written`. -/
def JoinMain.Spoken (X : Crates) (me : Guest) (texts : List String) (written : List UInt8) :
    JoinMain → Prop
  | .connect | .connecting _ | .panicked => texts = [] ∧ written = []
  | .writing who what rest _ =>
    who = me ∧ what.Begun X me texts ∧ me.before X what <+: written ∧
      written ++ rest = me.upTo X texts what
  | .flushing who what _ => who = me ∧ what.Begun X me texts ∧ written = me.upTo X texts what
  | .readReply who _ => who = me ∧ texts = [] ∧ written = me.hello
  | .emitJoin who | .spawnReader who =>
    who = me ∧ texts = [] ∧ Encodes X.json (.system me.name) ∧ written = me.script X []
  | .select who | .echo who _ =>
    who = me ∧ Encodes X.json (.system me.name) ∧ written = me.script X (me.messages texts)
  | .drain who => who = me ∧ me.Within X texts written
  | .flushPending | .abortReader _ | .awaitReader _ | .emitError _ | .emitClosed | .ended =>
    me.Within X texts written
  | .sendError _ | .failed _ => texts = [] ∧ written <+: me.script X []

/-- What the joiner has written agrees with its place. -/
def Joiner.Spoken (X : Crates) (me : Guest) (j : Joiner) : Prop :=
  j.main.Spoken X me j.messages.received j.sock.written

theorem Guest.hello_prefix_script (X : Crates) (me : Guest) (msgs : List WireMessage) :
    me.hello <+: me.script X msgs := by
  rw [script_split]
  exact List.prefix_append ..

theorem Guest.upTo_prefix (X : Crates) (me : Guest) (texts : List String) (what : JoinWrite) :
    me.upTo X texts what <+: me.script X (me.messages texts) := by
  cases what with
  | hello => exact hello_prefix_script ..
  | name => exact script_prefix List.nil_prefix
  | text => exact List.prefix_refl _

theorem Guest.before_prefix_upTo (X : Crates) (me : Guest) (texts : List String)
    (what : JoinWrite) : me.before X what <+: me.upTo X texts what := by
  cases what with
  | hello => exact List.nil_prefix
  | name => exact hello_prefix_script ..
  | text => exact script_prefix List.nil_prefix

/-- The whole script is within it. -/
theorem Guest.Within.of_eq {texts : List String} {written : List UInt8}
    (hname : Encodes X.json (.system me.name))
    (hwritten : written = me.script X (me.messages texts)) : me.Within X texts written := by
  subst hwritten
  exact ⟨hname, script_prefix List.nil_prefix, List.prefix_refl _⟩

/-- Whatever the place, what is written is a front part of the script. -/
theorem JoinMain.Spoken.prefix {main : JoinMain} {texts : List String} {written : List UInt8}
    (h : main.Spoken X me texts written) : written <+: me.script X (me.messages texts) := by
  cases main with
  | connect | connecting | panicked =>
      rw [h.2]
      exact List.nil_prefix
  | writing _ _ rest =>
      have hpart : written <+: written ++ rest := List.prefix_append ..
      rw [h.2.2.2] at hpart
      exact hpart.trans (Guest.upTo_prefix ..)
  | flushing =>
      rw [h.2.2]
      exact Guest.upTo_prefix ..
  | readReply =>
      rw [h.2.2]
      exact Guest.hello_prefix_script ..
  | emitJoin | spawnReader =>
      rw [h.2.2.2]
      exact Guest.script_prefix List.nil_prefix
  | select | echo => rw [h.2.2]
  | drain => exact h.2.high
  | flushPending | abortReader | awaitReader | emitError | emitClosed | ended => exact h.high
  | sendError | failed => exact h.2.trans (Guest.script_prefix List.nil_prefix)

/-! ## Steps -/

@[simp] theorem sock_tryEmit (j : Joiner) (event : ChatEvent) :
    (tryEmit j event).sock = j.sock := by
  unfold tryEmit
  split <;> rfl

@[simp] theorem messages_tryEmit (j : Joiner) (event : ChatEvent) :
    (tryEmit j event).messages = j.messages := by
  unfold tryEmit
  split <;> rfl

@[simp] theorem main_tryEmit (j : Joiner) (event : ChatEvent) :
    (tryEmit j event).main = j.main := by
  unfold tryEmit
  split <;> rfl

@[simp] theorem reader_tryEmit (j : Joiner) (event : ChatEvent) :
    (tryEmit j event).reader = j.reader := by
  unfold tryEmit
  split <;> rfl

@[simp] theorem config_tryEmit (j : Joiner) (event : ChatEvent) :
    (tryEmit j event).config = j.config := by
  unfold tryEmit
  split <;> rfl

theorem spoken_afterReply {byte : UInt8} {now : ℕ} :
    (afterReply X.json me byte now).Spoken X me [] me.hello := by
  unfold afterReply
  split
  · exact ⟨rfl, Guest.hello_prefix_script ..⟩
  · cases hencode : encodeMessage X.json (.system me.name) with
    | error e => exact ⟨rfl, Guest.hello_prefix_script ..⟩
    | ok frame =>
        obtain ⟨hfits, hframe⟩ := encodes_of_encodeMessage hencode
        refine ⟨rfl, ⟨rfl, hfits⟩, List.prefix_refl _, ?_⟩
        rw [Guest.upTo, Guest.script_split, hframe]
        simp

theorem spoken_afterFlush {what : JoinWrite} {texts : List String} {now : ℕ}
    (hbegun : what.Begun X me texts) :
    (afterFlush me now what).Spoken X me texts (me.upTo X texts what) := by
  cases what with
  | hello => exact ⟨rfl, hbegun, rfl⟩
  | name => exact ⟨rfl, hbegun.1, hbegun.2, rfl⟩
  | text => exact ⟨rfl, hbegun.2.1, rfl⟩

/-- A failed write leaves a front part of what was to be written. -/
theorem spoken_afterFailure {e : ChatError} {what : JoinWrite} {texts : List String}
    {written : List UInt8} (hbegun : what.Begun X me texts) (hfront : me.before X what <+: written)
    (hpart : written <+: me.upTo X texts what) :
    (afterFailure e what).Spoken X me texts written := by
  cases what with
  | hello => exact ⟨hbegun, hpart.trans (Guest.hello_prefix_script ..)⟩
  | name => exact ⟨hbegun.1, hpart⟩
  | text => exact ⟨hbegun.2.1, hfront, hpart⟩

/-- A text that fits is written next; one that does not adds nothing to the script. -/
theorem spoken_afterText {texts : List String} {text : String} {now : ℕ}
    (hname : Encodes X.json (.system me.name)) :
    (afterText X.json me text now).Spoken X me (texts ++ [text])
      (me.script X (me.messages texts)) := by
  have hscript : me.script X (me.messages (texts ++ [text])) =
      me.script X (me.messages texts) ++ frameBytes X.json (.chat me.name text) := by
    rw [Guest.messages_append, Guest.script_append]
    simp [Guest.messages]
  unfold afterText
  cases hencode : encodeMessage X.json (.chat me.name text) with
  | error e =>
      refine ⟨hname, Guest.script_prefix List.nil_prefix, ?_⟩
      rw [hscript]
      exact List.prefix_append ..
  | ok frame =>
      obtain ⟨hfits, hframe⟩ := encodes_of_encodeMessage hencode
      refine ⟨rfl, ⟨⟨texts, rfl⟩, hname, hfits⟩, Guest.script_prefix List.nil_prefix, ?_⟩
      rw [Guest.upTo, hscript, hframe]

theorem spoken_afterDecode (result : Option (Except ChatError InvitePayload)) :
    (afterDecode result).Spoken X me [] [] := by
  rcases result with _ | _ | _
  · exact ⟨rfl, rfl⟩
  · exact ⟨rfl, List.nil_prefix⟩
  · exact ⟨rfl, rfl⟩

/-- The texts received after one more is taken. -/
theorem received_pop {text : String} {rest : List String}
    (hqueue : j.messages.queue = text :: rest) :
    j.messages.pop.received = j.messages.received ++ [text] := by
  rw [Mpsc.pop_of_queue hqueue]

/-- **Step lemma.**  Every step of `joiner_task` keeps to the script; the one that
makes the joiner known is `JoinMainStep.spoken_connected`. -/
theorem JoinMainStep.spoken {l : JoinMainLabel} (h : JoinMainStep X checks l j j')
    (hl : ∀ d, l ≠ .connected d) (hs : j.Spoken X me) : j'.Spoken X me := by
  unfold Joiner.Spoken at hs ⊢
  cases h with
  | decode hphase =>
      rw [hphase] at hs
      rw [hs.1, hs.2]
      exact spoken_afterDecode _
  | @connected _ _ d => exact absurd rfl (hl d)
  | connectFailed hphase =>
      rw [hphase] at hs
      exact ⟨hs.1, hs.2 ▸ List.nil_prefix⟩
  | @write _ _ _ _ rest _ hphase =>
      rw [hphase] at hs
      obtain ⟨rfl, hbegun, hfront, hwritten⟩ := hs
      rw [← List.append_assoc] at hwritten
      rw [Socket.written_write]
      by_cases hrest : rest = []
      · rw [if_pos hrest]
        rw [hrest, List.append_nil] at hwritten
        exact ⟨rfl, hbegun, hwritten⟩
      · rw [if_neg hrest]
        exact ⟨rfl, hbegun, hfront.trans (List.prefix_append ..), hwritten⟩
  | writeFail hphase | writeTimeout hphase =>
      rw [hphase] at hs
      obtain ⟨rfl, hbegun, hfront, hwritten⟩ := hs
      exact spoken_afterFailure hbegun hfront (hwritten ▸ List.prefix_append ..)
  | flush hphase =>
      rw [hphase] at hs
      obtain ⟨rfl, hbegun, hwritten⟩ := hs
      rw [Socket.written_flush, hwritten]
      exact spoken_afterFlush hbegun
  | flushFail hphase | flushTimeout hphase =>
      rw [hphase] at hs
      obtain ⟨rfl, hbegun, hwritten⟩ := hs
      exact spoken_afterFailure hbegun (hwritten ▸ Guest.before_prefix_upTo ..)
        (hwritten ▸ List.prefix_refl _)
  | reply hphase =>
      rw [hphase] at hs
      obtain ⟨rfl, htexts, hwritten⟩ := hs
      rw [Socket.written_take, htexts, hwritten]
      exact spoken_afterReply
  | replyFail hphase | replyTimeout hphase =>
      rw [hphase] at hs
      obtain ⟨rfl, htexts, hwritten⟩ := hs
      exact ⟨htexts, hwritten ▸ Guest.hello_prefix_script ..⟩
  | emitJoin hphase =>
      rw [hphase] at hs
      exact hs
  | spawnReader hphase =>
      rw [hphase] at hs
      obtain ⟨rfl, htexts, hname, hwritten⟩ := hs
      exact ⟨rfl, hname, htexts ▸ hwritten⟩
  | shutdown hphase | readerDone hphase | inputClosed hphase =>
      rw [hphase] at hs
      obtain ⟨rfl, hname, hwritten⟩ := hs
      exact ⟨rfl, .of_eq hname hwritten⟩
  | takeText hphase _ _ hqueue =>
      rw [hphase] at hs
      obtain ⟨rfl, hname, hwritten⟩ := hs
      rw [received_pop hqueue, hwritten]
      exact spoken_afterText hname
  | eventsClosed hphase =>
      rw [hphase] at hs
      exact .of_eq hs.2.1 hs.2.2
  | echo hphase =>
      rw [hphase] at hs
      simp only [sock_tryEmit, messages_tryEmit]
      exact hs
  | drainText hphase hqueue =>
      -- the texts that are drained are shown to the user and never written
      rw [hphase] at hs
      obtain ⟨rfl, hname, hlow, hhigh⟩ := hs
      simp only [sock_tryEmit, main_tryEmit, received_pop hqueue, hphase]
      refine ⟨rfl, hname, hlow, hhigh.trans (Guest.script_prefix ?_)⟩
      rw [Guest.messages_append]
      exact List.prefix_append ..
  | drained hphase =>
      rw [hphase] at hs
      exact hs.2
  | flushEvent hphase =>
      exact hs
  | flushed hphase | abortReader hphase | emitError hphase | emitClosed hphase =>
      rw [hphase] at hs
      exact hs
  | @awaitReader _ result hphase =>
      rw [hphase] at hs
      cases result <;> exact hs
  | sendError hphase | sendErrorClosed hphase =>
      rw [hphase] at hs
      exact hs

/-- The stream is there, and the joiner is known from now on. -/
theorem JoinMainStep.spoken_connected {d : Bytes16}
    (h : JoinMainStep X checks (.connected d) j j') (hs : j.Spoken X me) :
    ∃ payload, j.main = .connecting payload ∧
      j'.Spoken X ⟨effectiveName j.config payload, payload.nonce, d⟩ := by
  unfold Joiner.Spoken at hs ⊢
  cases h with
  | @connected _ payload _ hphase =>
      rw [hphase] at hs
      refine ⟨payload, hphase, rfl, hs.1, List.nil_prefix, ?_⟩
      rw [hs.2]
      rfl

/-- What is written stays written. -/
theorem JoinMainStep.written {l : JoinMainLabel} (h : JoinMainStep X checks l j j') :
    j.sock.written <+: j'.sock.written := by
  cases h with
  | write => exact List.prefix_append ..
  | echo | drainText => rw [sock_tryEmit]
  | _ => exact List.prefix_refl _

/-- Only `joiner_task` moves `joiner_task`, takes texts and writes. -/
theorem JoinerStep.main_frame {l : JoinerLabel} (h : JoinerStep X checks l j j')
    (hl : ∀ l', l ≠ .main l') : j'.main = j.main ∧
      j'.messages.received = j.messages.received ∧ j'.sock.written = j.sock.written := by
  cases h with
  | main => exact absurd rfl (hl _)
  | reader h => cases h <;> exact ⟨rfl, rfl, rfl⟩
  | user h => cases h <;> exact ⟨rfl, rfl, rfl⟩
  | net | finish | tick => exact ⟨rfl, rfl, rfl⟩

theorem JoinerStep.config {l : JoinerLabel} (h : JoinerStep X checks l j j') :
    j'.config = j.config := by
  cases h with
  | main h =>
      cases h with
      | echo | drainText => exact config_tryEmit ..
      | _ => rfl
  | reader h => cases h <;> rfl
  | user h => cases h <;> rfl
  | net | finish | tick => rfl

theorem JoinerStep.spoken {l : JoinerLabel} (h : JoinerStep X checks l j j')
    (hl : ∀ d, l ≠ .main (.connected d)) (hs : j.Spoken X me) : j'.Spoken X me := by
  by_cases hmain : ∃ l', l = .main l'
  · obtain ⟨l', rfl⟩ := hmain
    cases h with
    | main h => exact h.spoken (fun d heq => hl d (heq ▸ rfl)) hs
  · push Not at hmain
    obtain ⟨hphase, hreceived, hwritten⟩ := h.main_frame hmain
    unfold Joiner.Spoken
    rwa [hphase, hreceived, hwritten]

theorem Joiner.Spoken.init (X : Crates) (me : Guest) (now : ℕ) (config : JoinConfig) :
    (Joiner.init now config).Spoken X me := ⟨rfl, rfl⟩

end Nullpipe

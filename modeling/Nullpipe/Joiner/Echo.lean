import Nullpipe.Joiner.Events
import Mathlib.Data.List.Perm.Subperm

/-!
# What a joiner shows as sent

The write loop shows its user a text of his own once the frame is written and flushed.
What the event channel does not take is kept back and shown when the loop ends.  The
loop ends by taking what is still queued, and shows that as well, though none of it is
written: `shown_is_sent` holds up to there, and `drained_text_not_sent` is the text that
is only shown.

`EchoStep` runs a joiner with the texts its main task has shown so far.  What it has sent is
read off the bytes: `sentTexts` decodes the whole frames behind the introduction.

* `Guest.HasSent` says that the frames of certain texts are in the stream; what is written
  later does not take them away (`Guest.HasSent.mono`), whatever part of a frame it ends in.
* `JoinMain.Echoed` is the invariant by the place of the main task: of the texts it has taken
  all are sent but the one it is busy with, and what is shown or kept back is among them.
  While a text waits to be shown it is sent and not yet among those.
* `JoinMainStep.shows` says what a step shows; only the step that echoes a text adds one.

The order does not matter here, and it is not kept: a text that was kept back may be shown
behind a later one.  So the lists are compared as multisets (`List.Subperm`), and
`Joiner/Ordering.lean` is about the order.
-/

namespace Nullpipe

open Channel Framing Transition

variable {X : Crates} {checks : Bool} {me : Guest} {j j' : Joiner} {ls : List JoinerLabel}
  {texts shown seen : List String} {written : List UInt8}

/-! ## Shown and sent -/

/-- The text of a `Message` event. -/
def ChatEvent.text? : ChatEvent → Option String
  | .message _ _ text => some text
  | _ => none

/-- The texts that a step of the main task puts on the event channel. -/
def JoinerLabel.shows (j j' : Joiner) : JoinerLabel → List String
  | .main _ => (j'.events.sent.drop j.events.sent.length).filterMap ChatEvent.text?
  | _ => []

/-- The steps of a joiner, with the texts its main task has shown so far. -/
def EchoStep (X : Crates) (checks : Bool) (l : JoinerLabel) (s t : Joiner × List String) : Prop :=
  JoinerStep X checks l s.1 t.1 ∧ t.2 = s.2 ++ l.shows s.1 t.1

/-- The texts of the whole frames a joiner has written behind its handshake and its
name. -/
def sentTexts (json : SerdeJson) (written : List UInt8) : List String :=
  ((streamMessages json (written.drop handshakeLen)).drop 1).map WireMessage.text

/-- The drain at the end of the write loop takes no text. -/
def NothingDrained (_ : Joiner × List String) (l : JoinerLabel) : Prop :=
  ∀ text, l ≠ .main (.drainText text)

/-- Every run of a joiner shows some texts. -/
theorem exists_echoRun (shown : List String) (hrun : Run (JoinerStep X checks) j ls j') :
    ∃ shown', Run (EchoStep X checks) (j, shown) ls (j', shown') := by
  induction hrun with
  | nil => exact ⟨shown, .nil⟩
  | @snoc t u _ l _ hstep ih =>
      obtain ⟨shown', hrun⟩ := ih
      exact ⟨shown' ++ l.shows t u, hrun.snoc ⟨hstep, rfl⟩⟩

/-- The joiner has written its name and the frames of `sent`. -/
structure Guest.HasSent (X : Crates) (me : Guest) (written : List UInt8) (sent : List String) :
    Prop where
  name : Encodes X.json (.system me.name)
  fits : ∀ text ∈ sent, Encodes X.json (.chat me.name text)
  script : me.script X (me.messages sent) <+: written

theorem Guest.HasSent.mono {written' : List UInt8} (h : me.HasSent X written texts)
    (hwritten : written <+: written') : me.HasSent X written' texts :=
  { h with script := h.script.trans hwritten }

/-- Behind the frames of `texts` there may be more. -/
theorem sentTexts_script (hname : Encodes X.json (.system me.name))
    (hfits : ∀ text ∈ texts, Encodes X.json (.chat me.name text)) (rest : List UInt8) :
    sentTexts X.json (me.script X (me.messages texts) ++ rest) =
      texts ++ (streamMessages X.json rest).map WireMessage.text := by
  have hall : ∀ msg ∈ WireMessage.system me.name :: me.messages texts, Encodes X.json msg := by
    intro msg hmem
    rcases List.mem_cons.mp hmem with rfl | hmem
    · exact hname
    · obtain ⟨text, htext, rfl⟩ := List.mem_map.mp hmem
      exact hfits text htext
  have hdrop : (me.script X (me.messages texts) ++ rest).drop handshakeLen =
      (WireMessage.system me.name :: me.messages texts).flatMap (frameBytes X.json) ++ rest := by
    rw [Guest.script_split, List.append_assoc, List.drop_left' me.length_hello, List.flatMap_cons]
  have htexts : (me.messages texts).map WireMessage.text = texts := by
    rw [Guest.messages, List.map_map]
    exact List.map_id _
  rw [sentTexts, hdrop, streamMessages_flatMap hall, List.cons_append, List.drop_one,
    List.tail_cons, List.map_append, htexts]

/-- The frames of what was sent are there. -/
theorem Guest.HasSent.prefix_sentTexts (h : me.HasSent X written texts) :
    texts <+: sentTexts X.json written := by
  obtain ⟨rest, rfl⟩ := h.script
  rw [sentTexts_script h.name h.fits]
  exact List.prefix_append ..

/-! ## The events of a step -/

/-- The texts of the events that are kept back. -/
def Joiner.keptTexts (j : Joiner) : List String := j.pending.filterMap ChatEvent.text?

theorem shows_of_events_eq {l : JoinerLabel} (hevents : j'.events = j.events) :
    l.shows j j' = [] := by
  cases l <;> simp [JoinerLabel.shows, hevents]

theorem shows_of_push {l : JoinMainLabel} {ev : ChatEvent}
    (hevents : j'.events = j.events.push ev) :
    (JoinerLabel.main l).shows j j' = ev.text?.toList := by
  rw [JoinerLabel.shows, hevents, Mpsc.sent_push, List.drop_left]
  cases ev <;> rfl

theorem shows_of_trySend {l : JoinMainLabel} {ev : ChatEvent} (htext : ev.text? = none)
    (hevents : j'.events = j.events.trySend eventChanCap ev) :
    (JoinerLabel.main l).shows j j' = [] := by
  rcases Mpsc.trySend_cases eventChanCap j.events ev with hpush | hsame
  · rw [shows_of_push (hevents.trans hpush), htext]
    rfl
  · exact shows_of_events_eq (hevents.trans hsame)

/-- A step that shows nothing, and at most drops what is kept back. -/
theorem seen_of_silent {l : JoinerLabel} (hshows : l.shows j j' = [])
    (hpending : j'.pending.Sublist j.pending) :
    (l.shows j j' ++ j'.keptTexts).Subperm j.keptTexts := by
  rw [hshows]
  exact (hpending.filterMap _).subperm

/-- `try_emit` shows an event or keeps it back. -/
theorem seen_of_tryEmit {l : JoinMainLabel} {ev : ChatEvent}
    (hevents : j'.events = (tryEmit j ev).events) (hpending : j'.pending = (tryEmit j ev).pending) :
    ((JoinerLabel.main l).shows j j' ++ j'.keptTexts).Perm (j.keptTexts ++ ev.text?.toList) := by
  by_cases hroom : j.events.HasRoom eventChanCap
  · rw [tryEmit, if_pos hroom] at hevents hpending
    have hshows : (JoinerLabel.main l).shows j j' = ev.text?.toList := shows_of_push hevents
    rw [hshows, Joiner.keptTexts, hpending]
    exact List.perm_append_comm
  · rw [tryEmit, if_neg hroom] at hevents hpending
    have hshows : (JoinerLabel.main l).shows j j' = [] := shows_of_events_eq hevents
    rw [hshows, Joiner.keptTexts, hpending, List.filterMap_append]
    cases ev <;> exact List.Perm.refl _

/-- What is shown or kept back after a step of the main task: the text that is echoed
is added, and nothing else. -/
theorem JoinMainStep.shows {l : JoinMainLabel} (h : JoinMainStep X checks l j j')
    (hl : ∀ text, l ≠ .drainText text) :
    (∃ me text, j.main = .echo me text ∧ j'.main = .select me ∧
      ((JoinerLabel.main l).shows j j' ++ j'.keptTexts).Perm (j.keptTexts ++ [text])) ∨
    (∀ me text, j.main ≠ .echo me text) ∧
      ((JoinerLabel.main l).shows j j' ++ j'.keptTexts).Subperm j.keptTexts := by
  cases h with
  | @echo _ me text hphase =>
      exact .inl ⟨me, text, hphase, rfl, seen_of_tryEmit (l := .echo) rfl rfl⟩
  | drainText => exact absurd rfl (hl _)
  | @flushEvent _ event rest hphase hkept =>
      refine .inr ⟨hphase ▸ nofun, ?_⟩
      rw [shows_of_push rfl, Joiner.keptTexts, Joiner.keptTexts, hkept,
        List.filterMap_append]
      have hlast : [event].filterMap ChatEvent.text? = event.text?.toList := by
        cases event <;> rfl
      rw [hlast]
      exact List.perm_append_comm.subperm
  | flushed hphase =>
      exact .inr ⟨hphase ▸ nofun, seen_of_silent (shows_of_events_eq rfl) (List.nil_sublist _)⟩
  | emitJoin hphase | emitError hphase | emitClosed hphase =>
      exact .inr ⟨hphase ▸ nofun, seen_of_silent (shows_of_trySend rfl rfl) (List.Sublist.refl _)⟩
  | @sendError _ e hphase =>
      have hsilent : (ChatEvent.error e).text?.toList = [] := rfl
      exact .inr ⟨hphase ▸ nofun,
        seen_of_silent ((shows_of_push rfl).trans hsilent) (List.Sublist.refl _)⟩
  | _ hphase =>
      exact .inr ⟨hphase ▸ nofun, seen_of_silent (shows_of_events_eq rfl) (List.Sublist.refl _)⟩

/-! ## The place of the main task -/

/-- While a text is being written all texts before it are sent; `seen` are those that
are shown or kept back. -/
def JoinWrite.Echoed (X : Crates) (me : Guest) (texts : List String) (written : List UInt8)
    (seen : List String) : JoinWrite → Prop
  | .text last => ∃ sent, texts = sent ++ [last] ∧ me.HasSent X written sent ∧ seen.Subperm sent
  | _ => seen = []

/-- Of the texts the main task has taken all are sent but the one it is busy with. -/
def JoinMain.Echoed (X : Crates) (me : Guest) (texts : List String) (written : List UInt8)
    (seen : List String) : JoinMain → Prop
  | .writing _ what _ _ | .flushing _ what _ => what.Echoed X me texts written seen
  | .select _ => me.HasSent X written texts ∧ seen.Subperm texts
  | .echo _ text => ∃ sent, texts = sent ++ [text] ∧ me.HasSent X written texts ∧ seen.Subperm sent
  | .drain _ | .flushPending | .abortReader _ | .awaitReader _ | .emitError _ | .emitClosed
  | .ended => ∃ sent, me.HasSent X written sent ∧ seen.Subperm sent
  | _ => seen = []

theorem JoinMain.Echoed.mono {main : JoinMain} {seen' : List String}
    (h : main.Echoed X me texts written seen) (hseen : seen'.Subperm seen) :
    main.Echoed X me texts written seen' := by
  have hnil : seen = [] → seen' = [] := by
    rintro rfl
    exact List.subperm_nil.mp hseen
  cases main with
  | writing _ what | flushing _ what =>
      cases what with
      | text =>
          obtain ⟨sent, htexts, hsent, hle⟩ := h
          exact ⟨sent, htexts, hsent, hseen.trans hle⟩
      | _ => exact hnil h
  | select => exact ⟨h.1, hseen.trans h.2⟩
  | echo =>
      obtain ⟨sent, htexts, hsent, hle⟩ := h
      exact ⟨sent, htexts, hsent, hseen.trans hle⟩
  | drain | flushPending | abortReader | awaitReader | emitError | emitClosed | ended =>
      obtain ⟨sent, hsent, hle⟩ := h
      exact ⟨sent, hsent, hseen.trans hle⟩
  | _ => exact hnil h

/-- Wherever the main task stands, what is shown or kept back was sent. -/
theorem JoinMain.Echoed.subperm {main : JoinMain} (h : main.Echoed X me texts written seen) :
    seen.Subperm (sentTexts X.json written) := by
  have hsent : ∀ {sent : List String}, me.HasSent X written sent → seen.Subperm sent →
      seen.Subperm (sentTexts X.json written) :=
    fun hsent hle => hle.trans hsent.prefix_sentTexts.sublist.subperm
  have hnil : seen = [] → seen.Subperm (sentTexts X.json written) := by
    rintro rfl
    exact List.nil_subperm
  cases main with
  | writing _ what | flushing _ what =>
      cases what with
      | text =>
          obtain ⟨sent, -, hsent', hle⟩ := h
          exact hsent hsent' hle
      | _ => exact hnil h
  | select => exact hsent h.1 h.2
  | echo =>
      obtain ⟨sent, rfl, hsent', hle⟩ := h
      exact hsent hsent' (hle.trans (List.sublist_append_left ..).subperm)
  | drain | flushPending | abortReader | awaitReader | emitError | emitClosed | ended =>
      obtain ⟨sent, hsent', hle⟩ := h
      exact hsent hsent' hle
  | _ => exact hnil h

theorem echoed_afterReply {who : Guest} {byte : UInt8} {now : ℕ} :
    (afterReply X.json who byte now).Echoed X me texts written [] := by
  unfold afterReply
  split
  · rfl
  · split <;> rfl

theorem echoed_afterDecode (result : Option (Except ChatError InvitePayload)) :
    (afterDecode result).Echoed X me texts written [] := by
  rcases result with _ | _ | _ <;> rfl

theorem echoed_afterFailure {e : ChatError} {what : JoinWrite}
    (h : what.Echoed X me texts written seen) :
    (afterFailure e what).Echoed X me texts written seen := by
  cases what with
  | text =>
      obtain ⟨sent, -, hsent, hle⟩ := h
      exact ⟨sent, hsent, hle⟩
  | _ => exact h

/-- The text that is taken is the one that is not sent yet. -/
theorem echoed_afterText {text : String} {now : ℕ} (h : me.HasSent X written texts)
    (hseen : seen.Subperm texts) :
    (afterText X.json me text now).Echoed X me (texts ++ [text]) written seen := by
  unfold afterText
  split
  · exact ⟨texts, h, hseen⟩
  · exact ⟨texts, rfl, h, hseen⟩

/-- A whole frame has been written. -/
theorem echoed_afterFlush {what : JoinWrite} {now : ℕ} (hbegun : what.Begun X me texts)
    (hwritten : written = me.upTo X texts what) (h : what.Echoed X me texts written seen) :
    (afterFlush me now what).Echoed X me texts written seen := by
  cases what with
  | text text =>
      obtain ⟨sent, rfl, hsent, hle⟩ := h
      refine ⟨sent, rfl, ⟨hsent.name, ?_, ?_⟩, hle⟩
      · intro text' hmem
        rcases List.mem_append.mp hmem with hold | hnew
        · exact hsent.fits text' hold
        · rw [List.mem_singleton.mp hnew]
          exact hbegun.2.2
      · rw [hwritten]
        exact List.prefix_refl _
  | _ => exact h

/-- Where the main task goes, apart from the step that echoes a text. -/
theorem JoinMainStep.echoed {l : JoinMainLabel} (h : JoinMainStep X checks l j j')
    (hl : ∀ text, l ≠ .drainText text) (hecho : ∀ me text, j.main ≠ .echo me text)
    (hspoken : j.Spoken X me)
    (hs : j.main.Echoed X me j.messages.received j.sock.written seen) :
    j'.main.Echoed X me j'.messages.received j'.sock.written seen := by
  unfold Joiner.Spoken at hspoken
  cases h with
  | decode hphase =>
      rw [hphase] at hs
      rw [show seen = [] from hs]
      exact echoed_afterDecode _
  | connected hphase | connectFailed hphase | replyFail hphase | replyTimeout hphase
  | emitJoin hphase | drained hphase | flushed hphase | abortReader hphase
  | emitError hphase | emitClosed hphase | sendError hphase | sendErrorClosed hphase =>
      rw [hphase] at hs
      exact hs
  | flushEvent => exact hs
  | @write _ _ what chunk rest _ hphase =>
      rw [hphase] at hs
      dsimp only
      have hmore : j.sock.written <+: (j.sock.write chunk).written := List.prefix_append ..
      cases what with
      | text =>
          -- more of the frame is written, and what was written stays
          obtain ⟨sent, htexts, hsent, hle⟩ := hs
          split <;> exact ⟨sent, htexts, hsent.mono hmore, hle⟩
      | _ => split <;> exact hs
  | writeFail hphase | writeTimeout hphase | flushFail hphase | flushTimeout hphase =>
      rw [hphase] at hs
      exact echoed_afterFailure hs
  | flush hphase =>
      rw [hphase] at hs hspoken
      obtain ⟨rfl, hbegun, hwritten⟩ := hspoken
      exact echoed_afterFlush hbegun hwritten hs
  | reply hphase =>
      rw [hphase] at hs
      rw [show seen = [] from hs]
      exact echoed_afterReply
  | spawnReader hphase =>
      rw [hphase] at hs hspoken
      obtain ⟨rfl, htexts, hname, hwritten⟩ := hspoken
      -- nothing was shown yet
      rw [show seen = [] from hs]
      dsimp only
      rw [htexts]
      exact ⟨⟨hname, nofun, hwritten ▸ List.prefix_refl _⟩, List.nil_subperm⟩
  | shutdown hphase | readerDone hphase | inputClosed hphase | eventsClosed hphase =>
      rw [hphase] at hs
      exact ⟨_, hs.1, hs.2⟩
  | takeText hphase _ _ hqueue =>
      rw [hphase] at hs hspoken
      obtain ⟨rfl, -⟩ := hspoken
      dsimp only
      rw [received_pop hqueue]
      exact echoed_afterText hs.1 hs.2
  | echo hphase => exact absurd hphase (hecho _ _)
  | drainText => exact absurd rfl (hl _)
  | @awaitReader _ result hphase =>
      rw [hphase] at hs
      cases result <;> exact hs

/-! ## Every run -/

/-- The texts a joiner has shown agree with its place, for the one that joins as `me`. -/
def Honest (X : Crates) (s : Joiner × List String) : Prop :=
  ∃ me, s.1.Spoken X me ∧
    s.1.main.Echoed X me s.1.messages.received s.1.sock.written (s.2 ++ s.1.keptTexts)

/-- **The main task shows what it has sent, unless it drains its queue.** -/
theorem JoinMainStep.honest {l : JoinMainLabel} (h : JoinMainStep X checks l j j')
    (hl : ∀ text, l ≠ .drainText text) (hs : Honest X (j, shown)) :
    Honest X (j', shown ++ (JoinerLabel.main l).shows j j') := by
  obtain ⟨me, hspoken, hechoed⟩ := hs
  have hspoken' : ∃ me', j'.Spoken X me' ∧ (me' = me ∨ ∃ d, l = .connected d) := by
    by_cases hconnected : ∃ d, l = .connected d
    · obtain ⟨d, rfl⟩ := hconnected
      obtain ⟨payload, -, hknown⟩ := h.spoken_connected hspoken
      exact ⟨_, hknown, .inr ⟨d, rfl⟩⟩
    · exact ⟨me, h.spoken (fun d heq => hconnected ⟨d, heq⟩) hspoken, .inl rfl⟩
  obtain ⟨me', hspoken', hme⟩ := hspoken'
  refine ⟨me', hspoken', ?_⟩
  dsimp only
  rw [List.append_assoc]
  rcases h.shows hl with ⟨who, text, hphase, hphase', hperm⟩ | ⟨hecho, hle⟩
  · -- the text that is echoed is the last one that was sent
    have hsame : me' = me := hme.resolve_right fun ⟨d, heq⟩ => by
      subst heq
      cases h with
      | connected hother => simp [hphase] at hother
    subst hsame
    unfold Joiner.Spoken at hspoken
    rw [hphase] at hechoed hspoken
    rw [hphase']
    obtain ⟨sent, htexts, hsent, hseen⟩ := hechoed
    have hsock : j'.sock = j.sock ∧ j'.messages = j.messages := by
      cases h with
      | echo => exact ⟨sock_tryEmit .., messages_tryEmit ..⟩
      | _ hother => simp [hphase] at hother
    rw [hsock.1, hsock.2]
    refine ⟨hsent, ?_⟩
    rw [htexts]
    have hadd : (shown ++ ((JoinerLabel.main l).shows j j' ++ j'.keptTexts)).Perm
        (shown ++ j.keptTexts ++ [text]) := by
      rw [List.append_assoc]
      exact hperm.append_left shown
    exact hadd.subperm.trans (hseen.append (List.Subperm.refl _))
  · have hmono : (shown ++ ((JoinerLabel.main l).shows j j' ++ j'.keptTexts)).Subperm
        (shown ++ j.keptTexts) := (List.Subperm.refl shown).append hle
    refine JoinMain.Echoed.mono ?_ hmono
    rcases hme with rfl | ⟨d, rfl⟩
    · exact h.echoed hl hecho hspoken hechoed
    · cases h with
      | connected hphase =>
          rw [hphase] at hechoed
          exact hechoed

theorem EchoStep.honest {l : JoinerLabel} {s t : Joiner × List String}
    (h : EchoStep X checks l s t) (hl : NothingDrained s l) (hs : Honest X s) : Honest X t := by
  obtain ⟨j, shown⟩ := s
  obtain ⟨j', shown'⟩ := t
  obtain ⟨hstep, hshown⟩ := h
  obtain rfl : shown' = shown ++ l.shows j j' := hshown
  by_cases hmain : ∃ l', l = .main l'
  · obtain ⟨l', rfl⟩ := hmain
    cases hstep with
    | main h => exact h.honest (fun text heq => hl text (heq ▸ rfl)) hs
  · push Not at hmain
    obtain ⟨me, hspoken, hechoed⟩ := hs
    obtain ⟨hphase, hreceived, hwritten⟩ := hstep.main_frame hmain
    have hnothing : l.shows j j' = [] ∧ j'.keptTexts = j.keptTexts := by
      cases hstep with
      | main => exact absurd rfl (hmain _)
      | reader h => exact ⟨rfl, by rw [Joiner.keptTexts, h.frame.2.2, Joiner.keptTexts]⟩
      | user h => cases h <;> exact ⟨rfl, rfl⟩
      | net | finish | tick => exact ⟨rfl, rfl⟩
    refine ⟨me, hstep.spoken (fun d => hmain _) hspoken, ?_⟩
    dsimp only
    rw [hphase, hreceived, hwritten, hnothing.1, hnothing.2, List.append_nil]
    exact hechoed

/-- **What a joiner shows as sent was sent**, as long as its write loop ends with nothing
left in its queue. -/
theorem shown_is_sent (X : Crates) (checks : Bool) (now : ℕ) (config : JoinConfig)
    (ls : List JoinerLabel) (j : Joiner) (shown : List String)
    (hrun : Run (Guarded (EchoStep X checks) NothingDrained) (Joiner.init now config, []) ls
      (j, shown)) :
    shown.Subperm (sentTexts X.json j.sock.written) := by
  have hhonest : Honest X (j, shown) := hrun.invariant (I := Honest X)
    ⟨⟨"", .fill 0, .fill 0⟩, .init .., rfl⟩ fun hs hstep => hstep.1.honest hstep.2 hs
  obtain ⟨me, -, hechoed⟩ := hhonest
  exact (List.sublist_append_left ..).subperm.trans hechoed.subperm

/-! ### Ann says hi -/

/-- A joiner whose user has said something. -/
def Joiner.told (j : Joiner) (text : String) : Joiner :=
  { j with messages := j.messages.push text }

/-- The steps that take a text and write it, up to the one that shows it. -/
def sentLabels (X : Crates) (me : Guest) (text : String) : List JoinerLabel :=
  [.main (.takeText text), .main (.write (frameBytes X.json (.chat me.name text))), .main .flush]

/-- The same from the call of `send` on. -/
def sendLabels (X : Crates) (me : Guest) (text : String) : List JoinerLabel :=
  .user (.send text) :: sentLabels X me text

/-- A joiner that has sent a text and is about to show it. -/
def Joiner.sending (X : Crates) (j : Joiner) (me : Guest) (text : String) : Joiner :=
  { j with
    messages := (j.messages.push text).pop
    sock := (j.sock.write (frameBytes X.json (.chat me.name text))).flush
    main := .echo me text }

theorem run_sent {text : String} (hphase : j.main = .select me) (hshutdown : j.shutdown = false)
    (hdone : j.readerDone = false) (hqueue : j.messages.queue = [])
    (hfits : Encodes X.json (.chat me.name text)) :
    Run (JoinerStep X checks) (j.told text) (sentLabels X me text) (j.sending X me text) := by
  have htold : (j.told text).messages.queue = [text] := by
    rw [Joiner.told, Mpsc.push, hqueue]
    rfl
  let frame := frameBytes X.json (.chat me.name text)
  let taken : Joiner :=
    { j with
      messages := (j.messages.push text).pop
      main := .writing me (.text text) frame (j.now + writeTimeout) }
  let written : Joiner :=
    { taken with
      sock := j.sock.write frame
      main := .flushing me (.text text) (j.now + writeTimeout) }
  have htake : JoinerStep X checks (.main (.takeText text)) (j.told text) taken := by
    have hmain : afterText X.json me text j.now =
        .writing me (.text text) frame (j.now + writeTimeout) := by
      rw [afterText, hfits.encodeMessage]
    have hstep : JoinMainStep X checks (.takeText text) (j.told text) _ :=
      .takeText hphase hshutdown hdone htold
    rw [show (j.told text).now = j.now from rfl, hmain] at hstep
    exact .main hstep
  have hwrite : JoinerStep X checks (.main (.write frame)) taken written :=
    step_write rfl (frameBytes_ne_nil hfits)
  have hflush : JoinerStep X checks (.main .flush) written (j.sending X me text) :=
    .main (.flush (show written.main = .flushing me (.text text) (j.now + writeTimeout) from rfl))
  exact ((Run.single htake).snoc hwrite).snoc hflush

theorem step_send {text : String} (hopen : j.sendOpen = true)
    (hroom : j.messages.HasRoom sendChanCap) :
    JoinerStep X checks (.user (.send text)) j (j.told text) := .user (.send hopen hroom)

/-- Ann in the room, from the start. -/
theorem exists_run_annEntered : ∃ token ls, (∀ l ∈ ls, ∀ s, NothingDrained s l) ∧
    Run (JoinerStep .standard true) (Joiner.init 0 ⟨"", token⟩) ls
      (Joiner.entered .standard 0 ⟨"", token⟩ annGuest) := by
  obtain ⟨token, hencode⟩ := exists_annToken .standard
  have hdecode : JoinerStep .standard true (.main .decode) (Joiner.init 0 ⟨"", token⟩) _ :=
    step_decode (decodeInvite_annInvite hencode)
  refine ⟨token, _, ?_, .cons hdecode (run_ann _ rfl)⟩
  simp [annLabels, answeredLabels, hailLabels, replyLabels, enteredLabels, NothingDrained]

/-- Ann sends a text and is shown it. -/
theorem shown_is_sent_hi :
    ∃ token ls j shown, Run (Guarded (EchoStep .standard true) NothingDrained)
        (Joiner.init 0 ⟨"", token⟩, []) ls (j, shown) ∧
      "hi" ∈ shown ∧ shown.Subperm (sentTexts SerdeJson.standard j.sock.written) := by
  obtain ⟨token, ls, hquiet, hentered⟩ := exists_run_annEntered
  let entered := Joiner.entered .standard 0 ⟨"", token⟩ annGuest
  let sending := entered.sending .standard annGuest "hi"
  have hfits : Encodes SerdeJson.standard (.chat annGuest.name "hi") := by decide
  have hsent : Run (JoinerStep .standard true) entered
      (sendLabels .standard annGuest "hi") sending :=
    .cons (step_send rfl ⟨rfl, show 0 < sendChanCap by decide⟩) (run_sent rfl rfl rfl rfl hfits)
  obtain ⟨shown, hrun⟩ := exists_echoRun [] (hentered.append hsent)
  have hecho : EchoStep .standard true (.main .echo) (sending, shown)
      ({ tryEmit sending (makeEvent .standard annGuest "hi") with main := .select annGuest },
        shown ++ ["hi"]) := ⟨.main (.echo rfl), rfl⟩
  have hquiet' : ∀ l ∈ ls ++ sendLabels .standard annGuest "hi", ∀ s, NothingDrained s l := by
    intro l hl
    rcases List.mem_append.mp hl with hfirst | hlast
    · exact hquiet l hfirst
    · intro s text
      rintro rfl
      simp [sendLabels, sentLabels] at hlast
  have hguarded := (hrun.guard hquiet').snoc ⟨hecho, nofun⟩
  exact ⟨token, _, _, _, hguarded, List.mem_append_right _ (List.mem_singleton_self _),
    shown_is_sent .standard true 0 ⟨"", token⟩ _ _ _ hguarded⟩

/-- Ann sends a text and quits: she is shown the text, and nothing of it is written. -/
theorem drained_text_not_sent :
    ∃ token ls j shown, Run (EchoStep .standard true) (Joiner.init 0 ⟨"", token⟩, [])
      ls (j, shown) ∧
      "hi" ∈ shown ∧ sentTexts SerdeJson.standard j.sock.written = [] ∧
      ¬ shown.Subperm (sentTexts SerdeJson.standard j.sock.written) := by
  obtain ⟨token, ls, -, hentered⟩ := exists_run_annEntered
  let entered := Joiner.entered .standard 0 ⟨"", token⟩ annGuest
  let quit : Joiner := { entered.told "hi" with shutdown := true }
  have htold : JoinerStep .standard true (.user (.send "hi")) entered (entered.told "hi") :=
    step_send rfl ⟨rfl, show 0 < sendChanCap by decide⟩
  have hquit : JoinerStep .standard true (.user .quit) (entered.told "hi") quit := .user .quit
  have hdrain : JoinerStep .standard true (.main .shutdown) quit
      { quit with main := .drain annGuest } := .main (.shutdown rfl rfl)
  obtain ⟨shown, hrun⟩ := exists_echoRun []
    (((hentered.snoc htold).snoc hquit).snoc hdrain)
  have hdrained : EchoStep .standard true (.main (.drainText "hi"))
      ({ quit with main := .drain annGuest }, shown)
      ({ tryEmit { quit with main := .drain annGuest } (makeEvent .standard annGuest "hi") with
          messages := quit.messages.pop }, shown ++ ["hi"]) :=
    ⟨.main (.drainText rfl rfl), rfl⟩
  have hnothing : sentTexts SerdeJson.standard (annGuest.script .standard []) = [] := by
    have hname : Encodes SerdeJson.standard (.system annGuest.name) := by decide
    have hfits : ∀ text ∈ ([] : List String),
        Encodes SerdeJson.standard (.chat annGuest.name text) := nofun
    have hscript := sentTexts_script (X := .standard) hname hfits []
    rw [List.append_nil] at hscript
    exact hscript
  refine ⟨token, _, _, _, hrun.snoc hdrained, List.mem_append_right _ (List.mem_singleton_self _),
    hnothing, fun hle => ?_⟩
  have hempty := List.subperm_nil.mp (hnothing ▸ hle)
  exact List.append_ne_nil_of_right_ne_nil _ (List.cons_ne_nil _ _) hempty

end Nullpipe

import Nullpipe.Joiner.Speaking
import Nullpipe.Joiner.Listening
import Mathlib.Data.List.Perm.Subperm

/-!
# Whose messages a joiner shows

A joiner shows its user messages of two kinds: texts it has taken from that user, under its
own name, and what its reader has heard.  `Joiner.Credits` keeps the books of every run,
whatever the hub sends: nothing is shown more often than it was taken or heard.

The order of what is shown is not kept, since `flush_pending` turns it round; so the books
count.  For each line, a name with a text:

* `Joiner.debit` is how often it is on the event channel, kept back, or about to be shown;
* `Joiner.credit` is how often the user has said it.

A step of the main task `Pays`: it raises the debit by no more than it raises the credit
(`JoinMainStep.pays`).  `take` raises both, an event moves from one place of the debit to
another, and what is dropped lowers it.  A message of the reader raises the debit without a
credit, and is charged to what was heard instead.

The guest under whose name the user's texts are shown is the one that the invite admits
(`Speaking.lean`); before it has joined nothing is shown or kept back.
-/

namespace Nullpipe

open Channel Framing Transition

variable {X : Crates} {checks : Bool} {me : Guest} {j j' : Joiner} {heard : List ChatEvent}

/-! ## What is owed -/

/-- The text that is on its way to the hub, and is shown after that. -/
def JoinMain.unechoed : JoinMain → List String
  | .writing _ (.text text) _ _ | .flushing _ (.text text) _ | .echo _ text => [text]
  | _ => []

/-- How often a line is shown, kept back or about to be shown. -/
def Joiner.debit (me : Guest) (line : String × String) (j : Joiner) : ℕ :=
  (said j.events.sent).count line + (said j.pending).count line +
    (linesOf me.name j.main.unechoed).count line

/-- How often the user has said a line. -/
def Joiner.credit (me : Guest) (line : String × String) (j : Joiner) : ℕ :=
  (linesOf me.name j.messages.received).count line

/-- A step that shows no more than it takes. -/
def Joiner.Pays (me : Guest) (j j' : Joiner) : Prop :=
  ∀ line, j'.debit me line + j.credit me line ≤ j.debit me line + j'.credit me line

/-- A step that takes nothing and shows nothing. -/
theorem Joiner.Pays.quiet (hsent : said j'.events.sent = said j.events.sent)
    (hpending : j'.pending = j.pending) (hmain : j'.main.unechoed.Sublist j.main.unechoed)
    (hreceived : j'.messages.received = j.messages.received) : j.Pays me j' := by
  intro line
  have hle := (hmain.map (Prod.mk me.name)).count_le line
  simp only [Joiner.debit, Joiner.credit, linesOf, hsent, hpending, hreceived]
  omega

theorem said_trySend {q : Mpsc ChatEvent} {ev : ChatEvent} (h : said [ev] = []) :
    said (q.trySend eventChanCap ev).sent = said q.sent := by
  rcases Mpsc.trySend_cases eventChanCap q ev with hpush | hsame
  · rw [hpush, Mpsc.sent_push, said_append, h, List.append_nil]
  · rw [hsame]

theorem said_push {q : Mpsc ChatEvent} {ev : ChatEvent} (h : said [ev] = []) :
    said (q.push ev).sent = said q.sent := by
  rw [Mpsc.sent_push, said_append, h, List.append_nil]

/-- What is emitted is shown or kept back. -/
theorem count_tryEmit (j : Joiner) (ev : ChatEvent) (line : String × String) :
    (said (tryEmit j ev).events.sent).count line + (said (tryEmit j ev).pending).count line =
      (said j.events.sent).count line + (said j.pending).count line +
        (said [ev]).count line := by
  unfold tryEmit
  split
  · dsimp only
    rw [Mpsc.sent_push, said_append, List.count_append]
    omega
  · dsimp only
    rw [said_append, List.count_append]
    omega

/-! ## The main task -/

theorem unechoed_afterDecode (result : Option (Except ChatError InvitePayload)) :
    (afterDecode result).unechoed = [] := by
  rcases result with _ | _ | _ <;> rfl

theorem unechoed_afterReply (json : SerdeJson) (me : Guest) (byte : UInt8) (now : ℕ) :
    (afterReply json me byte now).unechoed = [] := by
  unfold afterReply
  split
  · rfl
  · split <;> rfl

theorem unechoed_afterText (json : SerdeJson) (me : Guest) (text : String) (now : ℕ) :
    (afterText json me text now).unechoed.Sublist [text] := by
  unfold afterText
  split
  · exact List.nil_sublist _
  · exact List.Sublist.refl _

/-- **The main task pays.**  It shows a text that it has taken, once. -/
theorem JoinMainStep.pays {l : JoinMainLabel} (h : JoinMainStep X checks l j j')
    (hs : j.Speaks X me) : j.Pays me j' := by
  have hspoken := hs.spoken
  cases h with
  | decode hphase =>
      exact .quiet rfl rfl (by rw [unechoed_afterDecode]; exact List.nil_sublist _) rfl
  | reply hphase =>
      exact .quiet rfl rfl (by rw [unechoed_afterReply]; exact List.nil_sublist _) rfl
  | @write _ who what _ _ _ hphase =>
      refine .quiet rfl rfl ?_ rfl
      rw [hphase]
      dsimp only
      split <;> cases what <;> exact List.Sublist.refl _
  | @writeFail _ _ what _ _ _ hphase | @writeTimeout _ _ what _ _ hphase
  | @flushFail _ _ what _ _ hphase | @flushTimeout _ _ what _ hphase =>
      refine .quiet rfl rfl ?_ rfl
      cases what <;> exact List.nil_sublist _
  | @flush _ _ what _ hphase =>
      refine .quiet rfl rfl ?_ rfl
      rw [hphase]
      cases what <;> exact List.Sublist.refl _
  | emitJoin => exact .quiet (said_trySend rfl) rfl (List.nil_sublist _) rfl
  | emitError | emitClosed => exact .quiet (said_trySend rfl) rfl (List.nil_sublist _) rfl
  | sendError => exact .quiet (said_push rfl) rfl (List.nil_sublist _) rfl
  | @takeText _ who text rest hphase _ _ hqueue =>
      intro line
      -- a text that is taken is owed an echo
      have hle := ((unechoed_afterText X.json who text j.now).map (Prod.mk me.name)).count_le line
      have hreceived := received_pop hqueue
      simp only [Joiner.debit, Joiner.credit, linesOf, hphase, hreceived, List.map_append,
        List.count_append, JoinMain.unechoed, List.map_nil, List.count_nil, List.map_singleton]
        at hle ⊢
      omega
  | @echo _ who text hphase =>
      intro line
      rw [Joiner.Spoken, hphase] at hspoken
      have hme : said [makeEvent X who text] = linesOf me.name [text] := by rw [hspoken.1]; rfl
      -- the echo pays the debt, whether it is emitted or put aside
      have hcount := count_tryEmit j (makeEvent X who text) line
      rw [hme] at hcount
      simp only [Joiner.debit, Joiner.credit, hphase, messages_tryEmit, JoinMain.unechoed,
        linesOf_nil, List.count_nil]
      omega
  | @drainText _ who text rest hphase hqueue =>
      intro line
      rw [Joiner.Spoken, hphase] at hspoken
      have hme : said [makeEvent X who text] = linesOf me.name [text] := by rw [hspoken.1]; rfl
      have hcount := count_tryEmit j (makeEvent X who text) line
      have hreceived := received_pop hqueue
      rw [hme] at hcount
      simp only [Joiner.debit, Joiner.credit, hphase, main_tryEmit, hreceived, JoinMain.unechoed,
        linesOf_nil, linesOf_append, List.count_append, List.count_nil]
      omega
  | flushEvent hphase hkept =>
      intro line
      -- an event that was put aside goes out
      simp only [Joiner.debit, Joiner.credit, hkept, Mpsc.sent_push, said_append,
        List.count_append]
      omega
  | flushed hphase =>
      intro line
      simp only [Joiner.debit, Joiner.credit, JoinMain.unechoed, said_nil, List.count_nil,
        linesOf_nil]
      omega
  | awaitReader =>
      refine .quiet rfl rfl ?_ rfl
      cases ‹Option ChatError› <;> exact List.nil_sublist _
  | _ => exact .quiet rfl rfl (List.nil_sublist _) rfl

/-- Who has not joined says nothing. -/
theorem JoinMainStep.mute {l : JoinMainLabel} (h : JoinMainStep X checks l j j')
    (hout : ¬ j.main.Joined) :
    said j'.events.sent = said j.events.sent ∧ j'.pending = j.pending := by
  cases h with
  | echo hphase | drainText hphase | flushEvent hphase | flushed hphase =>
      rw [hphase] at hout
      exact absurd trivial hout
  | emitJoin | emitError | emitClosed => exact ⟨said_trySend rfl, rfl⟩
  | sendError => exact ⟨said_push rfl, rfl⟩
  | _ => exact ⟨rfl, rfl⟩

/-- No joiner says that a room is ready. -/
theorem JoinMainStep.unready {l : JoinMainLabel} (h : JoinMainStep X checks l j j')
    (hs : ∀ ev ∈ j.pending, ev.IsMessage) {addr : String} {port : UInt16}
    (hmem : .roomReady addr port ∈ j'.events.sent) : .roomReady addr port ∈ j.events.sent := by
  have hpush : ∀ ev : ChatEvent, .roomReady addr port ∈ (j.events.push ev).sent →
      ev ≠ .roomReady addr port → .roomReady addr port ∈ j.events.sent := by
    intro ev hmem hne
    rw [Mpsc.sent_push] at hmem
    exact (List.mem_append.mp hmem).resolve_right fun hnew => hne (List.mem_singleton.mp hnew).symm
  have htry : ∀ ev : ChatEvent, .roomReady addr port ∈ (j.events.trySend eventChanCap ev).sent →
      ev ≠ .roomReady addr port → .roomReady addr port ∈ j.events.sent := by
    intro ev hmem hne
    rcases Mpsc.trySend_cases eventChanCap j.events ev with heq | heq
    · rw [heq] at hmem
      exact hpush ev hmem hne
    · rwa [heq] at hmem
  cases h with
  | emitJoin | emitError | emitClosed => exact htry _ hmem nofun
  | echo | drainText =>
      simp only [events_tryEmit] at hmem
      exact htry _ hmem nofun
  | sendError => exact hpush _ hmem nofun
  | flushEvent _ hkept =>
      refine hpush _ hmem fun heq => ?_
      have hmessage := hs _ (hkept ▸ List.mem_append_right _ (List.mem_singleton_self _))
      rw [heq] at hmessage
      exact hmessage
  | _ => exact hmem

/-! ## The books -/

/-- A line is shown at most as often as the reader has `heard` it and the user has said it;
nobody says that the room is ready. -/
structure Joiner.Credits (X : Crates) (me : Guest) (heard : List ChatEvent) (j : Joiner) :
    Prop where
  speaks : j.Speaks X me
  quiet : ¬ j.main.Joined → said j.events.sent = [] ∧ j.pending = []
  account : ∀ line, j.debit me line ≤ (said heard).count line + j.credit me line
  unready : ∀ addr port, .roomReady addr port ∉ j.events.sent

theorem Joiner.Credits.init (X : Crates) (me : Guest) (now : ℕ) (config : JoinConfig) :
    (Joiner.init now config).Credits X me [] :=
  ⟨.init .., fun _ => ⟨rfl, rfl⟩, fun _ => Nat.le_refl _, nofun⟩

theorem JoinMainStep.credits {l : JoinMainLabel} (h : JoinMainStep X checks l j j')
    (hs : j.Credits X me heard) : ∃ me', j'.Credits X me' heard := by
  have hquiet : ¬ j'.main.Joined → said j'.events.sent = [] ∧ j'.pending = [] := by
    intro hout
    have hbefore : ¬ j.main.Joined := fun hjoined => hout (h.joined hjoined)
    obtain ⟨hsaid, hpending⟩ := h.mute hbefore
    rw [hsaid, hpending]
    exact hs.quiet hbefore
  have hunready : ∀ addr port, .roomReady addr port ∉ j'.events.sent := fun addr port hmem =>
    hs.unready addr port (h.unready hs.speaks.kept hmem)
  obtain ⟨me', hspeaks, hme⟩ := h.speaks hs.speaks
  refine ⟨me', hspeaks, hquiet, fun line => ?_, hunready⟩
  rcases hme with rfl | ⟨d, rfl⟩
  · have hle := hs.account line
    have hpays := h.pays hs.speaks line
    omega
  · -- nothing has been said before there is a stream
    cases h with
    | connected hphase =>
        obtain ⟨hsaid, hpending⟩ := hs.quiet (by rw [hphase]; exact id)
        simp [Joiner.debit, hsaid, hpending, JoinMain.unechoed]

/-! ## Every run -/

/-- What leaves the main task where it is, with what is heard. -/
theorem Joiner.Credits.hear (hs : j.Credits X me heard) (hspeaks : j'.Speaks X me)
    (hmain : j'.main = j.main) (hreceived : j'.messages.received = j.messages.received)
    (hpending : j'.pending = j.pending) {more : List ChatEvent}
    (hsent : j'.events.sent = j.events.sent ++ more) (hmore : ∀ ev ∈ more, ev.IsMessage)
    (hjoined : more ≠ [] → j.main.Joined) : j'.Credits X me (heard ++ more) where
  speaks := hspeaks
  quiet hout := by
    rw [hmain] at hout
    have hnone : more = [] := by
      by_contra hne
      exact hout (hjoined hne)
    rw [hsent, hnone, List.append_nil, hpending]
    exact hs.quiet hout
  account line := by
    have hle := hs.account line
    simp only [Joiner.debit, Joiner.credit, hmain, hreceived, hpending, hsent, said_append,
      List.count_append] at hle ⊢
    omega
  unready addr port hmem := by
    rw [hsent] at hmem
    rcases List.mem_append.mp hmem with hold | hnew
    · exact hs.unready addr port hold
    · exact hmore _ hnew

theorem JoinReaderStep.credits {l : JoinReaderLabel} (h : JoinReaderStep X l j j')
    (hs : j.Credits X me heard) :
    j'.Credits X me (heard ++ JoinerLabel.emits j (.reader l)) := by
  obtain ⟨hmain, -, hpending⟩ := h.frame
  have hreceived : j'.messages.received = j.messages.received := by cases h <;> rfl
  refine hs.hear (h.speaks hs.speaks) hmain hreceived hpending h.sent (fun ev hmem => ?_)
    fun _ => ?_
  · unfold JoinerLabel.emits JoinerLabel.hands JoinReaderLabel.hands at hmem
    split at hmem
    · dsimp only at hmem
      split at hmem
      · rename_i hphase
        split at hmem
        · rw [List.mem_singleton.mp hmem]
          exact hs.speaks.holding _ hphase
        · cases hmem
      · cases hmem
    · cases hmem
  · -- a reader that is at work is that of a joiner that has joined
    have hrunning := (hs.speaks.minds.of_busy h.busy).1
    cases hphase : j.main with
    | writing _ what | flushing _ what =>
        rw [hphase] at hrunning
        cases what with
        | hello | name => cases hrunning
        | text last => exact ⟨last, rfl⟩
    | connect | connecting | readReply | panicked | sendError | failed | ended | emitClosed
    | emitJoin =>
        rw [hphase] at hrunning
        cases hrunning
    | _ => trivial

/-- **Every step of a joiner** keeps the books, with what its reader emits. -/
theorem JoinerStep.credits {l : JoinerLabel} (h : JoinerStep X checks l j j')
    (hs : j.Credits X me heard) : ∃ me', j'.Credits X me' (heard ++ l.emits j) := by
  by_cases hmain : ∃ l', l = .main l'
  · obtain ⟨l', rfl⟩ := hmain
    have hsilent : JoinerLabel.emits j (.main l') = [] := ite_self _
    rw [hsilent, List.append_nil]
    cases h with
    | main h => exact h.credits hs
  push Not at hmain
  obtain ⟨me', hspeaks, hme⟩ := h.speaks hs.speaks
  have hsame : me' = me := hme.resolve_right fun ⟨d, heq⟩ => hmain _ heq
  subst hsame
  obtain ⟨hplace, hreceived, -⟩ := h.main_frame hmain
  cases h with
  | main => exact absurd rfl (hmain _)
  | reader h => exact ⟨me', h.credits hs⟩
  | user h =>
      refine ⟨me', hs.hear hspeaks hplace hreceived ?_ ?_ ?_ ?_⟩
      · cases h <;> rfl
      · rw [show JoinerLabel.emits j (.user _) = [] from ite_self _, List.append_nil]
        cases h with
        | takeEvent => exact Mpsc.sent_pop _
        | _ => rfl
      · rw [show JoinerLabel.emits j (.user _) = [] from ite_self _]
        exact nofun
      · exact fun hne => absurd (ite_self _) hne
  | net | finish | tick =>
      have hsilent : ∀ l' : JoinerLabel, l'.hands j = [] → l'.emits j = [] := fun l' hnil => by
        rw [JoinerLabel.emits, hnil, ite_self]
      rw [hsilent _ rfl]
      exact ⟨me', hs.hear hspeaks hplace hreceived rfl (List.append_nil _).symm nofun
        fun hne => absurd rfl hne⟩

theorem credits_of_run {now : ℕ} {config : JoinConfig} {ls : List JoinerLabel}
    (hrun : Run (JoinerStep X checks) (Joiner.init now config) ls j) :
    ∃ me heard, j.Credits X me heard ∧ j.config = config :=
  hrun.invariant (I := fun j => ∃ me heard, j.Credits X me heard ∧ j.config = config)
    ⟨⟨"", .fill 0, .fill 0⟩, [], .init .., rfl⟩ fun ⟨_, _, hcredits, hconfig⟩ hstep => by
      obtain ⟨me', hcredits'⟩ := hstep.credits hcredits
      exact ⟨me', _, hcredits', hstep.config.trans hconfig⟩

/-- **What is shown is accounted for.** -/
theorem Joiner.Credits.subperm (hs : j.Credits X me heard) :
    (said j.events.sent).Subperm (said heard ++ linesOf me.name j.messages.received) := by
  rw [List.subperm_ext_iff]
  intro line _
  have hle := hs.account line
  rw [List.count_append]
  rw [Joiner.debit, Joiner.credit] at hle
  omega

end Nullpipe

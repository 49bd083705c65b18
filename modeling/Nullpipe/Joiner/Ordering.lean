import Nullpipe.Joiner.RunLoop
import Nullpipe.Core.Standard

/-!
# The order of a joiner's own messages

A text that goes straight to the channel is newer than all before it, so that only the
flush at the end can put an event behind a newer one.  It does so whenever it finds room
for two events that were kept back, or for one that a later text has overtaken.

Texts are numbered in the order in which they are taken, since equal texts could not be told
apart.

* `RunLoop.Truthful` is the invariant of the numbers: each own message carries the text that was
  taken under its number, and the one on its way to the stream is the newest.
* `OwnInOrder` is the property: the numbers on the event channel increase.
* `RunStep.ownInOrder_iff`: a step from an ordered state keeps the order exactly if, being a
  flush that finds room, it puts an event on the channel that is newer than all on it.  A
  message that goes straight to the channel is so by `RunLoop.Truthful`.

`own_messages_in_order` takes that to runs, by the library's rule for runs with a condition at
each step, and adds what follows for the consumer: his texts are a part of those sent, in
order, and all of them if the channel always has room and every frame is written
(`Complete`).  The two runs at the end have an event kept back; in the second one a text
overtakes it.
-/

namespace Nullpipe

open Channel Transition

variable {json : SerdeJson} {name : String} {kind : RunKind} {cap : ℕ} {l : RunLabel}
  {s t : RunLoop} {p : Numbered} {ls : List RunLabel}

/-! ## Numbers and texts -/

/-- A message carries the text that was taken under its number. -/
def RunLoop.Carries (s : RunLoop) (p : Numbered) : Prop := s.messages.received[p.1]? = some p.2

/-- Every own message carries its text, and the one on its way to the stream is the newest. -/
structure RunLoop.Truthful (s : RunLoop) : Prop where
  emitted : ∀ p ∈ s.emitted, s.Carries p
  held : ∀ p ∈ s.place.held, s.Carries p ∧ ∀ q ∈ s.emitted, q.1 < p.1

theorem RunLoop.Carries.lt_next (h : s.Carries p) : p.1 < s.next := by
  obtain ⟨hlt, -⟩ := List.getElem?_eq_some_iff.mp h
  exact hlt

/-- Texts that are taken later do not matter. -/
theorem RunLoop.Carries.mono (h : s.Carries p) {more : List String}
    (hmessages : t.messages.received = s.messages.received ++ more) : t.Carries p := by
  rw [RunLoop.Carries, hmessages, List.getElem?_append_left h.lt_next]
  exact h

/-- The next text is taken under the next number. -/
theorem RunLoop.carries_pop {text : String} {rest : List String}
    (hqueue : s.messages.queue = text :: rest) (hmessages : t.messages = s.messages.pop) :
    t.Carries (s.next, text) ∧ t.messages.received = s.messages.received ++ [text] := by
  have hreceived : t.messages.received = s.messages.received ++ [text] := by
    rw [hmessages, Mpsc.pop_of_queue hqueue]
  refine ⟨?_, hreceived⟩
  rw [RunLoop.Carries, hreceived, RunLoop.next, List.getElem?_append_right (Nat.le_refl _),
    Nat.sub_self]
  rfl

/-- What a state emits and holds are messages of another that has taken no fewer texts. -/
theorem RunLoop.Truthful.keep (hs : s.Truthful) {more : List String}
    (hmessages : t.messages.received = s.messages.received ++ more)
    (hemitted : ∀ p ∈ t.emitted, p ∈ s.emitted) (hheld : ∀ p ∈ t.place.held, p ∈ s.place.held) :
    t.Truthful where
  emitted p hp := (hs.emitted p (hemitted p hp)).mono hmessages
  held p hp := by
    obtain ⟨hcarries, hnewest⟩ := hs.held p (hheld p hp)
    exact ⟨hcarries.mono hmessages, fun q hq => hnewest q (hemitted q hq)⟩

/-- A message of the loop goes out, and the loop holds none then. -/
theorem RunLoop.Truthful.emit (hs : s.Truthful) {more : List String}
    (hmessages : t.messages.received = s.messages.received ++ more)
    (hemitted : t.emitted = (s.tryEmit cap p).emitted) (hcarries : t.Carries p)
    (hheld : t.place.held = []) : t.Truthful where
  emitted q hq := by
    rw [hemitted, RunLoop.mem_emitted_tryEmit] at hq
    rcases hq with hold | rfl
    · exact (hs.emitted q hold).mono hmessages
    · exact hcarries
  held q hq := by
    rw [hheld] at hq
    cases hq

theorem mem_held_outgoing {q : Numbered} (h : q ∈ (outgoing json name p).held) : q = p := by
  unfold outgoing at h
  split at h
  · cases h
  · exact List.mem_singleton.mp h

theorem RunStep.truthful (h : RunStep json name kind cap l s t) (hs : s.Truthful) :
    t.Truthful := by
  have hnone : s.messages.received = s.messages.received ++ [] := (List.append_nil _).symm
  cases h with
  | shutdown | readerDone | writeFail | inputClosed | eventsClosed | drained =>
      exact hs.keep hnone (fun _ hp => hp) (fun _ hp => absurd hp List.not_mem_nil)
  | @takeText _ text _ _ _ _ hqueue =>
      obtain ⟨hcarries, hreceived⟩ := RunLoop.carries_pop hqueue
        (t := { s with messages := s.messages.pop, place := outgoing json name (s.next, text) }) rfl
      refine ⟨fun q hq => (hs.emitted q hq).mono hreceived, fun q hq => ?_⟩
      rw [mem_held_outgoing hq]
      exact ⟨hcarries, fun r hr => (hs.emitted r hr).lt_next⟩
  | @showText _ text _ _ hphase _ hqueue | @drainText _ text _ hphase hqueue =>
      obtain ⟨hcarries, hreceived⟩ := RunLoop.carries_pop hqueue
        (t := { s.tryEmit cap (s.next, text) with messages := s.messages.pop }) rfl
      refine hs.emit hreceived rfl hcarries ?_
      rw [RunLoop.tryEmit_place, hphase]
      rfl
  | @written _ p hphase =>
      have hreceived : (s.tryEmit cap p).messages.received = s.messages.received ++ [] := by
        rw [RunLoop.tryEmit_messages, List.append_nil]
      -- the text that was written is the one that was held
      have hheld : p ∈ s.place.held := by
        rw [hphase]
        exact List.mem_singleton_self _
      exact hs.emit hreceived rfl ((hs.held p hheld).1.mono hreceived) rfl
  | @flushEvent _ p rest hphase hpending =>
      refine hs.keep hnone (fun q hq => ?_) (fun _ hp => hp)
      rw [RunLoop.emitted, ownOf_push_own, List.append_assoc] at hq
      rw [RunLoop.emitted, hpending]
      simp only [List.mem_append, List.mem_singleton] at hq ⊢
      exact hq.imp_right Or.symm
  | flushed =>
      refine hs.keep hnone (fun q hq => ?_) (fun _ hp => absurd hp List.not_mem_nil)
      rw [RunLoop.emitted, List.append_nil] at hq
      exact List.mem_append_left _ hq
  | hear =>
      refine hs.keep hnone (fun q hq => ?_) (fun _ hp => hp)
      rw [RunLoop.emitted, ownOf_push_other] at hq
      exact hq
  | takeEvent =>
      refine hs.keep hnone (fun q hq => ?_) (fun _ hp => hp)
      rw [RunLoop.emitted, Mpsc.sent_pop] at hq
      exact hq
  | finish | quit | dropSend | closeEvents | send =>
      exact hs.keep hnone (fun _ hp => hp) (fun _ hp => hp)

/-- A loop that begins: it has taken no text, and what is on the channel is not its own. -/
structure RunLoop.Begins (s : RunLoop) : Prop where
  place : s.place = .select
  received : s.messages.received = []
  pending : s.pending = []
  own : ownOf s.events.sent = []

theorem RunLoop.begins_init : RunLoop.init.Begins := ⟨rfl, rfl, rfl, rfl⟩

theorem RunLoop.Begins.truthful (h : s.Begins) : s.Truthful := by
  have hnone : s.emitted = [] := by rw [RunLoop.emitted, h.own, h.pending]; rfl
  refine ⟨fun p hp => ?_, fun p hp => ?_⟩
  · rw [hnone] at hp
    cases hp
  · rw [h.place] at hp
    cases hp

/-! ## The order -/

/-- The own messages on the event channel are in the order in which they were taken. -/
def OwnInOrder (s : RunLoop) : Prop := (ownOf s.events.sent).Pairwise fun p q => p.1 < q.1

/-- An event that the flush puts on the channel is newer than all that are on it. -/
def FlushesNewest (s : RunLoop) (l : RunLabel) : Prop :=
  l = .flushEvent → ∀ rest p, s.pending = rest ++ [p] → ∀ q ∈ ownOf s.events.sent, q.1 < p.1

/-- A message that goes straight to the channel is newer than all that are on it. -/
theorem RunLoop.inOrder_tryEmit (hs : OwnInOrder s) (hnewest : ∀ q ∈ s.emitted, q.1 < p.1) :
    OwnInOrder (s.tryEmit cap p) := by
  unfold OwnInOrder
  rcases s.tryEmit_cases cap p with ⟨-, hown, -⟩ | ⟨-, hown, -⟩
  · rw [hown, List.pairwise_append]
    refine ⟨hs, List.pairwise_singleton _ _, fun q hq r hr => ?_⟩
    rw [List.mem_singleton.mp hr]
    exact hnewest q (List.mem_append_left _ hq)
  · rw [hown]
    exact hs

/-- **Only the flush can break the order,** and it keeps it exactly if it puts the newest
event on the channel. -/
theorem RunStep.ownInOrder_iff (h : RunStep json name kind cap l s t) (hs : s.Truthful)
    (horder : OwnInOrder s) : OwnInOrder t ↔ FlushesNewest s l := by
  by_cases hflush : l = .flushEvent
  · subst hflush
    cases h with
    | @flushEvent _ p rest hphase hpending =>
        unfold OwnInOrder FlushesNewest
        rw [ownOf_push_own, List.pairwise_append]
        constructor
        · rintro ⟨-, -, hnewest⟩ - rest' p' hpending' q hq
          rw [hpending] at hpending'
          obtain ⟨-, hp⟩ := List.append_inj' hpending' rfl
          cases hp
          exact hnewest q hq p (List.mem_singleton_self _)
        · intro hnewest
          refine ⟨horder, List.pairwise_singleton _ _, fun q hq r hr => ?_⟩
          rw [List.mem_singleton.mp hr]
          exact hnewest rfl rest p hpending q hq
  · refine iff_of_true ?_ fun heq => absurd heq hflush
    -- what is emitted now is newer than all that was emitted
    have hnext : ∀ q ∈ s.emitted, q.1 < s.next := fun q hq => (hs.emitted q hq).lt_next
    cases h with
    | showText | drainText => exact RunLoop.inOrder_tryEmit horder hnext
    | @written _ p hphase =>
        refine RunLoop.inOrder_tryEmit (p := p) horder ?_
        refine (hs.held p ?_).2
        rw [hphase]
        exact List.mem_singleton_self _
    | flushEvent => exact absurd rfl hflush
    | hear =>
        unfold OwnInOrder
        rw [ownOf_push_other]
        exact horder
    | takeEvent =>
        unfold OwnInOrder
        rw [Mpsc.sent_pop]
        exact horder
    | shutdown | readerDone | takeText | writeFail | inputClosed | eventsClosed | drained
    | flushed | finish | send | quit | dropSend | closeEvents => exact horder

/-- Messages in the order of their numbers carry a part of the texts. -/
theorem sublist_of_increasing {texts : List String} {ps : List Numbered}
    (horder : ps.Pairwise fun p q => p.1 < q.1) (hps : ∀ p ∈ ps, texts[p.1]? = some p.2) :
    (ps.map Prod.snd).Sublist texts := by
  have hdrop : ∀ start, (∀ p ∈ ps, start ≤ p.1) →
      (ps.map Prod.snd).Sublist (texts.drop start) := by
    induction ps with
    | nil => exact fun _ _ => List.nil_sublist _
    | cons p ps ih =>
        intro start hstart
        obtain ⟨hfirst, hrest⟩ := List.pairwise_cons.mp horder
        have hp := hps p (List.mem_cons_self ..)
        have hlater := ih hrest (fun q hq => hps q (List.mem_cons_of_mem _ hq)) (p.1 + 1)
          fun q hq => hfirst q hq
        obtain ⟨hlt, htext⟩ := List.getElem?_eq_some_iff.mp hp
        have hsplit : texts.drop p.1 = p.2 :: texts.drop (p.1 + 1) := by
          rw [List.drop_eq_getElem_cons hlt, htext]
        have hcons : ((p :: ps).map Prod.snd).Sublist (texts.drop p.1) := by
          rw [hsplit, List.map_cons]
          exact hlater.cons_cons _
        have hle := hstart p (List.mem_cons_self ..)
        refine hcons.trans ?_
        rw [← Nat.add_sub_cancel' hle, ← List.drop_drop]
        exact List.drop_sublist _ _
  have hall := hdrop 0 fun _ _ => Nat.zero_le _
  rwa [List.drop_zero] at hall

/-- What the consumer has received is a front part of what went on the channel. -/
theorem RunLoop.Truthful.received_sublist (hs : s.Truthful) (horder : OwnInOrder s) :
    ((ownOf s.events.received).map Prod.snd).Sublist s.messages.sent := by
  have hsent : ((ownOf s.events.sent).map Prod.snd).Sublist s.messages.received :=
    sublist_of_increasing horder fun p hp => hs.emitted p (List.mem_append_left _ hp)
  have hreceived : ((ownOf s.events.received).map Prod.snd).Sublist
      ((ownOf s.events.sent).map Prod.snd) :=
    (s.events.received_prefix_sent.sublist.filterMap _).map _
  exact (hreceived.trans hsent).trans s.messages.received_prefix_sent.sublist

/-! ## Nothing missing -/

/-- The steps that show a text. -/
def RunLabel.Shows (kind : RunKind) : RunLabel → Prop
  | .takeText _ => kind = .disconnected
  | .written | .drainText => True
  | _ => False

/-- A text that is shown finds room, and one that is sent is written. -/
def Unhindered (json : SerdeJson) (name : String) (kind : RunKind) (cap : ℕ) (s : RunLoop)
    (l : RunLabel) : Prop :=
  (l.Shows kind → s.events.HasRoom cap) ∧ (∀ e, l ≠ .writeFail e) ∧
    ∀ text, l = .takeText text → kind = .connected → Encodes json (.chat name text)

/-- Every text that was taken is on the channel or on its way to the stream. -/
def Complete (s : RunLoop) : Prop :=
  s.pending = [] ∧ (ownOf s.events.sent ++ s.place.held).map Prod.snd = s.messages.received

/-- With room for it a text goes straight to the channel. -/
theorem RunLoop.tryEmit_of_hasRoom (hroom : s.events.HasRoom cap) :
    ownOf (s.tryEmit cap p).events.sent = ownOf s.events.sent ++ [p] ∧
      (s.tryEmit cap p).pending = s.pending := by
  rcases s.tryEmit_cases cap p with ⟨-, hown, hpending⟩ | ⟨hfull, -, -⟩
  · exact ⟨hown, hpending⟩
  · exact absurd hroom hfull

theorem held_outgoing (h : Encodes json (.chat name p.2)) :
    (outgoing json name p).held = [p] := by
  rw [outgoing, h.encodeMessage]
  rfl

theorem RunStep.complete (h : RunStep json name kind cap l s t)
    (hok : Unhindered json name kind cap s l) (hs : Complete s) : Complete t := by
  obtain ⟨hpending, htexts⟩ := hs
  obtain ⟨hroom, hwrites, hfits⟩ := hok
  cases h with
  | shutdown hphase | readerDone hphase | inputClosed hphase | eventsClosed hphase
  | drained hphase =>
      rw [hphase] at htexts
      exact ⟨hpending, htexts⟩
  | @takeText _ text rest hkind hphase _ hqueue =>
      refine ⟨hpending, ?_⟩
      rw [hphase] at htexts
      dsimp only
      rw [held_outgoing (hfits text rfl hkind), Mpsc.pop_of_queue hqueue, List.map_append, ← htexts,
        List.map_append]
      simp [RunPlace.held]
  | @showText _ text rest hkind hphase _ hqueue | @drainText _ text rest hphase hqueue =>
      -- there is room, so nothing is put aside
      obtain ⟨hown, hkept⟩ := RunLoop.tryEmit_of_hasRoom (p := (s.next, text))
        (hroom (by first | exact hkind | trivial))
      refine ⟨hkept.trans hpending, ?_⟩
      rw [hphase] at htexts
      dsimp only
      rw [RunLoop.tryEmit_place, hphase, hown, Mpsc.pop_of_queue hqueue, ← htexts]
      simp [RunPlace.held]
  | @written _ p hphase =>
      obtain ⟨hown, hkept⟩ := RunLoop.tryEmit_of_hasRoom (p := p) (hroom trivial)
      refine ⟨hkept.trans hpending, ?_⟩
      rw [hphase] at htexts
      dsimp only
      rw [RunLoop.tryEmit_messages, hown, ← htexts]
      simp [RunPlace.held]
  | writeFail => exact absurd rfl (hwrites _)
  | flushEvent _ hkept =>
      rw [hpending] at hkept
      simp at hkept
  | flushed hphase =>
      rw [hphase] at htexts
      exact ⟨rfl, htexts⟩
  | hear =>
      refine ⟨hpending, ?_⟩
      rw [ownOf_push_other]
      exact htexts
  | takeEvent =>
      refine ⟨hpending, ?_⟩
      rw [Mpsc.sent_pop]
      exact htexts
  | finish | send | quit | dropSend | closeEvents => exact ⟨hpending, htexts⟩

/-! ## Every run -/

/-- **The own messages come in order exactly if the flush puts none behind a newer one;** in
such a run the consumer receives a part of the texts in the order in which they were sent, and
all of them if the channel has room for each and each is written. -/
theorem own_messages_in_order (json : SerdeJson) (name : String) (kind : RunKind) (cap : ℕ)
    {start : RunLoop} (hstart : start.Begins) (ls : List RunLabel) (s : RunLoop) :
    (Run (Within (RunStep json name kind cap) OwnInOrder) start ls s ↔
      Run (Guarded (RunStep json name kind cap) FlushesNewest) start ls s) ∧
    (Run (Guarded (RunStep json name kind cap) FlushesNewest) start ls s →
      ((ownOf s.events.received).map Prod.snd).Sublist s.messages.sent) ∧
    (Run (Guarded (RunStep json name kind cap) (Unhindered json name kind cap)) start ls s →
      Run (Guarded (RunStep json name kind cap) FlushesNewest) start ls s ∧
        (ownOf s.events.sent ++ s.place.held).map Prod.snd = s.messages.received) := by
  have hempty : OwnInOrder start := by
    rw [OwnInOrder, hstart.own]
    exact List.Pairwise.nil
  have hnothing : Complete start := by
    refine ⟨hstart.pending, ?_⟩
    rw [hstart.own, hstart.place, hstart.received]
    rfl
  have hiff : Run (Within (RunStep json name kind cap) OwnInOrder) start ls s ↔
      Run (Guarded (RunStep json name kind cap) FlushesNewest) start ls s :=
    Run.within_iff (I := RunLoop.Truthful) hstart.truthful hempty
      (fun hs h => h.truthful hs) fun hs horder h => h.ownInOrder_iff hs horder
  refine ⟨hiff, fun hrun => ?_, fun hrun => ?_⟩
  · have htruthful : s.Truthful := hrun.unguard.invariant hstart.truthful
      fun hs h => h.truthful hs
    have horder : OwnInOrder s := (hiff.mpr hrun).invariant (I := OwnInOrder) hempty fun _ h => h.2
    exact htruthful.received_sublist horder
  · -- nothing is ever kept back, so that there is nothing to flush
    have hboth : Complete s ∧
        Run (Guarded (RunStep json name kind cap) FlushesNewest) start ls s := by
      refine Run.history (I := fun ls s => Complete s ∧
        Run (Guarded (RunStep json name kind cap) FlushesNewest) start ls s) hrun
        ⟨hnothing, .nil⟩ ?_
      rintro ls l t u ⟨hs, hrun⟩ ⟨hstep, hok⟩
      refine ⟨hstep.complete hok hs, hrun.snoc ⟨hstep, fun _ rest p hpending => ?_⟩⟩
      rw [hs.1] at hpending
      simp at hpending
    exact ⟨hboth.2, hboth.1.2⟩

/-! ### A channel of capacity one -/

section examples

variable (json : SerdeJson) (name : String)

/-- Two texts are sent and shown while nobody takes events: the second is kept back. -/
theorem run_kept : ∃ s, Run (RunStep json name .disconnected 1) .init
      [.send "a", .send "b", .send "c", .takeText "a", .takeText "b"] s ∧
    s = ⟨.select, ⟨["a", "b"], ["c"], true⟩, true, false, false,
      ⟨[], [.own (0, "a")], true⟩, [(1, "b")]⟩ := by
  have hrun : Run (RunStep json name .disconnected 1) .init [] .init := .nil
  have hrun := hrun.snoc (show RunStep _ _ _ _ (.send "a") _ _ from .send rfl)
  have hrun := hrun.snoc (show RunStep _ _ _ _ (.send "b") _ _ from .send rfl)
  have hrun := hrun.snoc (show RunStep _ _ _ _ (.send "c") _ _ from .send rfl)
  have hrun := hrun.snoc (.showText rfl rfl ⟨rfl, rfl⟩ rfl)
  have hrun := hrun.snoc (.showText rfl rfl ⟨rfl, rfl⟩ rfl)
  exact ⟨_, hrun, rfl⟩

/-- The consumer takes the first event, the third text goes straight to the channel, and the
user quits. -/
theorem run_overtaken : ∃ ls s, Run (RunStep json name .disconnected 1) .init ls s ∧
    (ownOf s.events.received).map Prod.snd = ["a", "c", "b"] ∧
      s.messages.sent = ["a", "b", "c"] := by
  obtain ⟨s, hrun, rfl⟩ := run_kept json name
  have hrun := hrun.snoc (.takeEvent rfl)
  have hrun := hrun.snoc (.showText rfl rfl ⟨rfl, rfl⟩ rfl)
  have hrun := hrun.snoc (.takeEvent rfl)
  have hrun := hrun.snoc .quit
  have hrun := hrun.snoc (.shutdown rfl rfl)
  have hrun := hrun.snoc (.drained rfl rfl)
  have hrun := hrun.snoc (.flushEvent rfl (show _ = [] ++ [(1, "b")] from rfl)
    ⟨rfl, Nat.zero_lt_one⟩)
  have hrun := hrun.snoc (.takeEvent rfl)
  exact ⟨_, _, hrun, rfl, rfl⟩

end examples

/-- Two texts come through, the second one kept back and flushed at the end. -/
theorem own_messages_in_order_kept :
    ∃ ls s, Run (Guarded (RunStep .standard "ann" .disconnected 1) FlushesNewest) .init ls s ∧
      .flushEvent ∈ ls ∧ (ownOf s.events.received).map Prod.snd = ["a", "b"] ∧
      ((ownOf s.events.received).map Prod.snd).Sublist s.messages.sent := by
  have hrun : Run (RunStep .standard "ann" .disconnected 1) .init [] .init := .nil
  have hrun := hrun.snoc (show RunStep _ _ _ _ (.send "a") _ _ from .send rfl)
  have hrun := hrun.snoc (show RunStep _ _ _ _ (.send "b") _ _ from .send rfl)
  have hrun := hrun.snoc (.showText rfl rfl ⟨rfl, rfl⟩ rfl)
  have hrun := hrun.snoc (.showText rfl rfl ⟨rfl, rfl⟩ rfl)
  have hrun := hrun.snoc (.takeEvent rfl)
  have hrun := hrun.snoc .quit
  have hrun := hrun.snoc (.shutdown rfl rfl)
  have hrun := hrun.snoc (.drained rfl rfl)
  have hquiet : Run (Guarded _ FlushesNewest) _ _ _ := hrun.guard (by simp [FlushesNewest])
  -- nothing newer than the text that was kept back has gone on the channel
  have hnewest : ∀ rest p, [] ++ [(1, "b")] = rest ++ [p] → ∀ q ∈ [(0, "a")], q.1 < p.1 := by
    intro rest p hpending q hq
    obtain ⟨-, hp⟩ := List.append_inj' hpending rfl
    rw [List.mem_singleton.mp hq, ← List.singleton_inj.mp hp]
    exact Nat.zero_lt_one
  have hflushed := hquiet.snoc (l := .flushEvent)
    ⟨.flushEvent rfl (show _ = [] ++ [(1, "b")] from rfl) ⟨rfl, Nat.zero_lt_one⟩,
      fun _ => hnewest⟩
  have hguarded := hflushed.snoc (l := .takeEvent) ⟨.takeEvent rfl, nofun⟩
  exact ⟨_, _, hguarded, by simp, rfl, (own_messages_in_order .standard "ann" .disconnected 1
    RunLoop.begins_init _ _).2.1 hguarded⟩

/-- **A text that was kept back comes behind a newer one.** -/
theorem kept_text_overtaken :
    ¬ ∀ json name kind cap ls s, Run (RunStep json name kind cap) .init ls s →
      ((ownOf s.events.received).map Prod.snd).Sublist s.messages.sent := by
  intro hall
  obtain ⟨ls, s, hrun, hreceived, hsent⟩ := run_overtaken .standard "ann"
  have hsub := hall .standard "ann" .disconnected 1 ls s hrun
  rw [hreceived, hsent] at hsub
  exact absurd hsub (by decide)

end Nullpipe

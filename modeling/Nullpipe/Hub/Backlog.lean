import Nullpipe.Hub.Admit

/-!
# The message channel of a running hub

Readers and deregistrations hand their messages to one bounded channel, and only
`next_event` takes from it.  While `run` is under way nobody can call `next_event`,
so the channel fills for good: `readers_stall_iff` says that a reader waits for ever
exactly when it has a message and 128 are in the channel.

To wait for ever is a statement about all runs in which the call of `run` stays under way
(`RunStep`, `Server.Stalled`).

* A full channel stays full (`ServerStep.queue_le`), and a reader with a message has no other
  step to take than to send it (`ServerStep.keeps_message`), so it keeps it.
* If there is room the next step of the reader may be the send, as the channel is open until
  the `Hub` is dropped (`ServerReachable.msgs_open`).

The second half counts: the chat messages that a reader has decoded are those it has relayed
and the one it holds (`chats_relayed`).  So a stalled reader has decoded one chat message more
than it ever relays, if what it holds is one.  At the end a client says 129 things.
-/

namespace Nullpipe.Hub

open Channel Transition Server

variable {X : Crates} {s t : Server} {c : ConnId} {l : ServerLabel}

/-! ## While `run` is under way -/

/-- The steps of a hub that leave the call of `run` under way. -/
def RunStep (X : Crates) (l : ServerLabel) (s t : Server) : Prop :=
  ServerStep X l s t ∧ t.owner = .run

/-- The reader of `c` has a message for the channel and keeps it as long as `run` is
under way. -/
def Server.Stalled (X : Crates) (s : Server) (c : ConnId) : Prop :=
  ∃ msg, (s.tasks c).reader = .sending msg ∧
    ∀ ls t, Run (RunStep X) s ls t → (t.tasks c).reader = .sending msg

/-- The channel stays open until the `Hub` is dropped. -/
def Server.Open (s : Server) : Prop := s.owner ≠ .dropped → s.msgs.isOpen = true

theorem ServerStep.msgs_open (h : ServerStep X l s t) (hs : s.Open) : t.Open := by
  cases h with
  | owner h =>
      cases h with
      | run hfree | cancelRun hfree | sourceEnded hfree =>
          exact fun _ => hs (by rw [hfree]; nofun)
      | broadcastFrames | broadcastPing =>
          obtain ⟨tasks, heq, -⟩ := broadcastMessage_told X.json s _
          rw [heq]
          exact hs
      | drop => exact fun hlive => absurd rfl hlive
      | _ => exact hs
  | conn h => cases h <;> exact hs
  | reader h => cases h <;> exact hs
  | writer h => cases h <;> exact hs
  | shake | arrive | finish | tick => exact hs

theorem ServerReachable.msgs_open (hs : ServerReachable X s) : s.Open := by
  obtain ⟨now, hreach⟩ := hs
  exact hreach.invariant (I := Server.Open) (fun _ => rfl) fun hs h => ServerStep.msgs_open h hs

/-- While `run` is under way nothing leaves the channel. -/
theorem ServerStep.queue_le (h : ServerStep X l s t) (howner : s.owner = .run) :
    s.msgs.queue.length ≤ t.msgs.queue.length := by
  have hpush : ∀ m, s.msgs.queue.length ≤ (s.msgs.push m).queue.length := fun m => by
    simp [Mpsc.push]
  cases h with
  | owner h =>
      cases h with
      | nextEvent hfree =>
          rw [howner] at hfree
          cases hfree
      | broadcastFrames | broadcastPing =>
          obtain ⟨tasks, heq, -⟩ := broadcastMessage_told X.json s _
          rw [heq]
      | _ => exact Nat.le_refl _
  | conn h =>
      cases h with
      | sendLeft => exact hpush _
      | _ => exact Nat.le_refl _
  | reader h =>
      cases h with
      | send => exact hpush _
      | _ => exact Nat.le_refl _
  | writer h => cases h <;> exact Nat.le_refl _
  | shake | arrive | finish | tick => exact Nat.le_refl _

/-- A reader with a message waits for the channel. -/
theorem ServerStep.keeps_message {msg : WireMessage} (h : ServerStep X l s t)
    (hs : s.WellFormed) (hphase : (s.tasks c).reader = .sending msg)
    (hfull : msgChanCap ≤ s.msgs.queue.length)
    (hopen : s.msgs.isOpen = true) : (t.tasks c).reader = .sending msg := by
  by_cases hl : l.of = some c
  · cases h.own hl with
    | accept => rw [tasks_setTasks_self, hphase]
    | shake | arrive | finish => exact hphase
    | conn h =>
        cases h with
        | spawnReader hconn =>
            have hnone := (hs.fits c).reader.mpr (by rw [hconn]; decide)
            rw [hphase] at hnone
            cases hnone
        | _ => simp only [tasks_setTasks_self, hphase]
    | reader h =>
        cases h with
        | send _ _ hroom => exact absurd hroom.2 (Nat.not_lt.mpr hfull)
        | sendClosed _ hclosed =>
            rw [hopen] at hclosed
            cases hclosed
        | _ hother => cases hphase.symm.trans hother
    | writer h => cases h <;> simp only [tasks_setTasks_self, hphase]
  · rw [(h.frame hl).1.reader]
    exact hphase

theorem RunStep.keeps_message {msg : WireMessage} {ls : List ServerLabel}
    (hrun : Run (RunStep X) s ls t) (hs : ServerReachable X s) (howner : s.owner = .run)
    (hphase : (s.tasks c).reader = .sending msg) (hfull : msgChanCap ≤ s.msgs.queue.length) :
    (t.tasks c).reader = .sending msg := by
  refine (hrun.invariant (I := fun t => t.WellFormed ∧ t.Open ∧ t.owner = .run ∧
    msgChanCap ≤ t.msgs.queue.length ∧ (t.tasks c).reader = .sending msg)
    ⟨hs.wellFormed, hs.msgs_open, howner, hfull, hphase⟩ ?_).2.2.2.2
  rintro l t u ⟨hwell, hopen, howner, hfull, hphase⟩ ⟨hstep, howner'⟩
  have hlive : t.msgs.isOpen = true := hopen (by rw [howner]; nofun)
  exact ⟨hstep.wellFormed hwell, hstep.msgs_open hopen, howner',
    hfull.trans (hstep.queue_le howner), hstep.keeps_message hwell hphase hfull hlive⟩

/-- **A reader that has a message waits for ever if and only if the channel is full.** -/
theorem stalled_iff {msg : WireMessage} (hs : ServerReachable X s) (howner : s.owner = .run)
    (hphase : (s.tasks c).reader = .sending msg) :
    s.Stalled X c ↔ msgChanCap ≤ s.msgs.queue.length := by
  constructor
  · rintro ⟨msg', hphase', hwaits⟩
    by_contra hroom
    -- with room in the channel the next step of the reader can be to send
    have hstage : 2 ≤ (s.tasks c).conn.stage := by
      by_contra hlow
      have hnone := (hs.wellFormed.fits c).reader.mpr (by omega)
      rw [hphase] at hnone
      cases hnone
    obtain ⟨id, name, hadm⟩ := (hs.wellFormed.fits c).admitted hstage
    have hlive : s.msgs.isOpen = true := hs.msgs_open (by rw [howner]; nofun)
    have hsend : RunStep X (.reader c .send) s _ :=
      ⟨.reader (.send hphase hadm ⟨hlive, Nat.lt_of_not_le hroom⟩), howner⟩
    have hstuck := hwaits _ _ (.single hsend)
    simp only [tasks_setTasks_self, afterSend] at hstuck
    split at hstuck <;> cases hstuck
  · intro hfull
    exact ⟨msg, hphase, fun ls t hrun => RunStep.keeps_message hrun hs howner hphase hfull⟩

/-! ## Decoded and relayed -/

/-- The reader of `c` decodes a chat message. -/
def ServerLabel.ChatBy (c : ConnId) : ServerLabel → Prop
  | .reader d (.message _ msg) => d = c ∧ msg.kind = .chat
  | _ => False

instance (c : ConnId) : DecidablePred (ServerLabel.ChatBy c)
  | .reader d (.message _ msg) => inferInstanceAs (Decidable (d = c ∧ msg.kind = .chat))
  | .reader _ .start | .reader _ (.read _) | .reader _ (.ping _) | .reader _ (.malformed _)
  | .reader _ .readFail | .reader _ .readTimeout | .reader _ .pong | .reader _ .send
  | .reader _ .sendClosed | .reader _ .relay | .owner _ | .shake .. | .conn .. | .writer ..
  | .arrive .. | .finish .. | .tick _ => .isFalse id

/-- The chat messages that a reader has decoded and not yet relayed. -/
def Reader.held : Reader → ℕ
  | .sending msg => if msg.kind = .chat then 1 else 0
  | .relaying _ => 1
  | _ => 0

theorem held_afterSend (msg : WireMessage) (now : ℕ) :
    (afterSend msg now).held = (Reader.sending msg).held := by
  unfold afterSend
  by_cases hkind : msg.kind = .chat
  · rw [if_pos hkind]
    exact (if_pos hkind).symm
  · rw [if_neg hkind]
    exact (if_neg hkind).symm

/-- A reader holds what it decodes until it relays it. -/
theorem ServerStep.held (h : ServerStep X l s t) (hs : s.WellFormed) :
    (t.tasks c).reader.held + (if l = .reader c .relay then 1 else 0) =
      (s.tasks c).reader.held + if l.ChatBy c then 1 else 0 := by
  by_cases hl : l.of = some c
  · cases h.own hl with
    | accept =>
        rw [tasks_setTasks_self]
        rfl
    | shake | arrive | finish => rfl
    | conn h =>
        cases h with
        | spawnReader hconn =>
            rw [tasks_setTasks_self, (hs.fits c).reader.mpr (by rw [hconn]; decide)]
            rfl
        | _ =>
            simp only [tasks_setTasks_self]
            rfl
    | reader h =>
        cases h with
        | message hphase =>
            simp only [tasks_setTasks_self, hphase, ServerLabel.ChatBy, true_and]
            simp [Reader.held]
        | send hphase | sendClosed hphase =>
            simp [hphase, held_afterSend, ServerLabel.ChatBy]
        | relay hphase =>
            simp [hphase, Reader.held, ServerLabel.ChatBy]
        | start hphase | read hphase | ping hphase | badFrame hphase | badMessage hphase
        | readFail hphase | readTimeout hphase | pong hphase =>
            simp [hphase, Reader.held, ServerLabel.ChatBy]
    | writer h =>
        cases h <;>
          · simp only [tasks_setTasks_self]
            rfl
  -- a step of somebody else leaves the reader alone
  · have hrelay : l ≠ .reader c .relay := by
      rintro rfl
      exact hl rfl
    have hchat : ¬ l.ChatBy c := by
      intro hchat
      cases l with
      | reader d l =>
          cases l with
          | message =>
              obtain ⟨rfl, -⟩ := hchat
              exact hl rfl
          | _ => cases hchat
      | _ => cases hchat
    rw [(h.frame hl).1.reader, if_neg hrelay, if_neg hchat]

theorem chats_relayed {now : ℕ} {ls : List ServerLabel} (hrun : ServerRun X (.init now) ls s)
    (c : ConnId) :
    ls.countP (·.ChatBy c) = ls.count (.reader c .relay) + (s.tasks c).reader.held := by
  refine (Run.history (I := fun ls s => s.WellFormed ∧
    ls.countP (·.ChatBy c) = ls.count (.reader c .relay) + (s.tasks c).reader.held) hrun
    ⟨wellFormed_init now, rfl⟩ ?_).2
  rintro ls l s t ⟨hwell, hcount⟩ hstep
  refine ⟨hstep.wellFormed hwell, ?_⟩
  have hheld := hstep.held (c := c) hwell
  rw [List.countP_append, List.count_append, List.countP_singleton, List.count_singleton]
  simp only [decide_eq_true_eq, beq_iff_eq]
  omega

/-! ## Readers that wait for ever -/

/-- **`run` stalls a reader exactly when 128 messages are in the channel and the reader has
another**; what a reader has decoded as chat it has relayed, up to the message it holds. -/
theorem readers_stall_iff {now : ℕ} {ls : List ServerLabel}
    (hrun : ServerRun X (.init now) ls s) (howner : s.owner = .run) :
    ((∀ c, ¬ s.Stalled X c) ↔
      s.msgs.queue.length < msgChanCap ∨ ∀ c msg, (s.tasks c).reader ≠ .sending msg) ∧
    ∀ c, ls.countP (·.ChatBy c) = ls.count (.reader c .relay) + (s.tasks c).reader.held := by
  have hs : ServerReachable X s := ⟨now, hrun.reachable⟩
  refine ⟨⟨fun hnone => ?_, fun hroom c hstalled => ?_⟩, chats_relayed hrun⟩
  · by_contra hfull
    push Not at hfull
    obtain ⟨hfull, c, msg, hphase⟩ := hfull
    exact hnone c ((stalled_iff hs howner hphase).mpr hfull)
  · obtain ⟨msg, hphase, -⟩ := id hstalled
    rcases hroom with hroom | hnobody
    · exact absurd ((stalled_iff hs howner hphase).mp hstalled) (Nat.not_le.mpr hroom)
    · exact hnobody c msg hphase

theorem readers_stall_iff_attended : ¬ Server.attended.Stalled .standard 0 :=
  (readers_stall_iff run_attend rfl).1.mpr (.inl (by decide)) 0

/-! ### A client that talks too much -/

/-- The client of the hub has said `n` things, all of which lie in the channel. -/
structure Server.Talked (s : Server) (n : ℕ) : Prop where
  owner : s.owner = .run
  reader : ∃ deadline, (s.tasks 0).reader = .reading [] deadline
  inbox : (s.sock 0).inbox = []
  readEnd : (s.sock 0).readEnd = none
  admitted : s.Admitted 0 (peerId .standard (.fill 7)) (peerName .standard (.fill 7))
  rx : s.msgs.isOpen = true
  queue : s.msgs.queue.length = n

theorem talked_attended : Server.attended.Talked 0 :=
  ⟨rfl, ⟨_, rfl⟩, rfl, rfl, rfl, rfl, rfl⟩

/-- There is room for 128 messages. -/
theorem exists_run_talk {n : ℕ} (hn : n ≤ msgChanCap) :
    ∃ ls t, ServerRun .standard (.init 0) ls t ∧ t.Talked n := by
  induction n with
  | zero => exact ⟨_, _, run_attend, talked_attended⟩
  | succ n ih =>
      obtain ⟨ls, t, hrun, htalked⟩ := ih (by omega)
      obtain ⟨deadline, hreader⟩ := htalked.reader
      have hmore : ServerRun .standard t _ _ :=
        run_relay hreader htalked.inbox htalked.readEnd htalked.admitted
          (show Encodes _ (.chat "ann" "hi") by decide) rfl
            ⟨htalked.rx, by rw [htalked.queue]; omega⟩
      refine ⟨_, _, hrun.append hmore, htalked.owner, ⟨_, by rw [tasks_relayed]⟩, ?_, ?_, ?_,
        htalked.rx, ?_⟩
      · rw [sock_relayed]
        exact htalked.inbox
      · rw [sock_relayed]
        exact htalked.readEnd
      · rw [Admitted, phase_relayed]
        exact htalked.admitted
      · exact (List.length_append ..).trans (congrArg (· + 1) htalked.queue)

/-- Behind 128 messages the reader of the hub waits for ever with the next, a chat message
that is never relayed. -/
theorem full_channel_stalls :
    ∃ ls s, ServerRun .standard (.init 0) ls s ∧ s.owner = .run ∧ s.Stalled .standard 0 ∧
      (s.tasks 0).reader = .sending (.chat "ann" "hi") := by
  obtain ⟨ls, t, hrun, htalked⟩ := exists_run_talk (Nat.le_refl msgChanCap)
  obtain ⟨deadline, hreader⟩ := htalked.reader
  have hmore : ServerRun .standard t _ _ :=
    run_hear hreader htalked.inbox htalked.readEnd
      (show Encodes _ (.chat "ann" "hi") by decide) nofun
  have hrun := hrun.append hmore
  have hphase : ((t.heard .standard 0 (.chat "ann" "hi")).tasks 0).reader =
      .sending (.chat "ann" "hi") := by
    rw [Server.heard, tasks_setTasks_self]
  refine ⟨_, _, hrun, htalked.owner, ?_, hphase⟩
  exact (stalled_iff ⟨0, hrun.reachable⟩ htalked.owner hphase).mpr (Nat.le_of_eq htalked.queue.symm)

end Nullpipe.Hub

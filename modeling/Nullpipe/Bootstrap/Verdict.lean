import Nullpipe.Bootstrap.Step

/-!
# What a bootstrap returns

`bootstrap_with_shutdown` takes a progress of 100 for success.  There are two sources of it on
the stream: the event for the result of the future and a full status.  So a failed bootstrap is
returned exactly if the task has forwarded a full status before the future failed, and
everything is read to the end.

`Boot.Sound` ties the stream to what was put on it: whoever has not returned still reads it, a
result is on it before the task ends, and a progress of 100 on it comes from a full status or
from success.  An event that the task has made and not sent yet counts as on the stream
(`Boot.offered`), so that a wait for room changes nothing.  `Boot.Clean` is about the client and
is simpler: who has not got one, or has given it up, holds none.

With the first of these the flag of the caller is known when the stream ends
(`Boot.Sound.bootstrapOk_iff`), and a step that returns `Some` is honest exactly if it is not
one of `FailsShort`.  `bootstrap_verdict` is this for runs.
-/

namespace Nullpipe

open Channel Transition

variable {Client : Type} {l : BootLabel} {s t : Boot Client}

/-! ## What the stream carries -/

/-- The event the forwarding task has made and not sent yet. -/
def BootTask.held : BootTask → List ChatEvent
  | .emit event | .last event => [event]
  | _ => []

/-- The events on the stream, and the one that is to come. -/
def Boot.offered (s : Boot Client) : List ChatEvent := s.stream.sent ++ s.task.held

theorem resultEvent_eq_hundred_iff {result : Except String Unit} :
    resultEvent result = .bootstrapProgress 100 ↔ result = .ok () := by
  cases result with
  | ok u => exact iff_of_true rfl rfl
  | error e => exact iff_of_false (by simp [resultEvent]) (by simp)

theorem hundred_eq_percent_iff {f : Fraction} :
    ChatEvent.bootstrapProgress 100 = .bootstrapProgress f.percent ↔ f.Full := by
  rw [ChatEvent.bootstrapProgress.injEq, eq_comm, Fraction.percent_eq_hundred_iff]

/-- Some status that the forwarding task has taken is full. -/
def Boot.SawFull (s : Boot Client) : Prop := ∃ f ∈ s.statuses.received, f.Full

/-- Whoever has not returned still reads the stream, a result is on it before the task ends,
and a progress of 100 on it comes from a full status or from success. -/
structure Boot.Sound (s : Boot Client) : Prop where
  unspawned : s.main = .start → s.task = .notSpawned
  reading : s.stream.isOpen = true ∨ ∃ result, s.main = .returned result
  ok : s.bootstrapOk = true ↔ .bootstrapProgress 100 ∈ s.stream.received
  source : .bootstrapProgress 100 ∈ s.offered → s.SawFull ∨ s.future = some (.ok ())
  status : s.stream.isOpen = true →
    ∀ f ∈ s.statuses.received, .bootstrapProgress f.percent ∈ s.offered
  last : ∀ event, s.task = .last event →
    ∃ result, s.future = some result ∧ event = resultEvent result
  done : s.stream.isOpen = true → s.task = .done →
    ∃ result, s.future = some result ∧ resultEvent result ∈ s.stream.sent

theorem Boot.sound_init (events : Mpsc ChatEvent) (shutdown : Bool) :
    (Boot.init events shutdown : Boot Client).Sound where
  unspawned _ := rfl
  reading := .inl rfl
  ok := iff_of_false (by simp [init]) (by simp [init, Mpsc.empty])
  source h := by simp [offered, init, BootTask.held] at h
  status _ f hf := by simp [init, Mpsc.empty] at hf
  last _ h := by simp [init] at h
  done _ h := by simp [init] at h

/-- Dropping the stream keeps what is known of it. -/
theorem Boot.Sound.leave (hs : s.Sound) {result : Option (TorBootstrap Client)}
    {tor : TorBootstrap Client} :
    Boot.Sound { s with main := .returned result, tor, stream := s.stream.close } where
  unspawned h := by cases h
  reading := .inr ⟨result, rfl⟩
  ok := hs.ok
  source := hs.source
  status h := by cases h
  last := hs.last
  done h := by cases h

/-- What the task sends moves to the stream; the first event is no progress of 100. -/
theorem BootTask.sending_cases {task next : BootTask} {event : ChatEvent}
    (h : task.sending = some (event, next)) :
    (task = .first ∧ event = .bootstrapProgress 0 ∧ next = .select) ∨
      (task = .emit event ∧ next = .select) ∨ (task = .last event ∧ next = .done) := by
  unfold sending at h
  split at h
  · cases h
    exact .inl ⟨rfl, rfl, rfl⟩
  · cases h
    exact .inr (.inl ⟨rfl, rfl⟩)
  · cases h
    exact .inr (.inr ⟨rfl, rfl⟩)
  all_goals cases h

theorem Boot.Sound.taskSend (hs : s.Sound) {event : ChatEvent} {next : BootTask}
    (htask : s.task.sending = some (event, next)) :
    Boot.Sound { s with task := next, stream := s.stream.push event } := by
  rcases BootTask.sending_cases htask with ⟨hat, rfl, rfl⟩ | ⟨hat, rfl⟩ | ⟨hat, rfl⟩
  · refine ⟨fun h => ?_, hs.reading, hs.ok, fun h => hs.source ?_, fun hopen f hf => ?_,
      by simp, by simp⟩
    · rw [hs.unspawned h] at hat
      cases hat
    · simpa [offered, BootTask.held, hat] using h
    · have := hs.status hopen f hf
      simp only [offered, BootTask.held, hat, List.append_nil] at this
      simp only [offered, BootTask.held, Mpsc.sent_push, List.append_nil]
      exact List.mem_append_left _ this
  -- what is sent was offered before, so nothing but the place of the task changes
  · have hoffered : Boot.offered { s with task := .select, stream := s.stream.push event } =
        s.offered := by
      simp [offered, BootTask.held, hat]
    refine ⟨fun h => ?_, hs.reading, hs.ok, fun h => hs.source (hoffered ▸ h),
      fun hopen f hf => hoffered ▸ hs.status hopen f hf, by simp, by simp⟩
    rw [hs.unspawned h] at hat
    cases hat
  · have hoffered : Boot.offered { s with task := .done, stream := s.stream.push event } =
        s.offered := by
      simp [offered, BootTask.held, hat]
    obtain ⟨result, hfuture, rfl⟩ := hs.last event hat
    refine ⟨fun h => ?_, hs.reading, hs.ok, fun h => hs.source (hoffered ▸ h),
      fun hopen f hf => hoffered ▸ hs.status hopen f hf, by simp, fun _ _ => ?_⟩
    · rw [hs.unspawned h] at hat
      cases hat
    · refine ⟨result, hfuture, ?_⟩
      rw [Mpsc.sent_push]
      exact List.mem_append_right _ (List.mem_singleton_self _)

/-- A new event to be sent: a status that was taken or the result. -/
theorem Boot.Sound.taskResult (hs : s.Sound) {result : Except String Unit}
    (htask : s.task = .select) (hfuture : s.future = some result) :
    Boot.Sound { s with task := .last (resultEvent result) } := by
  have hheld : s.offered = s.stream.sent := by simp [offered, BootTask.held, htask]
  refine { hs with
    unspawned := fun h => ?_
    source := fun h => ?_
    status := fun hopen f hf => List.mem_append_left _ (hheld ▸ hs.status hopen f hf)
    last := fun event h => ?_
    done := by simp }
  · rw [hs.unspawned h] at htask
    cases htask
  · rcases List.mem_append.mp h with hsent | hnew
    · exact hs.source (hheld ▸ hsent)
    · refine .inr (hfuture.trans (congrArg some ?_))
      exact resultEvent_eq_hundred_iff.mp (List.mem_singleton.mp hnew).symm
  · cases h
    exact ⟨result, hfuture, rfl⟩

theorem Boot.Sound.taskStatus (hs : s.Sound) {f : Fraction} {rest : List Fraction}
    (htask : s.task = .select) (hqueue : s.statuses.queue = f :: rest) :
    Boot.Sound { s with
      task := .emit (.bootstrapProgress f.percent), statuses := s.statuses.pop } := by
  have hheld : s.offered = s.stream.sent := by simp [offered, BootTask.held, htask]
  have htaken : s.statuses.pop.received = s.statuses.received ++ [f] := by
    rw [Mpsc.pop_of_queue hqueue]
  refine { hs with
    unspawned := fun h => ?_
    source := fun h => ?_
    status := fun hopen g hg => ?_
    last := by simp
    done := by simp }
  · rw [hs.unspawned h] at htask
    cases htask
  · unfold Boot.SawFull
    dsimp only
    rw [htaken]
    rcases List.mem_append.mp h with hsent | hnew
    · refine (hs.source (hheld ▸ hsent)).imp_left fun ⟨g, hg, hfull⟩ => ?_
      exact ⟨g, List.mem_append_left _ hg, hfull⟩
    · refine .inl ⟨f, List.mem_append_right _ (List.mem_singleton_self _), ?_⟩
      exact hundred_eq_percent_iff.mp (List.mem_singleton.mp hnew)
  · dsimp only at hg
    rw [htaken] at hg
    rcases List.mem_append.mp hg with hg | hg
    · exact List.mem_append_left _ (hheld ▸ hs.status hopen g hg)
    · cases List.mem_singleton.mp hg
      exact List.mem_append_right _ (List.mem_singleton_self _)

theorem BootStep.sound (h : BootStep l s t) (hs : s.Sound) : t.Sound := by
  cases h with
  | @start _ _ tor hphase =>
      have hoffered : Boot.offered { s with main := .select, tor, task := .first } = s.offered := by
        rw [Boot.offered, Boot.offered, hs.unspawned hphase]
        rfl
      refine ⟨by simp, hs.reading.imp_right fun ⟨r, h⟩ => ?_, hs.ok,
        fun h => hs.source (hoffered ▸ h),
        fun hopen f hf => hoffered ▸ hs.status hopen f hf, by simp, by simp⟩
      rw [hphase] at h
      cases h
  | startFail hphase =>
      refine { hs with
        unspawned := by simp
        reading := hs.reading.imp_right fun ⟨r, h⟩ => ?_ }
      rw [hphase] at h
      cases h
  | errorEmitted | errorDropped =>
      exact { hs with unspawned := by simp, reading := .inr ⟨_, rfl⟩ }
  | shutdown | receiverGone => exact hs.leave
  | @takeEvent _ event rest hphase _ hqueue =>
      -- the flag is set by a progress of 100, and this event is one or is not
      have hok : (s.bootstrapOk || decide (event = .bootstrapProgress 100)) = true ↔
          .bootstrapProgress 100 ∈ s.stream.pop.received := by
        rw [Bool.or_eq_true, decide_eq_true_eq, Mpsc.pop_of_queue hqueue, hs.ok, List.mem_append,
          List.mem_singleton, eq_comm (a := ChatEvent.bootstrapProgress 100)]
      have hsent : s.stream.pop.sent = s.stream.sent := Mpsc.sent_pop s.stream
      have hreading : s.stream.isOpen = true := hs.reading.resolve_right fun ⟨r, h⟩ => by
        rw [hphase] at h
        cases h
      exact {
        unspawned := by simp
        reading := .inl hreading
        ok := hok
        source := fun h => hs.source (by simpa only [Boot.offered, hsent] using h)
        status := fun hopen f hf => by
          simpa only [Boot.offered, hsent] using hs.status hopen f hf
        last := hs.last
        done := fun hopen hdone => by simpa only [hsent] using hs.done hopen hdone }
  | emitted hphase =>
      refine { hs with
        unspawned := by simp
        reading := hs.reading.imp_right fun ⟨r, h⟩ => ?_ }
      rw [hphase] at h
      cases h
  | endOfStream =>
      unfold Boot.conclude
      split
      · exact hs.leave
      · exact hs.leave
  | taskResult htask hfuture => exact hs.taskResult htask hfuture
  | taskStatus htask _ hqueue => exact hs.taskStatus htask hqueue
  | taskSend htask => exact hs.taskSend htask
  | taskStop htask hclosed =>
      -- the stream is closed, and nothing is said of it any more
      have hshut : s.stream.isOpen ≠ true := by simp [hclosed]
      refine { hs with
        unspawned := fun h => ?_
        source := fun h => hs.source (List.mem_append_left _ ?_)
        status := fun hopen => absurd hopen hshut
        last := by simp
        done := fun hopen => absurd hopen hshut }
      · rw [hs.unspawned h] at htask
        cases htask
      · simpa [Boot.offered, BootTask.held] using h
  | complete hfuture =>
      -- before this the future had no result, which rules out two of the places of the task
      refine { hs with
        source := fun h => .inl ?_
        last := fun event h => ?_
        done := fun hopen hdone => ?_ }
      · rcases hs.source h with hfull | hok
        · exact hfull
        · rw [hfuture] at hok
          cases hok
      · obtain ⟨_, hsome, _⟩ := hs.last event h
        rw [hfuture] at hsome
        cases hsome
      · obtain ⟨_, hsome, _⟩ := hs.done hopen hdone
        rw [hfuture] at hsome
        cases hsome
  | publish | quit | consume | closeEvents => exact { hs with }

/-! ## The client -/

/-- Who has not got a client, or has given it up, holds none. -/
def Boot.Clean (s : Boot Client) : Prop :=
  match s.main with
  | .start | .emitError _ | .returned none => s.tor.client = none
  | .select | .emit _ | .returned (some _) => True

theorem BootStep.clean (h : BootStep l s t) (hs : s.Clean) : t.Clean := by
  unfold Boot.Clean at hs
  cases h with
  | startFail hphase hboot =>
      rw [hphase] at hs
      exact (TorBootstrap.client_of_bootstrap_error hboot).trans hs
  | errorEmitted hphase | errorDropped hphase =>
      rw [hphase] at hs
      exact hs
  | shutdown | receiverGone => exact rfl
  | endOfStream =>
      unfold Boot.conclude
      split
      · exact trivial
      · exact rfl
  | start | takeEvent | emitted => exact trivial
  | taskResult | taskStatus | taskSend | taskStop | publish | complete | quit | consume
  | closeEvents => exact hs

/-! ## The verdict -/

/-- `Some` is returned for success only. -/
def Boot.Honest (s : Boot Client) : Prop :=
  ∀ tor, s.main = .returned (some tor) → s.future = some (.ok ())

/-- When the end of the stream is read and the future has failed, no full status has been
taken. -/
def FailsShort (s : Boot Client) (l : BootLabel) : Prop :=
  l = .endOfStream → ∀ e, s.future = some (.error e) → ¬ s.SawFull

/-- At the end of the stream everything that was offered has been read. -/
theorem Boot.Sound.bootstrapOk_iff (hs : s.Sound) (hphase : s.main = .select)
    (hqueue : s.stream.queue = []) (htask : s.task = .done) :
    ∃ result, s.future = some result ∧
      (s.bootstrapOk = true ↔ s.SawFull ∨ result = .ok ()) := by
  have hopen : s.stream.isOpen = true := by
    rcases hs.reading with hopen | ⟨r, hreturned⟩
    · exact hopen
    · rw [hphase] at hreturned
      cases hreturned
  have hread : s.stream.sent = s.stream.received := by
    rw [Mpsc.sent, hqueue, List.append_nil]
  have hoffered : s.offered = s.stream.received := by
    rw [offered, htask, hread]
    exact List.append_nil _
  obtain ⟨result, hfuture, hresult⟩ := hs.done hopen htask
  refine ⟨result, hfuture, ?_⟩
  rw [hs.ok, ← hoffered]
  constructor
  · intro h
    refine (hs.source h).imp_right fun hok => ?_
    rw [hfuture] at hok
    exact Option.some.inj hok
  · rintro (⟨f, hf, hfull⟩ | rfl)
    · rw [hundred_eq_percent_iff.mpr hfull]
      exact hs.status hopen f hf
    · rw [hoffered, ← hread]
      exact hresult

theorem BootStep.honest_iff (h : BootStep l s t) (hs : s.Sound) (hhonest : s.Honest) :
    t.Honest ↔ FailsShort s l := by
  cases h with
  | endOfStream hphase _ hqueue htask =>
      obtain ⟨result, hfuture, hiff⟩ := hs.bootstrapOk_iff hphase hqueue htask
      unfold Boot.conclude
      cases result with
      | ok u =>
          refine iff_of_true ?_ fun _ e he => ?_
          · rw [if_pos (hiff.mpr (.inr rfl))]
            exact fun _ _ => hfuture
          · rw [hfuture] at he
            cases he
      | error e =>
          have hok : s.bootstrapOk = true ↔ s.SawFull := hiff.trans (by simp)
          -- the future has failed: only a full status can have set the flag
          by_cases hfull : s.SawFull
          · rw [if_pos (hok.mpr hfull)]
            refine iff_of_false (fun h => ?_) fun h => h rfl e hfuture hfull
            have := h s.tor rfl
            rw [hfuture] at this
            cases this
          · rw [if_neg fun h => hfull (hok.mp h)]
            exact iff_of_true (by simp [Boot.Honest, Boot.giveUp]) fun _ _ _ => hfull
  | complete hfuture =>
      refine iff_of_true (fun tor htor => ?_) (by simp [FailsShort])
      have := hhonest tor htor
      rw [hfuture] at this
      cases this
  | start | startFail | errorEmitted | errorDropped | shutdown | takeEvent | emitted
  | receiverGone => exact iff_of_true (by simp [Boot.Honest, Boot.giveUp]) (by simp [FailsShort])
  | taskResult | taskStatus | taskSend | taskStop | publish | quit | consume | closeEvents =>
      exact iff_of_true hhonest (by simp [FailsShort])

/-- **`Some` is returned for success only exactly if no future fails behind a full status;**
and with `None` the client is always given up. -/
theorem bootstrap_verdict (Client : Type) (events : Mpsc ChatEvent) (shutdown : Bool)
    (ls : List BootLabel) (s : Boot Client) :
    (Run (Within BootStep Boot.Honest) (Boot.init events shutdown) ls s ↔
      Run (Guarded BootStep FailsShort) (Boot.init events shutdown) ls s) ∧
    (Run BootStep (Boot.init events shutdown) ls s → s.main = .returned none →
      s.tor.client = none) := by
  constructor
  · exact Run.within_iff (I := Boot.Sound) (Boot.sound_init events shutdown)
      (by simp [Boot.Honest, Boot.init]) (fun hs h => h.sound hs)
      fun hs hhonest h => h.honest_iff hs hhonest
  · intro hrun hnone
    have hclean : s.Clean := hrun.invariant (I := Boot.Clean) rfl fun hs h => h.clean hs
    unfold Boot.Clean at hclean
    rw [hnone] at hclean
    exact hclean

/-- A setup in which everything works. -/
def BootSetup.works : BootSetup Unit :=
  ⟨none, .ok "/tmp/ephemeral-chat-", .ok (), .ok (), .ok (), .ok ()⟩

/-- The user quits while the client bootstraps. -/
theorem bootstrap_verdict_quit : ∃ ls s,
    Run (Within BootStep Boot.Honest) (Boot.init .empty false : Boot Unit) ls s ∧
      s.main = .returned none ∧ s.tor.client = none := by
  have hrun : Run BootStep (Boot.init .empty false : Boot Unit) [] _ := .nil
  have hrun := hrun.snoc (.start rfl (show TorBootstrap.new.bootstrap BootSetup.works = _ from rfl))
  have hrun := hrun.snoc .quit
  have hrun := hrun.snoc (.shutdown rfl rfl)
  have hguarded : Run (Guarded _ FailsShort) _ _ _ := hrun.guard (by simp [FailsShort])
  obtain ⟨hiff, hclient⟩ := bootstrap_verdict Unit .empty false _ _
  exact ⟨_, _, hiff.mpr hguarded, rfl, hclient hrun rfl⟩

/-- The task forwards a full status; then the future fails, and the task ends. -/
theorem run_failing : ∃ ls s, Run BootStep (Boot.init .empty false : Boot Unit) ls s ∧
    s = ⟨.select, ⟨some (), true, some "/tmp/ephemeral-chat-"⟩, false, .done,
      ⟨[.one], [], true⟩, some (.error "no guards"),
      ⟨[], [.bootstrapProgress 0, .bootstrapProgress 100,
        .error (.connection "bootstrap failed: no guards")], true⟩, false, .empty⟩ := by
  have hrun : Run BootStep (Boot.init .empty false : Boot Unit) [] _ := .nil
  have hrun := hrun.snoc (.start rfl (show TorBootstrap.new.bootstrap BootSetup.works = _ from rfl))
  have hrun := hrun.snoc (.taskSend rfl ⟨rfl, by decide⟩)
  have hrun := hrun.snoc (show BootStep (.publish .one) _ _ from .publish)
  have hrun := hrun.snoc (.taskStatus rfl rfl rfl)
  have hrun := hrun.snoc (.taskSend rfl ⟨rfl, by decide⟩)
  have hrun := hrun.snoc (show BootStep (.complete (.error "no guards")) _ _ from .complete rfl)
  have hrun := hrun.snoc (.taskResult rfl rfl)
  have hrun := hrun.snoc (.taskSend rfl ⟨rfl, by decide⟩)
  have hpercent : Fraction.one.percent = 100 := Fraction.percent_eq_hundred_iff.mpr rfl
  refine ⟨_, _, hrun, ?_⟩
  simp only [hpercent]
  rfl

/-- **A full status, and then the future fails.** -/
theorem failure_returned :
    ¬ ∀ (events : Mpsc ChatEvent) (shutdown : Bool) (ls : List BootLabel) (s : Boot Unit),
      Run BootStep (Boot.init events shutdown) ls s →
        ∀ tor, s.main = .returned (some tor) → s.future = some (.ok ()) := by
  intro hall
  obtain ⟨ls, s, hrun, rfl⟩ := run_failing
  have hrun := hrun.snoc (.takeEvent rfl rfl rfl)
  have hrun := hrun.snoc (.emitted rfl ⟨rfl, by decide⟩)
  have hrun := hrun.snoc (.takeEvent rfl rfl rfl)
  have hrun := hrun.snoc (.emitted rfl ⟨rfl, by decide⟩)
  have hrun := hrun.snoc (.takeEvent rfl rfl rfl)
  have hrun := hrun.snoc (.emitted rfl ⟨rfl, by decide⟩)
  have hrun := hrun.snoc (.endOfStream rfl rfl rfl rfl)
  have hok := hall _ _ _ _ hrun _ rfl
  cases hok

end Nullpipe

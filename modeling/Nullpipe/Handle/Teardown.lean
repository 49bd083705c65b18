import Nullpipe.Handle.Lifetime

/-!
# Tor is torn down

The slot with the Tor client is filled by the background task and emptied by `do_quit`, which
acts once, and by the background task at its end.  A `quit` that comes before the slot is filled
empties nothing, so all depends on the end of the task.  `host_task` and `joiner_task` empty the
slot there, but `joiner_task` leaves it full when it returns early because the connection
failed.

`TornDown` is the promise: when a call of `quit` has returned and the background task has ended,
the slot is empty.  `Tidy` is a condition on a step in the state before it, and it says exactly
which steps keep the promise, one direction each in `LifeStep.tornDown` and `LifeStep.tidy`.
Both rest on one invariant, that the slot is empty where the task has nothing in it
(`SlotBare`).  Hence `tor_torn_down_iff` for runs.

A host does not connect, so every step of a host room is tidy in effect
(`LifeReachable.host_tornDown`).
-/

namespace Nullpipe

open Life Transition

variable {side : Side} {s t : Life} {c : CallId} {l : LifeLabel}

/-! ## The slot -/

/-- Before the slot is filled, and when the client was missing from it, it is empty. -/
def RoomTask.Bare : RoomTask → Prop
  | .bootstrap | .bootstrapped | .noClient => True
  | _ => False

/-- The slot is empty where the background task has nothing in it. -/
def SlotBare (s : Life) : Prop := s.task.Bare → s.tor = false

theorem tor_signal (s : Life) : s.signal.tor = s.tor ∧ s.signal.task = s.task := by
  unfold Life.signal
  split <;> exact ⟨rfl, rfl⟩

/-- Handles and calls never fill the slot. -/
theorem RoomHandleStep.tor {h : HandleId} {l : RoomHandleLabel} (hstep : RoomHandleStep h l s t) :
    t.task = s.task ∧ (s.tor = false → t.tor = false) := by
  cases hstep with
  | send => exact ⟨(tor_signal s).2, fun htor => (tor_signal s).1.trans htor⟩
  | take => exact ⟨rfl, fun _ => rfl⟩
  | freeWatch =>
      refine ⟨rfl, fun htor => ?_⟩
      show (if s.task = .ended then false else s.tor) = false
      rw [htor, ite_self]
  | _ => exact ⟨rfl, id⟩

theorem QuitStep.tor {l : QuitLabel} (hstep : QuitStep c l s t) :
    t.task = s.task ∧ (s.tor = false → t.tor = false) := by
  cases hstep with
  | send => exact ⟨(tor_signal s).2, fun htor => (tor_signal s).1.trans htor⟩
  | take => exact ⟨rfl, fun _ => rfl⟩
  | _ => exact ⟨rfl, id⟩

theorem endTask_tor (htor : s.tor = false) : s.endTask.tor = false := by
  show (if s.watchOpen = true then s.tor else false) = false
  rw [htor, ite_self]

theorem LifeStep.slotBare (hstep : LifeStep side l s t) (hs : SlotBare s) : SlotBare t := by
  cases hstep with
  | handle hstep =>
      obtain ⟨htask, htor⟩ := hstep.tor
      exact fun hbare => htor (hs (htask ▸ hbare))
  | call hstep =>
      obtain ⟨htask, htor⟩ := hstep.tor
      exact fun hbare => htor (hs (htask ▸ hbare))
  | task hstep =>
      cases hstep with
      | bootstrapOk hphase => exact fun _ => hs (by rw [hphase]; trivial)
      | readNoClient _ htor => exact fun _ => htor
      | readClient =>
          intro hbare
          dsimp only at hbare
          split at hbare <;> cases hbare
      | cloneWatch | dropWatch => exact hs
      | bootstrapNone | fill | reportNoClient | connected | connectFailed | reportError
      | sessionEnd | cleanup => exact fun hbare => by cases hbare

theorem LifeReachable.slotBare (hs : LifeReachable side s) : SlotBare s :=
  hs.invariant (I := SlotBare) (fun _ => rfl) fun hs hstep => hstep.slotBare hs

/-! ## Teardown -/

/-- If a call of `quit` has returned and the background task has ended, the slot is
empty. -/
def TornDown (s : Life) : Prop :=
  (∃ c, s.calls c = .returned) → s.task = .ended → s.tor = false

/-- The background task does not end on a failed connection with the slot full once a
call of `quit` has returned, and no call of `quit` returns early between such an end
and the moment at which another one empties the slot.  (When the shared state is gone,
the slot goes with the task.) -/
def Tidy (s : Life) : LifeLabel → Prop
  | .task .reportError => s.tor = true → s.watchOpen = true → ∀ c, s.calls c ≠ .returned
  | .call _ .swap => s.quitFlag = true → s.task = .ended → s.tor = false
  | _ => True

/-- A call of `quit` returns early, leaving the slot as it is, or empties the slot. -/
theorem QuitStep.returned {l : QuitLabel} (hstep : QuitStep c l s t) {d : CallId}
    (hd : t.calls d = .returned) :
    s.calls d = .returned ∨ (l = .swap ∧ s.quitFlag = true ∧ t = s.setCall c .returned) ∨
      t.tor = false := by
  by_cases hdc : d = c
  · subst hdc
    cases hstep with
    | swapAgain _ hflag => exact .inr (.inl ⟨rfl, hflag, rfl⟩)
    | take => exact .inr (.inr rfl)
    | start | swap | send =>
        rw [calls_setCall_self] at hd
        cases hd
  · rw [hstep.frame.2.2.2 d hdc] at hd
    exact .inl hd

/-- A background task ends with an empty slot, but for the failed connection. -/
theorem TaskStep.tor_of_ended {l : TaskLabel} (hstep : TaskStep side l s t) (hs : SlotBare s)
    (hended : t.task = .ended) :
    t.tor = false ∨ (s.task = .ended ∧ t.tor = s.tor) ∨ (l = .reportError ∧ t = s.endTask) := by
  cases hstep with
  | bootstrapNone hphase | reportNoClient hphase =>
      exact .inl (endTask_tor (hs (by rw [hphase]; trivial)))
  | cleanup => exact .inl (endTask_tor rfl)
  | reportError => exact .inr (.inr ⟨rfl, rfl⟩)
  | readClient =>
      dsimp only at hended
      split at hended <;> cases hended
  | cloneWatch | dropWatch => exact .inr (.inl ⟨hended, rfl⟩)
  | bootstrapOk | fill | readNoClient | connected | connectFailed | sessionEnd => cases hended

/-- A tidy step keeps the promise of `quit`. -/
theorem LifeStep.tornDown (hstep : LifeStep side l s t) (hok : Tidy s l) (hbare : SlotBare s)
    (hs : TornDown s) : TornDown t := by
  rintro ⟨c, hcall⟩ hended
  cases hstep with
  | handle hstep =>
      obtain ⟨htask, htor⟩ := hstep.tor
      rw [hstep.calls] at hcall
      exact htor (hs ⟨c, hcall⟩ (htask ▸ hended))
  | call hstep =>
      obtain ⟨htask, htor⟩ := hstep.tor
      rw [htask] at hended
      rcases hstep.returned hcall with hbefore | ⟨rfl, hflag, rfl⟩ | hempty
      · exact htor (hs ⟨c, hbefore⟩ hended)
      · exact hok hflag hended
      · exact hempty
  | task hstep =>
      rw [hstep.frame.2.2.1] at hcall
      rcases hstep.tor_of_ended hbare hended with hempty | ⟨hbefore, hsame⟩ | ⟨rfl, rfl⟩
      · exact hempty
      · rw [hsame]
        exact hs ⟨c, hcall⟩ hbefore
      · cases htor : s.tor with
        | false => exact endTask_tor htor
        | true =>
            by_cases hopen : s.watchOpen = true
            · exact absurd hcall (hok htor hopen c)
            · show (if s.watchOpen = true then s.tor else false) = false
              rw [if_neg hopen]

/-- A step that keeps the promise of `quit` is tidy. -/
theorem LifeStep.tidy (hstep : LifeStep side l s t) (ht : TornDown t) : Tidy s l := by
  cases hstep with
  | handle hstep => trivial
  | @call c l _ _ hstep =>
      cases hstep with
      | swapAgain =>
          intro _ hended
          exact ht ⟨c, calls_setCall_self ..⟩ hended
      | swap _ hflag =>
          intro hset
          rw [hflag] at hset
          cases hset
      | start | send | take => trivial
  | task hstep =>
      cases hstep with
      | reportError =>
          intro htor hopen c hcall
          have hempty : (if s.watchOpen = true then s.tor else false) = false := ht ⟨c, hcall⟩ rfl
          rw [if_pos hopen, htor] at hempty
          cases hempty
      | bootstrapOk | bootstrapNone | fill | readClient | readNoClient | reportNoClient
      | connected | connectFailed | sessionEnd | cleanup | cloneWatch | dropWatch => trivial

/-- **`quit` tears Tor down throughout a run if and only if every step of the run is
tidy.** -/
theorem tor_torn_down_iff (side : Side) (ls : List LifeLabel) (t : Life) :
    Run (fun l s t => LifeStep side l s t ∧ TornDown t) Life.init ls t ↔
      Run (Guarded (LifeStep side) Tidy) Life.init ls t := by
  have hstart : SlotBare Life.init ∧ TornDown Life.init := ⟨fun _ => rfl, fun _ _ => rfl⟩
  refine Run.congr_on (I := fun s => SlotBare s ∧ TornDown s) hstart (fun hbefore => ?_)
    fun hbefore h => ⟨h.1.slotBare hbefore.1, h.2⟩
  constructor
  · rintro ⟨hstep, htorn⟩
    exact ⟨hstep, hstep.tidy htorn⟩
  · rintro ⟨hstep, htidy⟩
    exact ⟨hstep, hstep.tornDown htidy hbefore.1 hbefore.2⟩

/-! ## Host rooms -/

/-- The background task of a host does not connect, and it ends with an empty slot. -/
def HostBare (s : Life) : Prop :=
  s.task ≠ .connect ∧ s.task ≠ .connectFailed ∧ (s.task = .ended → s.tor = false)

theorem LifeStep.hostBare (hstep : LifeStep .host l s t) (hbare : SlotBare s) (hs : HostBare s) :
    HostBare t := by
  obtain ⟨hconnect, hfailed, hended⟩ := hs
  cases hstep with
  | handle hstep =>
      obtain ⟨htask, htor⟩ := hstep.tor
      rw [HostBare, htask]
      exact ⟨hconnect, hfailed, fun h => htor (hended h)⟩
  | call hstep =>
      obtain ⟨htask, htor⟩ := hstep.tor
      rw [HostBare, htask]
      exact ⟨hconnect, hfailed, fun h => htor (hended h)⟩
  | task hstep =>
      refine ⟨?_, ?_, fun hend => ?_⟩
      · cases hstep with
        | cloneWatch | dropWatch => exact hconnect
        | _ => exact RoomTask.noConfusion
      · cases hstep with
        | cloneWatch | dropWatch => exact hfailed
        | connectFailed hphase => exact absurd hphase hconnect
        | _ => exact RoomTask.noConfusion
      · rcases hstep.tor_of_ended hbare hend with hempty | ⟨hbefore, hsame⟩ | ⟨rfl, -⟩
        · exact hempty
        · rw [hsame]
          exact hended hbefore
        · cases hstep with
          | reportError hphase => exact absurd hphase hfailed

/-- Every host room is torn down. -/
theorem LifeReachable.host_tornDown (hs : LifeReachable .host s) : TornDown s := by
  have hboth := hs.invariant (I := fun s => SlotBare s ∧ HostBare s)
    ⟨fun _ => rfl, RoomTask.noConfusion, RoomTask.noConfusion, fun h => by cases h⟩
    fun hs hstep => ⟨hstep.slotBare hs.1, hstep.hostBare hs.1 hs.2⟩
  exact fun _ hended => hboth.2.2.2 hended

/-! ### A connection that fails -/

/-- A joiner quits between the end of its bootstrap and the moment the Tor client is
put in the slot; then the connection fails. -/
theorem tor_not_torn_down :
    ¬ ∀ s, LifeReachable .joiner s → TornDown s := by
  intro htorn
  have hrun : Run (LifeStep .joiner) Life.init _ _ :=
    .single (.task (.bootstrapOk rfl (by decide)))
  have hrun := hrun.snoc (.call (c := 0) (.start (h := 0) rfl rfl))
  have hrun := hrun.snoc (.call (c := 0) (.swap (h := 0) rfl rfl))
  have hrun := hrun.snoc (.call (c := 0) (.send (h := 0) rfl))
  have hrun := hrun.snoc (.call (c := 0) (.take (h := 0) rfl))
  have hrun := hrun.snoc (.task (.fill rfl))
  have hrun := hrun.snoc (.task (.readClient rfl rfl))
  have hrun := hrun.snoc (.task (.connectFailed rfl))
  have hrun := hrun.snoc (.task (.reportError rfl))
  have hempty := htorn _ hrun.reachable ⟨0, rfl⟩ rfl
  exact absurd hempty (by decide)

end Nullpipe

import Nullpipe.Handle.Step
import Mathlib.Data.Finset.Card

/-!
# A room lives as long as its handles

The test of the strong count and the release of the `Arc` are two steps, so two last handles may
both see another one and neither calls `do_quit`.  The signal then comes from the second
mechanism: the shutdown sender is dropped with the shared state.  What remains is a race inside
`do_quit` itself, whose first step already makes every other call return.

Three invariants are kept by every step.

* `Counted`: the strong count is the number of handles that hold an `Arc`.  So a handle that
  sees a count of one is alone (`Counted.unique`), and one that releases the last `Arc` frees
  the shared state.
* `Sound`: the shared state lives while somebody borrows it, and a handle that quits in its drop
  is the only owner.  Here the steps of a handle are the work, one lemma for each field.
* `Signalled`: a signal comes from a call or from the last handle, and whoever has swapped the
  flag is still about to signal, if there is anybody left to hear it.

`signal_follows_handles` puts together what they say of each moment.  That a call may return
before the signal is out is `quit_returns_early`.
-/

namespace Nullpipe

open Life Transition

variable {side : Side} {s t : Life} {h d : HandleId} {c : CallId}

/-! ## Owners -/

/-- The handle holds an `Arc` on the shared state. -/
def RoomHandle.Holds : RoomHandle → Prop
  | .live | .counting | .quitting _ | .releasing => True
  | _ => False

/-- The shared state is being dropped by this handle. -/
def RoomHandle.Freeing : RoomHandle → Prop
  | .freeingSend | .freeingWatch => True
  | _ => False

/-- The strong count counts the handles that hold an `Arc`. -/
def Counted (s : Life) : Prop :=
  ∃ owners : Finset HandleId, owners.card = s.strong ∧ ∀ h, h ∈ owners ↔ (s.handles h).Holds

theorem handles_init (h : HandleId) :
    Life.init.handles h = .live ∨ Life.init.handles h = .unborn := by
  by_cases hh : h = 0
  · exact .inl (by simp [Life.init, hh])
  · exact .inr (by simp [Life.init, hh])

theorem counted_init : Counted Life.init := by
  refine ⟨{0}, rfl, fun h => ?_⟩
  rw [Finset.mem_singleton]
  by_cases hh : h = 0
  · subst hh
    exact ⟨fun _ => trivial, fun _ => rfl⟩
  · have hunborn : Life.init.handles h = .unborn := by simp [Life.init, hh]
    rw [hunborn]
    exact ⟨hh, False.elim⟩

/-- While one `Arc` is left, its handle is the only one. -/
theorem Counted.unique (hs : Counted s) (hone : s.strong = 1) (hh : (s.handles h).Holds)
    (hd : (s.handles d).Holds) : d = h := by
  obtain ⟨owners, hcard, hmem⟩ := hs
  rw [hone, Finset.card_eq_one] at hcard
  obtain ⟨a, rfl⟩ := hcard
  have ha := Finset.mem_singleton.mp ((hmem h).mpr hh)
  exact (Finset.mem_singleton.mp ((hmem d).mpr hd)).trans ha.symm

theorem Counted.none (hs : Counted s) (hzero : s.strong = 0) : ¬ (s.handles h).Holds := by
  obtain ⟨owners, hcard, hmem⟩ := hs
  rw [hzero, Finset.card_eq_zero] at hcard
  subst hcard
  exact fun hh => Finset.notMem_empty _ ((hmem h).mpr hh)

theorem Counted.pos (hs : Counted s) (hh : (s.handles h).Holds) : s.strong ≠ 0 :=
  fun hzero => hs.none hzero hh

/-- A handle that goes on holding its `Arc` changes no count. -/
theorem Counted.keep {phase : RoomHandle} (hs : Counted s)
    (hhandles : t.handles = Function.update s.handles h phase) (hstrong : t.strong = s.strong)
    (hh : (s.handles h).Holds) (hphase : phase.Holds) : Counted t := by
  obtain ⟨owners, hcard, hmem⟩ := hs
  refine ⟨owners, hcard.trans hstrong.symm, fun d => ?_⟩
  rw [hmem, hhandles]
  by_cases hd : d = h
  · subst hd
    rw [Function.update_self]
    exact ⟨fun _ => hphase, fun _ => hh⟩
  · rw [Function.update_of_ne hd]

/-- A handle that held no `Arc` and holds none changes no count. -/
theorem Counted.free {phase : RoomHandle} (hs : Counted s)
    (hhandles : t.handles = Function.update s.handles h phase) (hstrong : t.strong = s.strong)
    (hh : ¬ (s.handles h).Holds) (hphase : ¬ phase.Holds) : Counted t := by
  obtain ⟨owners, hcard, hmem⟩ := hs
  refine ⟨owners, hcard.trans hstrong.symm, fun d => ?_⟩
  rw [hmem, hhandles]
  by_cases hd : d = h
  · subst hd
    rw [Function.update_self]
    exact ⟨fun hheld => absurd hheld hh, fun hheld => absurd hheld hphase⟩
  · rw [Function.update_of_ne hd]

theorem Counted.clone (hs : Counted s)
    (hhandles : t.handles = Function.update s.handles h .live)
    (hstrong : t.strong = s.strong + 1) (hnew : ¬ (s.handles h).Holds) : Counted t := by
  obtain ⟨owners, hcard, hmem⟩ := hs
  have hfresh : h ∉ owners := fun hh => hnew ((hmem h).mp hh)
  refine ⟨insert h owners, by rw [Finset.card_insert_of_notMem hfresh, hcard, hstrong],
    fun d => ?_⟩
  rw [Finset.mem_insert, hmem, hhandles]
  by_cases hd : d = h
  · subst hd
    rw [Function.update_self]
    exact ⟨fun _ => trivial, fun _ => .inl rfl⟩
  · rw [Function.update_of_ne hd]
    exact ⟨fun hmem => hmem.resolve_left hd, .inr⟩

theorem Counted.release {phase : RoomHandle} (hs : Counted s)
    (hhandles : t.handles = Function.update s.handles h phase)
    (hstrong : t.strong = s.strong - 1) (hh : (s.handles h).Holds) (hphase : ¬ phase.Holds) :
    Counted t := by
  obtain ⟨owners, hcard, hmem⟩ := hs
  have hown : h ∈ owners := (hmem h).mpr hh
  refine ⟨owners.erase h, by rw [Finset.card_erase_of_mem hown, hcard, hstrong], fun d => ?_⟩
  rw [Finset.mem_erase, hmem, hhandles]
  by_cases hd : d = h
  · subst hd
    rw [Function.update_self]
    exact ⟨fun hmem => absurd rfl hmem.1, fun hheld => absurd hheld hphase⟩
  · rw [Function.update_of_ne hd]
    exact ⟨fun hmem => hmem.2, fun hheld => ⟨hd, hheld⟩⟩

theorem strong_signal (s : Life) : s.signal.strong = s.strong := by
  unfold Life.signal
  split <;> rfl

theorem handles_signal (s : Life) : s.signal.handles = s.handles := by
  unfold Life.signal
  split <;> rfl

theorem RoomHandleStep.counted {l : RoomHandleLabel} (hstep : RoomHandleStep h l s t)
    (hs : Counted s) : Counted t := by
  cases hstep with
  | clone hphase hnew => exact hs.clone rfl rfl (by rw [hnew]; exact id)
  | drop hphase | countLast hphase | countOthers hphase | swap hphase | swapAgain hphase
  | take hphase =>
      refine hs.keep (h := h) rfl rfl ?_ trivial
      rw [hphase]
      trivial
  | send hphase =>
      have hupdate : (s.signal.setHandle h (.quitting .take)).handles =
          Function.update s.handles h (.quitting .take) := by rw [setHandle, handles_signal]
      refine hs.keep hupdate (strong_signal s) ?_ trivial
      rw [hphase]
      trivial
  | releaseOthers hphase =>
      -- the `Arc` is given up, and the count goes down with it
      refine hs.release (h := h) rfl rfl ?_ id
      rw [hphase]
      trivial
  | releaseLast hphase hcount =>
      have hupdate : (s.setHandle h .freeingSend).handles =
          Function.update s.handles h .freeingSend := rfl
      refine hs.release hupdate ?_ ?_ id
      · rw [hcount]
      · rw [hphase]
        trivial
  | freeSend hphase | freeWatch hphase =>
      refine hs.free (h := h) rfl rfl ?_ id
      rw [hphase]
      exact id

theorem QuitStep.handles {l : QuitLabel} (hstep : QuitStep c l s t) :
    t.handles = s.handles ∧ t.strong = s.strong := by
  cases hstep with
  | send => exact ⟨handles_signal s, strong_signal s⟩
  | _ => exact ⟨rfl, rfl⟩

theorem TaskStep.handles {l : TaskLabel} (hstep : TaskStep side l s t) :
    t.handles = s.handles ∧ t.strong = s.strong := by
  cases hstep <;> exact ⟨rfl, rfl⟩

theorem LifeStep.counted {l : LifeLabel} (hstep : LifeStep side l s t) (hs : Counted s) :
    Counted t := by
  cases hstep with
  | handle hstep => exact hstep.counted hs
  | call hstep =>
      obtain ⟨hhandles, hstrong⟩ := hstep.handles
      rwa [Counted, hhandles, hstrong]
  | task hstep =>
      obtain ⟨hhandles, hstrong⟩ := hstep.handles
      rwa [Counted, hhandles, hstrong]

/-! ## The shared state -/

/-- The call is past the swap of the quit flag. -/
def QuitCall.Swapped : QuitCall → Prop
  | .returned | .running _ .send | .running _ .take => True
  | _ => False

/-- The handle is past the swap of the quit flag, and it was the one to set it. -/
def RoomHandle.Swapped : RoomHandle → Prop
  | .quitting .send | .quitting .take => True
  | _ => False

/-- The shared state lives while an `Arc` is held, a call borrows a live handle, and a
handle that quits in its drop is the last one. -/
structure Sound (s : Life) : Prop where
  counted : Counted s
  borrowed : ∀ c h q, s.calls c = .running h q → s.handles h = .live
  last : ∀ h q, s.handles h = .quitting q → s.strong = 1
  freeing : ∀ h, (s.handles h).Freeing → s.strong = 0
  shared : s.strong ≠ 0 → s.sendOpen = true ∧ s.watchOpen = true
  freed : s.strong = 0 → s.watchOpen = false ∨ ∃ h, (s.handles h).Freeing
  flagged : ∀ c, (s.calls c).Swapped → s.quitFlag = true
  alone : ∀ h, (s.handles h).Swapped → ∀ c, s.calls c = .idle

theorem sound_init : Sound Life.init := by
  constructor
  · exact counted_init
  · intro c h q hcall
    cases hcall
  · intro h q hquit
    rcases handles_init h with heq | heq <;> rw [heq] at hquit <;> cases hquit
  · intro h hfreeing
    rcases handles_init h with heq | heq <;> rw [heq] at hfreeing <;> cases hfreeing
  · exact fun _ => ⟨rfl, rfl⟩
  · intro hzero
    cases hzero
  · intro c hcall
    cases hcall
  · intro h _ c
    rfl

/-- A handle that quits in its drop is the only owner. -/
theorem Sound.only (hs : Sound s) {q : DoQuit} (hquit : s.handles h = .quitting q)
    (hd : (s.handles d).Holds) : d = h :=
  hs.counted.unique (hs.last h q hquit) (by rw [hquit]; trivial) hd

section RoomHandleStep

variable {l : RoomHandleLabel}

theorem handles_setHandle (s : Life) (h d : HandleId) (phase : RoomHandle) :
    (s.setHandle h phase).handles d = if d = h then phase else s.handles d :=
  Function.update_apply ..

theorem RoomHandleStep.calls (hstep : RoomHandleStep h l s t) : t.calls = s.calls := by
  cases hstep with
  | send =>
      show s.signal.calls = s.calls
      unfold Life.signal
      split <;> rfl
  | _ => rfl

/-- What a step does to the phase of any handle. -/
theorem RoomHandleStep.phase (hstep : RoomHandleStep h l s t) (d : HandleId) :
    t.handles d = s.handles d ∨ d = h ∨ (l = .clone d ∧ t.handles d = .live) := by
  by_cases hd : d = h
  · exact .inr (.inl hd)
  · cases hstep with
    | @clone _ h' _ hnew =>
        by_cases hd' : d = h'
        · subst hd'
          exact .inr (.inr ⟨rfl, Function.update_self ..⟩)
        · exact .inl (Function.update_of_ne hd' ..)
    | send =>
        refine .inl ?_
        rw [handles_setHandle, if_neg hd, handles_signal]
    | drop | countLast | countOthers | swap | swapAgain | take | releaseOthers | releaseLast
    | freeSend | freeWatch => exact .inl (Function.update_of_ne hd ..)

theorem RoomHandleStep.borrowed (hstep : RoomHandleStep h l s t) (hs : Sound s) {q : DoQuit}
    (hcall : t.calls c = .running d q) : t.handles d = .live := by
  rw [hstep.calls] at hcall
  have hlive := hs.borrowed c d q hcall
  rcases hstep.phase d with hsame | rfl | ⟨-, hborn⟩
  · rw [hsame, hlive]
  · -- a borrowed handle can be cloned and nothing else
    cases hstep with
    | @clone _ h' _ hnew =>
        have hne : d ≠ h' := by
          rintro rfl
          rw [hlive] at hnew
          cases hnew
        exact (Function.update_of_ne hne ..).trans hlive
    | drop _ hfree => exact absurd hcall (hfree c q)
    | countLast hphase | countOthers hphase | swap hphase | swapAgain hphase | send hphase
    | take hphase | releaseOthers hphase | releaseLast hphase | freeSend hphase
    | freeWatch hphase =>
        rw [hphase] at hlive
        cases hlive
  · exact hborn

theorem RoomHandleStep.last (hstep : RoomHandleStep h l s t) (hs : Sound s) {q : DoQuit}
    (hquit : t.handles d = .quitting q) : t.strong = 1 := by
  by_cases hd : d = h
  · subst hd
    cases hstep with
    | clone hphase hnew =>
        rw [handles_setHandle] at hquit
        split at hquit
        · cases hquit
        · rw [hphase] at hquit
          cases hquit
    | countLast _ hcount => exact hcount
    | swap hphase | take hphase => exact hs.last _ _ hphase
    | send hphase => exact (strong_signal s).trans (hs.last _ _ hphase)
    | drop | countOthers | swapAgain | releaseOthers | releaseLast | freeSend | freeWatch =>
        rw [handles_setHandle, if_pos rfl] at hquit
        cases hquit
  · -- `d` was quitting before, so `h` holds no `Arc`
    have hbefore : s.handles d = .quitting q := by
      rcases hstep.phase d with hsame | heq | ⟨-, hborn⟩
      · rw [← hsame, hquit]
      · exact absurd heq hd
      · rw [hborn] at hquit
        cases hquit
    have hnone : ¬ (s.handles h).Holds := fun hh => hd (hs.only hbefore hh).symm
    cases hstep with
    | freeSend | freeWatch => exact hs.last d q hbefore
    | clone hphase | drop hphase | countLast hphase | countOthers hphase | swap hphase
    | swapAgain hphase | send hphase | take hphase | releaseOthers hphase
    | releaseLast hphase =>
        rw [hphase] at hnone
        exact absurd trivial hnone

theorem RoomHandleStep.freeing (hstep : RoomHandleStep h l s t) (hs : Sound s)
    (hd : (t.handles d).Freeing) : t.strong = 0 := by
  by_cases hdh : d = h
  · subst hdh
    cases hstep with
    | clone hphase hnew =>
        rw [handles_setHandle] at hd
        split at hd
        · cases hd
        · rw [hphase] at hd
          cases hd
    | releaseLast => rfl
    | freeSend hphase => exact hs.freeing d (by rw [hphase]; trivial)
    | drop | countLast | countOthers | swap | swapAgain | send | take | releaseOthers
    | freeWatch =>
        rw [handles_setHandle, if_pos rfl] at hd
        cases hd
  -- another handle is freeing the shared state: no `Arc` is left to take a step with
  · have hzero : s.strong = 0 := by
      refine hs.freeing d ?_
      rcases hstep.phase d with hsame | heq | ⟨-, hborn⟩
      · rwa [hsame] at hd
      · exact absurd heq hdh
      · rw [hborn] at hd
        cases hd
    have hnone := hs.counted.none (h := h) hzero
    cases hstep with
    | freeSend | freeWatch => exact hzero
    | releaseLast => rfl
    | clone hphase | drop hphase | countLast hphase | countOthers hphase | swap hphase
    | swapAgain hphase | send hphase | take hphase | releaseOthers hphase =>
        rw [hphase] at hnone
        exact absurd trivial hnone

theorem RoomHandleStep.shared (hstep : RoomHandleStep h l s t) (hs : Sound s)
    (hpos : t.strong ≠ 0) : t.sendOpen = true ∧ t.watchOpen = true := by
  cases hstep with
  | clone hphase => exact hs.shared (hs.counted.pos (h := h) (by rw [hphase]; trivial))
  | releaseOthers hphase => exact hs.shared (hs.counted.pos (h := h) (by rw [hphase]; trivial))
  | releaseLast => exact absurd rfl hpos
  | freeSend hphase => exact absurd (hs.freeing h (by rw [hphase]; trivial)) hpos
  | freeWatch hphase => exact absurd (hs.freeing h (by rw [hphase]; trivial)) hpos
  | send =>
      rw [show (s.signal.setHandle h _).strong = s.signal.strong from rfl, strong_signal] at hpos
      have hopen := hs.shared hpos
      unfold Life.signal
      split <;> exact hopen
  | drop | countLast | countOthers | swap | swapAgain | take => exact hs.shared hpos

theorem RoomHandleStep.freed (hstep : RoomHandleStep h l s t) (hs : Sound s)
    (hzero : t.strong = 0) : t.watchOpen = false ∨ ∃ d, (t.handles d).Freeing := by
  have hheld : (s.handles h).Holds → s.strong ≠ 0 := hs.counted.pos
  cases hstep with
  | releaseLast => exact .inr ⟨h, by rw [handles_setHandle, if_pos rfl]; trivial⟩
  | freeSend => exact .inr ⟨h, by rw [handles_setHandle, if_pos rfl]; trivial⟩
  | freeWatch => exact .inl rfl
  | clone => exact absurd hzero (Nat.succ_ne_zero _)
  | releaseOthers hphase hcount =>
      have hpos := hheld (by rw [hphase]; trivial)
      have hnone : s.strong - 1 = 0 := hzero
      omega
  | send hphase =>
      have hpos := hheld (by rw [hphase]; trivial)
      exact absurd ((strong_signal s).symm.trans hzero) hpos
  | drop hphase | countLast hphase | countOthers hphase | swap hphase | swapAgain hphase
  | take hphase =>
      have hpos := hheld (by rw [hphase]; trivial)
      exact absurd hzero hpos

theorem RoomHandleStep.flag (hstep : RoomHandleStep h l s t) (hflag : s.quitFlag = true) :
    t.quitFlag = true := by
  cases hstep with
  | send =>
      show s.signal.quitFlag = true
      unfold Life.signal
      split <;> exact hflag
  | swap => rfl
  | _ => exact hflag

theorem RoomHandleStep.alone (hstep : RoomHandleStep h l s t) (hs : Sound s)
    (hd : (t.handles d).Swapped) (c : CallId) : t.calls c = .idle := by
  rw [hstep.calls]
  by_cases hdh : d = h
  · subst hdh
    cases hstep with
    | swap hphase hflag =>
        -- no call can borrow another handle, and none has set the flag
        cases hcall : s.calls c with
        | idle => rfl
        | running h' q =>
            have hlive := hs.borrowed c h' q hcall
            have heq := hs.only hphase (d := h') (by rw [hlive]; trivial)
            rw [heq, hphase] at hlive
            cases hlive
        | returned =>
            rw [hs.flagged c (by rw [hcall]; trivial)] at hflag
            cases hflag
    | send hphase => exact hs.alone d (by rw [hphase]; trivial) c
    | clone hphase hnew =>
        rw [handles_setHandle] at hd
        split at hd
        · cases hd
        · rw [hphase] at hd
          cases hd
    | drop | countLast | countOthers | swapAgain | take | releaseOthers | releaseLast
    | freeSend | freeWatch =>
        rw [handles_setHandle, if_pos rfl] at hd
        cases hd
  · refine hs.alone d ?_ c
    rcases hstep.phase d with hsame | heq | ⟨-, hborn⟩
    · rwa [hsame] at hd
    · exact absurd heq hdh
    · rw [hborn] at hd
      cases hd

theorem RoomHandleStep.sound (hstep : RoomHandleStep h l s t) (hs : Sound s) : Sound t where
  counted := hstep.counted hs.counted
  borrowed _ _ _ hcall := hstep.borrowed hs hcall
  last _ _ hquit := hstep.last hs hquit
  freeing _ hfreeing := hstep.freeing hs hfreeing
  shared hpos := hstep.shared hs hpos
  freed hzero := hstep.freed hs hzero
  flagged c hcall := by
    rw [hstep.calls] at hcall
    exact hstep.flag (hs.flagged c hcall)
  alone _ hd c := hstep.alone hs hd c

end RoomHandleStep

theorem calls_setCall_self (s : Life) (c : CallId) (phase : QuitCall) :
    (s.setCall c phase).calls c = phase := Function.update_self ..

/-- What a call of `quit` changes of the shared state. -/
theorem QuitStep.frame {l : QuitLabel} (hstep : QuitStep c l s t) :
    t.sendOpen = s.sendOpen ∧ t.watchOpen = s.watchOpen ∧ (s.quitFlag = true → t.quitFlag = true) ∧
      ∀ d ≠ c, t.calls d = s.calls d := by
  cases hstep with
  | send =>
      have hsignal : s.signal.sendOpen = s.sendOpen ∧ s.signal.watchOpen = s.watchOpen ∧
          s.signal.quitFlag = s.quitFlag ∧ s.signal.calls = s.calls := by
        unfold Life.signal
        split <;> exact ⟨rfl, rfl, rfl, rfl⟩
      obtain ⟨hsend, hwatch, hflag, hcalls⟩ := hsignal
      refine ⟨hsend, hwatch, fun h => hflag.trans h, fun d hd => ?_⟩
      show Function.update s.signal.calls c _ d = s.calls d
      rw [Function.update_of_ne hd, hcalls]
  | swap => exact ⟨rfl, rfl, fun _ => rfl, fun d hd => Function.update_of_ne hd ..⟩
  | start | swapAgain | take =>
      exact ⟨rfl, rfl, id, fun d hd => Function.update_of_ne hd ..⟩

/-- A call that has not returned borrows the handle it was started on. -/
theorem QuitStep.borrows {l : QuitLabel} (hstep : QuitStep c l s t) :
    t.calls c = .returned ∨ ∃ h q, t.calls c = .running h q ∧
      (s.handles h = .live ∨ ∃ q', s.calls c = .running h q') := by
  cases hstep with
  | start _ hlive => exact .inr ⟨_, _, Function.update_self .., .inl hlive⟩
  | swap hphase | send hphase =>
      exact .inr ⟨_, _, Function.update_self .., .inr ⟨_, hphase⟩⟩
  | swapAgain | take => exact .inl (Function.update_self ..)

theorem QuitStep.sound {l : QuitLabel} (hstep : QuitStep c l s t) (hs : Sound s) : Sound t := by
  obtain ⟨hhandles, hstrong⟩ := hstep.handles
  obtain ⟨hsend, hwatch, hflag, hothers⟩ := hstep.frame
  have hlive : ∃ h, s.handles h = .live := by
    cases hstep with
    | start _ hlive => exact ⟨_, hlive⟩
    | swap hphase | swapAgain hphase | send hphase | take hphase =>
        exact ⟨_, hs.borrowed c _ _ hphase⟩
  constructor
  · rw [Counted, hhandles, hstrong]
    exact hs.counted
  · intro d h q hcall
    rw [hhandles]
    by_cases hd : d = c
    · subst hd
      rcases hstep.borrows with hreturned | ⟨h', q', hrunning, hborrow⟩
      · rw [hreturned] at hcall
        cases hcall
      · rw [hrunning] at hcall
        cases hcall
        rcases hborrow with hlive | ⟨q', hbefore⟩
        · exact hlive
        · exact hs.borrowed d h q' hbefore
    · rw [hothers d hd] at hcall
      exact hs.borrowed d h q hcall
  · intro h q hquit
    rw [hhandles] at hquit
    rw [hstrong]
    exact hs.last h q hquit
  · intro h hfreeing
    rw [hhandles] at hfreeing
    rw [hstrong]
    exact hs.freeing h hfreeing
  · rw [hstrong, hsend, hwatch]
    exact hs.shared
  · rw [hstrong, hwatch, hhandles]
    exact hs.freed
  · intro d hcall
    by_cases hd : d = c
    · subst hd
      cases hstep with
      | start =>
          rw [calls_setCall_self] at hcall
          cases hcall
      | swap => rfl
      | swapAgain _ hset => exact hset
      | send hphase | take hphase => exact hflag (hs.flagged d (by rw [hphase]; trivial))
    · rw [hothers d hd] at hcall
      exact hflag (hs.flagged d hcall)
  · intro h hswapped
    rw [hhandles] at hswapped
    -- the call borrows a live handle, which a last handle excludes
    obtain ⟨h', hlive⟩ := hlive
    cases hphase : s.handles h with
    | quitting q =>
        have heq := hs.only hphase (d := h') (by rw [hlive]; trivial)
        rw [heq, hphase] at hlive
        cases hlive
    | unborn | live | counting | releasing | freeingSend | freeingWatch | released =>
        rw [hphase] at hswapped
        cases hswapped

/-- The background task touches neither handles nor calls. -/
theorem TaskStep.frame {l : TaskLabel} (hstep : TaskStep side l s t) :
    t.strong = s.strong ∧ t.handles = s.handles ∧ t.calls = s.calls ∧ t.quitFlag = s.quitFlag ∧
      t.sendOpen = s.sendOpen ∧ t.watchVersion = s.watchVersion ∧ t.watchOpen = s.watchOpen := by
  cases hstep <;> exact ⟨rfl, rfl, rfl, rfl, rfl, rfl, rfl⟩

theorem TaskStep.sound {l : TaskLabel} (hstep : TaskStep side l s t) (hs : Sound s) : Sound t := by
  obtain ⟨hstrong, hhandles, hcalls, hflag, hsend, -, hwatch⟩ := hstep.frame
  constructor
  · rw [Counted, hhandles, hstrong]
    exact hs.counted
  · rw [hcalls, hhandles]
    exact hs.borrowed
  · rw [hhandles, hstrong]
    exact hs.last
  · rw [hhandles, hstrong]
    exact hs.freeing
  · rw [hstrong, hsend, hwatch]
    exact hs.shared
  · rw [hstrong, hwatch, hhandles]
    exact hs.freed
  · rw [hcalls, hflag]
    exact hs.flagged
  · rw [hhandles, hcalls]
    exact hs.alone

theorem LifeStep.sound {l : LifeLabel} (hstep : LifeStep side l s t) (hs : Sound s) : Sound t := by
  cases hstep with
  | handle hstep => exact hstep.sound hs
  | call hstep => exact hstep.sound hs
  | task hstep => exact hstep.sound hs

theorem LifeReachable.sound (hs : LifeReachable side s) : Sound s :=
  hs.invariant sound_init fun hs hstep => hstep.sound hs

/-! ## The signal -/

/-- Some run of `do_quit` has set the flag and is about to signal. -/
def Signalling (s : Life) : Prop :=
  (∃ c h, s.calls c = .running h .send) ∨ ∃ h, s.handles h = .quitting .send

/-- The signal comes from a call or from the last handle, and it follows the quit
flag. -/
structure Signalled (s : Life) : Prop where
  sent : s.watchVersion ≠ 0 → (∃ c, s.calls c ≠ .idle) ∨ ∀ h, s.handles h ≠ .live
  follows : s.quitFlag = true → s.Ready ∨ ¬ s.Watched ∨ Signalling s

theorem watchVersion_signal (s : Life) : s.signal.watchVersion ≠ 0 ∨ ¬ s.signal.Watched := by
  unfold Life.signal
  split
  · exact .inl (Nat.succ_ne_zero _)
  · rename_i hwatched
    exact .inr hwatched

theorem signalled_init : Signalled Life.init :=
  ⟨fun hsent => absurd rfl hsent, fun hflag => by cases hflag⟩

/-- A step that is not a signal leaves the version of the watch alone. -/
theorem LifeStep.watchVersion {l : LifeLabel} (hstep : LifeStep side l s t) :
    t.watchVersion = s.watchVersion ∨ (∃ c h, s.calls c = .running h .send ∧ t.calls c ≠ .idle) ∨
      ∃ h, s.handles h = .quitting .send := by
  cases hstep with
  | @handle h _ _ _ hstep =>
      cases hstep with
      | send hphase => exact .inr (.inr ⟨h, hphase⟩)
      | _ => exact .inl rfl
  | @call c _ _ _ hstep =>
      cases hstep with
      | send hphase =>
          refine .inr (.inl ⟨c, _, hphase, ?_⟩)
          rw [calls_setCall_self]
          exact QuitCall.noConfusion
      | _ => exact .inl rfl
  | task hstep => exact .inl hstep.frame.2.2.2.2.2.1

theorem LifeStep.calls_ne_idle {l : LifeLabel} (hstep : LifeStep side l s t)
    (hcall : s.calls c ≠ .idle) : t.calls c ≠ .idle := by
  cases hstep with
  | handle hstep => rwa [hstep.calls]
  | @call d _ _ _ hstep =>
      by_cases hd : c = d
      · subst hd
        rcases hstep.borrows with hafter | ⟨h, q, hafter, -⟩
        · rw [hafter]
          exact QuitCall.noConfusion
        · rw [hafter]
          exact QuitCall.noConfusion
      · rwa [hstep.frame.2.2.2 c hd]
  | task hstep => rwa [hstep.frame.2.2.1]

/-- No handle comes to life when none is alive. -/
theorem LifeStep.none_live {l : LifeLabel} (hstep : LifeStep side l s t)
    (hnone : ∀ h, s.handles h ≠ .live) (h : HandleId) : t.handles h ≠ .live := by
  cases hstep with
  | @handle d _ _ _ hstep =>
      intro hlive
      rcases hstep.phase h with hsame | rfl | ⟨rfl, -⟩
      · exact hnone h (hsame ▸ hlive)
      · cases hstep with
        | clone hphase | drop hphase => exact hnone h hphase
        | countLast | countOthers | swap | swapAgain | send | take | releaseOthers | releaseLast
        | freeSend | freeWatch =>
            rw [handles_setHandle, if_pos rfl] at hlive
            cases hlive
      · cases hstep with
        | clone hphase => exact hnone d hphase
  | call hstep => rw [hstep.handles.1]; exact hnone h
  | task hstep => rw [hstep.handles.1]; exact hnone h

/-- A watch without receivers gets none. -/
theorem TaskStep.unwatched {l : TaskLabel} (hstep : TaskStep side l s t) : s.Watched := by
  cases hstep with
  | bootstrapOk hphase | bootstrapNone hphase | fill hphase | readClient hphase
  | readNoClient hphase | reportNoClient hphase | connected hphase | connectFailed hphase
  | reportError hphase | sessionEnd hphase | cleanup hphase =>
      refine .inl ?_
      rw [hphase]
      exact RoomTask.noConfusion
  | cloneWatch hsource =>
      refine hsource.imp (fun hphase => ?_) id
      rw [hphase]
      exact RoomTask.noConfusion
  | dropWatch hsome => exact .inr hsome

/-- A run of `do_quit` that is about to signal stays so until it does. -/
theorem LifeStep.signalling {l : LifeLabel} (hstep : LifeStep side l s t) (hs : Signalling s) :
    Signalling t ∨ t.watchVersion ≠ 0 ∨ ¬ t.Watched := by
  cases hstep with
  | @handle h _ _ _ hstep =>
      -- the handle that steps is the one that signals, or the signaller stays
      by_cases hsend : s.handles h = .quitting .send
      · cases hstep with
        | send => exact .inr (watchVersion_signal s)
        | clone hphase | drop hphase | countLast hphase | countOthers hphase | swap hphase
        | swapAgain hphase | take hphase | releaseOthers hphase | releaseLast hphase
        | freeSend hphase | freeWatch hphase =>
            rw [hphase] at hsend
            cases hsend
      · refine .inl ?_
        rcases hs with ⟨c, h', hcall⟩ | ⟨d, hd⟩
        · exact .inl ⟨c, h', by rw [hstep.calls, hcall]⟩
        · refine .inr ⟨d, ?_⟩
          rcases hstep.phase d with hsame | rfl | ⟨rfl, -⟩
          · rw [hsame, hd]
          · exact absurd hd hsend
          · cases hstep with
            | clone _ hnew =>
                rw [hd] at hnew
                cases hnew
  | @call c _ _ _ hstep =>
      by_cases hsend : ∃ h, s.calls c = .running h .send
      · obtain ⟨h, hsend⟩ := hsend
        cases hstep with
        | send => exact .inr (watchVersion_signal s)
        | start hphase | swap hphase | swapAgain hphase | take hphase =>
            rw [hphase] at hsend
            cases hsend
      · refine .inl (hs.imp ?_ fun ⟨d, hd⟩ => ⟨d, by rw [hstep.handles.1, hd]⟩)
        rintro ⟨d, h, hd⟩
        refine ⟨d, h, ?_⟩
        rw [hstep.frame.2.2.2 d, hd]
        rintro rfl
        exact hsend ⟨h, hd⟩
  | task hstep =>
      obtain ⟨-, hhandles, hcalls, -⟩ := hstep.frame
      exact .inl (by rwa [Signalling, hcalls, hhandles])

theorem LifeStep.ready {l : LifeLabel} (hstep : LifeStep side l s t) (hs : s.Ready) : t.Ready := by
  cases hstep with
  | handle hstep =>
      cases hstep with
      | send =>
          show s.signal.Ready
          unfold Life.signal
          split
          · exact .inl (Nat.succ_ne_zero _)
          · exact hs
      | freeWatch => exact .inr rfl
      | _ => exact hs
  | call hstep =>
      cases hstep with
      | send =>
          show s.signal.Ready
          unfold Life.signal
          split
          · exact .inl (Nat.succ_ne_zero _)
          · exact hs
      | _ => exact hs
  | task hstep =>
      obtain ⟨-, -, -, -, -, hversion, hopen⟩ := hstep.frame
      rwa [Life.Ready, hversion, hopen]

theorem watched_signal (s : Life) : s.signal.Watched ↔ s.Watched := by
  unfold Life.signal
  split <;> exact Iff.rfl

/-- A watch that has lost its last receiver stays without. -/
theorem LifeStep.unwatched {l : LifeLabel} (hstep : LifeStep side l s t) (hs : ¬ s.Watched) :
    ¬ t.Watched := by
  cases hstep with
  | handle hstep =>
      cases hstep with
      | send => exact fun hwatched => hs ((watched_signal s).mp hwatched)
      | _ => exact hs
  | call hstep =>
      cases hstep with
      | send => exact fun hwatched => hs ((watched_signal s).mp hwatched)
      | _ => exact hs
  | task hstep => exact absurd hstep.unwatched hs

/-- Whoever sets the quit flag goes on to signal. -/
theorem LifeStep.flag {l : LifeLabel} (hstep : LifeStep side l s t) (hflag : t.quitFlag = true) :
    s.quitFlag = true ∨ Signalling t := by
  cases hstep with
  | @handle h _ _ _ hstep =>
      cases hstep with
      | swap => exact .inr (.inr ⟨h, by rw [handles_setHandle, if_pos rfl]⟩)
      | send =>
          refine .inl ?_
          have hsame : s.signal.quitFlag = true := hflag
          unfold Life.signal at hsame
          split at hsame <;> exact hsame
      | _ => exact .inl hflag
  | @call c _ _ _ hstep =>
      cases hstep with
      | swap => exact .inr (.inl ⟨c, _, calls_setCall_self ..⟩)
      | send =>
          refine .inl ?_
          have hsame : s.signal.quitFlag = true := hflag
          unfold Life.signal at hsame
          split at hsame <;> exact hsame
      | _ => exact .inl hflag
  | task hstep => exact .inl (hstep.frame.2.2.2.1 ▸ hflag)

/-- One step keeps the signal in line with handles and calls. -/
theorem LifeStep.signalled {l : LifeLabel} (hstep : LifeStep side l s t) (hsound : Sound s)
    (hs : Signalled s) : Signalled t where
  sent hversion := by
    rcases hstep.watchVersion with hsame | ⟨c, h, -, hcall⟩ | ⟨h, hquit⟩
    · rw [hsame] at hversion
      rcases hs.sent hversion with ⟨c, hcall⟩ | hnone
      · exact .inl ⟨c, hstep.calls_ne_idle hcall⟩
      · exact .inr (hstep.none_live hnone)
    · exact .inl ⟨c, hcall⟩
    · -- the last handle signals, so no other one is left
      refine .inr (hstep.none_live fun d hlive => ?_)
      have heq := hsound.only hquit (d := d) (by rw [hlive]; trivial)
      rw [heq, hquit] at hlive
      cases hlive
  follows hflag := by
    rcases hstep.flag hflag with hbefore | hsignalling
    · rcases hs.follows hbefore with hready | hunwatched | hsignalling
      · exact .inl (hstep.ready hready)
      · exact .inr (.inl (hstep.unwatched hunwatched))
      · rcases hstep.signalling hsignalling with hstill | hsent | hunwatched
        · exact .inr (.inr hstill)
        · exact .inl (.inl hsent)
        · exact .inr (.inl hunwatched)
    · exact .inr (.inr hsignalling)

theorem LifeReachable.signalled (hs : LifeReachable side s) : Signalled s := by
  refine (hs.invariant (I := fun s => Sound s ∧ Signalled s) ⟨sound_init, signalled_init⟩ ?_).2
  intro l t u hs hstep
  exact ⟨hstep.sound hs.1, hstep.signalled hs.1 hs.2⟩

/-! ## A room and its handles -/

/-- **The shutdown watch is ready only after a call of `quit` or when every handle is
being dropped; it is ready when every handle has been released; and when a call of
`quit` has returned it is ready, has no receiver any more, or the call that set the
quit flag is about to signal.** -/
theorem signal_follows_handles (hs : LifeReachable side s) :
    (s.Ready → (∃ c, s.calls c ≠ .idle) ∨ ∀ h, s.handles h ≠ .live) ∧
      ((∀ h, s.handles h = .unborn ∨ s.handles h = .released) → s.Ready) ∧
      ((∃ c, s.calls c = .returned) →
        s.Ready ∨ ¬ s.Watched ∨ ∃ c h, s.calls c = .running h .send) := by
  have hsound := hs.sound
  have hsignalled := hs.signalled
  refine ⟨?_, fun hreleased => ?_, ?_⟩
  -- a shutdown sender that is gone has no `Arc` behind it
  · rintro (hsent | hclosed)
    · exact hsignalled.sent hsent
    · refine .inr fun h hlive => ?_
      have hpos := hsound.counted.pos (h := h) (by rw [hlive]; trivial)
      rw [(hsound.shared hpos).2] at hclosed
      cases hclosed
  -- nobody holds an `Arc`, and nobody is still freeing
  · have hzero : s.strong = 0 := by
      obtain ⟨owners, hcard, hmem⟩ := hsound.counted
      rw [← hcard, Finset.card_eq_zero, Finset.eq_empty_iff_forall_notMem]
      intro h hh
      have hheld := (hmem h).mp hh
      rcases hreleased h with heq | heq <;> rw [heq] at hheld <;> exact hheld
    rcases hsound.freed hzero with hclosed | ⟨h, hfreeing⟩
    · exact .inr hclosed
    · rcases hreleased h with heq | heq <;> rw [heq] at hfreeing <;> cases hfreeing
  · rintro ⟨c, hcall⟩
    rcases hsignalled.follows (hsound.flagged c (by rw [hcall]; trivial)) with
      hready | hunwatched | hsignalling | ⟨h, hquit⟩
    · exact .inl hready
    · exact .inr (.inl hunwatched)
    · exact .inr (.inr hsignalling)
    · -- the last handle would have excluded every call
      have hidle := hsound.alone h (by rw [hquit]; trivial) c
      rw [hcall] at hidle
      cases hidle

/-! ### Two calls at once -/

/-- One call has swapped the flag, and a second one has returned. -/
def Life.overtaken : Life :=
  { Life.init with
    calls := Function.update (Function.update (fun _ => .idle) 0 (.running 0 .send)) 1 .returned
    quitFlag := true }

theorem reachable_overtaken (side : Side) : LifeReachable side Life.overtaken := by
  have hrun : Run (LifeStep side) Life.init _ _ :=
    .single (.call (c := 0) (.start (h := 0) rfl rfl))
  have hrun := hrun.snoc (.call (c := 1) (.start (h := 0) rfl rfl))
  have hrun := hrun.snoc (.call (c := 0) (.swap (h := 0) rfl rfl))
  refine (hrun.extend (.call (c := 1) (.swapAgain (h := 0) rfl rfl)) ?_).reachable
  simp only [setCall, Life.overtaken, Life.init]
  congr 1
  funext c
  simp only [Function.update_apply]
  split
  · rfl
  · split <;> rfl

/-- The second of two concurrent calls of `quit` may return before the first one has
signalled. -/
theorem quit_returns_early :
    ¬ ∀ s, LifeReachable .host s → (s.Ready → (∃ c, s.calls c ≠ .idle) ∨ ∀ h, s.handles h ≠ .live) ∧
      ((∃ c, s.calls c = .returned) ∨
        (∀ h, s.handles h = .unborn ∨ s.handles h = .released) → s.Ready) := by
  intro hlaw
  have hready := (hlaw _ (reachable_overtaken .host)).2 (.inl ⟨1, rfl⟩)
  exact absurd hready (by decide)

theorem signal_follows_handles_overtaken :
    Life.overtaken.Ready ∨ ¬ Life.overtaken.Watched ∨
      ∃ c h, Life.overtaken.calls c = .running h .send :=
  (signal_follows_handles (reachable_overtaken .joiner)).2.2 ⟨1, rfl⟩

end Nullpipe

import Nullpipe.Handle.Lifetime
import Nullpipe.Room.Step

/-!
# The handles as users of a room

In the model of a hosted room the handles appear as users, who may set the quit flag, signal,
and drop the two senders whenever the flag and the senders allow it.  Every run of the handles is
such a run of users (`handles_are_users`), so what is proved of a room with any users holds with
the handles as they are.

The simulation is step by step, with a stutter: a step that only moves a handle from one place
to the next is matched by no step of the users.  What the two models share is `Shares`.  Two
things have to be known of the handles for it, and `InTurn` says both: a handle signals in its
drop after it has set the flag, and the sender of texts is dropped before the shutdown sender.

A second signal, or one that nobody hears, changes nothing in a room.
-/

namespace Nullpipe

open Life Transition

variable {X : Crates} {side : Side} {s t : Life} {a : Room} {c : CallId} {h : HandleId}

/-! ## The order of the drop -/

/-- A handle signals in its drop after it has set the flag, and the sender of texts is
dropped before the shutdown sender. -/
structure InTurn (s : Life) : Prop where
  flagged : ∀ h, s.handles h = .quitting .send → s.quitFlag = true
  dropped : ∀ h, s.handles h = .freeingWatch → s.sendOpen = false

theorem inTurn_init : InTurn Life.init := by
  constructor
  · intro h hquit
    rcases handles_init h with heq | heq <;> rw [heq] at hquit <;> cases hquit
  · intro h hfreeing
    rcases handles_init h with heq | heq <;> rw [heq] at hfreeing <;> cases hfreeing

theorem sendOpen_signal (s : Life) : s.signal.sendOpen = s.sendOpen := by
  unfold Life.signal
  split <;> rfl

/-- The sender of texts is never opened again. -/
theorem RoomHandleStep.sendOpen {l : RoomHandleLabel} (hstep : RoomHandleStep h l s t)
    (hclosed : s.sendOpen = false) : t.sendOpen = false := by
  cases hstep with
  | send => exact (sendOpen_signal s).trans hclosed
  | freeSend => rfl
  | _ => exact hclosed

theorem RoomHandleStep.inTurn {l : RoomHandleLabel} (hstep : RoomHandleStep h l s t)
    (hs : InTurn s) : InTurn t where
  flagged d hd := by
    -- a handle that is about to signal in its drop has just swapped the flag
    by_cases hdh : d = h
    · subst hdh
      cases hstep with
      | swap => rfl
      | clone hphase =>
          rw [handles_setHandle] at hd
          split at hd
          · cases hd
          · rw [hphase] at hd
            cases hd
      | drop | countLast | countOthers | swapAgain | send | take | releaseOthers | releaseLast
      | freeSend | freeWatch =>
          rw [handles_setHandle, if_pos rfl] at hd
          cases hd
    · refine hstep.flag (hs.flagged d ?_)
      rcases hstep.phase d with hsame | heq | ⟨-, hborn⟩
      · rw [← hsame, hd]
      · exact absurd heq hdh
      · rw [hborn] at hd
        cases hd
  dropped d hd := by
    -- and one that is about to drop the shutdown sender has just dropped the other
    by_cases hdh : d = h
    · subst hdh
      cases hstep with
      | freeSend => rfl
      | clone hphase =>
          rw [handles_setHandle] at hd
          split at hd
          · cases hd
          · rw [hphase] at hd
            cases hd
      | drop | countLast | countOthers | swap | swapAgain | send | take | releaseOthers
      | releaseLast | freeWatch =>
          rw [handles_setHandle, if_pos rfl] at hd
          cases hd
    · refine hstep.sendOpen (hs.dropped d ?_)
      rcases hstep.phase d with hsame | heq | ⟨-, hborn⟩
      · rw [← hsame, hd]
      · exact absurd heq hdh
      · rw [hborn] at hd
        cases hd

theorem LifeStep.inTurn {l : LifeLabel} (hstep : LifeStep side l s t) (hs : InTurn s) :
    InTurn t := by
  cases hstep with
  | handle hstep => exact hstep.inTurn hs
  | call hstep =>
      obtain ⟨hsend, -, hflag, -⟩ := hstep.frame
      constructor
      · rw [hstep.handles.1]
        exact fun h hquit => hflag (hs.flagged h hquit)
      · rw [hstep.handles.1, hsend]
        exact hs.dropped
  | task hstep =>
      obtain ⟨-, hhandles, -, hflag, hsend, -⟩ := hstep.frame
      constructor
      · rw [hhandles, hflag]
        exact hs.flagged
      · rw [hhandles, hsend]
        exact hs.dropped

/-! ## Users -/

/-- The room has the quit flag, the senders and the signal of the handles. -/
structure Shares (s : Life) (a : Room) : Prop where
  flag : a.quitFlag = s.quitFlag
  send : a.sendOpen = s.sendOpen
  watch : a.watchOpen = s.watchOpen
  version : a.watchVersion = 0 ↔ s.watchVersion = 0

theorem shares_init (now : ℕ) : Shares Life.init (Room.init now) := ⟨rfl, rfl, rfl, Iff.rfl⟩

/-- A state that looks the same to the users is reached by no step. -/
theorem Shares.stutter (hs : Shares s a) (hflag : t.quitFlag = s.quitFlag)
    (hsend : t.sendOpen = s.sendOpen) (hwatch : t.watchOpen = s.watchOpen)
    (hversion : t.watchVersion = 0 ↔ s.watchVersion = 0) :
    ∃ ks b, Run (UserStep X) a ks b ∧ Shares t b :=
  ⟨[], a, .nil, hs.flag.trans hflag.symm, hs.send.trans hsend.symm, hs.watch.trans hwatch.symm,
    hs.version.trans hversion.symm⟩

theorem Shares.setFlag (hs : Shares s a) (hopen : s.sendOpen = true) (hflag : t.quitFlag = true)
    (hsend : t.sendOpen = s.sendOpen) (hwatch : t.watchOpen = s.watchOpen)
    (hversion : t.watchVersion = s.watchVersion) :
    ∃ ks b, Run (UserStep X) a ks b ∧ Shares t b := by
  refine ⟨_, _, .single (.quitFlag (hs.send.trans hopen)), hflag.symm, hs.send.trans hsend.symm,
    hs.watch.trans hwatch.symm, ?_⟩
  rw [hversion]
  exact hs.version

/-- The signal of `do_quit`: there is none without receivers, and a second one changes
nothing. -/
theorem Shares.signal (hs : Shares s a) (hflag : s.quitFlag = true) (hopen : s.watchOpen = true)
    (hquit : t.quitFlag = s.signal.quitFlag) (hsend : t.sendOpen = s.signal.sendOpen)
    (hwatch : t.watchOpen = s.signal.watchOpen)
    (hversion : t.watchVersion = s.signal.watchVersion) :
    ∃ ks b, Run (UserStep X) a ks b ∧ Shares t b := by
  unfold Life.signal at hquit hsend hwatch hversion
  split at hquit
  · rename_i hwatched
    rw [if_pos hwatched] at hsend hwatch hversion
    by_cases hfirst : s.watchVersion = 0
    · refine ⟨_, _, .single (.quitSend (hs.flag.trans hflag) (hs.watch.trans hopen)
        (hs.version.mpr hfirst)), hs.flag.trans hquit.symm, hs.send.trans hsend.symm,
        hs.watch.trans hwatch.symm, ?_⟩
      rw [hversion]
      simp
    · refine hs.stutter hquit hsend hwatch ?_
      rw [hversion]
      simp [hfirst]
  · rename_i hwatched
    rw [if_neg hwatched] at hsend hwatch hversion
    exact hs.stutter hquit hsend hwatch (by rw [hversion])

/-- Every step of the handles is one or no step of the users. -/
theorem LifeStep.users {l : LifeLabel} (hstep : LifeStep side l s t) (hsound : Sound s)
    (hturn : InTurn s) (hs : Shares s a) : ∃ ks b, Run (UserStep X) a ks b ∧ Shares t b := by
  cases hstep with
  | @handle h _ _ _ hstep =>
      have hshared : (s.handles h).Holds → s.sendOpen = true ∧ s.watchOpen = true :=
        fun hh => hsound.shared (hsound.counted.pos hh)
      cases hstep with
      | swap hphase =>
          exact hs.setFlag (hshared (by rw [hphase]; trivial)).1 rfl rfl rfl rfl
      | send hphase =>
          exact hs.signal (hturn.flagged h hphase) (hshared (by rw [hphase]; trivial)).2 rfl rfl
            rfl rfl
      | freeSend =>
          -- a sender that is gone already is not dropped again
          cases hopen : s.sendOpen with
          | true =>
              exact ⟨_, _, .single (.dropSend (hs.send.trans hopen)), hs.flag, rfl, hs.watch,
                hs.version⟩
          | false => exact hs.stutter rfl hopen.symm rfl Iff.rfl
      | freeWatch hphase =>
          cases hopen : s.watchOpen with
          | true =>
              exact ⟨_, _, .single (.dropWatch (hs.send.trans (hturn.dropped h hphase))
                (hs.watch.trans hopen)), hs.flag, hs.send, rfl, hs.version⟩
          | false => exact hs.stutter rfl rfl hopen.symm Iff.rfl
      | clone | drop | countLast | countOthers | swapAgain | take | releaseOthers
      | releaseLast => exact hs.stutter rfl rfl rfl Iff.rfl
  | @call c _ _ _ hstep =>
      have hshared : ∀ h q, s.calls c = .running h q → s.sendOpen = true ∧ s.watchOpen = true :=
        fun h q hcall => hsound.shared (hsound.counted.pos (h := h)
          (by rw [hsound.borrowed c h q hcall]; trivial))
      cases hstep with
      | swap hphase => exact hs.setFlag (hshared _ _ hphase).1 rfl rfl rfl rfl
      | send hphase =>
          exact hs.signal (hsound.flagged c (by rw [hphase]; trivial)) (hshared _ _ hphase).2 rfl
            rfl rfl rfl
      | start | swapAgain | take => exact hs.stutter rfl rfl rfl Iff.rfl
  | task hstep =>
      obtain ⟨-, -, -, hflag, hsend, hversion, hwatch⟩ := hstep.frame
      exact hs.stutter hflag hsend hwatch (by rw [hversion])

/-- **Every run of the handles is a run of users of the room.** -/
theorem handles_are_users {ls : List LifeLabel} (hrun : Run (LifeStep side) Life.init ls s)
    (now : ℕ) : ∃ ks b, Run (UserStep X) (Room.init now) ks b ∧ Shares s b := by
  have hsim : ∃ ks b, Run (UserStep X) (Room.init now) ks b ∧ Sound s ∧ InTurn s ∧ Shares s b :=
    hrun.simulate (R := fun s a => Sound s ∧ InTurn s ∧ Shares s a)
      ⟨sound_init, inTurn_init, shares_init now⟩ fun {l s t a} hs hstep => by
      obtain ⟨ks, b, hrun, hshares⟩ := hstep.users (X := X) hs.1 hs.2.1 hs.2.2
      exact ⟨ks, b, hrun, hstep.sound hs.1, hstep.inTurn hs.2.1, hshares⟩
  obtain ⟨ks, b, hrun, -, -, hshares⟩ := hsim
  exact ⟨ks, b, hrun, hshares⟩

end Nullpipe

import Nullpipe.Lib.Transition
import Mathlib.Logic.Function.Basic

/-!
# The handles of a room

`RoomHandle` of `room.rs`: an `Arc` on the shared state, which clones and drops of the handle
count, the quit flag, the shutdown watch, and the slot with the Tor client, which `do_quit`
empties and the background task of the room fills.  Host and joiner rooms differ in the
background task only (`host_task`, `joiner_task`).

A step is one access to shared state.  The drop of a handle reads the strong count and releases
its `Arc` later, and `do_quit` swaps the flag, signals, and empties the slot one after the
other; in between any other handle, call or task may take a step.

The rest of a room is not here.  `Users.lean` says how this model and that of a hosted room
belong together.
-/

namespace Nullpipe

/-- Index of a `RoomHandle`, and of a call of `RoomHandle::quit`. -/
abbrev HandleId := ℕ
abbrev CallId := ℕ

/-- The two kinds of room. -/
inductive Side
  | host
  | joiner
  deriving DecidableEq, Repr

/-! ## State -/

/-- What a run of `do_quit` does next. -/
inductive DoQuit
  | swap
  | send
  | take
  deriving DecidableEq, Repr

/-- Where a handle stands.  From `counting` on its drop has begun. -/
inductive RoomHandle
  /-- not cloned yet -/
  | unborn
  | live
  | counting
  | quitting (q : DoQuit)
  | releasing
  /-- the last `Arc` is gone, and the shared state is dropped field by field -/
  | freeingSend
  | freeingWatch
  | released
  deriving DecidableEq, Repr

/-- Where a call of `RoomHandle::quit` stands. -/
inductive QuitCall
  | idle
  | running (h : HandleId) (q : DoQuit)
  | returned
  deriving DecidableEq, Repr

/-- Where the background task of the room stands. -/
inductive RoomTask
  /-- `bootstrap_with_shutdown` -/
  | bootstrap
  /-- it has returned the Tor client -/
  | bootstrapped
  | readClient
  /-- sends the error for a missing client -/
  | noClient
  /-- `Joiner::connect` -/
  | connect
  /-- sends the error of the failed connection -/
  | connectFailed
  /-- `run_host_loop`, or `Joiner::run` and the events around it -/
  | session
  | cleanup
  | ended
  deriving DecidableEq, Repr

/-- The handles of a room and what they share.  `tor` says whether the slot holds a
`TorBootstrap`; `receivers` counts the shutdown receivers of the tasks that the
background task has spawned. -/
structure Life where
  strong : ℕ
  handles : HandleId → RoomHandle
  calls : CallId → QuitCall
  quitFlag : Bool
  sendOpen : Bool
  watchVersion : ℕ
  watchOpen : Bool
  task : RoomTask
  receivers : ℕ
  tor : Bool

namespace Life

/-- The room as `host` or `join` returns it. -/
def init : Life where
  strong := 1
  handles := Function.update (fun _ => .unborn) 0 .live
  calls := fun _ => .idle
  quitFlag := false
  sendOpen := true
  watchVersion := 0
  watchOpen := true
  task := .bootstrap
  receivers := 0
  tor := false

/-- `shutdown_rx.changed()` is ready for a background task. -/
def Ready (s : Life) : Prop := s.watchVersion ≠ 0 ∨ s.watchOpen = false

/-- Some background task has a shutdown receiver. -/
def Watched (s : Life) : Prop := s.task ≠ .ended ∨ 0 < s.receivers

instance (s : Life) : Decidable s.Ready := inferInstanceAs (Decidable (_ ∨ _))
instance (s : Life) : Decidable s.Watched := inferInstanceAs (Decidable (_ ∨ _))

def setHandle (s : Life) (h : HandleId) (phase : RoomHandle) : Life :=
  { s with handles := Function.update s.handles h phase }

def setCall (s : Life) (c : CallId) (phase : QuitCall) : Life :=
  { s with calls := Function.update s.calls c phase }

/-- `shutdown_tx.send(())`: it fails when no receiver is left. -/
def signal (s : Life) : Life :=
  if s.Watched then { s with watchVersion := s.watchVersion + 1 } else s

/-- `guard.take()` on the slot. -/
def takeTor (s : Life) : Life := { s with tor := false }

/-- The background task returns.  The slot goes with it if the shared state is gone. -/
def endTask (s : Life) : Life :=
  { s with task := .ended, tor := if s.watchOpen = true then s.tor else false }

/-- The shutdown sender is dropped with the rest of the shared state.  The slot goes
with it if the background task is gone. -/
def freeWatch (s : Life) : Life :=
  { s with watchOpen := false, tor := if s.task = .ended then false else s.tor }

end Life

/-! ## Steps -/

inductive RoomHandleLabel
  | clone (h' : HandleId)
  | drop
  | count
  | swap
  | send
  | take
  | release
  | freeSend
  | freeWatch
  deriving DecidableEq, Repr

inductive QuitLabel
  | start (h : HandleId)
  | swap
  | send
  | take
  deriving DecidableEq, Repr

inductive TaskLabel
  | bootstrapOk
  | bootstrapNone
  | fill
  | readClient
  | reportNoClient
  | connected
  | connectFailed
  | reportError
  | sessionEnd
  | cleanup
  | cloneWatch
  | dropWatch
  deriving DecidableEq, Repr

inductive LifeLabel
  | handle (h : HandleId) (l : RoomHandleLabel)
  | call (c : CallId) (l : QuitLabel)
  | task (l : TaskLabel)
  deriving DecidableEq, Repr

/-- The clones and the drop of a handle.  A handle that is being dropped is borrowed
by no call. -/
inductive RoomHandleStep (h : HandleId) : RoomHandleLabel → Life → Life → Prop
  | clone {s : Life} {h' : HandleId} (hphase : s.handles h = .live)
      (hnew : s.handles h' = .unborn) :
      RoomHandleStep h (.clone h') s { s.setHandle h' .live with strong := s.strong + 1 }
  | drop {s : Life} (hphase : s.handles h = .live) (hfree : ∀ c q, s.calls c ≠ .running h q) :
      RoomHandleStep h .drop s (s.setHandle h .counting)
  /-- `Arc::strong_count(&self.inner) == 1` -/
  | countLast {s : Life} (hphase : s.handles h = .counting) (hcount : s.strong = 1) :
      RoomHandleStep h .count s (s.setHandle h (.quitting .swap))
  | countOthers {s : Life} (hphase : s.handles h = .counting) (hcount : s.strong ≠ 1) :
      RoomHandleStep h .count s (s.setHandle h .releasing)
  /-- `quit_flag.swap(true)` -/
  | swap {s : Life} (hphase : s.handles h = .quitting .swap) (hflag : s.quitFlag = false) :
      RoomHandleStep h .swap s { s.setHandle h (.quitting .send) with quitFlag := true }
  /-- already quit -/
  | swapAgain {s : Life} (hphase : s.handles h = .quitting .swap) (hflag : s.quitFlag = true) :
      RoomHandleStep h .swap s (s.setHandle h .releasing)
  | send {s : Life} (hphase : s.handles h = .quitting .send) :
      RoomHandleStep h .send s (s.signal.setHandle h (.quitting .take))
  | take {s : Life} (hphase : s.handles h = .quitting .take) :
      RoomHandleStep h .take s (s.takeTor.setHandle h .releasing)
  /-- the drop of the `Arc`, when others are left -/
  | releaseOthers {s : Life} (hphase : s.handles h = .releasing) (hcount : s.strong ≠ 1) :
      RoomHandleStep h .release s { s.setHandle h .released with strong := s.strong - 1 }
  | releaseLast {s : Life} (hphase : s.handles h = .releasing) (hcount : s.strong = 1) :
      RoomHandleStep h .release s { s.setHandle h .freeingSend with strong := 0 }
  | freeSend {s : Life} (hphase : s.handles h = .freeingSend) :
      RoomHandleStep h .freeSend s { s.setHandle h .freeingWatch with sendOpen := false }
  | freeWatch {s : Life} (hphase : s.handles h = .freeingWatch) :
      RoomHandleStep h .freeWatch s (s.freeWatch.setHandle h .released)

/-- `RoomHandle::quit` on the handle `h`. -/
inductive QuitStep (c : CallId) : QuitLabel → Life → Life → Prop
  | start {s : Life} {h : HandleId} (hphase : s.calls c = .idle) (hlive : s.handles h = .live) :
      QuitStep c (.start h) s (s.setCall c (.running h .swap))
  | swap {s : Life} {h : HandleId} (hphase : s.calls c = .running h .swap)
      (hflag : s.quitFlag = false) :
      QuitStep c .swap s { s.setCall c (.running h .send) with quitFlag := true }
  /-- already quit -/
  | swapAgain {s : Life} {h : HandleId} (hphase : s.calls c = .running h .swap)
      (hflag : s.quitFlag = true) :
      QuitStep c .swap s (s.setCall c .returned)
  | send {s : Life} {h : HandleId} (hphase : s.calls c = .running h .send) :
      QuitStep c .send s (s.signal.setCall c (.running h .take))
  | take {s : Life} {h : HandleId} (hphase : s.calls c = .running h .take) :
      QuitStep c .take s (s.takeTor.setCall c .returned)

/-- `host_task` and `joiner_task`.  The `biased` select of the bootstrap sees the
shutdown signal first, so the bootstrap ends well only without one. -/
inductive TaskStep (side : Side) : TaskLabel → Life → Life → Prop
  | bootstrapOk {s : Life} (hphase : s.task = .bootstrap) (hready : ¬ s.Ready) :
      TaskStep side .bootstrapOk s { s with task := .bootstrapped }
  /-- cancelled or failed -/
  | bootstrapNone {s : Life} (hphase : s.task = .bootstrap) :
      TaskStep side .bootstrapNone s s.endTask
  | fill {s : Life} (hphase : s.task = .bootstrapped) :
      TaskStep side .fill s { s with tor := true, task := .readClient }
  | readClient {s : Life} (hphase : s.task = .readClient) (htor : s.tor = true) :
      TaskStep side .readClient s
        { s with task := if side = .host then .session else .connect }
  | readNoClient {s : Life} (hphase : s.task = .readClient) (htor : s.tor = false) :
      TaskStep side .readClient s { s with task := .noClient }
  | reportNoClient {s : Life} (hphase : s.task = .noClient) :
      TaskStep side .reportNoClient s s.endTask
  | connected {s : Life} (hphase : s.task = .connect) :
      TaskStep side .connected s { s with task := .session }
  | connectFailed {s : Life} (hphase : s.task = .connect) :
      TaskStep side .connectFailed s { s with task := .connectFailed }
  /-- the slot is left as it is -/
  | reportError {s : Life} (hphase : s.task = .connectFailed) :
      TaskStep side .reportError s s.endTask
  | sessionEnd {s : Life} (hphase : s.task = .session) :
      TaskStep side .sessionEnd s { s with task := .cleanup }
  | cleanup {s : Life} (hphase : s.task = .cleanup) :
      TaskStep side .cleanup s s.takeTor.endTask
  | cloneWatch {s : Life} (hsource : s.task = .session ∨ 0 < s.receivers) :
      TaskStep side .cloneWatch s { s with receivers := s.receivers + 1 }
  | dropWatch {s : Life} (hsome : 0 < s.receivers) :
      TaskStep side .dropWatch s { s with receivers := s.receivers - 1 }

/-- The steps of the handles, of the calls of `quit`, and of the background task. -/
inductive LifeStep (side : Side) : LifeLabel → Life → Life → Prop
  | handle {h : HandleId} {l : RoomHandleLabel} {s t : Life} (hstep : RoomHandleStep h l s t) :
      LifeStep side (.handle h l) s t
  | call {c : CallId} {l : QuitLabel} {s t : Life} (hstep : QuitStep c l s t) :
      LifeStep side (.call c l) s t
  | task {l : TaskLabel} {s t : Life} (hstep : TaskStep side l s t) : LifeStep side (.task l) s t

/-- The states the handles of a room can reach. -/
abbrev LifeReachable (side : Side) (s : Life) : Prop :=
  Transition.Reachable (LifeStep side) Life.init s

end Nullpipe

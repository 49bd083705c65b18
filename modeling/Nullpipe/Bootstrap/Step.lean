import Nullpipe.Bootstrap.Progress
import Nullpipe.Core.Types
import Nullpipe.Lib.Channel
import Nullpipe.Lib.Transition

/-!
# Bootstrapping

`bootstrap.rs`: `bootstrap_with_shutdown` creates a `TorBootstrap`, which spawns a task that
forwards the progress of the bootstrap future to a stream; it hands what it reads on the stream
to the room's event channel and returns the `TorBootstrap` when the stream ends well.

Two tasks take steps, with everything else around them.

* `BootMain` is the caller.  Its `select!` is `biased`, the shutdown signal first.
* `BootTask` is the forwarding task.  It sends the first event, then one for every status, then
  one for the result of the future, and it waits for room before each.
* arti is the environment: it publishes statuses, and its bootstrap future completes once.
* The signal of the shutdown channel stays up, whether it was sent or its sender was dropped.

The event channel may hold anything when the bootstrap begins, and `Boot.init` takes it as it is.
-/

namespace Nullpipe

open Channel Transition

variable {Client : Type}

/-! ## `TorBootstrap` -/

structure TorBootstrap (Client : Type) where
  client : Option Client
  bootstrapped : Bool
  tempDir : Option String
  deriving DecidableEq

/-- What the system and arti answer while a client is built. -/
structure BootSetup (Client : Type) where
  /-- `EPHEMERAL_CHAT_STATE_DIR` -/
  stateDir : Option String
  tempdir : Except String String
  createState : Except String Unit
  createCache : Except String Unit
  config : Except String Unit
  client : Except String Client

/-- `map_err` to a connection error with a text in front. -/
def mapErr {α : Type} (text : String) : Except String α → Except ChatError α
  | .ok a => .ok a
  | .error e => .error (.connection (text ++ e))

/-- `build_config`. -/
def buildConfig (setup : BootSetup Client) : Except ChatError Unit := do
  mapErr "create state dir: " setup.createState
  mapErr "create cache dir: " setup.createCache
  mapErr "config build failed: " setup.config

/-- The state directory: the one that is named, or a temporary one to be kept. -/
def stateDirs (setup : BootSetup Client) : Except ChatError (Option String) :=
  match setup.stateDir with
  | some _ => do
    buildConfig setup
    .ok none
  | none => do
    let temp ← mapErr "create temp dir: " setup.tempdir
    buildConfig setup
    .ok (some temp)

namespace TorBootstrap

def new : TorBootstrap Client := ⟨none, false, none⟩

/-- `TorBootstrap::bootstrap`, up to the task it spawns. -/
def bootstrap (tor : TorBootstrap Client) (setup : BootSetup Client) :
    Except ChatError Unit × TorBootstrap Client :=
  if tor.bootstrapped then (.error (.connection "already bootstrapped"), tor)
  else
    match stateDirs setup with
    | .error e => (.error e, tor)
    | .ok tempDir =>
      match mapErr "create client failed: " setup.client with
      | .error e => (.error e, { tor with tempDir })
      | .ok client => (.ok (), ⟨some client, true, tempDir⟩)

/-- `TorBootstrap::shutdown`. -/
def shutdown (_tor : TorBootstrap Client) : TorBootstrap Client := ⟨none, false, none⟩

variable {tor tor' : TorBootstrap Client} {setup : BootSetup Client} {e : ChatError}

/-- A bootstrap that fails to start leaves no client behind. -/
theorem client_of_bootstrap_error (h : tor.bootstrap setup = (.error e, tor')) :
    tor'.client = tor.client := by
  unfold bootstrap at h
  split at h
  · cases h
    rfl
  · split at h
    · cases h
      rfl
    · split at h
      · cases h
        rfl
      · cases h

end TorBootstrap

/-! ## The state -/

/-- The capacity of the stream of progress events. -/
def progressChanCap : ℕ := 32

/-- Where `bootstrap_with_shutdown` stands. -/
inductive BootMain (Client : Type)
  | start
  | emitError (e : ChatError)
  | select
  | emit (event : ChatEvent)
  | returned (result : Option (TorBootstrap Client))
  deriving DecidableEq

/-- Where the forwarding task stands. -/
inductive BootTask
  | notSpawned
  /-- the initial progress of 0 -/
  | first
  | select
  | emit (event : ChatEvent)
  /-- the event for the result of the future -/
  | last (event : ChatEvent)
  | done
  deriving DecidableEq

structure Boot (Client : Type) where
  main : BootMain Client
  tor : TorBootstrap Client
  bootstrapOk : Bool
  task : BootTask
  /-- the statuses arti publishes, and those the task has taken -/
  statuses : Mpsc Fraction
  /-- the bootstrap future, once it has completed -/
  future : Option (Except String Unit)
  stream : Mpsc ChatEvent
  shutdown : Bool
  events : Mpsc ChatEvent

namespace Boot

/-- `bootstrap_with_shutdown` as it is called on an event channel. -/
def init (events : Mpsc ChatEvent) (shutdown : Bool) : Boot Client :=
  ⟨.start, .new, false, .notSpawned, .empty, none, .empty, shutdown, events⟩

/-- Shut the client down and return `None`; the stream is dropped. -/
def giveUp (s : Boot Client) : Boot Client :=
  { s with main := .returned none, tor := s.tor.shutdown, stream := s.stream.close }

/-- What follows the loop. -/
def conclude (s : Boot Client) : Boot Client :=
  if s.bootstrapOk then { s with main := .returned (some s.tor), stream := s.stream.close }
  else s.giveUp

end Boot

/-- The event for the result of the bootstrap future. -/
def resultEvent : Except String Unit → ChatEvent
  | .ok () => .bootstrapProgress 100
  | .error e => .error (.connection ("bootstrap failed: " ++ e))

/-! ## The steps -/

inductive BootLabel
  | start
  | startFail
  | shutdown
  | takeEvent
  | emitted
  | receiverGone
  | endOfStream
  /-- the forwarding task -/
  | taskResult
  | taskStatus
  | taskSend
  | taskStop
  /-- arti -/
  | publish (f : Fraction)
  | complete (result : Except String Unit)
  /-- the room around it -/
  | quit
  | consume
  | closeEvents
  deriving DecidableEq

/-- The event the forwarding task is sending, and where it goes on. -/
def BootTask.sending : BootTask → Option (ChatEvent × BootTask)
  | .first => some (.bootstrapProgress 0, .select)
  | .emit event => some (event, .select)
  | .last event => some (event, .done)
  | .notSpawned | .select | .done => none

/-- The steps of the two tasks and of those around them. -/
inductive BootStep : BootLabel → Boot Client → Boot Client → Prop
  | start {s : Boot Client} {setup : BootSetup Client} {tor : TorBootstrap Client}
      (hphase : s.main = .start) (hboot : s.tor.bootstrap setup = (.ok (), tor)) :
      BootStep .start s { s with main := .select, tor, task := .first }
  | startFail {s : Boot Client} {setup : BootSetup Client} {tor : TorBootstrap Client}
      {e : ChatError} (hphase : s.main = .start)
      (hboot : s.tor.bootstrap setup = (.error e, tor)) :
      BootStep .startFail s { s with main := .emitError e, tor }
  | errorEmitted {s : Boot Client} {e : ChatError} (hphase : s.main = .emitError e)
      (hroom : s.events.HasRoom eventChanCap) :
      BootStep .emitted s { s with main := .returned none, events := s.events.push (.error e) }
  | errorDropped {s : Boot Client} {e : ChatError} (hphase : s.main = .emitError e)
      (hclosed : s.events.isOpen = false) :
      BootStep .receiverGone s { s with main := .returned none }
  | shutdown {s : Boot Client} (hphase : s.main = .select) (hshutdown : s.shutdown = true) :
      BootStep .shutdown s s.giveUp
  | takeEvent {s : Boot Client} {event : ChatEvent} {rest : List ChatEvent}
      (hphase : s.main = .select) (hshutdown : s.shutdown = false)
      (hqueue : s.stream.queue = event :: rest) :
      BootStep .takeEvent s
        { s with
          main := .emit event
          bootstrapOk := s.bootstrapOk || decide (event = .bootstrapProgress 100)
          stream := s.stream.pop }
  | emitted {s : Boot Client} {event : ChatEvent} (hphase : s.main = .emit event)
      (hroom : s.events.HasRoom eventChanCap) :
      BootStep .emitted s { s with main := .select, events := s.events.push event }
  | receiverGone {s : Boot Client} {event : ChatEvent} (hphase : s.main = .emit event)
      (hclosed : s.events.isOpen = false) : BootStep .receiverGone s s.giveUp
  /-- the stream ends when the task has dropped its sender -/
  | endOfStream {s : Boot Client} (hphase : s.main = .select) (hshutdown : s.shutdown = false)
      (hqueue : s.stream.queue = []) (htask : s.task = .done) :
      BootStep .endOfStream s s.conclude
  | taskResult {s : Boot Client} {result : Except String Unit} (htask : s.task = .select)
      (hfuture : s.future = some result) :
      BootStep .taskResult s { s with task := .last (resultEvent result) }
  /-- `biased`: a status is only looked at while the future is pending -/
  | taskStatus {s : Boot Client} {f : Fraction} {rest : List Fraction}
      (htask : s.task = .select) (hfuture : s.future = none)
      (hqueue : s.statuses.queue = f :: rest) :
      BootStep .taskStatus s
        { s with task := .emit (.bootstrapProgress f.percent), statuses := s.statuses.pop }
  | taskSend {s : Boot Client} {event : ChatEvent} {next : BootTask}
      (htask : s.task.sending = some (event, next)) (hroom : s.stream.HasRoom progressChanCap) :
      BootStep .taskSend s { s with task := next, stream := s.stream.push event }
  | taskStop {s : Boot Client} {event : ChatEvent} {next : BootTask}
      (htask : s.task.sending = some (event, next)) (hclosed : s.stream.isOpen = false) :
      BootStep .taskStop s { s with task := .done }
  | publish {s : Boot Client} {f : Fraction} :
      BootStep (.publish f) s { s with statuses := s.statuses.push f }
  | complete {s : Boot Client} {result : Except String Unit} (hfuture : s.future = none) :
      BootStep (.complete result) s { s with future := some result }
  | quit {s : Boot Client} : BootStep .quit s { s with shutdown := true }
  | consume {s : Boot Client} {event : ChatEvent} {rest : List ChatEvent}
      (hqueue : s.events.queue = event :: rest) :
      BootStep .consume s { s with events := s.events.pop }
  | closeEvents {s : Boot Client} (hopen : s.events.isOpen = true) :
      BootStep .closeEvents s { s with events := s.events.close }

end Nullpipe

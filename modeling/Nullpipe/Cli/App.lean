import Nullpipe.Core.Types
import Mathlib.Data.List.Nodup

/-!
# The terminal application

`cli/src/main.rs`: what `App::handle_event` does with an event of the room.  A panic is `none`;
the one place where the source can panic here is the slice of `truncate_onion`, which falls on a
character boundary or not.

The part of the application's state that events touch is `App`; the input line, the scroll
position and the handle are not in it, they come with `Tui` in `Input.lean`.

The application keeps a list of peers of its own.  A join event puts its peer on the list unless
it is there already, a leave event takes it off (`handleEvent_peerJoin`,
`handleEvent_peerLeave`), and these two are all that is used of it when the list is compared
with that of the room.
-/

namespace Nullpipe

/-- `ONION_DISPLAY_LEN`. -/
def onionDisplayLen : ℕ := 12

/-! ## State -/

/-- A displayed message, with the time it is stamped with. -/
structure DispMsg where
  ts : Option ℕ
  name : String
  text : String
  system : Bool
  deriving DecidableEq, Repr

inductive Mode
  | bootstrap (progress : UInt8) (msg : String)
  | running
  | shuttingDown (since : ℕ)
  deriving DecidableEq, Repr

structure App where
  mode : Mode
  msgs : List DispMsg
  onion : Option String
  peers : List PeerInfo
  timestamps : Bool
  deriving DecidableEq, Repr

namespace App

/-- `App::new`. -/
def new (timestamps : Bool) : App := ⟨.bootstrap 0 "starting tor...", [], none, [], timestamps⟩

/-- `App::push` at the time `now`. -/
def push (app : App) (now : ℕ) (name text : String) (system : Bool) : App :=
  { app with msgs := app.msgs ++ [⟨if app.timestamps then some now else none, name, text, system⟩] }

end App

/-! ## Events -/

/-- The slice `[..n]` in bytes: it panics behind the end of the text and inside a
character. -/
def sliceTo : ℕ → List Char → Option (List Char)
  | 0, _ => some []
  | _ + 1, [] => none
  | n + 1, c :: rest =>
    if c.utf8Size ≤ n + 1 then (sliceTo (n + 1 - c.utf8Size) rest).map (c :: ·) else none

/-- `truncate_onion`. -/
def truncateOnion (addr : String) : Option String :=
  if onionDisplayLen < addr.utf8ByteSize then
    (sliceTo onionDisplayLen addr.toList).map String.ofList
  else
    some addr

namespace App

/-- The list of peers with a peer that is not on it yet. -/
def addPeer (peers : List PeerInfo) (info : PeerInfo) : List PeerInfo :=
  if peers.any (fun p => p.id = info.id) then peers else peers ++ [info]

/-- `App::handle_event` at the time `now`. -/
def handleEvent (app : App) (now : ℕ) : ChatEvent → Option App
  | .bootstrapProgress percent =>
    match app.mode with
    | .bootstrap _ msg =>
      some { app with
        mode := .bootstrap percent (if percent < 100 then "bootstrapping tor..." else msg) }
    | _ => some app
  | .roomReady onionAddress _ => do
    let shown ← truncateOnion onionAddress
    some (push { app with onion := some onionAddress, mode := .running } now "system"
      ("room ready: " ++ shown ++ "...") true)
  | .peerJoin info =>
    let shown := push { app with peers := addPeer app.peers info } now "system"
      (info.name ++ " joined") true
    match shown.mode with
    | .bootstrap .. => some { shown with mode := .running }
    | _ => some shown
  | .peerLeave id =>
    some (push { app with peers := app.peers.filter fun p => p.id ≠ id } now "system"
      (id.val ++ " left") true)
  | .message _ name text => some (app.push now name text false)
  | .inviteCreated code => some (app.push now "system" ("new invite code: " ++ code) true)
  | .roomClosed =>
    some { app.push now "system" "room closed" true with mode := .shuttingDown now }
  | .error e => some (app.push now "system" ("error: " ++ e.display) true)

/-- The application after a list of events, each with the time it is handled at. -/
def replay (app : App) (log : List (ℕ × ChatEvent)) : Option App :=
  log.foldlM (fun app entry => app.handleEvent entry.1 entry.2) app

/-! ## The list of peers -/

/-- The ids of the peers on the list. -/
def ids (app : App) : List PeerId := app.peers.map PeerInfo.id

variable {app app' : App} {now : ℕ} {p : PeerId}

@[simp] theorem ids_new (timestamps : Bool) : (new timestamps).ids = [] := rfl

theorem ids_push (name text : String) (system : Bool) :
    (app.push now name text system).ids = app.ids := rfl

theorem map_id_addPeer (peers : List PeerInfo) (info : PeerInfo) :
    (addPeer peers info).map PeerInfo.id =
      if info.id ∈ peers.map PeerInfo.id then peers.map PeerInfo.id
      else peers.map PeerInfo.id ++ [info.id] := by
  have hany : (peers.any fun p => p.id = info.id) = true ↔ info.id ∈ peers.map PeerInfo.id := by
    simp
  unfold addPeer
  by_cases hmem : info.id ∈ peers.map PeerInfo.id
  · rw [if_pos (hany.mpr hmem), if_pos hmem]
  · rw [if_neg fun h => hmem (hany.mp h), if_neg hmem, List.map_append]
    rfl

/-- A join event puts its peer on the list, once. -/
theorem handleEvent_peerJoin (app : App) (now : ℕ) (info : PeerInfo) :
    ∃ app', app.handleEvent now (.peerJoin info) = some app' ∧
      app'.ids = if info.id ∈ app.ids then app.ids else app.ids ++ [info.id] := by
  have hids := map_id_addPeer app.peers info
  simp only [handleEvent]
  split <;> exact ⟨_, rfl, hids⟩

/-- A leave event takes its peer off the list. -/
theorem handleEvent_peerLeave (app : App) (now : ℕ) (id : PeerId) :
    ∃ app', app.handleEvent now (.peerLeave id) = some app' ∧
      app'.ids = app.ids.filter fun p => p ≠ id := by
  refine ⟨_, rfl, ?_⟩
  rw [ids_push, ids, ids, List.filter_map]
  rfl

theorem mem_ids_peerJoin {info : PeerInfo}
    (h : app.handleEvent now (.peerJoin info) = some app') :
    p ∈ app'.ids ↔ p ∈ app.ids ∨ p = info.id := by
  obtain ⟨app₁, heq, hids⟩ := handleEvent_peerJoin app now info
  rw [h] at heq
  cases heq
  rw [hids]
  split
  · rename_i hmem
    constructor
    · exact .inl
    · rintro (hp | rfl)
      · exact hp
      · exact hmem
  · simp

theorem mem_ids_peerLeave {id : PeerId}
    (h : app.handleEvent now (.peerLeave id) = some app') :
    p ∈ app'.ids ↔ p ∈ app.ids ∧ p ≠ id := by
  obtain ⟨app₁, heq, hids⟩ := handleEvent_peerLeave app now id
  rw [h] at heq
  cases heq
  rw [hids]
  simp

end App

end Nullpipe

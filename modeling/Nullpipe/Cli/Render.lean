import Nullpipe.Cli.Input
import Nullpipe.Lib.Transition

/-!
# Drawing the terminal

`render` and what it calls, and the loop of `run_tui`.  A frame is the list of the texts that
are drawn, each with its area; colours are left out.  A slice out of range or inside a character
is `none`, and this is the only way for a function of this module to have no result.

ratatui's layout (`split`) and the local time of a time stamp (`hhmm`) are parameters.  The
results about the screen hold for any layout that returns as many areas as it is asked for.

The loop takes keys, events and results of commands in any order (`TuiStep`), and behind every
step it looks at the time at which it is to quit (`expire`).
-/

namespace Nullpipe

/-! ## Areas -/

structure Rect where
  x : UInt16
  y : UInt16
  width : UInt16
  height : UInt16
  deriving DecidableEq, Repr

/-- `Rect::bottom`, a saturating sum. -/
def Rect.bottom (area : Rect) : UInt16 :=
  if area.y.toNat + area.height.toNat < 2 ^ 16 then area.y + area.height else 65535

inductive Constraint
  | length (rows : UInt16)
  | min (rows : UInt16)
  deriving DecidableEq, Repr

/-- A text that is drawn in an area. -/
structure Drawn where
  area : Rect
  lines : List String
  deriving DecidableEq, Repr

/-- Top bar, messages, status and input. -/
def screenLayout : List Constraint := [.length 1, .min 1, .length 1, .length 1]

/-! ## Names and messages -/

/-- `MAX_DISPLAY_NAME`. -/
def maxDisplayName : ℕ := 20

/-- `SPINNER`. -/
def spinnerChars : List Char := ['⠋', '⠙', '⠹', '⠸', '⠼', '⠴', '⠦', '⠧', '⠇', '⠏']

/-- The slice `[first..last]` of a list. -/
def sliceOf {α : Type} (first last : ℕ) (items : List α) : Option (List α) :=
  if first ≤ last ∧ last ≤ items.length then some ((items.take last).drop first) else none

/-- A name as it is displayed, cut behind 17 bytes where it has more than 20. -/
def displayName (name : String) : Option String :=
  if maxDisplayName < name.utf8ByteSize then
    (sliceTo (maxDisplayName - 3) name.toList).map fun front => String.ofList front ++ "..."
  else some name

/-- The line of a message. -/
def messageLine (hhmm : ℕ → String) (m : DispMsg) : Option String := do
  let shown ← if m.system then some "system" else displayName m.name
  let stamp := (m.ts.map fun ts => hhmm ts ++ " ").getD ""
  some (stamp ++ "[" ++ shown ++ "] " ++ m.text)

/-! ## `render` -/

/-- `render_bootstrap`, some seconds after the start. -/
def renderBootstrap (area : Rect) (elapsed : ℕ) (progress : UInt8) (msg : String) :
    Option (List Drawn) := do
  let spinner ← spinnerChars[elapsed % spinnerChars.length]?
  let front := "  " ++ spinner.toString ++ "  "
  some [⟨area, [if progress = 0 then front ++ msg
    else if progress < 100 then front ++ msg ++ "  " ++ toString progress.toNat ++ "%"
    else front ++ "connecting..."]⟩]

/-- `render_messages`. -/
def renderMessages (hhmm : ℕ → String) (tui : Tui) (area : Rect) : Option (List Drawn) := do
  let visibleEnd := tui.msgs.length - tui.scroll.toNat
  let visibleStart := visibleEnd - area.height.toNat
  let window ← sliceOf visibleStart visibleEnd tui.msgs
  let lines ← window.mapM (messageLine hhmm)
  let below : List Drawn :=
    if tui.scroll = 0 then []
    else [⟨⟨area.x, if 1 ≤ area.bottom then area.bottom - 1 else 0,
      if area.width ≤ 15 then area.width else 15, 1⟩, [" ▼ more below"]⟩]
  some (⟨area, lines⟩ :: below)

/-- `render_status`. -/
def renderStatus (tui : Tui) (area : Rect) : Drawn :=
  ⟨area, [if tui.peers = [] then "no peers"
    else "peers: " ++ ", ".intercalate (tui.peers.map PeerInfo.name)]⟩

/-- `render_input`. -/
def renderInput (tui : Tui) (area : Rect) : Drawn := ⟨area, ["> " ++ String.ofList tui.input]⟩

/-- The text of the top bar. -/
def topText (tui : Tui) : Option String :=
  match tui.onion with
  | some addr => (truncateOnion addr).map fun shown => "ephemeral-chat [" ++ shown ++ "...]"
  | none => some "ephemeral-chat"

/-- The middle of the screen. -/
def renderBody (hhmm : ℕ → String) (tui : Tui) (area : Rect) (elapsed : ℕ) :
    Option (List Drawn) :=
  match tui.mode with
  | .bootstrap progress msg => renderBootstrap area elapsed progress msg
  | .running | .shuttingDown _ => renderMessages hhmm tui area

/-- `render`. -/
def render (split : List Constraint → Rect → List Rect) (hhmm : ℕ → String) (tui : Tui)
    (area : Rect) (elapsed : ℕ) : Option (List Drawn) :=
  if area.width < 10 ∨ area.height < 4 then
    some [⟨area, ["Terminal too small: " ++ toString area.width.toNat ++ "x" ++
      toString area.height.toNat ++ " (need at least 10x4)"]⟩]
  else do
    let chunks := split screenLayout area
    let top ← topText tui
    let topArea ← chunks[0]?
    let bodyArea ← chunks[1]?
    let body ← renderBody hhmm tui bodyArea elapsed
    let statusArea ← chunks[2]?
    let inputArea ← chunks[3]?
    some (⟨topArea, [top]⟩ :: body ++ [renderStatus tui statusArea, renderInput tui inputArea])

/-! ## The loop of `run_tui` -/

/-- What a command comes back with. -/
inductive CmdResult
  | invite (code : Except String String)
  | peers (peers : List PeerInfo)
  | quit

namespace Tui

/-- An event of the room, or the end of its channel. -/
def handleMaybeEvent (tui : Tui) (now : ℕ) : Option ChatEvent → Option Tui
  | some event => (tui.toApp.handleEvent now event).map fun app => { tui with toApp := app }
  | none =>
    match tui.mode with
    | .shuttingDown _ => some tui
    | .bootstrap .. | .running =>
      let shown := tui.pushSystem now "connection lost"
      some { shown with mode := .shuttingDown now }

def handleResult (tui : Tui) (now : ℕ) : CmdResult → Tui
  | .invite (.ok code) => tui.pushSystem now ("invite code: " ++ code)
  | .invite (.error e) => tui.pushSystem now ("invite failed: " ++ e)
  | .peers peers =>
    if peers = [] then tui.pushSystem now "no peers connected"
    else tui.pushSystem now ("peers: " ++ ", ".intercalate (peers.map PeerInfo.name))
  | .quit => { tui with quit := true }

/-- Behind every step: five seconds after the end of the room the application quits. -/
def expire (tui : Tui) (now : ℕ) : Tui :=
  match tui.mode with
  | .shuttingDown since => if 5 * 1000 < now - since then { tui with quit := true } else tui
  | .bootstrap .. | .running => tui

end Tui

inductive TuiLabel
  | key (now : ℕ) (key : KeyEvent)
  | event (now : ℕ) (event : Option ChatEvent)
  | result (now : ℕ) (result : CmdResult)
  | tick (now : ℕ)

/-- The steps of the loop, up to the drawing; the loop ends once `quit` is set. -/
inductive TuiStep (checks : Bool) : TuiLabel → Tui → Tui → Prop
  | key {tui tui' : Tui} {now : ℕ} {key : KeyEvent}
      (hkey : tui.handleKey checks now key = some tui') :
      TuiStep checks (.key now key) tui (tui'.expire now)
  | event {tui tui' : Tui} {now : ℕ} {event : Option ChatEvent}
      (hevent : tui.handleMaybeEvent now event = some tui') :
      TuiStep checks (.event now event) tui (tui'.expire now)
  | result {tui : Tui} {now : ℕ} {result : CmdResult} :
      TuiStep checks (.result now result) tui ((tui.handleResult now result).expire now)
  | tick {tui : Tui} {now : ℕ} : TuiStep checks (.tick now) tui (tui.expire now)

end Nullpipe

import Nullpipe.Cli.App
import Nullpipe.Core.Invite
import Nullpipe.Lib.ByteText

/-!
# The terminal application and its keys

`cli/src/main.rs`: the application of `run_tui` with its input line and scroll position, what
`App::handle_key` does with a key, and the steps of the loop around it.

A panic is `none`, and there are two sources of it.

* `String::insert` and `String::remove` at an offset inside a character.  The cursor is a byte
  offset, so the line is edited with `Lib/ByteText.lean`.
* The scroll position, a `usize`, in a build with overflow checks (`checks`).

What a command asks of the room runs in a task of its own; `spawned` lists these tasks, and the
terminal itself does no more than to put them there.
-/

namespace Nullpipe

open String

/-! ## Keys -/

inductive KeyCode
  | char (c : Char)
  | enter
  | backspace
  | delete
  | left
  | right
  | home
  | endKey
  | up
  | down
  | pageUp
  | pageDown
  /-- any other key -/
  | other
  deriving DecidableEq, Repr

/-- The bits of `KeyModifiers`. -/
abbrev KeyModifiers : Type := UInt8

namespace KeyModifiers

def shift : KeyModifiers := 1
def control : KeyModifiers := 2

def contains (modifiers bits : KeyModifiers) : Bool := modifiers &&& bits = bits

end KeyModifiers

structure KeyEvent where
  code : KeyCode
  modifiers : KeyModifiers
  deriving DecidableEq, Repr

namespace KeyEvent

/-- Ctrl-C. -/
def IsInterrupt (key : KeyEvent) : Prop :=
  key.code = .char 'c' ∧ KeyModifiers.contains key.modifiers .control = true

instance (key : KeyEvent) : Decidable key.IsInterrupt := inferInstanceAs (Decidable (_ ∧ _))

/-- No modifier, or Shift alone. -/
def Plain (key : KeyEvent) : Prop := key.modifiers = 0 ∨ key.modifiers = .shift

instance (key : KeyEvent) : Decidable key.Plain := inferInstanceAs (Decidable (_ ∨ _))

end KeyEvent

/-! ## State -/

/-- What a command runs in a task of its own. -/
inductive Spawned
  | send (text : String)
  | invite (name : Option String)
  | peers
  | quit
  deriving DecidableEq, Repr

structure Tui extends App where
  /-- there is a room handle -/
  handle : Bool
  input : List Char
  cursor : ℕ
  scroll : UInt64
  quit : Bool
  /-- there is a channel for the results of commands -/
  cmdTx : Bool
  spawned : List Spawned
  deriving DecidableEq, Repr

namespace Tui

/-- `App::new`, with a handle and a command channel once they are set. -/
def new (timestamps handle cmdTx : Bool) : Tui :=
  { App.new timestamps with
    handle, input := [], cursor := 0, scroll := 0, quit := false, cmdTx, spawned := [] }

/-- `App::push` of a system message. -/
def pushSystem (tui : Tui) (now : ℕ) (text : String) : Tui :=
  { tui with toApp := tui.toApp.push now "system" text true }

def spawn (tui : Tui) (task : Spawned) : Tui := { tui with spawned := tui.spawned ++ [task] }

end Tui

/-! ## Commands -/

/-- The characters of Unicode's `White_Space`. -/
def isWhitespace (c : Char) : Bool :=
  (0x09 ≤ c.toNat ∧ c.toNat ≤ 0x0D) ∨ (0x2000 ≤ c.toNat ∧ c.toNat ≤ 0x200A) ∨
    c.toNat ∈ [0x20, 0x85, 0xA0, 0x1680, 0x2028, 0x2029, 0x202F, 0x205F, 0x3000]

/-- The parts of `split_whitespace`, behind the beginning `word` of the first. -/
def splitWhitespaceFrom (word : List Char) : List Char → List String
  | [] => if word = [] then [] else [ofList word]
  | c :: rest =>
    if isWhitespace c then
      if word = [] then splitWhitespaceFrom [] rest
      else ofList word :: splitWhitespaceFrom [] rest
    else splitWhitespaceFrom (word ++ [c]) rest

/-- `str::split_whitespace`. -/
def splitWhitespace (text : List Char) : List String := splitWhitespaceFrom [] text

/-- The lines of `/help`. -/
def helpLines : List String :=
  ["available commands:",
    "  /invite [name]  — generate an invite code",
    "  /peers         — list connected peers",
    "  /help          — show this help",
    "  /quit          — leave the room"]

namespace Tui

/-- `App::dispatch_command`. -/
def dispatchCommand (tui : Tui) (now : ℕ) (cmd : List Char) : Tui :=
  if tui.handle = false then tui.pushSystem now "room not ready"
  else if tui.cmdTx = false then tui.pushSystem now "command channel not ready"
  else
    let parts := splitWhitespace cmd
    match parts.head?.getD "" with
    | "invite" => tui.spawn (.invite parts[1]?)
    | "peers" => tui.spawn .peers
    | "quit" => tui.spawn .quit
    | "help" => helpLines.foldl (fun tui line => tui.pushSystem now line) tui
    | _ => tui.pushSystem now ("unknown command: /" ++ ofList cmd)

/-- `App::send`: the input line is taken, and the view goes to the bottom. -/
def send (tui : Tui) (now : ℕ) : Tui :=
  let cleared := { tui with input := [], cursor := 0, scroll := 0 }
  match tui.input with
  | [] => cleared
  | '/' :: cmd => cleared.dispatchCommand now cmd
  | text => if tui.handle then cleared.spawn (.send (ofList text)) else cleared

/-! ## `App::handle_key` -/

/-- `saturating_sub` on the scroll position. -/
def scrollDown (tui : Tui) (lines : UInt64) : Tui :=
  { tui with scroll := if lines ≤ tui.scroll then tui.scroll - lines else 0 }

/-- `+=` on the scroll position. -/
def scrollUp (checks : Bool) (tui : Tui) (lines : UInt64) : Option Tui := do
  let scroll ← addU64 checks tui.scroll lines
  some { tui with scroll }

/-- A character that is typed: `cursor` moves by one. -/
def typeChar (tui : Tui) (c : Char) : Option Tui := do
  let input ← ByteText.insert tui.cursor c tui.input
  some { tui with input, cursor := tui.cursor + 1 }

/-- `App::handle_key` in `Mode::Running`. -/
def handleRunning (checks : Bool) (tui : Tui) (now : ℕ) (key : KeyEvent) : Option Tui :=
  match key.code with
  | .enter => some (tui.send now)
  | .char c => if key.Plain then tui.typeChar c else some tui
  | .backspace =>
    if 0 < tui.cursor then do
      let input ← ByteText.remove (tui.cursor - 1) tui.input
      some { tui with input, cursor := tui.cursor - 1 }
    else some tui
  | .delete =>
    if tui.cursor < utf8Len tui.input then do
      let input ← ByteText.remove tui.cursor tui.input
      some { tui with input }
    else some tui
  | .left => some { tui with cursor := tui.cursor - 1 }
  | .right =>
    some (if tui.cursor < utf8Len tui.input then { tui with cursor := tui.cursor + 1 } else tui)
  | .home => some { tui with cursor := 0 }
  | .endKey => some { tui with cursor := utf8Len tui.input }
  | .up => tui.scrollUp checks 1
  | .down => some (tui.scrollDown 1)
  | .pageUp => tui.scrollUp checks 10
  | .pageDown => some (tui.scrollDown 10)
  | .other => some tui

/-- `App::handle_key` at the time `now`. -/
def handleKey (checks : Bool) (tui : Tui) (now : ℕ) (key : KeyEvent) : Option Tui :=
  if key.IsInterrupt then some { tui with quit := true }
  else
    match tui.mode with
    | .bootstrap .. | .shuttingDown _ => some tui
    | .running => tui.handleRunning checks now key

/-- The application after a list of keys, each with the time it is handled at. -/
def press (checks : Bool) (tui : Tui) (keys : List (ℕ × KeyEvent)) : Option Tui :=
  keys.foldlM (fun tui entry => tui.handleKey checks entry.1 entry.2) tui

end Tui

end Nullpipe

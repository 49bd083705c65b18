import Nullpipe.Cli.Editor
import Nullpipe.Cli.Render

/-!
# When the screen can be drawn

Three slices are taken when the screen is drawn.  Two of them can always be taken.

* The window of messages is a slice of the list, for every scroll position and number of
  messages (`sliceOf_window`).
* The onion address of a state that is reached can be cut, for it was cut when it was announced.
  This is an invariant of the loop (`Tui.OnionFits`, `TuiStep.onionFits`); an address that cannot
  be cut is a panic of `handle_event` before it is one of `render`.

What is left are the names: one of more than 20 bytes is cut behind 17 bytes, wherever the
characters end.  So the screen can be drawn exactly if every name on it can be displayed
(`screen_drawn_iff`), which needs the converse too: a message on the screen whose name cannot be
cut has no line.  That each part of the screen has a result under its own condition is said part
by part (`renderMessages_returns_iff`, `renderBody_returns_iff`).

`plainSplit` is a layout with which the screen can be evaluated.
-/

namespace Nullpipe

open String Transition

variable {checks : Bool} {tui tui' : Tui} {now : ℕ} {key : KeyEvent} {hhmm : ℕ → String}
  {area : Rect} {elapsed : ℕ}

/-! ## Slices -/

theorem sliceTo_eq (n : ℕ) (text : List Char) :
    sliceTo n text = (ByteText.splitAt n text).map Prod.fst := by
  induction text generalizing n with
  | nil => cases n <;> rfl
  | cons c rest ih =>
      cases n with
      | zero => rfl
      | succ n =>
          rw [sliceTo, ByteText.splitAt, ih]
          split
          · rw [Option.map_map, Option.map_map]
            rfl
          · rfl

/-- A slice of a text is one up to a character boundary. -/
theorem sliceTo_returns_iff {n : ℕ} {text : List Char} :
    (∃ front, sliceTo n text = some front) ↔ ByteText.Boundary n text := by
  rw [ByteText.boundary_iff, sliceTo_eq]
  constructor
  · rintro ⟨front, h⟩
    obtain ⟨parts, hparts, -⟩ := Option.map_eq_some_iff.mp h
    exact ⟨parts, hparts⟩
  · rintro ⟨parts, hparts⟩
    exact ⟨parts.1, by rw [hparts]; rfl⟩

/-- A list is mapped if each of its entries is. -/
theorem mapM_returns_iff {α β : Type} {f : α → Option β} {items : List α} :
    (∃ out, items.mapM f = some out) ↔ ∀ item ∈ items, ∃ out, f item = some out := by
  induction items with
  | nil => simp
  | cons item items ih =>
      rw [List.forall_mem_cons, ← ih, List.mapM_cons]
      constructor
      · rintro ⟨out, h⟩
        obtain ⟨first, hfirst, hrest⟩ := Option.bind_eq_some_iff.mp h
        obtain ⟨rest, hrest, -⟩ := Option.bind_eq_some_iff.mp hrest
        exact ⟨⟨first, hfirst⟩, rest, hrest⟩
      · rintro ⟨⟨first, hfirst⟩, rest, hrest⟩
        exact ⟨first :: rest, by rw [hfirst, hrest]; rfl⟩

/-! ## The window -/

/-- The messages on `rows` lines above the `scroll` last ones. -/
def Tui.visible (tui : Tui) (rows : ℕ) : List DispMsg :=
  ((tui.msgs.reverse.drop tui.scroll.toNat).take rows).reverse

/-- **The window is in range,** for every scroll position and number of messages. -/
theorem sliceOf_window (tui : Tui) (rows : ℕ) :
    sliceOf (tui.msgs.length - tui.scroll.toNat - rows) (tui.msgs.length - tui.scroll.toNat)
      tui.msgs = some (tui.visible rows) := by
  rw [sliceOf, if_pos ⟨Nat.sub_le _ _, Nat.sub_le _ _⟩, Tui.visible, List.drop_reverse,
    List.take_reverse, List.reverse_reverse, List.length_take,
    Nat.min_eq_left (Nat.sub_le _ _)]

/-! ## Names -/

/-- A name that can be displayed: it is short, or has a character boundary where it is cut. -/
def NameFits (name : String) : Prop :=
  name.utf8ByteSize ≤ maxDisplayName ∨ ByteText.Boundary (maxDisplayName - 3) name.toList

theorem displayName_returns_iff {name : String} :
    (∃ shown, displayName name = some shown) ↔ NameFits name := by
  unfold displayName NameFits
  split_ifs with hlong
  · rw [← sliceTo_returns_iff, or_iff_right (Nat.not_le.mpr hlong)]
    constructor
    · rintro ⟨shown, h⟩
      obtain ⟨front, hfront, -⟩ := Option.map_eq_some_iff.mp h
      exact ⟨front, hfront⟩
    · rintro ⟨front, hfront⟩
      exact ⟨_, by rw [hfront]; rfl⟩
  · exact iff_of_true ⟨name, rfl⟩ (.inl (Nat.not_lt.mp hlong))

theorem messageLine_returns_iff (hhmm : ℕ → String) {m : DispMsg} :
    (∃ line, messageLine hhmm m = some line) ↔ (m.system = false → NameFits m.name) := by
  unfold messageLine
  cases m.system with
  | true => exact iff_of_true ⟨_, rfl⟩ (by simp)
  | false =>
      rw [← displayName_returns_iff]
      constructor
      · rintro ⟨line, h⟩ -
        obtain ⟨shown, hshown, -⟩ := Option.bind_eq_some_iff.mp h
        exact ⟨shown, hshown⟩
      · intro h
        obtain ⟨shown, hshown⟩ := h rfl
        exact ⟨_, by simp only [Bool.false_eq_true, if_false, hshown]; rfl⟩

/-! ## The parts of the screen -/

theorem renderMessages_returns_iff (hhmm : ℕ → String) :
    (∃ drawn, renderMessages hhmm tui area = some drawn) ↔
      ∀ m ∈ tui.visible area.height.toNat, m.system = false → NameFits m.name := by
  unfold renderMessages
  simp only [sliceOf_window, Option.bind_eq_bind, Option.bind_some]
  rw [← forall₂_congr fun m _ => messageLine_returns_iff hhmm (m := m),
    ← mapM_returns_iff]
  constructor
  · rintro ⟨drawn, h⟩
    obtain ⟨lines, hlines, -⟩ := Option.bind_eq_some_iff.mp h
    exact ⟨lines, hlines⟩
  · rintro ⟨lines, hlines⟩
    exact ⟨_, by simp only [hlines]; rfl⟩

theorem renderBootstrap_returns (area : Rect) (elapsed : ℕ) (progress : UInt8) (msg : String) :
    ∃ drawn, renderBootstrap area elapsed progress msg = some drawn := by
  have hlt : elapsed % spinnerChars.length < spinnerChars.length := Nat.mod_lt _ (by decide)
  unfold renderBootstrap
  rw [List.getElem?_eq_getElem hlt]
  exact ⟨_, rfl⟩

/-- No message is drawn before the room is ready. -/
def Tui.Bootstrapping (tui : Tui) : Prop := ∃ progress msg, tui.mode = .bootstrap progress msg

theorem renderBody_returns_iff (hhmm : ℕ → String) (elapsed : ℕ) :
    (∃ drawn, renderBody hhmm tui area elapsed = some drawn) ↔
      tui.Bootstrapping ∨
        ∀ m ∈ tui.visible area.height.toNat, m.system = false → NameFits m.name := by
  unfold renderBody Tui.Bootstrapping
  rw [← renderMessages_returns_iff hhmm]
  cases tui.mode with
  | bootstrap progress msg =>
      exact iff_of_true (renderBootstrap_returns _ _ _ _) (.inl ⟨progress, msg, rfl⟩)
  | running | shuttingDown => simp

/-! ## What the steps keep -/

/-- What no key and no result of a command changes; messages only come in at the end. -/
structure Tui.Keeps (tui tui' : Tui) : Prop where
  mode : tui'.mode = tui.mode
  onion : tui'.onion = tui.onion
  msgs : tui.msgs <+: tui'.msgs

theorem Tui.Keeps.refl (tui : Tui) : tui.Keeps tui := ⟨rfl, rfl, List.prefix_rfl⟩

theorem Tui.Keeps.trans {tui'' : Tui} (h : tui.Keeps tui') (h' : tui'.Keeps tui'') :
    tui.Keeps tui'' :=
  ⟨h'.mode.trans h.mode, h'.onion.trans h.onion, h.msgs.trans h'.msgs⟩

theorem Tui.keeps_pushSystem (tui : Tui) (now : ℕ) (text : String) :
    tui.Keeps (tui.pushSystem now text) := ⟨rfl, rfl, List.prefix_append _ _⟩

theorem Tui.keeps_pushLines (tui : Tui) (now : ℕ) (lines : List String) :
    tui.Keeps (lines.foldl (fun tui line => tui.pushSystem now line) tui) := by
  induction lines generalizing tui with
  | nil => exact .refl tui
  | cons line lines ih => exact (tui.keeps_pushSystem now line).trans (ih _)

theorem Tui.keeps_dispatchCommand (tui : Tui) (now : ℕ) (cmd : List Char) :
    tui.Keeps (tui.dispatchCommand now cmd) := by
  unfold Tui.dispatchCommand
  split_ifs
  · exact tui.keeps_pushSystem now _
  · exact tui.keeps_pushSystem now _
  · dsimp only
    split
    · exact ⟨rfl, rfl, List.prefix_rfl⟩
    · exact ⟨rfl, rfl, List.prefix_rfl⟩
    · exact ⟨rfl, rfl, List.prefix_rfl⟩
    · exact tui.keeps_pushLines now helpLines
    · exact tui.keeps_pushSystem now _

theorem Tui.keeps_send (tui : Tui) (now : ℕ) : tui.Keeps (tui.send now) := by
  have hcleared : tui.Keeps { tui with input := [], cursor := 0, scroll := 0 } :=
    ⟨rfl, rfl, List.prefix_rfl⟩
  unfold Tui.send
  dsimp only
  split
  · exact hcleared
  · exact hcleared.trans (Tui.keeps_dispatchCommand _ now _)
  · split
    · exact hcleared.trans ⟨rfl, rfl, List.prefix_rfl⟩
    · exact hcleared

theorem Tui.keeps_handleRunning (h : tui.handleRunning checks now key = some tui') :
    tui.Keeps tui' := by
  rcases Tui.handleRunning_cases h with ⟨-, rfl⟩ | ⟨-, rfl | ⟨lines, rfl⟩ | ⟨input, cursor, rfl⟩⟩
  · exact ⟨rfl, rfl, List.prefix_rfl⟩
  · exact tui.keeps_send now
  · exact ⟨rfl, rfl, List.prefix_rfl⟩
  · exact ⟨rfl, rfl, List.prefix_rfl⟩

theorem Tui.keeps_handleKey (h : tui.handleKey checks now key = some tui') : tui.Keeps tui' := by
  unfold Tui.handleKey at h
  split at h
  · cases h
    exact ⟨rfl, rfl, List.prefix_rfl⟩
  · split at h
    · cases h
      exact .refl tui
    · cases h
      exact .refl tui
    · exact Tui.keeps_handleRunning h

theorem Tui.keeps_handleResult (tui : Tui) (now : ℕ) (result : CmdResult) :
    tui.Keeps (tui.handleResult now result) := by
  unfold Tui.handleResult
  split
  · exact tui.keeps_pushSystem now _
  · exact tui.keeps_pushSystem now _
  · split
    · exact tui.keeps_pushSystem now _
    · exact tui.keeps_pushSystem now _
  · exact ⟨rfl, rfl, List.prefix_rfl⟩

theorem Tui.expire_cases (tui : Tui) (now : ℕ) :
    tui.expire now = tui ∨ tui.expire now = { tui with quit := true } := by
  unfold Tui.expire
  split
  · split
    · exact .inr rfl
    · exact .inl rfl
  · exact .inl rfl
  · exact .inl rfl

theorem Tui.keeps_expire (tui : Tui) (now : ℕ) : tui.Keeps (tui.expire now) := by
  rcases tui.expire_cases now with heq | heq
  · rw [heq]
    exact .refl tui
  · rw [heq]
    exact ⟨rfl, rfl, List.prefix_rfl⟩

/-! ## The onion address -/

/-- The address of the room can be cut. -/
def Tui.OnionFits (tui : Tui) : Prop :=
  ∀ addr, tui.onion = some addr → ∃ shown, truncateOnion addr = some shown

theorem topText_returns (h : tui.OnionFits) : ∃ top, topText tui = some top := by
  unfold topText
  cases honion : tui.onion with
  | none => exact ⟨_, rfl⟩
  | some addr =>
      obtain ⟨shown, hshown⟩ := h addr honion
      exact ⟨_, by simp only [hshown]; rfl⟩

/-- An address that is announced has been cut for the announcement. -/
theorem App.handleEvent_onion {app app' : App} {event : ChatEvent}
    (h : app.handleEvent now event = some app') :
    app'.onion = app.onion ∨
      ∃ addr shown, app'.onion = some addr ∧ truncateOnion addr = some shown := by
  cases event with
  | roomReady addr port =>
      obtain ⟨shown, hshown, heq⟩ := Option.bind_eq_some_iff.mp h
      cases heq
      exact .inr ⟨addr, shown, rfl, hshown⟩
  | bootstrapProgress percent =>
      unfold App.handleEvent at h
      dsimp only at h
      split at h <;> cases h <;> exact .inl rfl
  | peerJoin info =>
      unfold App.handleEvent at h
      dsimp only at h
      split at h <;> cases h <;> exact .inl rfl
  | peerLeave | message | inviteCreated | roomClosed | error =>
      cases h
      exact .inl rfl

theorem Tui.handleMaybeEvent_onionFits {event : Option ChatEvent}
    (h : tui.handleMaybeEvent now event = some tui') (hfits : tui.OnionFits) :
    tui'.OnionFits := by
  unfold Tui.handleMaybeEvent at h
  split at h
  · obtain ⟨app, happ, heq⟩ := Option.map_eq_some_iff.mp h
    cases heq
    rcases App.handleEvent_onion happ with hsame | ⟨addr, shown, honion, hshown⟩
    · intro addr haddr
      exact hfits addr (hsame ▸ haddr)
    · intro addr' haddr'
      cases honion.symm.trans haddr'
      exact ⟨shown, hshown⟩
  · split at h <;> cases h <;> exact hfits

theorem Tui.OnionFits.congr (h : tui.OnionFits) (honion : tui'.onion = tui.onion) :
    tui'.OnionFits := fun addr haddr => h addr (honion ▸ haddr)

theorem TuiStep.onionFits {l : TuiLabel} (h : TuiStep checks l tui tui')
    (hfits : tui.OnionFits) : tui'.OnionFits := by
  cases h with
  | @key _ tui₁ now _ hkey =>
      exact hfits.congr ((Tui.keeps_handleKey hkey).trans (tui₁.keeps_expire now)).onion
  | @event _ tui₁ now _ hevent =>
      exact (Tui.handleMaybeEvent_onionFits hevent hfits).congr (tui₁.keeps_expire now).onion
  | @result _ now result =>
      exact hfits.congr ((tui.keeps_handleResult now result).trans (Tui.keeps_expire _ now)).onion
  | @tick _ now => exact hfits.congr (tui.keeps_expire now).onion

/-! ## Every state -/

/-- The lines there are for messages. -/
def messageRows (split : List Constraint → Rect → List Rect) (area : Rect) : ℕ :=
  ((split screenLayout area)[1]?.map fun body => body.height.toNat).getD 0

/-- A screen with an onion address that can be cut. -/
theorem Tui.OnionFits.render_returns_iff {split : List Constraint → Rect → List Rect}
    (hsplit : ∀ constraints area, (split constraints area).length = constraints.length)
    (hfits : tui.OnionFits) (hwidth : 10 ≤ area.width) (hheight : 4 ≤ area.height) :
    (∃ drawn, render split hhmm tui area elapsed = some drawn) ↔
      tui.Bootstrapping ∨
        ∀ m ∈ tui.visible (messageRows split area), m.system = false → NameFits m.name := by
  obtain ⟨top, htop⟩ := topText_returns hfits
  obtain ⟨topArea, bodyArea, statusArea, inputArea, hchunks⟩ :=
    List.length_eq_four.mp (hsplit screenLayout area)
  have hrows : messageRows split area = bodyArea.height.toNat := by
    rw [messageRows, hchunks]
    rfl
  have hlarge : ¬ (area.width < 10 ∨ area.height < 4) := by
    rw [not_or, UInt16.not_lt, UInt16.not_lt]
    exact ⟨hwidth, hheight⟩
  rw [hrows, ← renderBody_returns_iff hhmm elapsed, render, if_neg hlarge]
  simp only [hchunks, htop, List.getElem?_cons_zero, List.getElem?_cons_succ,
    Option.bind_eq_bind, Option.bind_some]
  constructor
  · rintro ⟨drawn, h⟩
    obtain ⟨body, hbody, -⟩ := Option.bind_eq_some_iff.mp h
    exact ⟨body, hbody⟩
  · rintro ⟨body, hbody⟩
    exact ⟨_, by rw [hbody]; rfl⟩

theorem onionFits_of_run {timestamps handle cmdTx : Bool} {ls : List TuiLabel}
    (hrun : Run (TuiStep checks) (Tui.new timestamps handle cmdTx) ls tui) : tui.OnionFits :=
  hrun.invariant (I := Tui.OnionFits) (by simp [Tui.OnionFits, Tui.new, App.new])
    fun hs h => h.onionFits hs

/-- **The screen can be drawn exactly if every name on it can be displayed:** in every state
that is reached, on every terminal that is large enough; the window of messages and the onion
address are always in range. -/
theorem screen_drawn_iff (split : List Constraint → Rect → List Rect)
    (hsplit : ∀ constraints area, (split constraints area).length = constraints.length)
    (hhmm : ℕ → String) (checks timestamps handle cmdTx : Bool) {ls : List TuiLabel} {tui : Tui}
    (hrun : Run (TuiStep checks) (Tui.new timestamps handle cmdTx) ls tui) {area : Rect}
    (hwidth : 10 ≤ area.width) (hheight : 4 ≤ area.height) (elapsed : ℕ) :
    (∃ drawn, render split hhmm tui area elapsed = some drawn) ↔
      tui.Bootstrapping ∨
        ∀ m ∈ tui.visible (messageRows split area), m.system = false → NameFits m.name :=
  (onionFits_of_run hrun).render_returns_iff hsplit hwidth hheight

/-- The rows a part of the screen insists on. -/
def Constraint.fixed : Constraint → UInt16
  | .length rows => rows
  | .min _ => 0

/-- A vertical layout: the parts stand below each other, and one with a minimum gets what those
behind it leave. -/
def plainSplit : List Constraint → Rect → List Rect
  | [], _ => []
  | constraint :: rest, area =>
    let rows := match constraint with
      | .length rows => rows
      | .min _ => area.height - (rest.map Constraint.fixed).sum
    { area with height := rows } ::
      plainSplit rest { area with y := area.y + rows, height := area.height - rows }

theorem length_plainSplit (constraints : List Constraint) (area : Rect) :
    (plainSplit constraints area).length = constraints.length := by
  induction constraints generalizing area with
  | nil => rfl
  | cons constraint rest ih => exact congrArg Nat.succ (ih _)

example : plainSplit [.length 1, .min 1, .length 1, .length 1] ⟨0, 0, 80, 24⟩ =
    [⟨0, 0, 80, 1⟩, ⟨0, 1, 80, 21⟩, ⟨0, 22, 80, 1⟩, ⟨0, 23, 80, 1⟩] := by
  decide

/-- A peer joins, and sends a message under its name. -/
theorem run_shown (name text : String) : ∃ ls tui,
    Run (TuiStep false) (Tui.new false true true) ls tui ∧ tui.mode = .running ∧
      tui.visible 1 = [⟨none, name, text, false⟩] := by
  have hrun : Run (TuiStep false) (Tui.new false true true) [] _ := .nil
  have hrun := hrun.snoc
    (show TuiStep false (.event 0 (some (.peerJoin ⟨⟨"p"⟩, name, 0⟩))) _ _ from .event rfl)
  have hrun := hrun.snoc
    (show TuiStep false (.event 0 (some (.message ⟨"p"⟩ name text))) _ _ from .event rfl)
  exact ⟨_, _, hrun, rfl, rfl⟩

theorem screen_drawn_iff_ann : ∃ ls tui,
    Run (TuiStep false) (Tui.new false true true) ls tui ∧
      ∃ drawn, render plainSplit toString tui ⟨0, 0, 10, 4⟩ 0 = some drawn := by
  obtain ⟨ls, tui, hrun, -, hvisible⟩ := run_shown "ann" "hi"
  refine ⟨ls, tui, hrun, (screen_drawn_iff plainSplit length_plainSplit toString false
    false true true hrun (by decide) (by decide) 0).mpr (.inr ?_)⟩
  rw [show messageRows plainSplit ⟨0, 0, 10, 4⟩ = 1 from rfl, hvisible]
  intro m hm _
  cases List.mem_singleton.mp hm
  exact .inl (by decide)

/-- Eleven letters of two bytes each. -/
def accentedName : String := "ééééééééééé"

theorem not_nameFits_accentedName : ¬ NameFits accentedName := by
  rintro (hshort | hboundary)
  · exact absurd hshort (by decide)
  · obtain ⟨parts, hparts⟩ := ByteText.boundary_iff.mp hboundary
    exact absurd (hparts.symm.trans (show _ = none from by decide)) (by simp)

/-- **A peer whose name has no character boundary behind 17 bytes.** -/
theorem accented_name_panics :
    ¬ ∀ ls tui, Run (TuiStep false) (Tui.new false true true) ls tui →
      ∃ drawn, render plainSplit toString tui ⟨0, 0, 10, 4⟩ 0 = some drawn := by
  intro hall
  obtain ⟨ls, tui, hrun, hrunning, hvisible⟩ := run_shown accentedName "hi"
  have hnames := ((onionFits_of_run hrun).render_returns_iff length_plainSplit (by decide)
    (by decide)).mp (hall ls tui hrun)
  rcases hnames with ⟨progress, msg, hboot⟩ | hnames
  · cases hrunning.symm.trans hboot
  · rw [show messageRows plainSplit ⟨0, 0, 10, 4⟩ = 1 from rfl, hvisible] at hnames
    exact not_nameFits_accentedName (hnames _ (List.mem_singleton_self _) rfl)

end Nullpipe

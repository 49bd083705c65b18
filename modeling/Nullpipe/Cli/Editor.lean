import Nullpipe.Cli.Input

/-!
# The input line as a line editor

The reference editor holds the characters in front of the cursor and those behind it.
`handle_key` moves its byte cursor by one for a character of any size, so that it is this editor
exactly as long as every character that is typed takes one byte (`line_editor_iff`).

`Tui.Shows` relates the two: the line of the application is that of the editor, and its cursor
the number of bytes in front of the editor's.  For one key there are two lemmas.

* A key that fits does to both the same (`Tui.Shows.handleKey`), while the line is one of
  characters that take one byte, and it stays such a line (`Editor.OneByte.handleKey`).
* After a key that does not fit the relation is lost, or the application has panicked
  (`Tui.Shows.not_fits`).

The condition on a list of keys is thus a condition on each of them, and the scroll position has
to go along with it, since that may overflow.  `Tui.follows_iff` is the induction over the list.
It is enough that the application is lost at the first key that does not fit: what comes later
does not matter.
-/

namespace Nullpipe

open String

/-! ## The reference editor -/

/-- A line with a cursor in it; the characters `before` it stand nearest first. -/
structure Editor where
  before : List Char
  after : List Char
  deriving DecidableEq, Repr

namespace Editor

def empty : Editor := ⟨[], []⟩

/-- The whole line. -/
def text (ed : Editor) : List Char := ed.before.reverse ++ ed.after

def left : Editor → Editor
  | ⟨[], after⟩ => ⟨[], after⟩
  | ⟨c :: before, after⟩ => ⟨before, c :: after⟩

def right : Editor → Editor
  | ⟨before, []⟩ => ⟨before, []⟩
  | ⟨before, c :: after⟩ => ⟨c :: before, after⟩

/-- What a key means; Enter takes the line away. -/
def handleKey (ed : Editor) (key : KeyEvent) : Editor :=
  match key.code with
  | .char c => if key.Plain then ⟨c :: ed.before, ed.after⟩ else ed
  | .enter => empty
  | .backspace => ⟨ed.before.tail, ed.after⟩
  | .delete => ⟨ed.before, ed.after.tail⟩
  | .left => ed.left
  | .right => ed.right
  | .home => ⟨[], ed.text⟩
  | .endKey => ⟨ed.text.reverse, []⟩
  | .up | .down | .pageUp | .pageDown | .other => ed

/-- The editor after a list of keys. -/
def press (ed : Editor) (keys : List (ℕ × KeyEvent)) : Editor :=
  keys.foldl (fun ed entry => ed.handleKey entry.2) ed

/-- Every character of the line takes one byte. -/
def OneByte (ed : Editor) : Prop :=
  (∀ c ∈ ed.before, c.utf8Size = 1) ∧ ∀ c ∈ ed.after, c.utf8Size = 1

end Editor

/-- The application shows the line of an editor, with the cursor where it has it. -/
structure Tui.Shows (tui : Tui) (ed : Editor) : Prop where
  running : tui.mode = .running
  input : tui.input = ed.text
  cursor : tui.cursor = utf8Len ed.before

variable {checks : Bool} {tui tui' : Tui} {ed : Editor} {now : ℕ} {key : KeyEvent}

theorem Tui.Shows.boundary (h : tui.Shows ed) : ByteText.Boundary tui.cursor tui.input :=
  ⟨ed.before.reverse, ed.after, h.input, by rw [utf8Len_reverse, h.cursor]⟩

/-! ## The condition -/

/-- The scroll position after a key. -/
def KeyEvent.scrolled (scroll : UInt64) (key : KeyEvent) : UInt64 :=
  match key.code with
  | .enter => 0
  | .up => scroll + 1
  | .down => if 1 ≤ scroll then scroll - 1 else 0
  | .pageUp => scroll + 10
  | .pageDown => if 10 ≤ scroll then scroll - 10 else 0
  | .char _ | .backspace | .delete | .left | .right | .home | .endKey | .other => scroll

/-- A character that is typed takes one byte; where overflow is checked, the scroll position
does not overflow. -/
def KeyEvent.Fits (checks : Bool) (scroll : UInt64) (key : KeyEvent) : Prop :=
  match key.code with
  | .char c => key.Plain → c.utf8Size = 1
  | .up => checks = true → scroll.toNat + 1 < 2 ^ 64
  | .pageUp => checks = true → scroll.toNat + 10 < 2 ^ 64
  | .enter | .backspace | .delete | .left | .right | .home | .endKey | .down | .pageDown
  | .other => True

/-- Every key of the list fits. -/
def Typable (checks : Bool) (scroll : UInt64) : List (ℕ × KeyEvent) → Prop
  | [] => True
  | entry :: keys => entry.2.Fits checks scroll ∧ Typable checks (entry.2.scrolled scroll) keys

/-! ## One key -/

/-- Ctrl-C is no character that is typed. -/
theorem KeyEvent.IsInterrupt.not_plain (h : key.IsInterrupt) : ¬ key.Plain := by
  obtain ⟨-, hcontrol⟩ := h
  rintro (hnone | hshift)
  · rw [hnone] at hcontrol
    exact absurd hcontrol (by decide)
  · rw [hshift] at hcontrol
    exact absurd hcontrol (by decide)

theorem Tui.scrollUp_eq_some {lines : UInt64}
    (h : checks = true → tui.scroll.toNat + lines.toNat < 2 ^ 64) :
    tui.scrollUp checks lines = some { tui with scroll := tui.scroll + lines } := by
  have hadd : addU64 checks tui.scroll lines = some (tui.scroll + lines) :=
    if_neg fun ⟨hchecks, hover⟩ => absurd (h hchecks) (Nat.not_lt.mpr hover)
  rw [Tui.scrollUp, hadd]
  rfl

theorem Tui.scrollUp_eq_none {lines : UInt64}
    (h : ¬ (checks = true → tui.scroll.toNat + lines.toNat < 2 ^ 64)) :
    tui.scrollUp checks lines = none := by
  have hover : checks = true ∧ 2 ^ 64 ≤ tui.scroll.toNat + lines.toNat := by
    rwa [Classical.not_imp, Nat.not_lt] at h
  have hadd : addU64 checks tui.scroll lines = none := if_pos hover
  rw [Tui.scrollUp, hadd]
  rfl

theorem Tui.eq_of_scrollUp {lines : UInt64} (h : tui.scrollUp checks lines = some tui') :
    tui' = { tui with scroll := tui.scroll + lines } := by
  by_cases hfits : checks = true → tui.scroll.toNat + lines.toNat < 2 ^ 64
  · rw [Tui.scrollUp_eq_some hfits] at h
    exact (Option.some.inj h).symm
  · rw [Tui.scrollUp_eq_none hfits] at h
    cases h

/-- The lines by which a key scrolls up. -/
def KeyEvent.linesUp (key : KeyEvent) : ℕ :=
  match key.code with
  | .up => 1
  | .pageUp => 10
  | .char _ | .enter | .backspace | .delete | .left | .right | .home | .endKey | .down
  | .pageDown | .other => 0

/-- What a key can do: send the line, scroll, or change the line and the cursor. -/
theorem Tui.handleRunning_cases (h : tui.handleRunning checks now key = some tui') :
    (0 < key.linesUp ∧ tui' = { tui with scroll := tui.scroll + .ofNat key.linesUp }) ∨
      key.linesUp = 0 ∧ (tui' = tui.send now ∨ (∃ lines, tui' = tui.scrollDown lines) ∨
        ∃ input cursor, tui' = { tui with input, cursor }) := by
  obtain ⟨code, modifiers⟩ := key
  cases code with
  | up => exact .inl ⟨Nat.zero_lt_one, Tui.eq_of_scrollUp h⟩
  | pageUp => exact .inl ⟨Nat.zero_lt_succ 9, Tui.eq_of_scrollUp h⟩
  | enter => exact .inr ⟨rfl, .inl (Option.some.inj h).symm⟩
  | down | pageDown => exact .inr ⟨rfl, .inr (.inl ⟨_, (Option.some.inj h).symm⟩)⟩
  | char c =>
      refine .inr ⟨rfl, .inr (.inr ?_)⟩
      unfold Tui.handleRunning at h
      dsimp only at h
      split at h
      · obtain ⟨input, -, heq⟩ := Option.bind_eq_some_iff.mp h
        exact ⟨_, _, (Option.some.inj heq).symm⟩
      · exact ⟨_, _, (Option.some.inj h).symm⟩
  | backspace | delete =>
      refine .inr ⟨rfl, .inr (.inr ?_)⟩
      unfold Tui.handleRunning at h
      dsimp only at h
      split at h
      · obtain ⟨input, -, heq⟩ := Option.bind_eq_some_iff.mp h
        exact ⟨_, _, (Option.some.inj heq).symm⟩
      · exact ⟨_, _, (Option.some.inj h).symm⟩
  | right =>
      refine .inr ⟨rfl, .inr (.inr ?_)⟩
      cases h
      split
      · exact ⟨_, _, rfl⟩
      · exact ⟨_, _, rfl⟩
  | left | home | endKey | other =>
      exact .inr ⟨rfl, .inr (.inr ⟨_, _, (Option.some.inj h).symm⟩)⟩

/-- A command neither leaves the mode nor touches the input line and the scroll position. -/
theorem Tui.dispatchCommand_keeps (tui : Tui) (now : ℕ) (cmd : List Char) :
    (tui.dispatchCommand now cmd).mode = tui.mode ∧
      (tui.dispatchCommand now cmd).input = tui.input ∧
      (tui.dispatchCommand now cmd).cursor = tui.cursor ∧
      (tui.dispatchCommand now cmd).scroll = tui.scroll := by
  unfold Tui.dispatchCommand
  split_ifs
  · exact ⟨rfl, rfl, rfl, rfl⟩
  · exact ⟨rfl, rfl, rfl, rfl⟩
  · dsimp only
    split <;> exact ⟨rfl, rfl, rfl, rfl⟩

theorem Tui.send_shows (h : tui.mode = .running) (now : ℕ) :
    (tui.send now).Shows .empty ∧ (tui.send now).scroll = 0 := by
  unfold Tui.send
  dsimp only
  split
  · exact ⟨⟨h, rfl, rfl⟩, rfl⟩
  · rename_i cmd _
    obtain ⟨hmode, hinput, hcursor, hscroll⟩ := Tui.dispatchCommand_keeps
      { tui with input := [], cursor := 0, scroll := 0 } now cmd
    exact ⟨⟨hmode.trans h, hinput, hcursor⟩, hscroll⟩
  · split
    · exact ⟨⟨h, rfl, rfl⟩, rfl⟩
    · exact ⟨⟨h, rfl, rfl⟩, rfl⟩

/-- **A key that fits does to the application what it does to the editor,** while the line is
one of characters that take one byte. -/
theorem Tui.Shows.handleRunning (h : tui.Shows ed) (hbyte : ed.OneByte)
    (hfits : key.Fits checks tui.scroll) :
    ∃ tui', tui.handleRunning checks now key = some tui' ∧ tui'.Shows (ed.handleKey key) ∧
      tui'.scroll = key.scrolled tui.scroll := by
  obtain ⟨code, modifiers⟩ := key
  obtain ⟨before, after⟩ := ed
  have hinput : tui.input = before.reverse ++ after := h.input
  have hcursor : tui.cursor = utf8Len before.reverse := h.cursor.trans (utf8Len_reverse _).symm
  cases code with
  | enter =>
      obtain ⟨hshows, hscroll⟩ := Tui.send_shows h.running now
      exact ⟨_, rfl, hshows, hscroll⟩
  | char c =>
      by_cases hplain : KeyEvent.Plain ⟨.char c, modifiers⟩
      -- the cursor moves by one, which is the size of the character
      · have hsize : c.utf8Size = 1 := hfits hplain
        refine ⟨{ tui with input := before.reverse ++ c :: after, cursor := tui.cursor + 1 }, ?_,
          ⟨h.running, ?_, ?_⟩, rfl⟩
        · simp only [Tui.handleRunning, if_pos hplain, Tui.typeChar, hinput, hcursor,
            ByteText.insert_append]
          rfl
        · simp [Editor.handleKey, if_pos hplain, Editor.text]
        · simp [Editor.handleKey, if_pos hplain, h.cursor, hsize]
      · refine ⟨tui, by simp only [Tui.handleRunning, if_neg hplain], ?_, rfl⟩
        simpa only [Editor.handleKey, if_neg hplain] using h
  | backspace =>
      cases before with
      | nil =>
          refine ⟨tui, ?_, h, rfl⟩
          simp [Tui.handleRunning, h.cursor]
      | cons c before =>
          -- so the offset in front of it lies between two characters
          have hsize : c.utf8Size = 1 := hbyte.1 c List.mem_cons_self
          have hback : tui.cursor = utf8Len before.reverse + 1 := by
            rw [h.cursor, utf8Len_cons, hsize, utf8Len_reverse]
          have hline : tui.input = before.reverse ++ c :: after := by
            rw [hinput, List.reverse_cons, List.append_assoc]
            rfl
          refine ⟨{ tui with input := before.reverse ++ after, cursor := tui.cursor - 1 }, ?_,
            ⟨h.running, rfl, ?_⟩, rfl⟩
          · simp only [Tui.handleRunning, hback, hline, Nat.succ_pos, if_true,
              Nat.add_sub_cancel, ByteText.remove_append]
            rfl
          · dsimp only [Editor.handleKey, List.tail_cons]
            rw [hback, Nat.add_sub_cancel, utf8Len_reverse]
  | delete =>
      cases after with
      | nil =>
          refine ⟨tui, ?_, h, rfl⟩
          simp [Tui.handleRunning, hinput, hcursor]
      | cons c after =>
          have hlt : tui.cursor < utf8Len tui.input := by
            rw [hinput, hcursor, utf8Len_append, utf8Len_cons]
            have := c.utf8Size_pos
            omega
          refine ⟨{ tui with input := before.reverse ++ after }, ?_, ⟨h.running, rfl, h.cursor⟩,
            rfl⟩
          simp only [Tui.handleRunning, if_pos hlt]
          rw [hinput, hcursor, ByteText.remove_append]
          rfl
  | left =>
      refine ⟨_, rfl, ?_, rfl⟩
      cases before with
      | nil => exact ⟨h.running, h.input, by rw [h.cursor]; rfl⟩
      | cons c before =>
          have hsize : c.utf8Size = 1 := hbyte.1 c List.mem_cons_self
          refine ⟨h.running, ?_, ?_⟩
          · simp [hinput, Editor.handleKey, Editor.left, Editor.text]
          · simp [h.cursor, Editor.handleKey, Editor.left, hsize]
  | right =>
      refine ⟨_, rfl, ?_, ?_⟩
      · cases after with
        | nil =>
            have hend : ¬ tui.cursor < utf8Len tui.input := by
              rw [hinput, hcursor, List.append_nil]
              exact Nat.lt_irrefl _
            rw [if_neg hend]
            exact h
        | cons c after =>
            have hsize : c.utf8Size = 1 := hbyte.2 c List.mem_cons_self
            have hlt : tui.cursor < utf8Len tui.input := by
              rw [hinput, hcursor, utf8Len_append, utf8Len_cons, hsize]
              omega
            rw [if_pos hlt]
            refine ⟨h.running, ?_, ?_⟩
            · simp [hinput, Editor.handleKey, Editor.right, Editor.text]
            · simp [h.cursor, Editor.handleKey, Editor.right, hsize]
      · split <;> rfl
  | home => exact ⟨_, rfl, ⟨h.running, h.input, rfl⟩, rfl⟩
  | endKey =>
      refine ⟨_, rfl, ⟨h.running, ?_, ?_⟩, rfl⟩
      · simp [hinput, Editor.handleKey, Editor.text]
      · simp [hinput, Editor.handleKey, Editor.text, Nat.add_comm]
  | up => exact ⟨_, Tui.scrollUp_eq_some hfits, ⟨h.running, h.input, h.cursor⟩, rfl⟩
  | pageUp => exact ⟨_, Tui.scrollUp_eq_some hfits, ⟨h.running, h.input, h.cursor⟩, rfl⟩
  | down | pageDown => exact ⟨_, rfl, ⟨h.running, h.input, h.cursor⟩, rfl⟩
  | other => exact ⟨tui, rfl, h, rfl⟩

/-- What is typed takes one byte, and the other keys only move characters or take them out. -/
theorem Editor.OneByte.handleKey (hbyte : ed.OneByte) {scroll : UInt64}
    (hfits : key.Fits checks scroll) : (ed.handleKey key).OneByte := by
  obtain ⟨code, modifiers⟩ := key
  obtain ⟨before, after⟩ := ed
  obtain ⟨hbefore, hafter⟩ := hbyte
  have htext : ∀ c ∈ Editor.text ⟨before, after⟩, c.utf8Size = 1 := by
    intro c hc
    rcases List.mem_append.mp hc with hc | hc
    · exact hbefore c (List.mem_reverse.mp hc)
    · exact hafter c hc
  -- only a character that is typed comes in from outside
  cases code with
  | char c =>
      unfold Editor.handleKey
      dsimp only
      split_ifs with hplain
      · exact ⟨List.forall_mem_cons.mpr ⟨hfits hplain, hbefore⟩, hafter⟩
      · exact ⟨hbefore, hafter⟩
  | enter =>
      constructor
      · simp [Editor.handleKey, Editor.empty]
      · simp [Editor.handleKey, Editor.empty]
  | backspace => exact ⟨fun c hc => hbefore c (List.mem_of_mem_tail hc), hafter⟩
  | delete => exact ⟨hbefore, fun c hc => hafter c (List.mem_of_mem_tail hc)⟩
  | left =>
      cases before with
      | nil => exact ⟨hbefore, hafter⟩
      | cons c before =>
          obtain ⟨hc, hbefore⟩ := List.forall_mem_cons.mp hbefore
          exact ⟨hbefore, List.forall_mem_cons.mpr ⟨hc, hafter⟩⟩
  | right =>
      cases after with
      | nil => exact ⟨hbefore, hafter⟩
      | cons c after =>
          obtain ⟨hc, hafter⟩ := List.forall_mem_cons.mp hafter
          exact ⟨List.forall_mem_cons.mpr ⟨hc, hbefore⟩, hafter⟩
  | home => exact ⟨by simp [Editor.handleKey], htext⟩
  | endKey =>
      exact ⟨fun c hc => htext c (List.mem_reverse.mp hc), by simp [Editor.handleKey]⟩
  | up | down | pageUp | pageDown | other => exact ⟨hbefore, hafter⟩

/-- Ctrl-C changes neither. -/
theorem Tui.Shows.handleKey (h : tui.Shows ed) (now : ℕ) (hbyte : ed.OneByte)
    (hfits : key.Fits checks tui.scroll) :
    ∃ tui', tui.handleKey checks now key = some tui' ∧ tui'.Shows (ed.handleKey key) ∧
      tui'.scroll = key.scrolled tui.scroll := by
  by_cases hctrl : key.IsInterrupt
  · have hcode := hctrl.1
    refine ⟨_, if_pos hctrl, ?_, ?_⟩
    · rw [Editor.handleKey, hcode]
      dsimp only
      rw [if_neg hctrl.not_plain]
      exact ⟨h.running, h.input, h.cursor⟩
    · rw [KeyEvent.scrolled, hcode]
  · rw [Tui.handleKey, if_neg hctrl, h.running]
    exact h.handleRunning hbyte hfits

/-- A character of more bytes leaves the cursor inside it; a position that overflows is a
panic. -/
theorem Tui.Shows.not_fits (h : tui.Shows ed) (hfits : ¬ key.Fits checks tui.scroll) :
    ¬ ∃ tui', tui.handleKey checks now key = some tui' ∧ tui'.Shows (ed.handleKey key) := by
  rintro ⟨tui', hkey, hshows⟩
  obtain ⟨code, modifiers⟩ := key
  have hctrl : ¬ KeyEvent.IsInterrupt ⟨code, modifiers⟩ := by
    intro hctrl
    refine hfits ?_
    have hcode : code = .char 'c' := hctrl.1
    subst hcode
    exact fun hplain => absurd hplain hctrl.not_plain
  rw [Tui.handleKey, if_neg hctrl, h.running] at hkey
  dsimp only at hkey
  cases code with
  | char c =>
      obtain ⟨hplain, hsize⟩ := Classical.not_imp.mp hfits
      simp only [Tui.handleRunning, if_pos hplain, Tui.typeChar, Option.bind_eq_bind,
        Option.bind_eq_some_iff, Option.some.injEq] at hkey
      obtain ⟨input, -, rfl⟩ := hkey
      have hcursor := hshows.cursor
      simp only [Editor.handleKey, if_pos hplain, utf8Len_cons, h.cursor] at hcursor
      omega
  | up =>
      have hnone : tui.scrollUp checks 1 = none := Tui.scrollUp_eq_none hfits
      rw [Tui.handleRunning, hnone] at hkey
      cases hkey
  | pageUp =>
      have hnone : tui.scrollUp checks 10 = none := Tui.scrollUp_eq_none hfits
      rw [Tui.handleRunning, hnone] at hkey
      cases hkey
  | enter | backspace | delete | left | right | home | endKey | down | pageDown | other =>
      exact hfits trivial

/-! ## Every sequence of keys -/

theorem Tui.press_cons (entry : ℕ × KeyEvent) (keys : List (ℕ × KeyEvent)) :
    tui.press checks (entry :: keys) =
      (tui.handleKey checks entry.1 entry.2).bind fun tui => tui.press checks keys := rfl

/-- After every key so far the application is there and shows the editor. -/
def Tui.Follows (checks : Bool) (tui : Tui) (ed : Editor) (keys : List (ℕ × KeyEvent)) : Prop :=
  ∀ front, front <+: keys →
    ∃ tui', tui.press checks front = some tui' ∧ tui'.Shows (ed.press front)

/-- The first key, and then the others. -/
theorem Tui.follows_cons {entry : ℕ × KeyEvent} {keys : List (ℕ × KeyEvent)} (h : tui.Shows ed) :
    tui.Follows checks ed (entry :: keys) ↔
      ∃ tui', tui.handleKey checks entry.1 entry.2 = some tui' ∧
        tui'.Follows checks (ed.handleKey entry.2) keys := by
  constructor
  · intro hall
    obtain ⟨tui', hkey, -⟩ := hall [entry] (List.prefix_append [entry] keys)
    rw [Tui.press_cons] at hkey
    obtain ⟨tui₁, hfirst, hnil⟩ := Option.bind_eq_some_iff.mp hkey
    refine ⟨tui₁, hfirst, fun front hfront => ?_⟩
    obtain ⟨tui₂, hpress, hshows⟩ :=
      hall (entry :: front) (List.cons_prefix_cons.mpr ⟨rfl, hfront⟩)
    rw [Tui.press_cons, hfirst] at hpress
    exact ⟨tui₂, hpress, hshows⟩
  · rintro ⟨tui₁, hfirst, hrest⟩ front hfront
    cases front with
    | nil => exact ⟨tui, rfl, h⟩
    | cons entry' front =>
        obtain ⟨rfl, htail⟩ := List.cons_prefix_cons.mp hfront
        obtain ⟨tui₂, hpress, hshows⟩ := hrest front htail
        refine ⟨tui₂, ?_, hshows⟩
        rw [Tui.press_cons, hfirst]
        exact hpress

theorem Tui.follows_iff {keys : List (ℕ × KeyEvent)} (h : tui.Shows ed) (hbyte : ed.OneByte) :
    tui.Follows checks ed keys ↔ Typable checks tui.scroll keys := by
  induction keys generalizing tui ed with
  | nil =>
      refine iff_of_true (fun front hfront => ?_) trivial
      cases List.prefix_nil.mp hfront
      exact ⟨tui, rfl, h⟩
  | cons entry keys ih =>
      rw [Tui.follows_cons h, Typable]
      by_cases hfits : entry.2.Fits checks tui.scroll
      · obtain ⟨tui', hkey, hshows, hscroll⟩ := h.handleKey entry.1 hbyte hfits
        have hrest := ih hshows (hbyte.handleKey hfits)
        rw [hscroll] at hrest
        rw [← hrest]
        constructor
        · rintro ⟨tui₁, hkey₁, hfollows⟩
          rw [hkey] at hkey₁
          cases hkey₁
          exact ⟨hfits, hfollows⟩
        · rintro ⟨-, hfollows⟩
          exact ⟨tui', hkey, hfollows⟩
      · refine iff_of_false ?_ fun hall => hfits hall.1
        rintro ⟨tui', hkey, hfollows⟩
        obtain ⟨tui₁, hnil, hshows⟩ := hfollows [] List.nil_prefix
        cases hnil
        exact h.not_fits hfits ⟨_, hkey, hshows⟩

/-- **The input line is a line editor exactly while every typed character takes one byte**
and the scroll position does not overflow: no key panics, the application shows the editor
after each, and the cursor lies on a character boundary. -/
theorem line_editor_iff (checks : Bool) (tui : Tui) (hmode : tui.mode = .running)
    (hinput : tui.input = []) (hcursor : tui.cursor = 0) (keys : List (ℕ × KeyEvent)) :
    (∀ front, front <+: keys → ∃ tui', tui.press checks front = some tui' ∧
      tui'.Shows (Editor.empty.press front) ∧ ByteText.Boundary tui'.cursor tui'.input) ↔
    Typable checks tui.scroll keys := by
  have hshows : tui.Shows .empty := ⟨hmode, hinput, hcursor⟩
  have hbyte : Editor.empty.OneByte := ⟨by simp [Editor.empty], by simp [Editor.empty]⟩
  rw [← Tui.follows_iff hshows hbyte]
  constructor
  · intro hall front hfront
    obtain ⟨tui', hpress, hshows, -⟩ := hall front hfront
    exact ⟨tui', hpress, hshows⟩
  · intro hall front hfront
    obtain ⟨tui', hpress, hshows⟩ := hall front hfront
    exact ⟨tui', hpress, hshows, hshows.boundary⟩

/-- A running application with an empty line. -/
def Tui.idle : Tui := { Tui.new false true true with mode := .running }

/-- The keys `h`, `i`, left, `!`, backspace. -/
theorem line_editor_iff_hi :
    ∃ tui', Tui.idle.press true [(0, ⟨.char 'h', 0⟩), (1, ⟨.char 'i', 0⟩), (2, ⟨.left, 0⟩),
      (3, ⟨.char '!', .shift⟩), (4, ⟨.backspace, 0⟩)] = some tui' ∧
      tui'.Shows ⟨['h'], ['i']⟩ := by
  obtain ⟨tui', hpress, hshows, -⟩ := (line_editor_iff true Tui.idle rfl rfl rfl
    [(0, ⟨.char 'h', 0⟩), (1, ⟨.char 'i', 0⟩), (2, ⟨.left, 0⟩), (3, ⟨.char '!', .shift⟩),
      (4, ⟨.backspace, 0⟩)]).mpr
    ⟨fun _ => rfl, fun _ => rfl, trivial, fun _ => rfl, trivial, trivial⟩ _ List.prefix_rfl
  exact ⟨tui', hpress, hshows⟩

/-- **A letter with an umlaut, and another letter:** it is put in at the offset 1, inside the
first. -/
theorem umlaut_panics :
    ¬ ∀ keys : List (ℕ × KeyEvent), (∀ entry ∈ keys, entry.2.Plain) →
      ∃ tui', Tui.idle.press false keys = some tui' := by
  intro hall
  obtain ⟨tui', hpress⟩ := hall [(0, ⟨.char 'ü', 0⟩), (1, ⟨.char 'b', 0⟩)] (by decide)
  cases hpress

end Nullpipe

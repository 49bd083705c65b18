import Nullpipe.Cli.Screen

/-!
# Scrolling through the messages

The scroll position counts messages from the bottom.  `handle_key` takes it up by 1 or 10
without a look at how many messages there are, and `render_messages` shows what it leaves of
them: of `n` messages the window has `min rows (n - scroll)`.  So a line stays empty, although
there is a message for it, as soon as a key scrolls up by more messages than there are above the
window, and only then (`scrolling_iff`).

A step either scrolls up, and does nothing else, or leaves the position where it is or nearer to
the bottom, while messages come in at the end (`TuiStep.view`).  From this it follows which
steps keep the window full (`TuiStep.showsFull_iff`): the second kind does, and of the first
those that find enough messages above the window.  Before there are messages nothing scrolls,
which has to be carried along (`Tui.Scrollable`).

The other half is about `k` keys up and `k` keys down.  The position is the one before, or the
bottom if it has overflown in between (`toNat_up_down`), and the window comes back accordingly;
in a build that checks, the overflow is a panic (`Tui.press_ups_panics`).
-/

namespace Nullpipe

open Transition

variable {checks : Bool} {tui tui' : Tui} {now rows : ℕ} {key : KeyEvent} {l : TuiLabel}

/-! ## The window -/

/-- The messages that `render_messages` selects for `rows` lines. -/
def Tui.window (tui : Tui) (rows : ℕ) : Option (List DispMsg) :=
  let visibleEnd := tui.msgs.length - tui.scroll.toNat
  sliceOf (visibleEnd - rows) visibleEnd tui.msgs

/-- What is drawn is a line for each message of the window. -/
theorem renderMessages_eq_window (hhmm : ℕ → String) {area : Rect} {drawn : List Drawn}
    (h : renderMessages hhmm tui area = some drawn) :
    ∃ window lines, tui.window area.height.toNat = some window ∧
      window.mapM (messageLine hhmm) = some lines ∧ drawn.head? = some ⟨area, lines⟩ := by
  obtain ⟨window, hwindow, h⟩ := Option.bind_eq_some_iff.mp h
  obtain ⟨lines, hlines, h⟩ := Option.bind_eq_some_iff.mp h
  cases h
  exact ⟨window, lines, hwindow, hlines, rfl⟩

/-- The window is one of consecutive messages, and no line is empty while there are messages. -/
def Tui.ShowsFull (rows : ℕ) (tui : Tui) : Prop :=
  ∃ window, tui.window rows = some window ∧ window <:+: tui.msgs ∧
    window.length = min rows tui.msgs.length

theorem Tui.window_eq (tui : Tui) (rows : ℕ) : tui.window rows = some (tui.visible rows) :=
  sliceOf_window tui rows

theorem Tui.visible_infix (tui : Tui) (rows : ℕ) : tui.visible rows <:+: tui.msgs := by
  have hinfix : (tui.msgs.reverse.drop tui.scroll.toNat).take rows <:+: tui.msgs.reverse :=
    (List.take_prefix _ _).isInfix.trans (List.drop_suffix _ _).isInfix
  rw [← List.reverse_infix, Tui.visible, List.reverse_reverse]
  exact hinfix

theorem Tui.length_visible (tui : Tui) (rows : ℕ) :
    (tui.visible rows).length = min rows (tui.msgs.length - tui.scroll.toNat) := by
  rw [Tui.visible, List.length_reverse, List.length_take, List.length_drop, List.length_reverse]

/-- The window is full as long as its upper end is not above the first message. -/
theorem Tui.showsFull_iff (hrows : 1 ≤ rows) :
    tui.ShowsFull rows ↔ tui.msgs = [] ∨ tui.scroll.toNat ≤ tui.msgs.length - rows := by
  have hlength : tui.ShowsFull rows ↔
      min rows (tui.msgs.length - tui.scroll.toNat) = min rows tui.msgs.length := by
    rw [← tui.length_visible rows]
    constructor
    · rintro ⟨window, hwindow, -, hlength⟩
      cases (tui.window_eq rows).symm.trans hwindow
      exact hlength
    · intro hlength
      exact ⟨_, tui.window_eq rows, tui.visible_infix rows, hlength⟩
  rw [hlength, ← List.length_eq_zero_iff]
  omega

/-! ## Keys -/

/-- The lines by which a step scrolls up. -/
def TuiLabel.linesUp : TuiLabel → ℕ
  | .key _ key => key.linesUp
  | .event .. | .result .. | .tick _ => 0

theorem Tui.toNat_scrollDown (tui : Tui) (lines : UInt64) :
    (tui.scrollDown lines).scroll.toNat = tui.scroll.toNat - lines.toNat := by
  unfold Tui.scrollDown
  dsimp only
  split_ifs with hle
  · exact UInt64.toNat_sub_of_le _ _ hle
  · rw [UInt64.not_le, UInt64.lt_iff_toNat_lt] at hle
    rw [UInt64.toNat_zero]
    omega

/-- A key that does not scroll up leaves the position where it is or nearer to the bottom. -/
theorem Tui.handleRunning_stays (hrunning : tui.mode = .running) (hup : key.linesUp = 0)
    (h : tui.handleRunning checks now key = some tui') :
    tui'.scroll.toNat ≤ tui.scroll.toNat := by
  rcases Tui.handleRunning_cases h with ⟨hpos, -⟩ | ⟨-, rfl | ⟨lines, rfl⟩ | ⟨input, cursor, rfl⟩⟩
  · exact absurd hup (Nat.ne_of_gt hpos)
  · rw [(Tui.send_shows hrunning now).2]
    exact Nat.zero_le _
  · rw [Tui.toNat_scrollDown]
    exact Nat.sub_le _ _
  · exact Nat.le_refl _

/-! ## Steps -/

/-- A step that scrolls up does nothing else. -/
structure Tui.GoesUp (lines : ℕ) (tui tui' : Tui) : Prop where
  running : tui.mode = .running
  msgs : tui'.msgs = tui.msgs
  scroll : tui'.scroll = tui.scroll + .ofNat lines

/-- Any other step leaves the position or takes it down, while messages come in at the end; the
application is not running before there are messages. -/
structure Tui.Stays (tui tui' : Tui) : Prop where
  msgs : tui.msgs <+: tui'.msgs
  scroll : tui'.scroll.toNat ≤ tui.scroll.toNat
  running : tui'.mode = .running → tui'.msgs ≠ [] ∨ tui.mode = .running

theorem Tui.Keeps.stays (h : tui.Keeps tui') (hscroll : tui'.scroll.toNat ≤ tui.scroll.toNat) :
    tui.Stays tui' :=
  ⟨h.msgs, hscroll, fun hrunning => .inr (h.mode ▸ hrunning)⟩

theorem Tui.GoesUp.expire {lines : ℕ} (h : Tui.GoesUp lines tui tui') (now : ℕ) :
    Tui.GoesUp lines tui (tui'.expire now) := by
  rcases tui'.expire_cases now with heq | heq
  · rw [heq]
    exact h
  · rw [heq]
    exact ⟨h.running, h.msgs, h.scroll⟩

theorem Tui.Stays.expire (h : tui.Stays tui') (now : ℕ) : tui.Stays (tui'.expire now) := by
  rcases tui'.expire_cases now with heq | heq
  · rw [heq]
    exact h
  · rw [heq]
    exact ⟨h.msgs, h.scroll, h.running⟩

theorem Tui.handleKey_view (h : tui.handleKey checks now key = some tui') :
    (0 < key.linesUp ∧ Tui.GoesUp key.linesUp tui tui') ∨
      (tui.mode = .running → key.linesUp = 0) ∧ tui.Stays tui' := by
  have hkeeps : tui.Keeps tui' := Tui.keeps_handleKey h
  unfold Tui.handleKey at h
  split at h
  · rename_i hinterrupt
    cases h
    refine .inr ⟨fun _ => ?_, hkeeps.stays (Nat.le_refl _)⟩
    rw [KeyEvent.linesUp, hinterrupt.1]
  · split at h
    · rename_i hmode
      cases h
      exact .inr ⟨fun hrunning => (nomatch hmode.symm.trans hrunning),
        hkeeps.stays (Nat.le_refl _)⟩
    · rename_i hmode
      cases h
      exact .inr ⟨fun hrunning => (nomatch hmode.symm.trans hrunning),
        hkeeps.stays (Nat.le_refl _)⟩
    · rename_i hrunning
      rcases Nat.eq_zero_or_pos key.linesUp with hup | hup
      · exact .inr ⟨fun _ => hup, hkeeps.stays (Tui.handleRunning_stays hrunning hup h)⟩
      · rcases Tui.handleRunning_cases h with ⟨-, rfl⟩ | ⟨hzero, -⟩
        · exact .inl ⟨hup, hrunning, rfl, rfl⟩
        · exact absurd hzero (Nat.ne_of_gt hup)

theorem App.handleEvent_view {app app' : App} {event : ChatEvent}
    (h : app.handleEvent now event = some app') :
    app.msgs <+: app'.msgs ∧
      (app'.mode = .running → app'.msgs ≠ [] ∨ app.mode = .running) := by
  have hpush : ∀ (app : App) (name text : String) (system : Bool),
      app.msgs <+: (app.push now name text system).msgs ∧
        (app.push now name text system).msgs ≠ [] :=
    fun app name text system => ⟨List.prefix_append _ _, List.append_ne_nil_of_right_ne_nil _
      (List.cons_ne_nil _ _)⟩
  cases event with
  | bootstrapProgress percent =>
      unfold App.handleEvent at h
      dsimp only at h
      split at h
      · cases h
        exact ⟨List.prefix_rfl, fun hrunning => (nomatch hrunning)⟩
      · cases h
        exact ⟨List.prefix_rfl, .inr⟩
  | roomReady addr port =>
      obtain ⟨shown, -, heq⟩ := Option.bind_eq_some_iff.mp h
      cases heq
      exact ⟨(hpush _ _ _ _).1, fun _ => .inl (hpush _ _ _ _).2⟩
  | peerJoin info =>
      unfold App.handleEvent at h
      dsimp only at h
      split at h
      · cases h
        exact ⟨(hpush _ _ _ _).1, fun _ => .inl (hpush _ _ _ _).2⟩
      · cases h
        exact ⟨(hpush _ _ _ _).1, fun _ => .inl (hpush _ _ _ _).2⟩
  | peerLeave | message | inviteCreated | roomClosed | error =>
      cases h
      exact ⟨(hpush _ _ _ _).1, fun _ => .inl (hpush _ _ _ _).2⟩

theorem Tui.handleMaybeEvent_stays {event : Option ChatEvent}
    (h : tui.handleMaybeEvent now event = some tui') : tui.Stays tui' := by
  unfold Tui.handleMaybeEvent at h
  split at h
  · obtain ⟨app, happ, heq⟩ := Option.map_eq_some_iff.mp h
    cases heq
    obtain ⟨hmsgs, hrunning⟩ := App.handleEvent_view happ
    exact ⟨hmsgs, Nat.le_refl _, hrunning⟩
  · split at h
    · cases h
      exact (Tui.Keeps.refl tui).stays (Nat.le_refl _)
    · cases h
      exact ⟨List.prefix_append _ _, Nat.le_refl _, fun hrunning => (nomatch hrunning)⟩
    · cases h
      exact ⟨List.prefix_append _ _, Nat.le_refl _, fun hrunning => (nomatch hrunning)⟩

theorem Tui.handleResult_stays (tui : Tui) (now : ℕ) (result : CmdResult) :
    tui.Stays (tui.handleResult now result) := by
  refine (tui.keeps_handleResult now result).stays ?_
  unfold Tui.handleResult
  split
  · exact Nat.le_refl _
  · exact Nat.le_refl _
  · split
    · exact Nat.le_refl _
    · exact Nat.le_refl _
  · exact Nat.le_refl _

/-- What a step does to the messages and the position. -/
theorem TuiStep.view (h : TuiStep checks l tui tui') :
    (0 < l.linesUp ∧ Tui.GoesUp l.linesUp tui tui') ∨
      (tui.mode = .running → l.linesUp = 0) ∧ tui.Stays tui' := by
  cases h with
  | @key _ tui₁ now key hkey =>
      rcases Tui.handleKey_view hkey with ⟨hup, hgoes⟩ | ⟨hup, hstays⟩
      · exact .inl ⟨hup, hgoes.expire now⟩
      · exact .inr ⟨hup, hstays.expire now⟩
  | @event _ tui₁ now _ hevent =>
      exact .inr ⟨fun _ => rfl, (Tui.handleMaybeEvent_stays hevent).expire now⟩
  | @result _ now result =>
      exact .inr ⟨fun _ => rfl, (tui.handleResult_stays now result).expire now⟩
  | @tick _ now =>
      exact .inr ⟨fun _ => rfl, ((Tui.Keeps.refl tui).stays (Nat.le_refl _)).expire now⟩

/-! ## Every run -/

/-- Nothing is scrolled before there are messages. -/
def Tui.Scrollable (tui : Tui) : Prop := tui.msgs = [] → tui.mode ≠ .running ∧ tui.scroll = 0

theorem TuiStep.scrollable (h : TuiStep checks l tui tui') (hinv : tui.Scrollable) :
    tui'.Scrollable := by
  intro hnil
  rcases h.view with ⟨-, hgoes⟩ | ⟨-, hstays⟩
  · exact absurd hgoes.running (hinv (hgoes.msgs ▸ hnil)).1
  · obtain ⟨hmode, hscroll⟩ := hinv (List.prefix_nil.mp (hnil ▸ hstays.msgs))
    constructor
    · intro hrunning
      rcases hstays.running hrunning with hne | hbefore
      · exact hne hnil
      · exact hmode hbefore
    · have hle := hstays.scroll
      rw [hscroll] at hle
      exact UInt64.toNat_inj.mp (Nat.le_zero.mp hle)

/-- A step that scrolls up finds that many messages above the window, unless the position
overflows. -/
def HistoryAbove (rows : ℕ) (tui : Tui) (l : TuiLabel) : Prop :=
  tui.mode = .running → 0 < l.linesUp → tui.scroll.toNat + l.linesUp < 2 ^ 64 →
    tui.scroll.toNat + l.linesUp + rows ≤ tui.msgs.length

theorem TuiLabel.linesUp_le (l : TuiLabel) : l.linesUp ≤ 10 := by
  cases l with
  | key now key =>
      unfold TuiLabel.linesUp KeyEvent.linesUp
      dsimp only
      split <;> omega
  | event | result | tick => exact Nat.zero_le _

/-- **A step keeps the window full exactly if it does not scroll up too far.** -/
theorem TuiStep.showsFull_iff (hrows : 1 ≤ rows) (h : TuiStep checks l tui tui')
    (hinv : tui.Scrollable) (hfull : tui.ShowsFull rows) :
    tui'.ShowsFull rows ↔ HistoryAbove rows tui l := by
  have hscroll : tui.scroll.toNat ≤ tui.msgs.length - rows := by
    rcases (Tui.showsFull_iff hrows).mp hfull with hnil | hle
    · rw [(hinv hnil).2]
      exact Nat.zero_le _
    · exact hle
  rw [Tui.showsFull_iff hrows]
  rcases h.view with ⟨hup, hgoes⟩ | ⟨hup, hstays⟩
  · have hne : tui.msgs ≠ [] := fun hnil => (hinv hnil).1 hgoes.running
    have hlines : l.linesUp ≤ 10 := l.linesUp_le
    have hadd : tui'.scroll.toNat = (tui.scroll.toNat + l.linesUp) % 2 ^ 64 := by
      rw [hgoes.scroll, UInt64.toNat_add, UInt64.toNat_ofNat']
      omega
    rw [hgoes.msgs, or_iff_right hne, hadd]
    unfold HistoryAbove
    by_cases hover : tui.scroll.toNat + l.linesUp < 2 ^ 64
    · rw [Nat.mod_eq_of_lt hover]
      constructor
      · intro hle _ _ _
        omega
      · intro habove
        have := habove hgoes.running hup hover
        omega
    · -- the position starts again below 10, and there are more messages than that
      refine iff_of_true ?_ fun _ _ hlt => absurd hlt hover
      have := tui.scroll.toNat_lt
      omega
  · have hmsgs : tui.msgs.length ≤ tui'.msgs.length := hstays.msgs.length_le
    have hdown : tui'.scroll.toNat ≤ tui.scroll.toNat := hstays.scroll
    refine iff_of_true (.inr (by omega)) fun hrunning hpos => ?_
    exact absurd (hup hrunning) (Nat.ne_of_gt hpos)

/-! ## Up and down again -/

theorem Tui.press_append (tui : Tui) (keys keys' : List (ℕ × KeyEvent)) :
    tui.press checks (keys ++ keys') =
      (tui.press checks keys).bind fun tui' => tui'.press checks keys' := by
  rw [Tui.press, List.foldlM_append]
  rfl

theorem KeyEvent.not_isInterrupt (h : key.code = .up ∨ key.code = .down) :
    ¬ key.IsInterrupt := by
  rintro ⟨hcode, -⟩
  rcases h with hup | hdown
  · cases hup.symm.trans hcode
  · cases hdown.symm.trans hcode

theorem Tui.handleKey_up (hrunning : tui.mode = .running) (hcode : key.code = .up) :
    tui.handleKey checks now key = tui.scrollUp checks 1 := by
  rw [Tui.handleKey, if_neg (KeyEvent.not_isInterrupt (.inl hcode)), hrunning]
  dsimp only
  rw [Tui.handleRunning, hcode]

theorem Tui.handleKey_down (hrunning : tui.mode = .running) (hcode : key.code = .down) :
    tui.handleKey checks now key = some (tui.scrollDown 1) := by
  rw [Tui.handleKey, if_neg (KeyEvent.not_isInterrupt (.inr hcode)), hrunning]
  dsimp only
  rw [Tui.handleRunning, hcode]

theorem Tui.press_ups (tui : Tui) {ups : List (ℕ × KeyEvent)} (hrunning : tui.mode = .running)
    (hups : ∀ up ∈ ups, up.2.code = .up)
    (hfits : checks = true → tui.scroll.toNat + ups.length < 2 ^ 64) :
    tui.press checks ups = some { tui with scroll := tui.scroll + .ofNat ups.length } := by
  induction ups generalizing tui with
  | nil =>
      have hzero : tui.scroll + .ofNat 0 = tui.scroll := UInt64.add_zero tui.scroll
      rw [List.length_nil, hzero]
      rfl
  | cons up ups ih =>
      obtain ⟨hup, hups⟩ := List.forall_mem_cons.mp hups
      rw [List.length_cons] at hfits
      have hone : checks = true → tui.scroll.toNat + (1 : UInt64).toNat < 2 ^ 64 := by
        intro hchecks
        have := hfits hchecks
        rw [UInt64.toNat_one]
        omega
      have hrest : checks = true → (tui.scroll + 1).toNat + ups.length < 2 ^ 64 := by
        intro hchecks
        have := hfits hchecks
        rw [UInt64.toNat_add, UInt64.toNat_one]
        omega
      rw [Tui.press_cons, Tui.handleKey_up hrunning hup, Tui.scrollUp_eq_some hone,
        Option.bind_some, ih { tui with scroll := tui.scroll + 1 } hrunning hups hrest,
        List.length_cons, UInt64.ofNat_add, UInt64.add_assoc, UInt64.add_comm 1]
      rfl

/-- With overflow checks the first key that takes the position to 2^64 is a panic. -/
theorem Tui.press_ups_panics (tui : Tui) {ups : List (ℕ × KeyEvent)}
    (hrunning : tui.mode = .running) (hups : ∀ up ∈ ups, up.2.code = .up)
    (hover : 2 ^ 64 ≤ tui.scroll.toNat + ups.length) :
    tui.press true ups = none := by
  induction ups generalizing tui with
  | nil => exact absurd hover (Nat.not_le.mpr tui.scroll.toNat_lt)
  | cons up ups ih =>
      obtain ⟨hup, hups⟩ := List.forall_mem_cons.mp hups
      rw [Tui.press_cons, Tui.handleKey_up hrunning hup]
      by_cases hone : tui.scroll.toNat + (1 : UInt64).toNat < 2 ^ 64
      · rw [Tui.scrollUp_eq_some fun _ => hone, Option.bind_some]
        apply ih { tui with scroll := tui.scroll + 1 } hrunning hups
        rw [UInt64.toNat_one] at hone
        rw [List.length_cons] at hover
        rw [UInt64.toNat_add, UInt64.toNat_one]
        omega
      · rw [Tui.scrollUp_eq_none fun hfits => hone (hfits rfl)]
        rfl

theorem Tui.press_downs (tui : Tui) {downs : List (ℕ × KeyEvent)}
    (hrunning : tui.mode = .running) (hdowns : ∀ down ∈ downs, down.2.code = .down) :
    tui.press checks downs =
      some { tui with scroll := .ofNat (tui.scroll.toNat - downs.length) } := by
  induction downs generalizing tui with
  | nil =>
      rw [List.length_nil, Nat.sub_zero, UInt64.ofNat_toNat]
      rfl
  | cons down downs ih =>
      obtain ⟨hdown, hdowns⟩ := List.forall_mem_cons.mp hdowns
      rw [Tui.press_cons, Tui.handleKey_down hrunning hdown, Option.bind_some,
        ih (tui.scrollDown 1) hrunning hdowns, Tui.toNat_scrollDown, UInt64.toNat_one,
        Nat.sub_sub, List.length_cons, Nat.add_comm 1]
      rfl

/-- The keys are locked. -/
theorem Tui.press_locked {keys : List (ℕ × KeyEvent)} (hmode : tui.mode ≠ .running)
    (hkeys : ∀ entry ∈ keys, ¬ entry.2.IsInterrupt) : tui.press checks keys = some tui := by
  induction keys with
  | nil => rfl
  | cons entry keys ih =>
      obtain ⟨hkey, hkeys⟩ := List.forall_mem_cons.mp hkeys
      have hlocked : tui.handleKey checks entry.1 entry.2 = some tui := by
        rw [Tui.handleKey, if_neg hkey]
        cases hcase : tui.mode with
        | running => exact absurd hcase hmode
        | bootstrap | shuttingDown => rfl
      rw [Tui.press_cons, hlocked, Option.bind_some]
      exact ih hkeys

/-- The position after keys up and as many keys down: where it was, or at the bottom if it has
overflown in between. -/
theorem toNat_up_down (scroll : UInt64) (k : ℕ) :
    (UInt64.ofNat ((scroll + .ofNat k).toNat - k)) =
      if scroll.toNat + k < 2 ^ 64 then scroll else 0 := by
  have hlt : scroll.toNat < 2 ^ 64 := scroll.toNat_lt
  have hadd : (scroll + .ofNat k).toNat = (scroll.toNat + k) % 2 ^ 64 := by
    rw [UInt64.toNat_add, UInt64.toNat_ofNat']
    omega
  rw [hadd]
  split_ifs with hfits
  · rw [Nat.mod_eq_of_lt hfits, Nat.add_sub_cancel, UInt64.ofNat_toNat]
  · have hzero : (scroll.toNat + k) % 2 ^ 64 - k = 0 := by omega
    rw [hzero]
    rfl

/-- The same number of keys up and then down, with no event in between. -/
structure UpAndDown (ups downs : List (ℕ × KeyEvent)) : Prop where
  up : ∀ up ∈ ups, up.2.code = .up
  down : ∀ down ∈ downs, down.2.code = .down
  length : ups.length = downs.length

/-- The window after the keys is the one before. -/
def Tui.ComesBack (checks : Bool) (rows : ℕ) (tui : Tui) (keys : List (ℕ × KeyEvent)) : Prop :=
  ∃ tui', tui.press checks keys = some tui' ∧ tui'.window rows = tui.window rows

theorem Tui.comesBack_iff {ups downs : List (ℕ × KeyEvent)} (hkeys : UpAndDown ups downs) :
    tui.ComesBack checks rows (ups ++ downs) ↔
      (tui.mode = .running → tui.scroll.toNat + ups.length < 2 ^ 64 ∨
        checks = false ∧ ({ tui with scroll := 0 } : Tui).window rows = tui.window rows) := by
  obtain ⟨hups, hdowns, hlength⟩ := hkeys
  by_cases hrunning : tui.mode = .running
  · rw [forall_prop_of_true hrunning]
    -- in a build that checks, the keys may not even get up
    by_cases hpanic : checks = true ∧ 2 ^ 64 ≤ tui.scroll.toNat + ups.length
    · obtain ⟨rfl, hover⟩ := hpanic
      refine iff_of_false ?_ ?_
      · rintro ⟨tui', hpress, -⟩
        rw [Tui.press_append, Tui.press_ups_panics tui hrunning hups hover] at hpress
        cases hpress
      · rintro (hlt | ⟨hchecks, -⟩)
        · exact absurd hlt (Nat.not_lt.mpr hover)
        · cases hchecks
    · have hfits : checks = true → tui.scroll.toNat + ups.length < 2 ^ 64 := fun hchecks =>
        Nat.not_le.mp fun hover => hpanic ⟨hchecks, hover⟩
      have hpress : tui.press checks (ups ++ downs) = some { tui with
          scroll := if tui.scroll.toNat + ups.length < 2 ^ 64 then tui.scroll else 0 } := by
        rw [Tui.press_append, tui.press_ups hrunning hups hfits, Option.bind_some,
          Tui.press_downs { tui with scroll := tui.scroll + .ofNat ups.length } hrunning hdowns,
          ← hlength, toNat_up_down]
      unfold Tui.ComesBack
      rw [hpress]
      by_cases hlt : tui.scroll.toNat + ups.length < 2 ^ 64
      · refine iff_of_true ⟨_, rfl, ?_⟩ (.inl hlt)
        rw [if_pos hlt]
      -- the position has overflown, and the keys down have ended at the bottom
      · rw [or_iff_right hlt, if_neg hlt]
        constructor
        · rintro ⟨tui', heq, hwindow⟩
          cases heq
          exact ⟨Bool.eq_false_iff.mpr fun hchecks => hlt (hfits hchecks), hwindow⟩
        · rintro ⟨-, hwindow⟩
          exact ⟨_, rfl, hwindow⟩
  · refine iff_of_true ⟨tui, Tui.press_locked hrunning ?_, rfl⟩ fun hcase => absurd hcase hrunning
    intro entry hentry
    rcases List.mem_append.mp hentry with hup | hdown
    · exact KeyEvent.not_isInterrupt (.inl (hups entry hup))
    · exact KeyEvent.not_isInterrupt (.inr (hdowns entry hdown))

/-- **The history is scrolled away exactly by the keys that scroll up further than there are
messages:** the runs in which the window is always full are those in which every such key finds
its messages above the window.  As many keys down take the view back, unless the position has
overflown. -/
theorem scrolling_iff (checks timestamps handle cmdTx : Bool) {rows : ℕ} (hrows : 1 ≤ rows) :
    (∀ ls tui,
      (Run (Within (TuiStep checks) (Tui.ShowsFull rows)) (Tui.new timestamps handle cmdTx) ls tui ↔
        Run (Guarded (TuiStep checks) (HistoryAbove rows)) (Tui.new timestamps handle cmdTx)
          ls tui) ∧
      (Run (Guarded (TuiStep checks) (HistoryAbove rows)) (Tui.new timestamps handle cmdTx) ls tui →
        tui.ShowsFull rows)) ∧
    ∀ (tui : Tui) (ups downs : List (ℕ × KeyEvent)), UpAndDown ups downs →
      (tui.ComesBack checks rows (ups ++ downs) ↔
        (tui.mode = .running → tui.scroll.toNat + ups.length < 2 ^ 64 ∨
          checks = false ∧ ({ tui with scroll := 0 } : Tui).window rows = tui.window rows)) := by
  have hinit : (Tui.new timestamps handle cmdTx).Scrollable :=
    fun _ => ⟨by simp [Tui.new, App.new], rfl⟩
  have hfull : (Tui.new timestamps handle cmdTx).ShowsFull rows :=
    (Tui.showsFull_iff hrows).mpr (.inl rfl)
  refine ⟨fun ls tui => ⟨?_, fun hrun => ?_⟩, fun tui ups downs hkeys => Tui.comesBack_iff hkeys⟩
  · exact Run.within_iff hinit hfull (fun hinv hstep => hstep.scrollable hinv)
      fun hinv hfull hstep => hstep.showsFull_iff hrows hinv hfull
  · have hboth : tui.Scrollable ∧ tui.ShowsFull rows :=
      hrun.invariant (I := fun tui => tui.Scrollable ∧ tui.ShowsFull rows) ⟨hinit, hfull⟩
        fun hinv hstep => ⟨hstep.1.scrollable hinv.1,
          (hstep.1.showsFull_iff hrows hinv.1 hinv.2).mpr hstep.2⟩
    exact hboth.2

/-- Ann joins, and writes a message. -/
theorem run_two_messages : ∃ tui,
    Run (Guarded (TuiStep true) (HistoryAbove 1)) (Tui.new false true true)
      [.event 0 (some (.peerJoin ⟨⟨"p"⟩, "ann", 0⟩)), .event 0 (some (.message ⟨"p"⟩ "ann" "hi"))]
      tui ∧ tui.mode = .running ∧ tui.scroll = 0 ∧ tui.msgs.length = 2 := by
  have hrun : Run (Guarded (TuiStep true) (HistoryAbove 1)) (Tui.new false true true) [] _ := .nil
  have hrun := hrun.snoc (show Guarded _ _ (.event 0 (some (.peerJoin ⟨⟨"p"⟩, "ann", 0⟩))) _ _ from
    ⟨.event rfl, fun _ hup => absurd hup (Nat.lt_irrefl 0)⟩)
  have hrun := hrun.snoc (show Guarded _ _ (.event 0 (some (.message ⟨"p"⟩ "ann" "hi"))) _ _ from
    ⟨.event rfl, fun _ hup => absurd hup (Nat.lt_irrefl 0)⟩)
  exact ⟨_, hrun, rfl, rfl, rfl⟩

/-- One key up with a message above the window, and one down again. -/
theorem scrolling_iff_up : ∃ ls tui,
    Run (Guarded (TuiStep true) (HistoryAbove 1)) (Tui.new false true true) ls tui ∧
      tui.scroll = 1 ∧ tui.ShowsFull 1 ∧
      tui.ComesBack true 1 [(0, ⟨.up, 0⟩), (0, ⟨.down, 0⟩)] := by
  obtain ⟨tui, hrun, hrunning, hscroll, hlength⟩ := run_two_messages
  have hkey : tui.handleKey true 0 ⟨.up, 0⟩ = some { tui with scroll := 1 } := by
    rw [Tui.handleKey_up hrunning rfl, Tui.scrollUp_eq_some (fun _ => by rw [hscroll]; decide),
      hscroll]
    rfl
  have hrun := hrun.snoc (show Guarded (TuiStep true) (HistoryAbove 1) (.key 0 ⟨.up, 0⟩) tui _ from
    ⟨.key hkey, fun _ _ _ => by rw [hscroll, hlength]; decide⟩)
  have hscroll' : (Tui.expire { tui with scroll := 1 } 0).scroll = 1 := by
    rw [Tui.expire, hrunning]
  obtain ⟨hfull, hback⟩ := scrolling_iff true false true true (Nat.le_refl 1)
  refine ⟨_, _, hrun, hscroll', (hfull _ _).2 hrun, ?_⟩
  exact (hback _ [(0, ⟨.up, 0⟩)] [(0, ⟨.down, 0⟩)] ⟨by simp, by simp, rfl⟩).mpr fun _ =>
    .inl (by rw [hscroll']; decide)

/-- The keys that scroll, Enter, and events. -/
def TuiLabel.Scrolls : TuiLabel → Prop
  | .key _ key => key.code ∈ [.up, .down, .pageUp, .pageDown, .enter]
  | .event _ received => received.isSome
  | .result .. | .tick _ => False

/-- **One message, one line, and the key up:** the line is empty. -/
theorem history_scrolled_away :
    ¬ ∀ ls tui, (∀ l ∈ ls, TuiLabel.Scrolls l) →
      Run (TuiStep true) (Tui.new false true true) ls tui → ∀ rows, 1 ≤ rows →
        tui.ShowsFull rows := by
  intro hall
  have hrun : Run (TuiStep true) (Tui.new false true true) [] _ := .nil
  have hrun := hrun.snoc
    (show TuiStep true (.event 0 (some (.peerJoin ⟨⟨"p"⟩, "ann", 0⟩))) _ _ from .event rfl)
  have hrun := hrun.snoc (show TuiStep true (.key 0 ⟨.up, 0⟩) _ _ from .key rfl)
  have hfull := hall _ _ (by simp [TuiLabel.Scrolls]) hrun 1 (Nat.le_refl 1)
  rcases (Tui.showsFull_iff (Nat.le_refl 1)).mp hfull with hnil | hle
  · cases hnil
  · exact absurd hle (by decide)

end Nullpipe

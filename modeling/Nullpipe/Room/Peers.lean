import Nullpipe.Room.Admit
import Nullpipe.Core.Standard

/-!
# The peers map

Every handler inserts its peer under the id the client chose and removes that id
when the connection ends.  The map tells the truth about the connections exactly
as long as no two of them share an id: `truthful_iff_noClash` gives the condition
on the steps of a run under which every state it passes through is truthful.

`Step.registered_cases` says once what a step does to the registrations and to the map.  Two
kinds of steps matter.

* A registration overwrites the entry of its id.  It clashes if another connection is
  registered under the id with a different name.
* A deregistration removes the entry of its id, whoever put it there.  It clashes if another
  connection is registered under the id.

`Step.truthful` and `Step.noClash` are the two directions for one step.  For the second a
truthful state behind the step is enough: had the step clashed, the map would have the wrong
entry there, or none.
-/

namespace Nullpipe

open Room Transition

variable {X : Crates} {cfg : HostConfig} {s t : Room} {c : ConnId}

/-! ## Registered connections -/

/-- The peer a handler is registered as, from its registration to its own
deregistration. -/
def Handler.registered : Handler → Option PeerInfo
  | .emitJoin info | .notifyJoin info _ | .spawnReader info | .subscribe info | .serve info
  | .abortWriter info | .deregister info => some info
  | _ => none

theorem Handler.registered_eq (h : Handler) :
    h.registered = match h.standing with
      | .entered info | .announced info => some info
      | _ => none := by
  cases h <;> rfl

/-- What a step of a handler does to its registration and to the map. -/
theorem HandlerStep.registered_cases {l : HandlerLabel} (h : HandlerStep X c l s t) :
    (l = .register ∧ ∃ info, (s.conns c).handler = .register info ∧
      (t.conns c).handler = .emitJoin info ∧
      t.peers = Function.update s.peers info.id (some info)) ∨
    (l = .deregister ∧ ∃ info, (s.conns c).handler = .deregister info ∧
      (t.conns c).handler = .emitLeave info ∧ t.peers = Function.update s.peers info.id none) ∨
    (l ≠ .register ∧ l ≠ .deregister ∧
      (t.conns c).handler.registered = (s.conns c).handler.registered ∧ t.peers = s.peers) := by
  cases h.standing with
  | register hphase hafter hpeers =>
      exact .inl ⟨rfl, _, hphase, hafter, hpeers⟩
  | deregister hphase hafter hpeers =>
      exact .inr (.inl ⟨rfl, _, hphase, hafter, hpeers⟩)
  | emitJoin hphase hafter hpeers =>
      refine .inr (.inr ⟨by simp, by simp, ?_, hpeers⟩)
      rw [Handler.registered_eq, hafter, hphase]
      rfl
  | emitLeave hphase hafter hpeers =>
      refine .inr (.inr ⟨by simp, by simp, ?_, hpeers⟩)
      rw [hafter, hphase]
      rfl
  | keep hl hsame hpeers =>
      refine .inr (.inr ⟨fun heq => hl (by simp [heq]), fun heq => hl (by simp [heq]), ?_, hpeers⟩)
      rw [Handler.registered_eq, Handler.registered_eq, hsame]

/-- Any other step leaves the registration of every connection alone. -/
theorem Step.registered {l : Label} (h : Step X cfg l s t) (hl : ∀ l', l ≠ .handler c l') :
    (t.conns c).handler.registered = (s.conns c).handler.registered :=
  h.observe Handler.registered rfl hl

/-- What any step does to the registrations and to the map. -/
theorem Step.registered_cases {l : Label} (h : Step X cfg l s t) :
    (∃ c info, l = .handler c .register ∧ (s.conns c).handler = .register info ∧
      (t.conns c).handler = .emitJoin info ∧
      t.peers = Function.update s.peers info.id (some info) ∧ ∀ d ≠ c, t.conns d = s.conns d) ∨
    (∃ c info, l = .handler c .deregister ∧ (s.conns c).handler = .deregister info ∧
      (t.conns c).handler = .emitLeave info ∧ t.peers = Function.update s.peers info.id none ∧
      ∀ d ≠ c, t.conns d = s.conns d) ∨
    ((∀ c, l ≠ .handler c .register) ∧ (∀ c, l ≠ .handler c .deregister) ∧
      (∀ c, (t.conns c).handler.registered = (s.conns c).handler.registered) ∧
      t.peers = s.peers) := by
  by_cases hl : ∃ c l', l = .handler c l'
  · obtain ⟨c, l', rfl⟩ := hl
    cases h with
    | handler h =>
        rcases h.registered_cases with ⟨rfl, info, hphase, hafter, hpeers⟩ |
          ⟨rfl, info, hphase, hafter, hpeers⟩ | ⟨hreg, hdereg, hsame, hpeers⟩
        · exact .inl ⟨c, info, rfl, hphase, hafter, hpeers, fun d hd => h.conns_of_ne hd⟩
        · exact .inr (.inl ⟨c, info, rfl, hphase, hafter, hpeers, fun d hd => h.conns_of_ne hd⟩)
        · refine .inr (.inr ⟨?_, ?_, ?_, hpeers⟩)
          · rintro d heq
            cases heq
            exact hreg rfl
          · rintro d heq
            cases heq
            exact hdereg rfl
          · intro d
            by_cases hd : d = c
            · rw [hd, hsame]
            · rw [h.conns_of_ne hd]
  · push Not at hl
    exact .inr (.inr ⟨fun c => hl c _, fun c => hl c _, fun c => h.registered (hl c),
      h.peers (fun c => hl c _) fun c => hl c _⟩)

/-! ## Truth -/

/-- Every registered connection has an entry with its own id and name. -/
def Truthful (s : Room) : Prop :=
  ∀ c info, (s.conns c).handler.registered = some info →
    ∃ entry, s.peers info.id = some entry ∧ entry.id = info.id ∧ entry.name = info.name

/-- The step, if it ends a registration, leaves the entries of all other
registered connections alone. -/
def EndsAlone (l : Label) (s t : Room) : Prop :=
  ∀ c, l = .handler c .deregister → ∀ d info, d ≠ c →
    (s.conns d).handler.registered = some info → t.peers info.id = s.peers info.id

/-- No registration under an id that another connection is registered under with
a different name, and no deregistration of an id that another connection is
registered under. -/
def NoClash (s : Room) : Label → Prop
  | .handler c .register => ∀ info, (s.conns c).handler = .register info →
      ∀ d info', d ≠ c → (s.conns d).handler.registered = some info' →
        info'.id = info.id → info'.name = info.name
  | .handler c .deregister => ∀ info, (s.conns c).handler = .deregister info →
      ∀ d info', d ≠ c → (s.conns d).handler.registered = some info' → info'.id ≠ info.id
  | _ => True

theorem truthful_init (now : ℕ) : Truthful (Room.init now) := by
  intro c info h
  cases h

/-- A step that does not clash keeps the map truthful. -/
theorem Step.truthful {l : Label} (h : Step X cfg l s t) (hok : NoClash s l) (hs : Truthful s) :
    Truthful t ∧ EndsAlone l s t := by
  rcases h.registered_cases with ⟨c, info, rfl, hphase, hafter, hpeers, hother⟩ |
    ⟨c, info, rfl, hphase, hafter, hpeers, hother⟩ | ⟨-, hdereg, hsame, hpeers⟩
  · refine ⟨fun d info' hd => ?_, fun _ heq => by cases heq⟩
    rw [hpeers]
    by_cases hdc : d = c
    · rw [hdc, hafter] at hd
      cases hd
      exact ⟨info, Function.update_self .., rfl, rfl⟩
    · rw [hother d hdc] at hd
      by_cases hid : info'.id = info.id
      · -- the entry now belongs to `c`, and the names agree
        have hname := hok info hphase d info' hdc hd hid
        exact ⟨info, by rw [hid, Function.update_self], hid.symm, hname.symm⟩
      · rw [Function.update_of_ne hid]
        exact hs d info' hd
  -- no other registered connection has the id that is removed
  · have hkeep : ∀ d info', d ≠ c → (s.conns d).handler.registered = some info' →
        t.peers info'.id = s.peers info'.id := fun d info' hdc hd => by
      rw [hpeers, Function.update_of_ne (hok info hphase d info' hdc hd)]
    refine ⟨fun d info' hd => ?_, fun _ heq d info' hd => ?_⟩
    · have hdc : d ≠ c := by
        rintro rfl
        rw [hafter] at hd
        cases hd
      rw [hother d hdc] at hd
      rw [hkeep d info' hdc hd]
      exact hs d info' hd
    · cases heq
      exact hkeep d info' hd
  · refine ⟨fun d info' hd => ?_, fun _ heq => absurd heq (hdereg _)⟩
    rw [hsame] at hd
    rw [hpeers]
    exact hs d info' hd

/-- A step that keeps the map truthful does not clash. -/
theorem Step.noClash {l : Label} (h : Step X cfg l s t) (ht : Truthful t) : NoClash s l := by
  rcases h.registered_cases with ⟨c, info, rfl, hphase, hafter, hpeers, hother⟩ |
    ⟨c, info, rfl, hphase, hafter, hpeers, hother⟩ | ⟨hreg, hdereg, -⟩
  · intro info₁ hphase₁ d info' hdc hd hid
    have hinfo : info₁ = info := by
      rw [hphase] at hphase₁
      cases hphase₁
      rfl
    rw [hinfo] at hid ⊢
    rw [← hother d hdc] at hd
    -- the entry of `d` is the one that was just inserted
    obtain ⟨entry, hentry, -, hname⟩ := ht d info' hd
    rw [hpeers, hid, Function.update_self] at hentry
    cases hentry
    exact hname.symm
  · intro info₁ hphase₁ d info' hdc hd hid
    have hinfo : info₁ = info := by
      rw [hphase] at hphase₁
      cases hphase₁
      rfl
    rw [hinfo] at hid
    rw [← hother d hdc] at hd
    obtain ⟨entry, hentry, -⟩ := ht d info' hd
    rw [hpeers, hid, Function.update_self] at hentry
    -- the entry of `d` is gone, against the truth of the map
    cases hentry
  · unfold NoClash
    split
    · exact absurd rfl (hreg _)
    · exact absurd rfl (hdereg _)
    · trivial

/-- **The peers map tells the truth throughout a run, and ending one connection
leaves the entries of the others alone, if and only if no step of the run
clashes.** -/
theorem truthful_iff_noClash (now : ℕ) (ls : List Label) (t : Room) :
    Run (fun l s t => Step X cfg l s t ∧ Truthful t ∧ EndsAlone l s t) (Room.init now) ls t ↔
      Run (Guarded (Step X cfg) NoClash) (Room.init now) ls t := by
  refine Run.congr_on (truthful_init now) (fun hbefore => ?_) fun _ h => h.2.1
  constructor
  · rintro ⟨hstep, htruthful, -⟩
    exact ⟨hstep, hstep.noClash htruthful⟩
  · rintro ⟨hstep, hclash⟩
    exact ⟨hstep, hstep.truthful hclash hbefore⟩

/-- Two clients choose the same discriminator and different names: when the
second one is registered, the map no longer has the name of the first. -/
theorem truthful_fails :
    ¬ ∀ s, RoomReachable Crates.standard ⟨"host", 300⟩ s → Truthful s := by
  intro htruth
  let X := Crates.standard
  let opened := Room.opened ⟨"host", 300⟩ 0 "room.onion"
  let first := opened.greeted X 0 (.fill 0) (.fill 7) "ann"
  let served := first.settled X 0 ⟨peerId X (.fill 7), "ann", 0⟩
  let second := served.greeted X 1 (.fill 1) (.fill 7) "bob"
  have hopened : RoomReachable X ⟨"host", 300⟩ opened := reachable_opened ..
  have hfirst : RoomReachable X ⟨"host", 300⟩ first :=
    hopened.run (run_handshake rfl (by decide) rfl rfl (by decide) (by decide))
  have hserved : RoomReachable X ⟨"host", 300⟩ served :=
    hfirst.run (run_settle rfl (by decide))
  have hsecond : RoomReachable X ⟨"host", 300⟩ second :=
    hserved.run (run_handshake rfl (by decide) rfl rfl (by decide) (by decide))
  have hregistered := hsecond.run (Run.single (.handler (c := 1) (.register rfl)))
  obtain ⟨entry, hentry, -, hname⟩ := htruth _ hregistered 0 ⟨peerId X (.fill 7), "ann", 0⟩ rfl
  have hbob : entry.name = "bob" := by
    cases hentry
    rfl
  rw [hbob] at hname
  exact absurd hname (by decide)

end Nullpipe

import Nullpipe.Core.Types
import Nullpipe.Lib.Gate
import Nullpipe.Lib.Channel
import Mathlib.Data.Finset.Insert

/-!
# Single-use handshakes

Both hub implementations run the same admission: a client sends a nonce, the hub looks it up
under a lock, and answers with an accept or a reject byte.  What is said about it is said once,
for any system of handshakes.

* `Handshakes` is what such a system looks like from outside: the used nonces, the stages of
  its connections, who holds the lock, and which handshake is about to look its nonce up.
* `Lawful` is what one step may do.  A step that decides is one of the handshake itself, at its
  check; it looks whether the nonce is in the set, and puts it there if not.  Every other step
  leaves the set alone, and leaves each handshake where it stands or lets it fail.
* `SingleUse` is what follows for whole runs.

Between the two stands the gate of `Lib/Gate.lean`.  Under the laws each step is matched by at
most one presentation of a ticket, so a run of the handshakes is a run of the gate
(`exists_fair`), and the gate lets no ticket through twice.  That a handshake which may look its
nonce up can also be decided is part of `SingleUse` too: a system that never decides would
satisfy the rest.
-/

namespace Nullpipe

open Channel Transition

/-- Connections are numbered as the stream source hands them out. -/
abbrev ConnId := ℕ

/-- How far a handshake has got with respect to the check on its nonce. -/
inductive Stage
  | undecided
  | refused
  | granted
  | failed
  deriving DecidableEq

/-- The accept byte was the first byte written. -/
def Accepted (k : Socket) : Prop := k.written.head? = some 0

/-- A system of concurrent handshakes.  `lock` is the handshake that holds the lock
on the used nonces, `checking` the nonce a handshake that has read all its bytes is
about to look up, `actor` the handshake a label belongs to. -/
structure Handshakes (σ ι : Type*) where
  step : ι → σ → σ → Prop
  start : σ → Prop
  used : σ → Finset Bytes16
  lock : σ → Option ConnId
  sock : σ → ConnId → Socket
  stage : σ → ConnId → Stage
  checking : σ → ConnId → Option Bytes16
  actor : ι → Option ConnId

namespace Handshakes

variable {σ ι : Type*} (H : Handshakes σ ι)

/-- The states some run from a start leads to. -/
def Reach (s : σ) : Prop := ∃ s₀, H.start s₀ ∧ Reachable H.step s₀ s

/-- The label is a step of a handshake at its check. -/
def Decides (s : σ) (l : ι) (c : ConnId) (nonce : Bytes16) : Prop :=
  H.actor l = some c ∧ H.checking s c = some nonce

/-! ## What one step does -/

/-- The laws of one step. -/
structure Lawful : Prop where
  start_used : ∀ s, H.start s → H.used s = ∅
  start_stage : ∀ s c, H.start s → H.stage s c = .undecided ∧ ¬ Accepted (H.sock s c)
  checking : ∀ s c nonce, H.Reach s → H.checking s c = some nonce →
    H.stage s c = .undecided ∧ ¬ Accepted (H.sock s c) ∧ (H.sock s c).read.length = 32 ∧
      (H.sock s c).read.take 16 = nonce.val
  checking_of_full : ∀ s c, H.Reach s → H.stage s c = .undecided →
    (H.sock s c).read.length = 32 → ∃ nonce, H.checking s c = some nonce
  enabled : ∀ s c nonce, H.checking s c = some nonce → H.lock s = none →
    ∃ l t, H.step l s t ∧ H.Decides s l c nonce
  decides : ∀ l s t c nonce, H.Reach s → H.step l s t → H.Decides s l c nonce →
    H.sock t c = H.sock s c ∧
      ((nonce ∉ H.used s ∧ H.used t = insert nonce (H.used s) ∧ H.stage t c = .granted) ∨
       (nonce ∈ H.used s ∧ H.used t = H.used s ∧ H.stage t c = .refused))
  keeps_used : ∀ l s t, H.Reach s → H.step l s t → (∀ c nonce, ¬ H.Decides s l c nonce) →
    H.used t = H.used s
  keeps : ∀ l s t c, H.Reach s → H.step l s t → (∀ nonce, ¬ H.Decides s l c nonce) →
    (H.stage t c = H.stage s c ∨ H.stage t c = .failed) ∧
      (∃ chunk, (H.sock t c).read = (H.sock s c).read ++ chunk) ∧
      (Accepted (H.sock t c) → Accepted (H.sock s c) ∨ H.stage s c = .granted)

/-! ## What holds of whole runs -/

/-- Nonces are single use. -/
structure SingleUse : Prop where
  /-- no two connections are sent the accept byte for one nonce -/
  accept_unique : ∀ s c d, H.Reach s → Accepted (H.sock s c) → Accepted (H.sock s d) →
    (H.sock s c).read.take 16 = (H.sock s d).read.take 16 → c = d
  /-- an accepted connection presented a used nonce -/
  accept_used : ∀ s c, H.Reach s → Accepted (H.sock s c) →
    ∃ nonce : Bytes16, (H.sock s c).read.take 16 = nonce.val ∧ nonce ∈ H.used s
  used_grows : ∀ l s t, H.Reach s → H.step l s t → H.used s ⊆ H.used t
  /-- a handshake is at its check exactly when it has all its 32 bytes and no verdict -/
  checking_iff : ∀ s c, H.Reach s →
    ((∃ nonce : Bytes16, H.checking s c = some nonce ∧
        (H.sock s c).read.take 16 = nonce.val) ↔
      H.stage s c = .undecided ∧ (H.sock s c).read.length = 32)
  /-- the check can be made, once nobody holds the lock -/
  enabled : ∀ s c nonce, H.checking s c = some nonce → H.lock s = none →
    ∃ l t, H.step l s t ∧ H.Decides s l c nonce
  adds : ∀ l s t c nonce, H.Reach s → H.step l s t → H.Decides s l c nonce →
    nonce ∉ H.used s → H.used t = insert nonce (H.used s)
  refuses : ∀ l s t c nonce, H.Reach s → H.step l s t → H.Decides s l c nonce →
    nonce ∈ H.used s → H.used t = H.used s
  keeps : ∀ l s t, H.Reach s → H.step l s t → (∀ c nonce, ¬ H.Decides s l c nonce) →
    H.used t = H.used s
  /-- the check is made once -/
  decides_once : ∀ l s t c, H.Reach s → H.step l s t →
    (H.stage s c ≠ .undecided ∨ ∃ nonce, H.Decides s l c nonce) → H.stage t c ≠ .undecided

/-- What the gate has told a connection, read off its stage and its stream:
before the check nothing, and after it whether its nonce was new. -/
def Judged (stage : Stage) (k : Socket) : Option (Bytes16 × Bool) → Prop
  | none => (stage = .undecided ∨ stage = .failed) ∧ ¬ Accepted k
  | some (nonce, false) =>
    (stage = .refused ∨ stage = .failed) ∧ ¬ Accepted k ∧ nonce.val <+: k.read
  | some (nonce, true) => (stage = .granted ∨ stage = .failed) ∧ nonce.val <+: k.read

section Judged

variable {stage stage' : Stage} {k k' : Socket} {v : Option (Bytes16 × Bool)}

/-- A step that leaves the stage, or fails, leaves the judgement. -/
theorem Judged.mono (h : Judged stage k v) (hstage : stage' = stage ∨ stage' = .failed)
    (hread : ∃ chunk, k'.read = k.read ++ chunk)
    (haccepted : Accepted k' → Accepted k ∨ stage = .granted) : Judged stage' k' v := by
  obtain ⟨chunk, hread⟩ := hread
  have hnonce : ∀ nonce : Bytes16, nonce.val <+: k.read → nonce.val <+: k'.read := by
    intro nonce hpre
    rw [hread]
    exact hpre.trans (List.prefix_append _ _)
  have hnot : stage ≠ .granted → ¬ Accepted k → ¬ Accepted k' := by
    intro hne hold hnew
    rcases haccepted hnew with hacc | hgranted
    · exact hold hacc
    · exact hne hgranted
  have hkeep : ∀ st, stage = st ∨ stage = .failed → stage' = st ∨ stage' = .failed := by
    rintro st (hk | hk)
    · exact hstage.imp_left fun heq => heq.trans hk
    · exact .inr (hstage.elim (fun heq => heq.trans hk) id)
  match v, h with
  | none, ⟨hk, hacc⟩ =>
      refine ⟨hkeep _ hk, hnot ?_ hacc⟩
      rcases hk with hk | hk <;> rw [hk] <;> decide
  | some (nonce, false), ⟨hk, hacc, hpre⟩ =>
      refine ⟨hkeep _ hk, hnot ?_ hacc, hnonce nonce hpre⟩
      rcases hk with hk | hk <;> rw [hk] <;> decide
  | some (nonce, true), ⟨hk, hpre⟩ => exact ⟨hkeep _ hk, hnonce nonce hpre⟩

/-- A connection that has not decided yet has no verdict. -/
theorem Judged.eq_none (h : Judged .undecided k v) : v = none := by
  match v, h with
  | none, _ => rfl
  | some (_, false), ⟨hk, _⟩ => simp at hk
  | some (_, true), ⟨hk, _⟩ => simp at hk

/-- An accepted connection passed the gate with the first sixteen bytes it sent. -/
theorem Judged.of_accepted (h : Judged stage k v) (hacc : Accepted k) :
    ∃ nonce : Bytes16, v = some (nonce, true) ∧ k.read.take 16 = nonce.val := by
  match v, h with
  | none, ⟨_, hnot⟩ => exact absurd hacc hnot
  | some (_, false), ⟨_, hnot, _⟩ => exact absurd hacc hnot
  | some (nonce, true), ⟨_, hpre⟩ =>
      have htake := List.prefix_iff_eq_take.mp hpre
      rw [nonce.property] at htake
      exact ⟨nonce, rfl, htake.symm⟩

end Judged

/-- The system and a gate that has told every connection the same. -/
structure GateOf (s : σ) (g : Gate.State ConnId Bytes16) : Prop where
  reach : H.Reach s
  used : ∀ nonce, nonce ∈ g.used ↔ nonce ∈ H.used s
  judged : ∀ c, Judged (H.stage s c) (H.sock s c) (g.verdict c)

variable {H} {s t : σ} {l : ι} {g : Gate.State ConnId Bytes16} {c : ConnId}

theorem Reach.step (hs : H.Reach s) (h : H.step l s t) : H.Reach t := by
  obtain ⟨s₀, hstart, hreach⟩ := hs
  exact ⟨s₀, hstart, hreach.snoc h⟩

/-- The agreement after a verdict on one connection. -/
theorem GateOf.of_verdict {v : Option (Bytes16 × Bool)} {used : Set Bytes16} (hreach : H.Reach t)
    (hused : ∀ nonce, nonce ∈ used ↔ nonce ∈ H.used t)
    (hother : ∀ d ≠ c, Judged (H.stage t d) (H.sock t d) (g.verdict d))
    (hc : Judged (H.stage t c) (H.sock t c) v) :
    H.GateOf t ⟨used, Function.update g.verdict c v⟩ := by
  refine ⟨hreach, hused, fun d => ?_⟩
  dsimp only
  by_cases hd : d = c
  · rw [hd, Function.update_self]
    exact hc
  · rw [Function.update_of_ne hd]
    exact hother d hd

/-- **A step is at most one presentation at the gate.** -/
theorem GateOf.step (hlaw : H.Lawful) (hg : H.GateOf s g) (h : H.step l s t) :
    H.GateOf t g ∨ ∃ c g', Gate.Step c g g' ∧ H.GateOf t g' := by
  have hreach := hg.reach.step h
  have hkeep (d : ConnId) (hd : ∀ nonce, ¬ H.Decides s l d nonce) :
      Judged (H.stage t d) (H.sock t d) (g.verdict d) := by
    obtain ⟨hstage, hread, hacc⟩ := hlaw.keeps l s t d hg.reach h hd
    exact (hg.judged d).mono hstage hread hacc
  by_cases hdecides : ∃ c nonce, H.Decides s l c nonce
  -- the step is matched by a presentation of the nonce
  · obtain ⟨c, nonce, hc⟩ := hdecides
    obtain ⟨hundecided, hnot, -, htake⟩ := hlaw.checking s c nonce hg.reach hc.2
    obtain ⟨hsock, hverdict⟩ := hlaw.decides l s t c nonce hg.reach h hc
    have hopen : g.verdict c = none := by
      have hjudged := hg.judged c
      rw [hundecided] at hjudged
      exact hjudged.eq_none
    have hpre : nonce.val <+: (H.sock t c).read := by
      rw [hsock, ← htake]
      exact List.take_prefix _ _
    have hother (d : ConnId) (hd : d ≠ c) :
        Judged (H.stage t d) (H.sock t d) (g.verdict d) := by
      refine hkeep d fun m hm => hd ?_
      exact Option.some.inj (hm.1.symm.trans hc.1)
    rcases hverdict with ⟨hfresh, hused, hstage⟩ | ⟨hmem, hused, hstage⟩
    · -- the nonce is new: the connection passes
      refine .inr ⟨c, _, .pass hopen fun hmem => hfresh ((hg.used nonce).mp hmem),
        .of_verdict hreach (fun n => ?_) hother ⟨.inl hstage, hpre⟩⟩
      rw [hused]
      simp [hg.used]
    · -- the nonce was used: the connection is turned away
      refine .inr ⟨c, _, .refuse hopen ((hg.used nonce).mpr hmem),
        .of_verdict hreach (fun n => ?_) hother ⟨.inl hstage, ?_, hpre⟩⟩
      · rw [hused]
        exact hg.used n
      · rw [hsock]
        exact hnot
  · push Not at hdecides
    refine .inl ⟨hreach, fun n => ?_, fun c => hkeep c fun n => hdecides c n⟩
    rw [hlaw.keeps_used l s t hg.reach h hdecides]
    exact hg.used n

/-- Every reachable state is in agreement with a fair gate. -/
theorem Reach.exists_gate (hlaw : H.Lawful) (hs : H.Reach s) :
    ∃ g, Gate.Fair g ∧ H.GateOf s g := by
  obtain ⟨s₀, hstart, ls, hrun⟩ := hs
  refine Gate.exists_fair (R := H.GateOf) hrun ⟨⟨s₀, hstart, .refl s₀⟩, fun n => ?_, fun c => ?_⟩
    fun hg h => hg.step hlaw h
  · simp [Gate.State.start, hlaw.start_used s₀ hstart]
  · obtain ⟨hstage, hnot⟩ := hlaw.start_stage s₀ c hstart
    exact ⟨.inl hstage, hnot⟩

/-- **Lawful handshakes make nonces single use.** -/
theorem Lawful.singleUse (hlaw : H.Lawful) : H.SingleUse where
  accept_unique s c d hs hc hd hnonce := by
    obtain ⟨g, hfair, hg⟩ := hs.exists_gate hlaw
    obtain ⟨n, hn, htake⟩ := (hg.judged c).of_accepted hc
    obtain ⟨m, hm, htake'⟩ := (hg.judged d).of_accepted hd
    have heq : n = m := Subtype.ext (by rw [← htake, ← htake', hnonce])
    rw [← heq] at hm
    exact hfair.unique hn hm
  accept_used s c hs hc := by
    obtain ⟨g, hfair, hg⟩ := hs.exists_gate hlaw
    obtain ⟨nonce, hverdict, htake⟩ := (hg.judged c).of_accepted hc
    exact ⟨nonce, htake, (hg.used nonce).mp ((hfair.mem_used nonce).mpr ⟨c, hverdict⟩)⟩
  used_grows l s t hs h := by
    by_cases hdecides : ∃ c nonce, H.Decides s l c nonce
    · obtain ⟨c, nonce, hc⟩ := hdecides
      rcases (hlaw.decides l s t c nonce hs h hc).2 with ⟨-, hused, -⟩ | ⟨-, hused, -⟩
      · rw [hused]
        exact Finset.subset_insert _ _
      · rw [hused]
    · push Not at hdecides
      rw [hlaw.keeps_used l s t hs h hdecides]
  checking_iff s c hs := by
    constructor
    · rintro ⟨nonce, hchecking, -⟩
      obtain ⟨hstage, -, hlen, -⟩ := hlaw.checking s c nonce hs hchecking
      exact ⟨hstage, hlen⟩
    · rintro ⟨hstage, hlen⟩
      obtain ⟨nonce, hchecking⟩ := hlaw.checking_of_full s c hs hstage hlen
      exact ⟨nonce, hchecking, (hlaw.checking s c nonce hs hchecking).2.2.2⟩
  enabled := hlaw.enabled
  adds l s t c nonce hs h hc hfresh := by
    rcases (hlaw.decides l s t c nonce hs h hc).2 with ⟨-, hused, -⟩ | ⟨hmem, -⟩
    · exact hused
    · exact absurd hmem hfresh
  refuses l s t c nonce hs h hc hmem := by
    rcases (hlaw.decides l s t c nonce hs h hc).2 with ⟨hfresh, -⟩ | ⟨-, hused, -⟩
    · exact absurd hmem hfresh
    · exact hused
  keeps l s t hs h hno := hlaw.keeps_used l s t hs h hno
  decides_once l s t c hs h hdone := by
    by_cases hdecides : ∃ nonce, H.Decides s l c nonce
    · obtain ⟨nonce, hc⟩ := hdecides
      rcases (hlaw.decides l s t c nonce hs h hc).2 with ⟨-, -, hstage⟩ | ⟨-, -, hstage⟩ <;>
        rw [hstage] <;> decide
    · have hstage := hdone.resolve_right hdecides
      push Not at hdecides
      rcases (hlaw.keeps l s t c hs h hdecides).1 with heq | heq
      · rw [heq]
        exact hstage
      · rw [heq]
        decide

end Handshakes

end Nullpipe

import Nullpipe.Lib.Transition
import Mathlib.Data.Set.Insert
import Mathlib.Logic.Function.Basic

/-!
# A gate for single-use tickets

Clients present tickets at a gate that remembers which tickets were used.  The first client to
present a ticket passes and every later one is turned away.  The check and the record of the
ticket are one step, which is what a lock around the two provides; nothing else is assumed
about the clients.

The state keeps what each client was told next to the used tickets, so that `Fair` can be said
of a state: the used tickets are those somebody passed with, and nobody else passed with the
same one.  One step keeps it (`Step.fair`), hence every run (`fair_of_run`).

A system is brought under this rule by `exists_fair`.  It need not be a gate itself: it is
enough that each of its steps is matched by at most one presentation, under a relation between
its states and those of the gate.
-/

namespace Gate

variable {κ ν : Type*}

/-- What the gate remembers, and what it told each client: the ticket the client
presented, and whether it passed. -/
structure State (κ ν : Type*) where
  used : Set ν
  verdict : κ → Option (ν × Bool)

/-- Nobody has come to the gate yet. -/
def State.start : State κ ν := ⟨∅, fun _ => none⟩

variable [DecidableEq κ]

/-- Client `c` presents a ticket. -/
inductive Step : κ → State κ ν → State κ ν → Prop
  | pass {g : State κ ν} {c : κ} {n : ν} (hopen : g.verdict c = none) (hfresh : n ∉ g.used) :
      Step c g ⟨insert n g.used, Function.update g.verdict c (some (n, true))⟩
  | refuse {g : State κ ν} {c : κ} {n : ν} (hopen : g.verdict c = none) (hused : n ∈ g.used) :
      Step c g ⟨g.used, Function.update g.verdict c (some (n, false))⟩

/-- The used tickets are those somebody passed with, and nobody else passed with
the same one. -/
structure Fair (g : State κ ν) : Prop where
  mem_used : ∀ n, n ∈ g.used ↔ ∃ c, g.verdict c = some (n, true)
  unique : ∀ {c d n}, g.verdict c = some (n, true) → g.verdict d = some (n, true) → c = d
  refused : ∀ {c n}, g.verdict c = some (n, false) → n ∈ g.used

variable {g h : State κ ν} {c : κ}

omit [DecidableEq κ] in
theorem Fair.start : Fair (State.start : State κ ν) where
  mem_used n := by simp [State.start]
  unique hc := by cases hc
  refused hc := by cases hc

private theorem update_eq_some {verdict : κ → Option (ν × Bool)} {v w : ν × Bool} {d : κ}
    (hopen : verdict c = none) :
    Function.update verdict c (some v) d = some w ↔
      (d = c ∧ w = v) ∨ verdict d = some w := by
  by_cases hd : d = c
  · subst hd
    simp [hopen, eq_comm]
  · simp [hd]

theorem Step.fair (hstep : Step c g h) (hg : Fair g) : Fair h := by
  cases hstep with
  | @pass _ _ n hopen hfresh =>
      -- a ticket that is not used is one nobody has passed with
      have hnobody : ∀ d, g.verdict d ≠ some (n, true) := fun d hd =>
        hfresh ((hg.mem_used n).mpr ⟨d, hd⟩)
      constructor
      · intro m
        simp only [Set.mem_insert_iff, update_eq_some hopen, Prod.mk.injEq, and_true, hg.mem_used]
        constructor
        · rintro (rfl | ⟨d, hd⟩)
          · exact ⟨c, .inl ⟨rfl, rfl⟩⟩
          · exact ⟨d, .inr hd⟩
        · rintro ⟨d, ⟨-, rfl⟩ | hd⟩
          · exact .inl rfl
          · exact .inr ⟨d, hd⟩
      · intro d e m hd he
        rcases (update_eq_some hopen).mp hd with ⟨rfl, hm⟩ | hdold
        · cases hm
          rcases (update_eq_some hopen).mp he with ⟨rfl, -⟩ | heold
          · rfl
          · exact (hnobody e heold).elim
        · rcases (update_eq_some hopen).mp he with ⟨rfl, hm⟩ | heold
          · cases hm
            exact (hnobody d hdold).elim
          · exact hg.unique hdold heold
      · intro d m hd
        rcases (update_eq_some hopen).mp hd with ⟨-, hm⟩ | hd
        · cases hm
        · exact Set.mem_insert_of_mem _ (hg.refused hd)
  | @refuse _ _ n hopen hused =>
      constructor
      · intro m
        simp only [update_eq_some hopen, Prod.mk.injEq, Bool.true_eq_false, and_false, false_or,
          hg.mem_used]
      · intro d e m hd he
        rcases (update_eq_some hopen).mp hd with ⟨-, hm⟩ | hd
        · cases hm
        · rcases (update_eq_some hopen).mp he with ⟨-, hm⟩ | he
          · cases hm
          · exact hg.unique hd he
      · intro d m hd
        rcases (update_eq_some hopen).mp hd with ⟨-, hm⟩ | hd
        · cases hm
          exact hused
        · exact hg.refused hd

/-- **Every run of the gate is fair.** -/
theorem fair_of_run {cs : List κ} (hrun : Transition.Run Step State.start cs g) : Fair g :=
  hrun.invariant Fair.start fun hg hstep => hstep.fair hg

/-- A system whose steps are each matched by at most one presentation at the
gate is fair at the end of every run. -/
theorem exists_fair {σ ι : Type*} {step : ι → σ → σ → Prop} {R : σ → State κ ν → Prop} {s t : σ}
    {ls : List ι} (hrun : Transition.Run step s ls t) (hinit : R s State.start)
    (hstep : ∀ {l s t g}, R s g → step l s t → R t g ∨ ∃ c h, Step c g h ∧ R t h) :
    ∃ g, Fair g ∧ R t g := by
  have hmatched : ∃ cs g, Transition.Run Step State.start cs g ∧ R t g :=
    hrun.simulate hinit fun hrel h => by
      rcases hstep hrel h with hsame | ⟨c, g', hgate, hrel'⟩
      · exact ⟨[], _, .nil, hsame⟩
      · exact ⟨[c], g', .single hgate, hrel'⟩
  obtain ⟨cs, g, hgate, hrel⟩ := hmatched
  exact ⟨g, fair_of_run hgate, hrel⟩

end Gate

import Mathlib.Data.List.Basic
import Mathlib.Tactic.Common

/-!
# Labelled transition systems and their runs

A system is a relation `step : ι → σ → σ → Prop`: under the label `l` the state `s` may become
`t`.  The label names which task moved and what its environment supplied, so that a run, the
list of its labels, is the history of an interleaving.  Several tasks are one relation; that
any of them may move next is the nondeterminism of the label.

Three rules carry every argument made over such runs.

* An invariant is preserved by one step and hence by all of them (`Run.invariant`).
* The same with the history in hand (`Run.history`), for what is said of a state together with
  the labels that led to it.
* A forward simulation carries a run of one system to a run of another (`Run.simulate`, and
  `Run.relabel` if it goes step by step).

A rank that every step lowers bounds the length of a run (`Run.length_add_rank_le`), and a system
that has one comes to rest (`exists_terminal_of_invariant`).  It is enough that the steps lower
it where an invariant holds.
-/

namespace Transition

variable {σ τ ι κ : Type*}

/-- The finite runs of `step`, with the labels taken in order. -/
inductive Run (step : ι → σ → σ → Prop) (s : σ) : List ι → σ → Prop
  | nil : Run step s [] s
  | snoc {t u : σ} {ls : List ι} {l : ι} :
      Run step s ls t → step l t u → Run step s (ls ++ [l]) u

/-- The steps of a system that also satisfy `ok`, a condition on the state
before the step and on its label.  Its runs are the runs all of whose steps meet
the condition. -/
def Guarded (step : ι → σ → σ → Prop) (ok : σ → ι → Prop) (l : ι) (s t : σ) : Prop :=
  step l s t ∧ ok s l

/-- The steps of a system into states with the property `P`.  Its runs are the runs
that stay in such states. -/
def Within (step : ι → σ → σ → Prop) (P : σ → Prop) (l : ι) (s t : σ) : Prop :=
  step l s t ∧ P t

/-- The states some run from `init` leads to. -/
def Reachable (step : ι → σ → σ → Prop) (init s : σ) : Prop :=
  ∃ ls, Run step init ls s

/-- No step leads out of `s`. -/
def Terminal (step : ι → σ → σ → Prop) (s : σ) : Prop :=
  ∀ l t, ¬ step l s t

section Rules

variable {step : ι → σ → σ → Prop} {s t u : σ} {ls ms : List ι} {l : ι}

theorem Run.single (h : step l s t) : Run step s [l] t := by
  simpa using Run.nil.snoc h

/-- One more step, to a state given by an equation. -/
theorem Run.extend (hrun : Run step s ls t) (hstep : step l t u) {v : σ} (heq : u = v) :
    Run step s (ls ++ [l]) v :=
  heq ▸ hrun.snoc hstep

theorem Run.append (hfirst : Run step s ls t) (hsecond : Run step t ms u) :
    Run step s (ls ++ ms) u := by
  induction hsecond with
  | nil => simpa using hfirst
  | snoc _ hstep ih =>
      rw [← List.append_assoc]
      exact ih.snoc hstep

theorem Run.cons (hfirst : step l s t) (hrest : Run step t ls u) : Run step s (l :: ls) u :=
  (Run.single hfirst).append hrest

theorem Run.eq_of_nil (hrun : Run step s [] t) : t = s := by
  generalize hls : ([] : List ι) = ls at hrun
  cases hrun with
  | nil => rfl
  | snoc => simp at hls

/-- The first step of a run and the rest of it. -/
theorem Run.uncons (hrun : Run step s (l :: ls) u) : ∃ t, step l s t ∧ Run step t ls u := by
  generalize hall : l :: ls = all at hrun
  induction hrun generalizing ls with
  | nil => cases hall
  | @snoc v w front k hfront hlast ih =>
      cases front with
      | nil =>
          cases hall
          cases hfront.eq_of_nil
          exact ⟨w, hlast, .nil⟩
      | cons j front =>
          cases hall
          obtain ⟨t, hfirst, hrest⟩ := ih rfl
          exact ⟨t, hfirst, hrest.snoc hlast⟩

/-- Runs of a smaller relation are runs of a larger one. -/
theorem Run.mono {step' : ι → σ → σ → Prop} (hle : ∀ l s t, step l s t → step' l s t)
    (hrun : Run step s ls t) : Run step' s ls t := by
  induction hrun with
  | nil => exact .nil
  | snoc _ hstep ih => exact ih.snoc (hle _ _ _ hstep)

/-- A run seen through a map, with its labels. -/
theorem Run.map {step' : ι → τ → τ → Prop} (f : σ → τ) (hrun : Run step s ls t)
    (hstep : ∀ {l s t}, step l s t → step' l (f s) (f t)) : Run step' (f s) ls (f t) := by
  induction hrun with
  | nil => exact .nil
  | snoc _ h ih => exact ih.snoc (hstep h)

/-- **The invariant rule.**  What holds at the start and is preserved by every
step holds at the end of every run. -/
theorem Run.invariant {I : σ → Prop} (hrun : Run step s ls t) (hinit : I s)
    (hstep : ∀ {l t u}, I t → step l t u → I u) : I t := by
  induction hrun with
  | nil => exact hinit
  | snoc _ h ih => exact hstep ih h

/-- The invariant rule with the history so far in the invariant. -/
theorem Run.history {I : List ι → σ → Prop} (hrun : Run step s ls t) (hinit : I [] s)
    (hstep : ∀ {ls l t u}, I ls t → step l t u → I (ls ++ [l]) u) : I ls t := by
  induction hrun with
  | nil => exact hinit
  | snoc _ h ih => exact hstep ih h

/-- Two systems that agree on the states an invariant allows have the same runs
there. -/
theorem Run.congr_on {step' : ι → σ → σ → Prop} {I : σ → Prop} (hinit : I s)
    (hiff : ∀ {l t u}, I t → (step l t u ↔ step' l t u))
    (hstep : ∀ {l t u}, I t → step l t u → I u) : Run step s ls t ↔ Run step' s ls t := by
  constructor
  · intro hrun
    have hall : I t ∧ Run step' s ls t := by
      induction hrun with
      | nil => exact ⟨hinit, .nil⟩
      | snoc _ h ih => exact ⟨hstep ih.1 h, ih.2.snoc ((hiff ih.1).mp h)⟩
    exact hall.2
  · intro hrun
    have hall : I t ∧ Run step s ls t := by
      induction hrun with
      | nil => exact ⟨hinit, .nil⟩
      | snoc _ h ih =>
          have hback := (hiff ih.1).mpr h
          exact ⟨hstep ih.1 hback, ih.2.snoc hback⟩
    exact hall.2

/-- **A condition that says exactly which steps keep a property** picks out the runs
that keep it. -/
theorem Run.within_iff {I P : σ → Prop} {ok : σ → ι → Prop} (hinit : I s) (hprop : P s)
    (hstep : ∀ {l t u}, I t → step l t u → I u)
    (hiff : ∀ {l t u}, I t → P t → step l t u → (P u ↔ ok t l)) :
    Run (Within step P) s ls t ↔ Run (Guarded step ok) s ls t :=
  Run.congr_on (I := fun t => I t ∧ P t) ⟨hinit, hprop⟩
    (fun ht => and_congr_right fun hmove => hiff ht.1 ht.2 hmove)
    (fun ht hmove => ⟨hstep ht.1 hmove.1, hmove.2⟩)

/-- A run of a guarded system is a run of the system. -/
theorem Run.unguard {ok : σ → ι → Prop} (hrun : Run (Guarded step ok) s ls t) :
    Run step s ls t :=
  hrun.mono fun _ _ _ h => h.1

/-- A run whose labels meet the condition in every state is a run of the guarded
system. -/
theorem Run.guard {ok : σ → ι → Prop} (hrun : Run step s ls t) (hok : ∀ l ∈ ls, ∀ s, ok s l) :
    Run (Guarded step ok) s ls t := by
  induction hrun with
  | nil => exact .nil
  | snoc _ h ih =>
      exact (ih fun l hl => hok l (List.mem_append_left _ hl)).snoc
        ⟨h, hok _ (List.mem_append_right _ (List.mem_singleton_self _)) _⟩

/-- What a guard asks of the labels holds of all labels of a run. -/
theorem Run.of_guarded {ok : ι → Prop} (hrun : Run (Guarded step fun _ l => ok l) s ls t) :
    ∀ l ∈ ls, ok l := by
  induction hrun with
  | nil => exact nofun
  | snoc _ h ih =>
      intro l hl
      rcases List.mem_append.mp hl with hfront | hlast
      · exact ih l hfront
      · rw [List.mem_singleton.mp hlast]
        exact h.2

/-- Every run can be watched: a second component takes down what is seen of each step. -/
theorem Run.watch {ω : Type*} (hrun : Run step s ls t) (see : σ → ι → List ω) (seen : List ω) :
    ∃ seen', Run (fun l a b => step l a.1 b.1 ∧ b.2 = a.2 ++ see a.1 l) (s, seen)
      ls (t, seen') := by
  induction hrun with
  | nil => exact ⟨seen, .nil⟩
  | @snoc t u _ l _ hstep ih =>
      obtain ⟨seen', hrun⟩ := ih
      exact ⟨seen' ++ see t l, hrun.snoc ⟨hstep, rfl⟩⟩

theorem Run.reachable (hrun : Run step s ls t) : Reachable step s t :=
  ⟨ls, hrun⟩

theorem Reachable.refl (s : σ) : Reachable step s s :=
  ⟨[], .nil⟩

theorem Reachable.snoc (hreach : Reachable step s t) (h : step l t u) : Reachable step s u := by
  obtain ⟨ls, hrun⟩ := hreach
  exact ⟨ls ++ [l], hrun.snoc h⟩

theorem Reachable.run (hreach : Reachable step s t) (hrun : Run step t ls u) :
    Reachable step s u := by
  obtain ⟨ms, hfirst⟩ := hreach
  exact ⟨ms ++ ls, hfirst.append hrun⟩

theorem Reachable.invariant {I : σ → Prop} (hreach : Reachable step s t) (hinit : I s)
    (hstep : ∀ {l t u}, I t → step l t u → I u) : I t := by
  obtain ⟨ls, hrun⟩ := hreach
  exact hrun.invariant hinit hstep

end Rules

/-! ## Histories -/

section Chronicle

variable {α : Type*} {ok : List α → α → Prop} {log : List α}

/-- Every entry of the log meets a condition on the entries before it. -/
def Chronicle (ok : List α → α → Prop) (log : List α) : Prop :=
  ∀ front a back, log = front ++ a :: back → ok front a

theorem Chronicle.nil : Chronicle ok [] := fun front a back h => by
  have hlen := congrArg List.length h
  simp at hlen

/-- A further entry has to meet the condition on the log so far. -/
theorem Chronicle.snoc {a : α} (h : Chronicle ok log) (ha : ok log a) :
    Chronicle ok (log ++ [a]) := by
  intro front b back heq
  rcases List.eq_nil_or_concat back with rfl | ⟨back', z, rfl⟩
  · obtain ⟨rfl, hb⟩ := List.append_inj' heq rfl
    cases hb
    exact ha
  · have hsplit : log ++ [a] = (front ++ b :: back') ++ [z] := by simpa using heq
    exact h front b back' (List.append_inj' hsplit rfl).1

end Chronicle

/-! ## Simulation -/

/-- **Forward simulation.**  If every step from a related pair is matched by a
run that restores the relation, every run is. -/
theorem Run.simulate {step : ι → σ → σ → Prop} {step' : κ → τ → τ → Prop} {R : σ → τ → Prop}
    {s t : σ} {ls : List ι} {a : τ} (hrun : Run step s ls t) (hinit : R s a)
    (hstep : ∀ {l s t a}, R s a → step l s t → ∃ ks b, Run step' a ks b ∧ R t b) :
    ∃ ks b, Run step' a ks b ∧ R t b := by
  induction hrun with
  | nil => exact ⟨[], a, .nil, hinit⟩
  | snoc _ h ih =>
      obtain ⟨ks, b, hrun', hrel⟩ := ih
      obtain ⟨js, c, hmore, hrel'⟩ := hstep hrel h
      exact ⟨ks ++ js, c, hrun'.append hmore, hrel'⟩

/-- **A run under other names.**  If every step whose label meets a condition is matched, from
a related pair, by a step with the renamed label, a run of such steps is matched by a run
with the labels renamed. -/
theorem Run.relabel {step : ι → σ → σ → Prop} {step' : κ → τ → τ → Prop} {R : σ → τ → Prop}
    {ok : ι → Prop} {s t : σ} {ls : List ι} {a : τ} (g : ι → κ) (hrun : Run step s ls t)
    (hls : ∀ l ∈ ls, ok l) (hinit : R s a)
    (hstep : ∀ {l s t a}, ok l → R s a → step l s t → ∃ b, step' (g l) a b ∧ R t b) :
    ∃ b, Run step' a (ls.map g) b ∧ R t b := by
  induction hrun with
  | nil => exact ⟨a, .nil, hinit⟩
  | @snoc _ _ ls l _ h ih =>
      obtain ⟨b, hbefore, hrel⟩ := ih fun k hk => hls k (List.mem_append_left _ hk)
      have hlast : ok l := hls l (List.mem_append_right _ (List.mem_singleton_self l))
      obtain ⟨c, hmove, hrel'⟩ := hstep hlast hrel h
      rw [List.map_append]
      exact ⟨c, hbefore.snoc hmove, hrel'⟩

/-- The same where the states are related by a map. -/
theorem Run.relabel_map {step : ι → σ → σ → Prop} {step' : κ → τ → τ → Prop} {ok : ι → Prop}
    {s t : σ} {ls : List ι} (f : σ → τ) (g : ι → κ) (hrun : Run step s ls t)
    (hls : ∀ l ∈ ls, ok l)
    (hstep : ∀ {l s t}, ok l → step l s t → step' (g l) (f s) (f t)) :
    Run step' (f s) (ls.map g) (f t) := by
  obtain ⟨b, hrun', rfl⟩ : ∃ b, Run step' (f s) (ls.map g) b ∧ f t = b := by
    refine hrun.relabel (R := fun u b => f u = b) g hls rfl ?_
    rintro l u v _ hl rfl hmove
    exact ⟨f v, hstep hl hmove, rfl⟩
  exact hrun'

/-- **A run seen through a map.**  If every step, seen through `f`, is a step of another
system or not seen at all, every run is a run of that system. -/
theorem Run.project {step : ι → σ → σ → Prop} {step' : κ → τ → τ → Prop} {s t : σ} {ls : List ι}
    (f : σ → τ) (hrun : Run step s ls t)
    (hstep : ∀ {l s t}, step l s t → f t = f s ∨ ∃ k, step' k (f s) (f t)) :
    ∃ ks, Run step' (f s) ks (f t) := by
  obtain ⟨ks, b, hrun', rfl⟩ : ∃ ks b, Run step' (f s) ks b ∧ f t = b := by
    refine hrun.simulate (R := fun u b => f u = b) rfl ?_
    rintro l u v _ rfl hmove
    rcases hstep hmove with hsame | ⟨k, hk⟩
    · exact ⟨[], f u, .nil, hsame⟩
    · exact ⟨[k], f v, .single hk, rfl⟩
  exact ⟨ks, hrun'⟩

/-! ## Termination -/

/-- **The rank rule.**  A system whose steps lower a rank where an invariant holds, and
keep the invariant, has no run longer than the rank of its first state. -/
theorem Run.length_add_rank_le {step : ι → σ → σ → Prop} {I : σ → Prop} {s t : σ} {ls : List ι}
    (rank : σ → ℕ) (hrun : Run step s ls t) (hinit : I s)
    (hstep : ∀ {l s t}, I s → step l s t → I t ∧ rank t < rank s) :
    I t ∧ ls.length + rank t ≤ rank s := by
  induction hrun with
  | nil => exact ⟨hinit, by simp⟩
  | snoc _ hmove ih =>
      obtain ⟨hinv, hle⟩ := ih
      obtain ⟨hinv', hlt⟩ := hstep hinv hmove
      refine ⟨hinv', ?_⟩
      rw [List.length_append, List.length_singleton]
      omega

/-- A system whose steps lower a rank where an invariant holds comes to rest. -/
theorem exists_terminal_of_invariant {step : ι → σ → σ → Prop} {I : σ → Prop} (rank : σ → ℕ)
    (hstep : ∀ {l s t}, I s → step l s t → I t ∧ rank t < rank s) {s : σ} (hinit : I s) :
    ∃ ls t, Run step s ls t ∧ Terminal step t := by
  induction hn : rank s using Nat.strongRecOn generalizing s with
  | _ n ih =>
      by_cases hterm : Terminal step s
      · exact ⟨[], s, .nil, hterm⟩
      · unfold Terminal at hterm
        push Not at hterm
        obtain ⟨l, t, hmove⟩ := hterm
        obtain ⟨hinv, hlt⟩ := hstep hinit hmove
        obtain ⟨ls, u, hrun, hfinal⟩ := ih (rank t) (hn ▸ hlt) hinv rfl
        exact ⟨l :: ls, u, Run.cons hmove hrun, hfinal⟩

/-- A system whose every step lowers a natural number reaches a terminal state
from everywhere. -/
theorem exists_terminal {step : ι → σ → σ → Prop} (rank : σ → ℕ)
    (hrank : ∀ l s t, step l s t → rank t < rank s) (s : σ) :
    ∃ ls t, Run step s ls t ∧ Terminal step t :=
  exists_terminal_of_invariant (I := fun _ => True) rank
    (fun _ hmove => ⟨trivial, hrank _ _ _ hmove⟩) trivial

end Transition

import Mathlib.Data.List.Basic
import Mathlib.Tactic.Common

/-!
# Streams that arrive in chunks

The transport cuts a stream into chunks; a read returns at most what is left of the first one,
and an empty read is the end of the stream.  `readExact` reads a given number of bytes across as
many chunks as it takes.

Whatever the cuts, it gets the front of the concatenation and leaves the rest
(`readExact_of_le`), or reports the end if there is not enough (`readExact_of_lt`).  Both are by
induction on the chunks, for any number of bytes.
-/

namespace Chunks

variable {α : Type*}

/-- The chunks of a stream, when this one was read in part. -/
def putBack (chunk : List α) (chunks : List (List α)) : List (List α) :=
  match chunk with
  | [] => chunks
  | _ => chunk :: chunks

/-- Read exactly `n` bytes, and the chunks behind them; `none` is an early end. -/
def readExact : ℕ → List (List α) → Option (List α × List (List α))
  | 0, chunks => some ([], chunks)
  | _ + 1, [] => none
  | n + 1, chunk :: chunks =>
    if chunk = [] then none
    else if n + 1 ≤ chunk.length then
      some (chunk.take (n + 1), putBack (chunk.drop (n + 1)) chunks)
    else
      match readExact (n + 1 - chunk.length) chunks with
      | none => none
      | some (got, later) => some (chunk ++ got, later)

/-- No read of the stream is empty. -/
def Solid (chunks : List (List α)) : Prop := ∀ chunk ∈ chunks, chunk ≠ []

variable {n : ℕ} {chunk : List α} {chunks : List (List α)}

@[simp] theorem flatten_putBack (chunk : List α) (chunks : List (List α)) :
    (putBack chunk chunks).flatten = chunk ++ chunks.flatten := by
  cases chunk <;> rfl

theorem Solid.putBack (h : Solid chunks) (chunk : List α) : Solid (putBack chunk chunks) := by
  cases chunk with
  | nil => exact h
  | cons a rest =>
      intro part hpart
      rcases List.mem_cons.mp hpart with rfl | hpart
      · exact List.cons_ne_nil a rest
      · exact h part hpart

/-- **Reading no further than the end** gets the front of the stream. -/
theorem readExact_of_le (hsolid : Solid chunks) (hn : n ≤ chunks.flatten.length) :
    ∃ later, readExact n chunks = some (chunks.flatten.take n, later) ∧
      later.flatten = chunks.flatten.drop n ∧ Solid later := by
  induction chunks generalizing n with
  | nil =>
      have hzero : n = 0 := Nat.le_zero.mp hn
      subst hzero
      exact ⟨[], rfl, rfl, hsolid⟩
  | cons chunk chunks ih =>
      cases n with
      | zero => exact ⟨chunk :: chunks, rfl, rfl, hsolid⟩
      | succ n =>
          have hne : chunk ≠ [] := hsolid chunk (List.mem_cons_self ..)
          have hrest : Solid chunks := fun part hpart => hsolid part (List.mem_cons_of_mem _ hpart)
          rw [List.flatten_cons] at hn ⊢
          by_cases hfit : n + 1 ≤ chunk.length
          · refine ⟨Chunks.putBack (chunk.drop (n + 1)) chunks, ?_, ?_, hrest.putBack _⟩
            · rw [readExact, if_neg hne, if_pos hfit, List.take_append_of_le_length hfit]
            · rw [flatten_putBack, List.drop_append_of_le_length hfit]
          · have hmore : n + 1 - chunk.length ≤ chunks.flatten.length := by
              rw [List.length_append] at hn
              omega
            obtain ⟨later, hread, hlater, hsolid'⟩ := ih hrest hmore
            have hlong : chunk.length ≤ n + 1 := by omega
            refine ⟨later, ?_, ?_, hsolid'⟩
            · rw [readExact, if_neg hne, if_neg hfit, hread, List.take_append,
                List.take_of_length_le hlong]
            · rw [hlater, List.drop_append, List.drop_of_length_le hlong, List.nil_append]

/-- **Reading further** finds the end of the stream. -/
theorem readExact_of_lt (hn : chunks.flatten.length < n) : readExact n chunks = none := by
  induction chunks generalizing n with
  | nil =>
      cases n with
      | zero => cases hn
      | succ n => rfl
  | cons chunk chunks ih =>
      cases n with
      | zero => cases hn
      | succ n =>
          rw [List.flatten_cons, List.length_append] at hn
          rw [readExact]
          split
          · rfl
          · have hfit : ¬ n + 1 ≤ chunk.length := by omega
            rw [if_neg hfit, ih (by omega)]

end Chunks

import Mathlib.Data.String.Basic
import Mathlib.Tactic.Common

/-!
# Byte offsets in a text

Positions in a UTF-8 text are byte offsets, and only those between two characters are
positions: to cut a text anywhere else is an error, `none`.

`splitAt_eq_some_iff` says what a cut is in terms of the characters: the text is two lists of
characters, the first of which takes as many bytes as the offset says.  From it follow
insertion and removal, which are a cut and something done at it.
-/

namespace ByteText

open String

variable {n : ℕ} {c : Char} {text front back : List Char}

/-- The characters in front of the offset `n` and those behind it. -/
def splitAt : ℕ → List Char → Option (List Char × List Char)
  | 0, text => some ([], text)
  | _ + 1, [] => none
  | n + 1, c :: rest =>
    if c.utf8Size ≤ n + 1 then
      (splitAt (n + 1 - c.utf8Size) rest).map fun parts => (c :: parts.1, parts.2)
    else none

/-- A character is put in at the offset `n`. -/
def insert (n : ℕ) (c : Char) (text : List Char) : Option (List Char) :=
  (splitAt n text).map fun parts => parts.1 ++ c :: parts.2

/-- The character at the offset `n` is taken out; there has to be one. -/
def remove (n : ℕ) (text : List Char) : Option (List Char) :=
  match splitAt n text with
  | some (front, _ :: back) => some (front ++ back)
  | some (_, []) | none => none

/-- The offset `n` lies between two characters of the text, or at an end. -/
def Boundary (n : ℕ) (text : List Char) : Prop :=
  ∃ front back, text = front ++ back ∧ utf8Len front = n

theorem splitAt_append (front back : List Char) :
    splitAt (utf8Len front) (front ++ back) = some (front, back) := by
  induction front with
  | nil => cases back <;> rfl
  | cons c front ih =>
      obtain ⟨m, hm⟩ := Nat.exists_eq_succ_of_ne_zero
        (Nat.ne_of_gt (Nat.add_pos_right (utf8Len front) c.utf8Size_pos))
      have hsub : m + 1 - c.utf8Size = utf8Len front := by omega
      rw [utf8Len_cons, hm, List.cons_append, splitAt, if_pos (by omega), hsub, ih]
      rfl

/-- **A cut is a decomposition whose first part has that many bytes.** -/
theorem splitAt_eq_some_iff :
    splitAt n text = some (front, back) ↔ text = front ++ back ∧ utf8Len front = n := by
  constructor
  · intro h
    induction text generalizing n front with
    | nil =>
        cases n with
        | zero =>
            cases h
            exact ⟨rfl, rfl⟩
        | succ n => cases h
    | cons c rest ih =>
        cases n with
        | zero =>
            cases h
            exact ⟨rfl, rfl⟩
        | succ n =>
            rw [splitAt] at h
            split at h
            · obtain ⟨⟨front', back'⟩, hrest, heq⟩ := Option.map_eq_some_iff.mp h
              cases heq
              obtain ⟨hsplit, hlen⟩ := ih hrest
              refine ⟨by rw [hsplit, List.cons_append], ?_⟩
              rw [utf8Len_cons, hlen]
              omega
            · cases h
  · rintro ⟨rfl, rfl⟩
    exact splitAt_append front back

theorem insert_append (front back : List Char) :
    insert (utf8Len front) c (front ++ back) = some (front ++ c :: back) := by
  rw [insert, splitAt_append]
  rfl

theorem remove_append (front back : List Char) :
    remove (utf8Len front) (front ++ c :: back) = some (front ++ back) := by
  rw [remove, splitAt_append]

theorem boundary_iff : Boundary n text ↔ ∃ parts, splitAt n text = some parts := by
  constructor
  · rintro ⟨front, back, hsplit⟩
    exact ⟨(front, back), splitAt_eq_some_iff.mpr hsplit⟩
  · rintro ⟨⟨front, back⟩, h⟩
    exact ⟨front, back, splitAt_eq_some_iff.mp h⟩

end ByteText

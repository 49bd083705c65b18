import Nullpipe.Lib.TextCodec
import Mathlib.Data.String.Basic

/-!
# The spellings of a JSON string

A character of a JSON string is written as itself, by a short escape, by four hexadecimal
digits, or by a surrogate pair of them (`CharSpelling`).  `quoteString` writes the shortest of
the spellings: no other takes fewer bytes (`StringSpelling.utf8Len_le`).  This is a comparison
character by character.  A character that may stand as itself does; one with a short escape is
written in two bytes; of the others none takes fewer than six.

What the reader `unquoteString` makes of a text is spelled in it
(`stringSpelling_of_unquoteString`), and what is written is a spelling of what it was written
from (`stringSpelling_quoteString`).  The first is by recursion on the text that is read, with
one case for each way an escape may go on.

The value of a hexadecimal digit is a parameter, so that a reader may take digits of either
case; `ReadsHex` asks that those of `hexAlphabet` have their values.
-/

namespace TextCodec

open String

variable {digit : Char → Option ℕ} {c : Char} {text spelled : List Char}

/-- The value of four hexadecimal digits. -/
def quadValue (digit : Char → Option ℕ) (a b c d : Char) : Option ℕ := do
  let w ← digit a
  let x ← digit b
  let y ← digit c
  let z ← digit d
  some (((w * 16 + x) * 16 + y) * 16 + z)

/-- What a letter behind a backslash stands for; the solidus stands for itself. -/
def shortMeaning (letter : Char) : Option Char :=
  if letter = '/' then some '/' else shortUnescape letter

/-- The ways to write a character in a JSON string. -/
inductive CharSpelling (digit : Char → Option ℕ) (c : Char) : List Char → Prop
  | raw (hquote : c ≠ '"') (hbackslash : c ≠ '\\') (hcontrol : 32 ≤ c.toNat) :
      CharSpelling digit c [c]
  | short {letter : Char} (hletter : shortMeaning letter = some c) :
      CharSpelling digit c ['\\', letter]
  | quad {d₁ d₂ d₃ d₄ : Char} (hvalue : quadValue digit d₁ d₂ d₃ d₄ = some c.toNat) :
      CharSpelling digit c ['\\', 'u', d₁, d₂, d₃, d₄]
  | pair {d₁ d₂ d₃ d₄ e₁ e₂ e₃ e₄ : Char} {high low : ℕ}
      (hhigh : quadValue digit d₁ d₂ d₃ d₄ = some high)
      (hlow : quadValue digit e₁ e₂ e₃ e₄ = some low)
      (hhighRange : 0xD800 ≤ high ∧ high < 0xDC00) (hlowRange : 0xDC00 ≤ low ∧ low < 0xE000)
      (hvalue : c.toNat = 0x10000 + (high - 0xD800) * 0x400 + (low - 0xDC00)) :
      CharSpelling digit c ['\\', 'u', d₁, d₂, d₃, d₄, '\\', 'u', e₁, e₂, e₃, e₄]

/-- The ways to write the inside of a string. -/
inductive BodySpelling (digit : Char → Option ℕ) : List Char → List Char → Prop
  | nil : BodySpelling digit [] []
  | cons {c : Char} {text piece spelled : List Char} (hc : CharSpelling digit c piece)
      (h : BodySpelling digit text spelled) :
      BodySpelling digit (c :: text) (piece ++ spelled)

/-- The ways to write a string, with its quotes. -/
def StringSpelling (digit : Char → Option ℕ) (text spelled : List Char) : Prop :=
  ∃ body, BodySpelling digit text body ∧ spelled = '"' :: (body ++ ['"'])

/-! ## The shortest spelling -/

theorem length_le_utf8Len (text : List Char) : text.length ≤ utf8Len text := by
  induction text with
  | nil => exact Nat.le_refl _
  | cons c text ih =>
      rw [List.length_cons, utf8Len_cons]
      exact Nat.add_le_add ih c.utf8Size_pos

/-- The letters of the short escapes, and the characters they stand for, take one byte. -/
theorem utf8Len_short {letter : Char} (h : shortEscape c = some letter) :
    utf8Len ['\\', letter] = 2 := by
  unfold shortEscape at h
  split_ifs at h <;> cases h <;> rfl

theorem utf8Len_escapeChar_le_six (c : Char) : utf8Len (escapeChar c) ≤ 6 := by
  have hhex : ∀ symbol ∈ hexAlphabet.symbols, symbol.utf8Size = 1 :=
    List.forall_iff_forall_mem.mp (by decide)
  unfold escapeChar
  split
  · rename_i letter hshort
    rw [utf8Len_short hshort]
    decide
  · split
    · rename_i hcontrol
      have hbase : hexAlphabet.base = 16 := rfl
      have hhighLt : c.toNat / 16 < hexAlphabet.base := by omega
      have hlowLt : c.toNat % 16 < hexAlphabet.base := by omega
      have hhigh := hhex _ (hexAlphabet.symbol_mem hhighLt)
      have hlow := hhex _ (hexAlphabet.symbol_mem hlowLt)
      simp only [utf8Len_cons, utf8Len_nil, hhigh, hlow]
      decide
    · have hfour := c.utf8Size_le_four
      rw [utf8Len_cons, utf8Len_nil]
      omega

/-- A character that may stand as itself does. -/
theorem escapeChar_of_raw (hquote : c ≠ '"') (hbackslash : c ≠ '\\') (hcontrol : 32 ≤ c.toNat) :
    escapeChar c = [c] := by
  have hne : ∀ d : Char, d.toNat < 32 → c ≠ d := fun d hd heq => by
    rw [heq] at hcontrol
    omega
  have hshort : shortEscape c = none := by
    unfold shortEscape
    rw [if_neg hquote, if_neg hbackslash, if_neg (hne _ (by decide)), if_neg (hne _ (by decide)),
      if_neg (hne _ (by decide)), if_neg (hne _ (by decide)), if_neg (hne _ (by decide))]
  rw [escapeChar, hshort]
  exact if_neg (Nat.not_lt.mpr hcontrol)

theorem utf8Len_escapeChar_of_short {letter : Char} (h : shortMeaning letter = some c) :
    utf8Len (escapeChar c) ≤ 2 := by
  unfold shortMeaning shortUnescape at h
  split_ifs at h <;> cases h <;> decide

/-- **No spelling of a character takes fewer bytes than the one that is written.** -/
theorem CharSpelling.utf8Len_le (h : CharSpelling digit c spelled) :
    utf8Len (escapeChar c) ≤ utf8Len spelled := by
  have hlength := length_le_utf8Len spelled
  have hsix := utf8Len_escapeChar_le_six c
  cases h with
  | raw hquote hbackslash hcontrol =>
      rw [escapeChar_of_raw hquote hbackslash hcontrol]
  | short hletter =>
      exact Nat.le_trans (utf8Len_escapeChar_of_short hletter) hlength
  | quad => exact Nat.le_trans hsix hlength
  | pair => exact Nat.le_trans hsix (Nat.le_trans (by decide : 6 ≤ 12) hlength)

theorem BodySpelling.utf8Len_le (h : BodySpelling digit text spelled) :
    utf8Len (text.flatMap escapeChar) ≤ utf8Len spelled := by
  induction h with
  | nil => exact Nat.le_refl _
  | cons hc _ ih =>
      rw [List.flatMap_cons, utf8Len_append, utf8Len_append]
      exact Nat.add_le_add hc.utf8Len_le ih

theorem StringSpelling.utf8Len_le (h : StringSpelling digit text spelled) :
    utf8Len (quoteString text) ≤ utf8Len spelled := by
  obtain ⟨body, hbody, rfl⟩ := h
  have hle := hbody.utf8Len_le
  rw [quoteString, utf8Len_cons, utf8Len_cons, utf8Len_append, utf8Len_append]
  omega

/-! ## What is written and read -/

/-- The digits of `hexAlphabet` have their values. -/
def ReadsHex (digit : Char → Option ℕ) : Prop :=
  ∀ c x, hexAlphabet.digit? c = some x → digit c = some x

theorem digit?_lt {x : ℕ} (h : hexAlphabet.digit? c = some x) : x < 16 := by
  unfold Alphabet.digit? at h
  split_ifs at h with hmem
  cases h
  exact List.idxOf_lt_length_of_mem hmem

theorem quadValue_low (hdigit : ReadsHex digit) {high low : Char} {x y : ℕ}
    (hhigh : hexAlphabet.digit? high = some x) (hlow : hexAlphabet.digit? low = some y) :
    quadValue digit '0' '0' high low = some (16 * x + y) := by
  have hzero : digit '0' = some 0 := hdigit '0' 0 (by decide)
  have hvalue : ((0 * 16 + 0) * 16 + x) * 16 + y = 16 * x + y := by omega
  rw [quadValue, hzero, hdigit _ _ hhigh, hdigit _ _ hlow, ← hvalue]
  rfl

theorem shortMeaning_of_shortUnescape {letter : Char} (h : shortUnescape letter = some c) :
    shortMeaning letter = some c := by
  have hne : letter ≠ '/' := by
    rintro rfl
    have hnone : shortUnescape '/' = none := by decide
    rw [hnone] at h
    cases h
  rw [shortMeaning, if_neg hne, h]

/-- The character with a code below 256. -/
theorem toNat_ofNat_small {n : ℕ} (h : n < 256) : (Char.ofNat n).toNat = n := by
  have hvalid : n.isValidChar := .inl (by omega)
  rw [Char.ofNat, dif_pos hvalid]
  rfl

/-- One more character in front of a body that has been read. -/
theorem exists_bodySpelling_cons {piece rest : List Char} (hc : CharSpelling digit c piece)
    (h : (unquoteBody spelled).map (fun p => (c :: p.1, p.2)) = some (text, rest))
    (ih : ∀ {text : List Char}, unquoteBody spelled = some (text, rest) →
      ∃ body, BodySpelling digit text body ∧ spelled = body ++ '"' :: rest) :
    ∃ body, BodySpelling digit text body ∧ piece ++ spelled = body ++ '"' :: rest := by
  obtain ⟨⟨front, rest'⟩, hfront, heq⟩ := Option.map_eq_some_iff.mp h
  cases heq
  obtain ⟨body, hbody, rfl⟩ := ih hfront
  exact ⟨piece ++ body, .cons hc hbody, (List.append_assoc ..).symm⟩

/-- What the reader makes of a text without control characters is spelled in it. -/
theorem bodySpelling_of_unquoteBody (hdigit : ReadsHex digit) {rest : List Char}
    (hcontrol : ∀ c ∈ spelled, 32 ≤ c.toNat) (h : unquoteBody spelled = some (text, rest)) :
    ∃ body, BodySpelling digit text body ∧ spelled = body ++ '"' :: rest := by
  induction spelled using unquoteBody.induct generalizing text with
  | case1 => cases h
  | case2 high low spelled x y hlow hhigh ih =>
      have hbound : 16 * x + y < 256 := by
        have hx := digit?_lt hhigh
        have hy := digit?_lt hlow
        omega
      rw [unquoteBody, hhigh, hlow] at h
      refine exists_bodySpelling_cons (.quad ?_) h fun hread => ih (fun c hc => ?_) hread
      · rw [toNat_ofNat_small hbound]
        exact quadValue_low hdigit hhigh hlow
      · exact hcontrol c (by simp [hc])
  | case3 high low spelled hnone =>
      rw [unquoteBody] at h
      split at h
      · rename_i x y hhigh hlow
        exact (hnone x y hhigh hlow).elim
      · cases h
  | case4 letter spelled hshape c hletter ih =>
      rw [unquoteBody, hletter] at h
      · exact exists_bodySpelling_cons (.short (shortMeaning_of_shortUnescape hletter)) h
          fun hread => ih (fun c hc => hcontrol c (by simp [hc])) hread
      · exact hshape
  | case5 letter spelled hshape hnone =>
      -- a letter that stands for nothing is no escape
      rw [unquoteBody, hnone] at h
      · cases h
      · exact hshape
  | case6 spelled =>
      rw [unquoteBody.eq_4 _ _ (by simp) (by simp), if_pos rfl] at h
      cases h
      exact ⟨[], .nil, rfl⟩
  | case7 c spelled hlong hshort hquote ih =>
      rw [unquoteBody.eq_4 _ _ hlong hshort, if_neg hquote] at h
      -- a backslash with nothing behind it is not read either
      have hbackslash : c ≠ '\\' := by
        rintro rfl
        cases spelled with
        | nil => cases h
        | cons letter spelled => exact hshort letter spelled rfl rfl
      exact exists_bodySpelling_cons (.raw hquote hbackslash (hcontrol c List.mem_cons_self)) h
        fun hread => ih (fun c hc => hcontrol c (List.mem_cons_of_mem _ hc)) hread

theorem eq_append_of_expect {front rest : List Char} (h : expect front spelled = some rest) :
    spelled = front ++ rest := by
  unfold expect at h
  split_ifs at h with hfront
  cases h
  obtain ⟨back, rfl⟩ := hfront
  rw [List.drop_left]

theorem stringSpelling_of_unquoteString (hdigit : ReadsHex digit) {rest : List Char}
    (hcontrol : ∀ c ∈ spelled, 32 ≤ c.toNat) (h : unquoteString spelled = some (text, rest)) :
    ∃ front, StringSpelling digit text front ∧ spelled = front ++ rest := by
  obtain ⟨body, hopen, hbody⟩ := Option.bind_eq_some_iff.mp h
  have hquote : spelled = '"' :: body := eq_append_of_expect hopen
  subst hquote
  obtain ⟨inner, hinner, rfl⟩ := bodySpelling_of_unquoteBody hdigit
    (fun c hc => hcontrol c (List.mem_cons_of_mem _ hc)) hbody
  exact ⟨'"' :: (inner ++ ['"']), ⟨inner, hinner, rfl⟩, by simp⟩

/-- The written form is one of the spellings. -/
theorem charSpelling_escapeChar (hdigit : ReadsHex digit) (c : Char) :
    CharSpelling digit c (escapeChar c) := by
  unfold escapeChar
  cases hshort : shortEscape c with
  | some letter =>
      exact .short (shortMeaning_of_shortUnescape (shortUnescape_of_shortEscape hshort).1)
  | none =>
      dsimp only
      split_ifs with hcontrol
      · have hbase : hexAlphabet.base = 16 := rfl
        refine .quad ?_
        have := quadValue_low hdigit (hexAlphabet.digit?_symbol (show c.toNat / 16 < _ by omega))
          (hexAlphabet.digit?_symbol (show c.toNat % 16 < _ by omega))
        rw [this, Nat.div_add_mod]
      · refine .raw ?_ ?_ (Nat.not_lt.mp hcontrol)
        · rintro rfl
          cases hshort
        · rintro rfl
          cases hshort

theorem stringSpelling_quoteString (hdigit : ReadsHex digit) (text : List Char) :
    StringSpelling digit text (quoteString text) := by
  refine ⟨text.flatMap escapeChar, ?_, rfl⟩
  induction text with
  | nil => exact .nil
  | cons c text ih =>
      rw [List.flatMap_cons]
      exact .cons (charSpelling_escapeChar hdigit c) ih

/-- A written string has no control characters. -/
theorem le_of_mem_quoteString : ∀ d ∈ quoteString text, 32 ≤ d.toNat := by
  have hhex : ∀ symbol ∈ hexAlphabet.symbols, 32 ≤ symbol.toNat :=
    List.forall_iff_forall_mem.mp (by decide)
  have hbase : hexAlphabet.base = 16 := rfl
  have hchar : ∀ c, ∀ d ∈ escapeChar c, 32 ≤ d.toNat := by
    intro c d hd
    unfold escapeChar at hd
    cases hshort : shortEscape c with
    | some letter =>
        have hletter : 32 ≤ letter.toNat := by
          unfold shortEscape at hshort
          split_ifs at hshort <;> cases hshort <;> decide
        rw [hshort, List.mem_cons, List.mem_singleton] at hd
        rcases hd with rfl | rfl
        · decide
        · exact hletter
    | none =>
        rw [hshort] at hd
        dsimp only at hd
        split_ifs at hd with hcontrol
        -- a control character is written in six bytes, two of them its digits
        · have hhigh := hhex _ (hexAlphabet.symbol_mem (show c.toNat / 16 < _ by omega))
          have hlow := hhex _ (hexAlphabet.symbol_mem (show c.toNat % 16 < _ by omega))
          simp only [List.mem_cons, List.not_mem_nil, or_false] at hd
          rcases hd with rfl | rfl | rfl | rfl | rfl | rfl
          · decide
          · decide
          · decide
          · decide
          · exact hhigh
          · exact hlow
        · cases List.mem_singleton.mp hd
          exact Nat.not_lt.mp hcontrol
  intro d hd
  rw [quoteString, List.mem_cons, List.mem_append, List.mem_flatMap, List.mem_singleton] at hd
  rcases hd with rfl | ⟨c, -, hd⟩ | rfl
  · decide
  · exact hchar c d hd
  · decide

end TextCodec

import Mathlib.Data.Nat.Digits.Lemmas
import Mathlib.Data.List.GetD
import Mathlib.Data.List.TakeWhile
import Mathlib.Tactic.Common

/-!
# Text encodings

Ways to write data as text, each with a reader that undoes it.

* Digits over an alphabet (`Alphabet`): base 16, two digits a byte, and the change of radix that
  base58 rests on, where every leading zero byte becomes a leading zero digit.
* JSON string bodies with their escapes.

The change of radix takes the leading zeros apart and keeps them one for one; the rest is a
number without leading zeros, which its digits in either base determine
(`exists_leadingZeros`).  Without the first part the round trip would fail on them.

The reader of a string body is by recursion on what is left to read, and it stops at the first
quote that is not escaped, so the round trip is proved with an arbitrary rest behind it.
-/

namespace TextCodec

/-! ## Alphabets -/

/-- The digits of a number base: at least two different symbols. -/
structure Alphabet where
  symbols : List Char
  nodup : symbols.Nodup
  two_le : 2 ≤ symbols.length

namespace Alphabet

variable (A : Alphabet)

def base : ℕ := A.symbols.length

theorem one_lt_base : 1 < A.base := A.two_le

/-- The symbol of a digit. -/
def symbol (digit : ℕ) : Char := A.symbols.getD digit default

/-- The digit a symbol stands for. -/
def digit? (c : Char) : Option ℕ :=
  if c ∈ A.symbols then some (A.symbols.idxOf c) else none

theorem symbol_mem {digit : ℕ} (h : digit < A.base) : A.symbol digit ∈ A.symbols := by
  rw [symbol, List.getD_eq_getElem _ _ h]
  exact List.getElem_mem _

theorem digit?_symbol {digit : ℕ} (h : digit < A.base) :
    A.digit? (A.symbol digit) = some digit := by
  have hlen : digit < A.symbols.length := h
  rw [digit?, if_pos (A.symbol_mem h), symbol, List.getD_eq_getElem _ _ hlen,
    A.nodup.idxOf_getElem]

/-- The digits of a text over the alphabet. -/
def digits? (text : List Char) : Option (List ℕ) := text.mapM A.digit?

theorem digits?_map_symbol {ds : List ℕ} (h : ∀ d ∈ ds, d < A.base) :
    A.digits? (ds.map A.symbol) = some ds := by
  induction ds with
  | nil => rfl
  | cons d ds ih =>
      have hd := A.digit?_symbol (h d (List.mem_cons_self ..))
      have hds := ih fun d' hd' => h d' (List.mem_cons_of_mem _ hd')
      unfold digits? at hds ⊢
      simp [List.mapM_cons, hd, hds]

end Alphabet

/-! ## Change of radix -/

/-- The number of leading zeros. -/
def leadingZeros (ds : List ℕ) : ℕ := (ds.takeWhile (· == 0)).length

/-- The value of a list of digits, the most significant one first. -/
def value (b : ℕ) (ds : List ℕ) : ℕ := Nat.ofDigits b ds.reverse

/-- The same number in base `b'`; leading zeros are kept one for one. -/
def changeRadix (b b' : ℕ) (ds : List ℕ) : List ℕ :=
  List.replicate (leadingZeros ds) 0 ++ (Nat.digits b' (value b ds)).reverse

section changeRadix

variable {b b' : ℕ} {ds rest : List ℕ}

/-- A list of digits is its leading zeros and a rest that does not start with
zero. -/
theorem exists_leadingZeros (ds : List ℕ) :
    ∃ rest, ds = List.replicate (leadingZeros ds) 0 ++ rest ∧ rest.head? ≠ some 0 := by
  refine ⟨ds.dropWhile (· == 0), ?_, ?_⟩
  · have hzeros : ds.takeWhile (· == 0) = List.replicate (leadingZeros ds) 0 :=
      List.eq_replicate_iff.mpr ⟨rfl, fun d hd => by
        simpa using List.mem_takeWhile_imp hd⟩
    rw [← hzeros, List.takeWhile_append_dropWhile]
  · intro hhead
    have hfalse := List.head?_dropWhile_not (· == 0) ds
    rw [hhead] at hfalse
    simp at hfalse

theorem leadingZeros_replicate_append {z : ℕ} (hrest : rest.head? ≠ some 0) :
    leadingZeros (List.replicate z 0 ++ rest) = z := by
  have hnone : rest.takeWhile (· == 0) = [] := by
    cases rest with
    | nil => rfl
    | cons d rest =>
        have hd : d ≠ 0 := fun h => hrest (by rw [h]; rfl)
        simp [hd]
  rw [leadingZeros, List.takeWhile_append_of_pos (by simp), hnone]
  simp

theorem value_replicate_append (z : ℕ) : value b (List.replicate z 0 ++ rest) = value b rest := by
  simp [value, Nat.ofDigits_append]

theorem lt_of_mem_changeRadix (hb' : 1 < b') : ∀ d ∈ changeRadix b b' ds, d < b' := by
  intro d hd
  rcases List.mem_append.mp hd with h | h
  · rw [List.eq_of_mem_replicate h]
    omega
  · exact Nat.digits_lt_base hb' (List.mem_reverse.mp h)

private theorem head?_reverse_digits (b' n : ℕ) :
    (Nat.digits b' n).reverse.head? ≠ some 0 := by
  rw [List.head?_reverse]
  intro hlast
  have hne : Nat.digits b' n ≠ [] := fun h => by
    rw [h] at hlast
    cases hlast
  have hn : n ≠ 0 := Nat.digits_ne_nil_iff_ne_zero.mp hne
  rw [List.getLast?_eq_some_getLast hne] at hlast
  exact Nat.getLast_digit_ne_zero b' hn (Option.some.inj hlast)

/-- **The change of radix is undone by changing back.** -/
theorem changeRadix_changeRadix (hb : 1 < b) (b' : ℕ) (hds : ∀ d ∈ ds, d < b) :
    changeRadix b' b (changeRadix b b' ds) = ds := by
  obtain ⟨rest, hsplit, hrest⟩ := exists_leadingZeros ds
  have hvalue : value b ds = value b rest := by
    rw [hsplit, value_replicate_append]
  have hback : value b' (changeRadix b b' ds) = value b ds := by
    rw [changeRadix, value_replicate_append, value, List.reverse_reverse, Nat.ofDigits_digits]
  have hzeros : leadingZeros (changeRadix b b' ds) = leadingZeros ds :=
    leadingZeros_replicate_append (head?_reverse_digits b' _)
  have hdigits : Nat.digits b (value b rest) = rest.reverse := by
    apply Nat.digits_ofDigits b hb
    · intro d hd
      apply hds
      rw [hsplit]
      exact List.mem_append_right _ (List.mem_reverse.mp hd)
    · intro hne hzero
      apply hrest
      rw [← List.getLast?_reverse, List.getLast?_eq_some_getLast hne, hzero]
  rw [changeRadix, hback, hzeros, hvalue, hdigits, List.reverse_reverse, ← hsplit]

end changeRadix

/-! ## Bytes over an alphabet -/

/-- The digits a list of numbers below 256 stands for, as bytes. -/
def toBytes (ds : List ℕ) : List UInt8 := ds.map UInt8.ofNat

theorem toBytes_map_toNat (bytes : List UInt8) : toBytes (bytes.map UInt8.toNat) = bytes := by
  rw [toBytes, List.map_map]
  exact List.map_id'' (fun byte => UInt8.ofNat_toNat) bytes

namespace Alphabet

variable (A : Alphabet)

/-- Bytes as one big-endian number, written over the alphabet. -/
def encodeRadix (bytes : List UInt8) : List Char :=
  (changeRadix 256 A.base (bytes.map UInt8.toNat)).map A.symbol

def decodeRadix (text : List Char) : Option (List UInt8) :=
  (A.digits? text).map fun ds => toBytes (changeRadix A.base 256 ds)

theorem decodeRadix_encodeRadix (bytes : List UInt8) :
    A.decodeRadix (A.encodeRadix bytes) = some bytes := by
  have hbytes : ∀ d ∈ bytes.map UInt8.toNat, d < 256 := by
    intro d hd
    obtain ⟨byte, -, rfl⟩ := List.mem_map.mp hd
    exact byte.toNat_lt
  rw [decodeRadix, encodeRadix, A.digits?_map_symbol (lt_of_mem_changeRadix A.one_lt_base)]
  rw [Option.map_some, changeRadix_changeRadix (by decide) A.base hbytes,
    toBytes_map_toNat]

theorem mem_encodeRadix {bytes : List UInt8} {c : Char} (h : c ∈ A.encodeRadix bytes) :
    c ∈ A.symbols := by
  obtain ⟨d, hd, rfl⟩ := List.mem_map.mp h
  exact A.symbol_mem (lt_of_mem_changeRadix A.one_lt_base d hd)

theorem encodeRadix_ne_nil {bytes : List UInt8} (h : bytes ≠ []) : A.encodeRadix bytes ≠ [] := by
  intro hnil
  have hback := A.decodeRadix_encodeRadix bytes
  rw [hnil] at hback
  exact h (Option.some.inj hback).symm

/-- Two digits a byte, for an alphabet of sixteen symbols. -/
def encodePairs (bytes : List UInt8) : List Char :=
  bytes.flatMap fun byte => [A.symbol (byte.toNat / 16), A.symbol (byte.toNat % 16)]

def decodePairs : List Char → Option (List UInt8)
  | [] => some []
  | [_] => none
  | high :: low :: text =>
    match A.digit? high, A.digit? low with
    | some x, some y => (decodePairs text).map (UInt8.ofNat (16 * x + y) :: ·)
    | _, _ => none

theorem length_encodePairs (bytes : List UInt8) :
    (A.encodePairs bytes).length = 2 * bytes.length := by
  induction bytes with
  | nil => rfl
  | cons byte bytes ih =>
      simp only [encodePairs, List.flatMap_cons, List.length_append, List.length_cons,
        List.length_nil] at ih ⊢
      omega

variable {A}

private theorem halves_lt (hbase : A.base = 16) (byte : UInt8) :
    byte.toNat / 16 < A.base ∧ byte.toNat % 16 < A.base := by
  have hbyte := byte.toNat_lt
  omega

theorem decodePairs_encodePairs (hbase : A.base = 16) (bytes : List UInt8) :
    A.decodePairs (A.encodePairs bytes) = some bytes := by
  induction bytes with
  | nil => rfl
  | cons byte bytes ih =>
      obtain ⟨hhigh, hlow⟩ := halves_lt hbase byte
      have hvalue : UInt8.ofNat (16 * (byte.toNat / 16) + byte.toNat % 16) = byte := by
        rw [Nat.div_add_mod, UInt8.ofNat_toNat]
      have hcons : A.encodePairs (byte :: bytes) = A.symbol (byte.toNat / 16) ::
          A.symbol (byte.toNat % 16) :: A.encodePairs bytes := rfl
      rw [hcons, decodePairs, A.digit?_symbol hhigh, A.digit?_symbol hlow]
      simp only [ih, Option.map_some, hvalue]

theorem mem_encodePairs (hbase : A.base = 16) {bytes : List UInt8} {c : Char}
    (h : c ∈ A.encodePairs bytes) : c ∈ A.symbols := by
  obtain ⟨byte, -, hc⟩ := List.mem_flatMap.mp h
  obtain ⟨hhigh, hlow⟩ := halves_lt hbase byte
  rcases List.mem_cons.mp hc with rfl | hc
  · exact A.symbol_mem hhigh
  · rw [List.mem_singleton.mp hc]
    exact A.symbol_mem hlow

end Alphabet

/-- The hexadecimal digits, in lower case. -/
def hexAlphabet : Alphabet where
  symbols := ['0', '1', '2', '3', '4', '5', '6', '7', '8', '9', 'a', 'b', 'c', 'd', 'e', 'f']
  nodup := by decide
  two_le := by decide

/-- The digits and letters without `0`, `I`, `O` and `l`. -/
def base58Alphabet : Alphabet where
  symbols := ['1', '2', '3', '4', '5', '6', '7', '8', '9',
    'A', 'B', 'C', 'D', 'E', 'F', 'G', 'H', 'J', 'K', 'L', 'M', 'N', 'P', 'Q', 'R', 'S', 'T',
    'U', 'V', 'W', 'X', 'Y', 'Z',
    'a', 'b', 'c', 'd', 'e', 'f', 'g', 'h', 'i', 'j', 'k', 'm', 'n', 'o', 'p', 'q', 'r', 's',
    't', 'u', 'v', 'w', 'x', 'y', 'z']
  nodup := by decide
  two_le := by decide

/-! ## JSON strings -/

/-- The letter of a two-character escape. -/
def shortEscape (c : Char) : Option Char :=
  if c = '"' then some '"'
  else if c = '\\' then some '\\'
  else if c = '\x08' then some 'b'
  else if c = '\t' then some 't'
  else if c = '\n' then some 'n'
  else if c = '\x0c' then some 'f'
  else if c = '\r' then some 'r'
  else none

/-- The character a two-character escape stands for. -/
def shortUnescape (c : Char) : Option Char :=
  if c = '"' then some '"'
  else if c = '\\' then some '\\'
  else if c = 'b' then some '\x08'
  else if c = 't' then some '\t'
  else if c = 'n' then some '\n'
  else if c = 'f' then some '\x0c'
  else if c = 'r' then some '\r'
  else none

/-- One character inside a JSON string; control characters take the long form. -/
def escapeChar (c : Char) : List Char :=
  match shortEscape c with
  | some letter => ['\\', letter]
  | none =>
    if c.toNat < 32 then
      ['\\', 'u', '0', '0', hexAlphabet.symbol (c.toNat / 16), hexAlphabet.symbol (c.toNat % 16)]
    else [c]

/-- A JSON string with its quotes. -/
def quoteString (text : List Char) : List Char := '"' :: (text.flatMap escapeChar ++ ['"'])

theorem length_le_quoteString (text : List Char) : text.length ≤ (quoteString text).length := by
  have hbody : text.length ≤ (text.flatMap escapeChar).length := by
    induction text with
    | nil => exact Nat.zero_le _
    | cons c text ih =>
        have hc : 1 ≤ (escapeChar c).length := by
          unfold escapeChar
          split
          · exact Nat.succ_pos _
          · split <;> exact Nat.succ_pos _
        rw [List.flatMap_cons, List.length_append, List.length_cons]
        omega
  rw [quoteString, List.length_cons, List.length_append]
  omega

/-- The body of a JSON string up to its closing quote, and what follows. -/
def unquoteBody : List Char → Option (List Char × List Char)
  | [] => none
  | '\\' :: 'u' :: '0' :: '0' :: high :: low :: text =>
    match hexAlphabet.digit? high, hexAlphabet.digit? low with
    | some x, some y => (unquoteBody text).map fun p => (Char.ofNat (16 * x + y) :: p.1, p.2)
    | _, _ => none
  | '\\' :: letter :: text =>
    match shortUnescape letter with
    | some c => (unquoteBody text).map fun p => (c :: p.1, p.2)
    | none => none
  | c :: text =>
    if c = '"' then some ([], text) else (unquoteBody text).map fun p => (c :: p.1, p.2)

/-- Strip a given text off the front. -/
def expect (front text : List Char) : Option (List Char) :=
  if front <+: text then some (text.drop front.length) else none

def unquoteString (text : List Char) : Option (List Char × List Char) :=
  (expect ['"'] text).bind unquoteBody

theorem expect_append (front text : List Char) : expect front (front ++ text) = some text := by
  rw [expect, if_pos (List.prefix_append ..), List.drop_left]

theorem shortUnescape_of_shortEscape {c letter : Char} (h : shortEscape c = some letter) :
    shortUnescape letter = some c ∧ letter ≠ 'u' := by
  unfold shortEscape at h
  split at h
  · cases h; subst_vars; decide
  split at h
  · cases h; subst_vars; decide
  split at h
  · cases h; subst_vars; decide
  split at h
  · cases h; subst_vars; decide
  split at h
  · cases h; subst_vars; decide
  split at h
  · cases h; subst_vars; decide
  split at h
  · cases h; subst_vars; decide
  · cases h

private theorem unquoteBody_short {letter c : Char} (hne : letter ≠ 'u')
    (h : shortUnescape letter = some c) (text : List Char) :
    unquoteBody ('\\' :: letter :: text) =
      (unquoteBody text).map fun p => (c :: p.1, p.2) := by
  rw [unquoteBody, h]
  intro high low text' heq
  exact absurd heq hne

private theorem unquoteBody_plain {c : Char} (hbackslash : c ≠ '\\') (hquote : c ≠ '"')
    (text : List Char) :
    unquoteBody (c :: text) = (unquoteBody text).map fun p => (c :: p.1, p.2) := by
  rw [unquoteBody.eq_4 _ _ (fun _ _ _ heq _ => hbackslash heq) (fun _ _ heq _ => hbackslash heq),
    if_neg hquote]

private theorem unquoteBody_long {c : Char} (h : c.toNat < 32) (text : List Char) :
    unquoteBody ('\\' :: 'u' :: '0' :: '0' :: hexAlphabet.symbol (c.toNat / 16) ::
      hexAlphabet.symbol (c.toNat % 16) :: text) =
        (unquoteBody text).map fun p => (c :: p.1, p.2) := by
  have hbase : hexAlphabet.base = 16 := rfl
  rw [unquoteBody, hexAlphabet.digit?_symbol (by omega), hexAlphabet.digit?_symbol (by omega)]
  simp only [Nat.div_add_mod, Char.ofNat_toNat]

/-- Reading one escaped character. -/
theorem unquoteBody_escapeChar (c : Char) (text : List Char) :
    unquoteBody (escapeChar c ++ text) = (unquoteBody text).map fun p => (c :: p.1, p.2) := by
  unfold escapeChar
  cases hshort : shortEscape c with
  | some letter =>
      obtain ⟨hletter, hne⟩ := shortUnescape_of_shortEscape hshort
      exact unquoteBody_short hne hletter text
  | none =>
      dsimp only
      split
      · rename_i hcontrol
        exact unquoteBody_long hcontrol text
      · refine unquoteBody_plain ?_ ?_ text
        · rintro rfl
          cases hshort
        · rintro rfl
          cases hshort

/-- **Reading a quoted string gives it back.** -/
theorem unquoteString_quoteString (text rest : List Char) :
    unquoteString (quoteString text ++ rest) = some (text, rest) := by
  have hbody : unquoteBody (text.flatMap escapeChar ++ '"' :: rest) = some (text, rest) := by
    induction text with
    | nil => rfl
    | cons c text ih =>
        rw [List.flatMap_cons, List.append_assoc, unquoteBody_escapeChar, ih]
        rfl
  have hopen := expect_append ['"'] (text.flatMap escapeChar ++ '"' :: rest)
  simp only [unquoteString, quoteString, List.cons_append, List.append_assoc, List.nil_append]
    at hopen ⊢
  rw [hopen, Option.bind_some, hbody]

end TextCodec

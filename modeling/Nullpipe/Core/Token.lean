import Nullpipe.Core.Window

/-!
# The grammar of an invite code

What `invite::decode` accepts, said without the code: `InviteToken X token payload` holds when
`token` is base58 of a text that reads `address:nonce:timestamp`, with or without a fourth
field, and `payload` has the fields it reads.

The fields have their grammars (`HexText`, `DecimalText`), each with the lemma that the
source's reader reads it, and `splitn_four_iff` says which cuts `splitn` makes.  From these
`parseBytes_eq_ok_iff` is put together, and `parseInvite_eq_ok_iff` adds base58.  The clock is
then looked at on its own, in `decodeInvite_cases`, where a clock that `Utc::now` can give
makes no sum overflow.

`hex::decode` takes digits of either case.  That is no consequence of its inverting
`hex::encode`, so it is asked for as `Hex.Documented`, and `Hex.lenient` shows that the two go
together.

Two theorems come of this.

* `decode_accepts_iff`: what `decode` accepts, which tokens it calls expired, and that every
  other one is an `InvalidInvite` if the decoder of `base58` returns.
* `decode_encode_iff`: which payloads come back from their codes.  `validate_address` looks at
  the end of the address and at its length only, and `encode` takes a name of any length, so
  there are payloads that do not (`invite_not_given_back`).
-/

namespace Nullpipe

open TextCodec

variable {X : Crates} {checks : Bool} {token : String} {payload : InvitePayload}

/-! ## Hexadecimal -/

/-- The value of a hexadecimal digit of either case. -/
def hexValue (c : Char) : Option ℕ :=
  if '0' ≤ c ∧ c ≤ '9' then some (c.toNat - '0'.toNat)
  else if 'a' ≤ c ∧ c ≤ 'f' then some (c.toNat - 'a'.toNat + 10)
  else if 'A' ≤ c ∧ c ≤ 'F' then some (c.toNat - 'A'.toNat + 10)
  else none

/-- Two digits a byte. -/
inductive HexText : List Char → List UInt8 → Prop
  | nil : HexText [] []
  | cons {high low : Char} {x y : ℕ} {text : List Char} {bytes : List UInt8}
      (hhigh : hexValue high = some x) (hlow : hexValue low = some y) (h : HexText text bytes) :
      HexText (high :: low :: text) (UInt8.ofNat (16 * x + y) :: bytes)

/-- `hex::decode` accepts an even number of hexadecimal digits of either case, and nothing else. -/
def Hex.Documented (hex : Hex) : Prop :=
  ∀ text bytes, hex.decode text = .ok bytes ↔ HexText text.toList bytes

theorem HexText.length_eq {text : List Char} {bytes : List UInt8} (h : HexText text bytes) :
    text.length = 2 * bytes.length := by
  induction h with
  | nil => rfl
  | cons _ _ _ ih =>
      simp only [List.length_cons]
      omega

/-- `HexText`, computed. -/
def readHex : List Char → Option (List UInt8)
  | [] => some []
  | [_] => none
  | high :: low :: text =>
    match hexValue high, hexValue low with
    | some x, some y => (readHex text).map (UInt8.ofNat (16 * x + y) :: ·)
    | _, _ => none

theorem HexText.readHex_eq {text : List Char} {bytes : List UInt8} (h : HexText text bytes) :
    readHex text = some bytes := by
  induction h with
  | nil => rfl
  | cons hhigh hlow _ ih => simp only [readHex, hhigh, hlow, ih, Option.map_some]

theorem hexText_of_readHex {text : List Char} {bytes : List UInt8}
    (h : readHex text = some bytes) : HexText text bytes := by
  induction text using readHex.induct generalizing bytes with
  | case1 =>
      cases h
      exact .nil
  | case2 c => cases h
  | case3 high low text x y hlow hhigh ih =>
      simp only [readHex, hhigh, hlow, Option.map_eq_some_iff] at h
      obtain ⟨rest, hrest, rfl⟩ := h
      exact .cons hhigh hlow (ih hrest)
  | case4 high low text hbad =>
      exfalso
      rw [readHex] at h
      split at h
      · rename_i x y hhigh hlow
        exact hbad x y hhigh hlow
      · cases h

/-! ## Decimal -/

/-- A decimal number, with or without a leading plus sign; leading zeros are allowed. -/
def DecimalText (text : List Char) (n : ℕ) : Prop :=
  ∃ digits, (text = digits ∨ text = '+' :: digits) ∧ digits ≠ [] ∧
    (∀ c ∈ digits, c.isDigit = true) ∧ Nat.ofDigitChars 10 digits 0 = n

theorem dropPlus_of_digits {digits : List Char} (h : ∀ c ∈ digits, c.isDigit = true) :
    dropPlus digits = digits := by
  unfold dropPlus
  split
  · rename_i rest
    have hplus := h '+' (List.mem_cons_self ..)
    cases hplus
  · rfl

theorem eq_or_eq_dropPlus (text : List Char) :
    text = dropPlus text ∨ text = '+' :: dropPlus text := by
  unfold dropPlus
  split
  · exact .inr rfl
  · exact .inl rfl

theorem parseU64_eq_some_iff {text : List Char} {n : UInt64} :
    parseU64 text = some n ↔ DecimalText text n.toNat := by
  constructor
  · intro h
    rw [parseU64] at h
    simp only [Option.ite_none_right_eq_some, Option.some.injEq] at h
    obtain ⟨⟨hne, hdigits, hlt⟩, rfl⟩ := h
    refine ⟨dropPlus text, eq_or_eq_dropPlus text, hne, List.all_eq_true.mp hdigits, ?_⟩
    rw [UInt64.toNat_ofNat_of_lt' hlt]
  · rintro ⟨digits, htext, hne, hdigits, hvalue⟩
    have hdrop : dropPlus text = digits := by
      rcases htext with rfl | rfl
      · exact dropPlus_of_digits hdigits
      · rfl
    rw [parseU64]
    simp only [hdrop, hvalue]
    rw [if_pos ⟨hne, List.all_eq_true.mpr hdigits, n.toNat_lt⟩, UInt64.ofNat_toNat]

/-! ## The cuts -/

theorem splitn_of_notMem {n : ℕ} {sep : Char} {text : List Char} (h : sep ∉ text) :
    splitn (n + 2) sep text = [text] := by
  have hall : ∀ c ∈ text, (decide (c ≠ sep)) = true := by
    intro c hc
    refine decide_eq_true fun heq => h ?_
    rw [← heq]
    exact hc
  have hdrop : text.dropWhile (· ≠ sep) = [] := by
    rw [List.dropWhile_eq_nil_iff]
    exact hall
  rw [splitn, hdrop]

theorem exists_cut (sep : Char) (text : List Char) :
    sep ∉ text ∨ ∃ field rest, sep ∉ field ∧ text = field ++ sep :: rest := by
  by_cases hmem : sep ∈ text
  · obtain ⟨field, rest, htext, hfield⟩ := List.eq_append_cons_of_mem hmem
    exact .inr ⟨field, rest, hfield, htext⟩
  · exact .inl hmem

/-- Cut at the first three separators, or at two where there are only two. -/
def Cut (sep : Char) (text addr nonce ts : List Char) (name : Option (List Char)) : Prop :=
  sep ∉ addr ∧ sep ∉ nonce ∧ sep ∉ ts ∧
    text = addr ++ sep :: (nonce ++ sep :: (ts ++ (name.map (sep :: ·)).getD []))

theorem splitn_four_iff {sep : Char} {text addr nonce ts : List Char} {name : List (List Char)} :
    splitn 4 sep text = addr :: nonce :: ts :: name ↔
      ∃ last, name = last.toList ∧ Cut sep text addr nonce ts last := by
  constructor
  · intro h
    rcases exists_cut sep text with hnone | ⟨addr', rest, haddr, rfl⟩
    · rw [splitn_of_notMem hnone] at h
      cases h
    rw [splitn_cons haddr, List.cons_eq_cons] at h
    obtain ⟨rfl, h⟩ := h
    rcases exists_cut sep rest with hnone | ⟨nonce', rest', hnonce, rfl⟩
    · rw [splitn_of_notMem hnone] at h
      cases h
    rw [splitn_cons hnonce, List.cons_eq_cons] at h
    obtain ⟨rfl, h⟩ := h
    rcases exists_cut sep rest' with hnone | ⟨ts', rest'', hts, rfl⟩
    · rw [splitn_of_notMem hnone, List.cons_eq_cons] at h
      obtain ⟨rfl, rfl⟩ := h
      exact ⟨none, rfl, haddr, hnonce, hnone, by simp⟩
    · rw [splitn_cons hts, List.cons_eq_cons] at h
      obtain ⟨rfl, rfl⟩ := h
      exact ⟨some rest'', rfl, haddr, hnonce, hts, by simp⟩
  · rintro ⟨last, rfl, haddr, hnonce, hts, rfl⟩
    rw [splitn_cons haddr, splitn_cons hnonce]
    cases last with
    | none => rw [Option.map_none, Option.getD_none, List.append_nil, splitn_of_notMem hts]; rfl
    | some rest => rw [Option.map_some, Option.getD_some, splitn_cons hts]; rfl

/-! ## The grammar -/

/-- The fourth field as a name: missing and empty are the same. -/
def nameOf : Option (List Char) → Option String
  | none => none
  | some name => if name = [] then none else some (String.ofList name)

/-- The text inside a token, and the payload it reads as. -/
structure InviteText (text : String) (payload : InvitePayload) : Prop where
  fields : ∃ nonce ts name,
    Cut ':' text.toList payload.onionAddress.toList nonce ts name ∧
      HexText nonce payload.nonce.val ∧ DecimalText ts payload.timestamp.toNat ∧
      payload.suggestedName = nameOf name
  onion : ".onion".toList <:+ payload.onionAddress.toList
  long : 62 ≤ payload.onionAddress.utf8ByteSize

/-- A non-empty token that is base58 of UTF-8 text of that form. -/
def InviteToken (X : Crates) (token : String) (payload : InvitePayload) : Prop :=
  token ≠ "" ∧ ∃ text, X.base58.fromBase58 token = some (.ok (utf8Bytes text)) ∧
    InviteText text payload

theorem fromUtf8?_eq_some_iff {bytes : List UInt8} {text : String} :
    fromUtf8? bytes = some text ↔ bytes = utf8Bytes text := by
  constructor
  · intro h
    rw [fromUtf8?, String.fromUTF8?] at h
    split at h
    · rw [← Option.some.inj h]
      rfl
    · cases h
  · rintro rfl
    exact fromUtf8?_utf8Bytes text

theorem validateAddress_eq_ok_iff {addr : String} :
    validateAddress addr = .ok () ↔ ".onion".toList <:+ addr.toList ∧ 62 ≤ addr.utf8ByteSize := by
  have hleast : 56 + ".onion".utf8ByteSize = 62 := rfl
  unfold validateAddress
  rw [hleast]
  split
  · rename_i hsuffix
    exact ⟨by simp, fun h => absurd h.1 hsuffix⟩
  split
  · rename_i hshort
    exact ⟨by simp, fun h => absurd h.2 (Nat.not_le.mpr hshort)⟩
  · rename_i hsuffix hlong
    exact ⟨fun _ => ⟨not_not.mp hsuffix, Nat.not_lt.mp hlong⟩, fun _ => rfl⟩

/-- Every error of the parser is an `InvalidInvite`. -/
theorem exists_reason_of_parseBytes {bytes : List UInt8} {e : ChatError}
    (h : parseBytes X bytes = .error e) : ∃ reason, e = .invalidInvite reason := by
  unfold parseBytes at h
  split at h
  · exact ⟨_, (Except.error.inj h).symm⟩
  split at h
  · dsimp only at h
    split at h
    · rename_i hvalid
      cases h
      unfold validateAddress at hvalid
      split at hvalid
      · exact ⟨_, (Except.error.inj hvalid).symm⟩
      split at hvalid
      · exact ⟨_, (Except.error.inj hvalid).symm⟩
      · cases hvalid
    split at h
    · exact ⟨_, (Except.error.inj h).symm⟩
    split at h
    · split at h
      · exact ⟨_, (Except.error.inj h).symm⟩
      · cases h
    · exact ⟨_, (Except.error.inj h).symm⟩
  · exact ⟨_, (Except.error.inj h).symm⟩

theorem exists_reason_of_parseInvite {e : ChatError}
    (h : parseInvite X token = some (.error e)) : ∃ reason, e = .invalidInvite reason := by
  unfold parseInvite at h
  split at h
  · exact ⟨_, (Except.error.inj (Option.some.inj h)).symm⟩
  split at h
  · cases h
  · exact ⟨_, (Except.error.inj (Option.some.inj h)).symm⟩
  · exact exists_reason_of_parseBytes (Option.some.inj h)

/-- Inside the token: what it takes to read a payload from bytes. -/
theorem parseBytes_eq_ok_iff (hhex : X.hex.Documented) {bytes : List UInt8} :
    parseBytes X bytes = .ok payload ↔
      ∃ text, bytes = utf8Bytes text ∧ InviteText text payload := by
  constructor
  · intro h
    -- check by check; each that fails is an error, against `h`
    unfold parseBytes at h
    split at h
    · cases h
    rename_i text htext
    refine ⟨text, fromUtf8?_eq_some_iff.mp htext, ?_⟩
    split at h
    · rename_i addr nonce ts name hsplit
      obtain ⟨last, rfl, hcut⟩ := splitn_four_iff.mp hsplit
      dsimp only at h
      split at h
      · cases h
      rename_i hvalid
      obtain ⟨honion, hlong⟩ := validateAddress_eq_ok_iff.mp hvalid
      split at h
      · cases h
      rename_i bytes hnonce
      rw [hhex, String.toList_ofList] at hnonce
      split at h
      · split at h
        · cases h
        rename_i hlen timestamp hts
        cases h
        refine ⟨⟨nonce, ts, last, ?_, hnonce, parseU64_eq_some_iff.mp hts, ?_⟩, honion, hlong⟩
        · rw [String.toList_ofList]
          exact hcut
        · cases last with
          | none => rfl
          | some name => rfl
      · cases h
    · cases h
  · rintro ⟨text, rfl, ⟨nonce, ts, name, hcut, hnonce, hts, hname⟩, honion, hlong⟩
    have hsplit := splitn_four_iff.mpr ⟨name, rfl, hcut⟩
    have hvalid := validateAddress_eq_ok_iff.mpr ⟨honion, hlong⟩
    have hdecode : X.hex.decode (String.ofList nonce) = .ok payload.nonce.val := by
      rw [hhex, String.toList_ofList]
      exact hnonce
    have htimestamp := parseU64_eq_some_iff.mpr hts
    unfold parseBytes
    simp only [fromUtf8?_utf8Bytes, hsplit, String.ofList_toList, hvalid, hdecode,
      payload.nonce.property, dif_pos, htimestamp]
    have hback : (⟨payload.onionAddress, payload.nonce, payload.timestamp, nameOf name⟩ :
        InvitePayload) = payload := by rw [← hname]
    cases name with
    | none => exact congrArg Except.ok hback
    | some name => exact congrArg Except.ok hback

/-- **The parser reads the grammar.** -/
theorem parseInvite_eq_ok_iff (hhex : X.hex.Documented) :
    parseInvite X token = some (.ok payload) ↔ InviteToken X token payload := by
  constructor
  · intro h
    unfold parseInvite at h
    split at h
    · cases h
    rename_i hne
    split at h
    · cases h
    · cases h
    · rename_i bytes hbase
      obtain ⟨text, rfl, htext⟩ := (parseBytes_eq_ok_iff hhex).mp (Option.some.inj h)
      exact ⟨hne, text, hbase, htext⟩
  · rintro ⟨hne, text, hbase, htext⟩
    rw [parseInvite, if_neg hne, hbase]
    exact congrArg some ((parseBytes_eq_ok_iff hhex).mpr ⟨text, rfl, htext⟩)

theorem InviteToken.unique {other : InvitePayload} (hhex : X.hex.Documented)
    (h : InviteToken X token payload) (hother : InviteToken X token other) : other = payload := by
  have hparse := (parseInvite_eq_ok_iff hhex).mpr hother
  rw [(parseInvite_eq_ok_iff hhex).mpr h] at hparse
  exact (Except.ok.inj (Option.some.inj hparse)).symm

/-! ## The clock -/

section clock

variable {now : UInt64}

/-- Within 300 s of the clock, on either side. -/
def Timely (now issued : UInt64) : Prop :=
  issued.toNat ≤ now.toNat + 300 ∧ now.toNat ≤ issued.toNat + 300

theorem inWord_of_clock (hnow : now.toNat < 2 ^ 63) (issued : UInt64) : InWord 300 now issued := by
  have hthree : (300 : UInt64).toNat = 300 := rfl
  refine ⟨by omega, ?_⟩
  omega

/-- What `decode` does with a token that parses: one of three, by the clock. -/
theorem decodeInvite_cases (checks : Bool) (hnow : now.toNat < 2 ^ 63)
    (hparse : parseInvite X token = some (.ok payload)) :
    (Timely now payload.timestamp ∧
      decodeInvite X checks token (some 300) now = some (.ok payload)) ∨
    (payload.timestamp.toNat + 300 < now.toNat ∧
      decodeInvite X checks token (some 300) now =
        some (.error (.inviteExpired payload.timestamp))) ∨
    (now.toNat + 300 < payload.timestamp.toNat ∧
      ∃ reason, decodeInvite X checks token (some 300) now =
        some (.error (.invalidInvite reason))) := by
  have hthree : (300 : UInt64).toNat = 300 := rfl
  rw [decodeInvite_of_parse hparse]
  by_cases hskew : payload.timestamp.toNat ≤ now.toNat + 300
  · rw [checkWindow_of_inWord (inWord_of_clock hnow _) hskew]
    by_cases hlate : payload.timestamp.toNat + 300 < now.toNat
    · have hexpired : Expired 300 now payload.timestamp := ⟨by decide, hskew, by omega⟩
      rw [if_pos hexpired]
      exact .inr (.inl ⟨hlate, rfl⟩)
    · have hnot : ¬ Expired 300 now payload.timestamp := fun hexpired => by
        have hlate' := hexpired.2.2
        omega
      rw [if_neg hnot]
      exact .inl ⟨⟨hskew, by omega⟩, rfl⟩
  · rw [checkWindow_future (by omega) (by omega)]
    exact .inr (.inr ⟨by omega, _, rfl⟩)

end clock

/-- **`decode` accepts its grammar within the window**, calls a token expired only for its age,
and, if the decoder of `base58` returns, anything else invalid; then it never panics. -/
theorem decode_accepts_iff (X : Crates) (hhex : X.hex.Documented) (checks : Bool) (token : String)
    {now : UInt64} (hnow : now.toNat < 2 ^ 63) :
    (∀ payload, decodeInvite X checks token (some 300) now = some (.ok payload) ↔
      InviteToken X token payload ∧ Timely now payload.timestamp) ∧
    (∀ issued, decodeInvite X checks token (some 300) now = some (.error (.inviteExpired issued)) ↔
      ∃ payload, InviteToken X token payload ∧ payload.timestamp = issued ∧
        payload.timestamp.toNat ≤ now.toNat + 300 ∧
        ¬ now.toNat ≤ payload.timestamp.toNat + 300) ∧
    (X.base58.fromBase58 token ≠ none →
      ((∃ reason, decodeInvite X checks token (some 300) now =
          some (.error (.invalidInvite reason))) ↔
        ¬ ∃ payload, InviteToken X token payload ∧
          payload.timestamp.toNat ≤ now.toNat + 300) ∧
      decodeInvite X checks token (some 300) now ≠ none) := by
  rcases hparse : parseInvite X token with _ | e | payload
  · -- the decoder of base58 panics, so the token is base58 of nothing
    have hpanic := (parseInvite_eq_none_iff.mp hparse).2
    have hnone : ∀ payload, ¬ InviteToken X token payload := by
      rintro payload ⟨-, text, hbase, -⟩
      rw [hpanic] at hbase
      cases hbase
    have hresult : decodeInvite X checks token (some 300) now = none := by
      rw [decodeInvite, hparse]
    rw [hresult]
    exact ⟨by simp [hnone], by simp [hnone], fun hreturns => absurd hpanic hreturns⟩
  · obtain ⟨reason, rfl⟩ := exists_reason_of_parseInvite hparse
    have hnone : ∀ payload, ¬ InviteToken X token payload := by
      intro payload htoken
      rw [(parseInvite_eq_ok_iff hhex).mpr htoken] at hparse
      cases hparse
    have hresult : decodeInvite X checks token (some 300) now =
        some (.error (.invalidInvite reason)) := decodeInvite_of_refused hparse
    rw [hresult]
    exact ⟨by simp [hnone], by simp [hnone], fun _ => ⟨by simp [hnone], by simp⟩⟩
  · have htoken := (parseInvite_eq_ok_iff hhex).mp hparse
    have hunique : ∀ other, InviteToken X token other ↔ other = payload := by
      intro other
      constructor
      · exact htoken.unique hhex
      · rintro rfl
        exact htoken
    -- the token parses, to one payload; what is left is its time
    simp only [hunique, exists_eq_left]
    rcases decodeInvite_cases checks hnow hparse with
      ⟨htimely, hresult⟩ | ⟨hlate, hresult⟩ | ⟨hfuture, reason, hresult⟩
    · rw [hresult]
      refine ⟨?_, ?_, fun _ => ⟨?_, by simp⟩⟩
      · intro other
        constructor
        · rintro ⟨⟩
          exact ⟨rfl, htimely⟩
        · rintro ⟨rfl, -⟩
          rfl
      · intro issued
        simp [htimely.2]
      · simp [htimely.1]
    · rw [hresult]
      refine ⟨?_, ?_, fun _ => ⟨?_, by simp⟩⟩
      · rintro other
        simp only [Option.some.injEq, reduceCtorEq, false_iff, not_and]
        rintro rfl htimely
        have hend := htimely.2
        omega
      · intro issued
        simp only [Option.some.injEq, Except.error.injEq, ChatError.inviteExpired.injEq]
        exact ⟨fun heq => ⟨heq, by omega, by omega⟩, fun h => h.1⟩
      · simp only [Option.some.injEq, Except.error.injEq, reduceCtorEq, exists_false,
          false_iff, not_not]
        omega
    · rw [hresult]
      refine ⟨?_, ?_, fun _ => ⟨?_, by simp⟩⟩
      · intro other
        simp only [Option.some.injEq, reduceCtorEq, false_iff, not_and]
        rintro rfl htimely
        have hbegin := htimely.1
        omega
      · intro issued
        simp only [Option.some.injEq, Except.error.injEq, reduceCtorEq, false_iff]
        omega
      · simp only [Option.some.injEq, Except.error.injEq, ChatError.invalidInvite.injEq,
          exists_eq', true_iff]
        omega

/-! ### Both cases of hexadecimal -/

theorem hexValue_symbol : ∀ d < 16, hexValue (hexAlphabet.symbol d) = some d := by decide

theorem hexText_encodePairs (bytes : List UInt8) :
    HexText (hexAlphabet.encodePairs bytes) bytes := by
  induction bytes with
  | nil => exact .nil
  | cons byte bytes ih =>
      have hbyte := byte.toNat_lt
      have hvalue : UInt8.ofNat (16 * (byte.toNat / 16) + byte.toNat % 16) = byte := by
        rw [Nat.div_add_mod, UInt8.ofNat_toNat]
      have hcons := HexText.cons (hexValue_symbol (byte.toNat / 16) (by omega))
        (hexValue_symbol (byte.toNat % 16) (by omega)) ih
      rw [hvalue] at hcons
      exact hcons

/-- `hex`, with a reader that takes digits of either case. -/
def Hex.lenient : Hex where
  encode := Hex.standard.encode
  decode text :=
    match readHex text.toList with
    | some bytes => .ok bytes
    | none => .error "invalid hex"
  decode_encode bytes := by
    have htext : (Hex.standard.encode bytes).toList = hexAlphabet.encodePairs bytes :=
      String.toList_ofList
    rw [htext, (hexText_encodePairs bytes).readHex_eq]
  length_encode := Hex.standard.length_encode
  isAlphanum_of_mem := Hex.standard.isAlphanum_of_mem

theorem Hex.lenient_documented : Hex.lenient.Documented := by
  intro text bytes
  have hdecode : Hex.lenient.decode text = match readHex text.toList with
    | some bytes => .ok bytes
    | none => .error "invalid hex" := rfl
  rw [hdecode]
  constructor
  · intro h
    split at h
    · rename_i bytes' hread
      rw [← Except.ok.inj h]
      exact hexText_of_readHex hread
    · cases h
  · intro h
    rw [h.readHex_eq]

/-- An invite of second 1000 is read a hundred seconds later. -/
theorem decode_accepts_iff_thousand :
    ∃ token, InviteToken ⟨.standard, .standard, .lenient⟩ token someInvite ∧
      decodeInvite ⟨.standard, .standard, .lenient⟩ true token (some 300) 1100 =
        some (.ok someInvite) := by
  obtain ⟨token, -, hparse⟩ := exists_someToken ⟨.standard, .standard, .lenient⟩
  have htoken := (parseInvite_eq_ok_iff Hex.lenient_documented).mp hparse
  refine ⟨token, htoken, ?_⟩
  exact ((decode_accepts_iff _ Hex.lenient_documented true token (by decide)).1 someInvite).mpr
    ⟨htoken, by decide, by decide⟩

/-! ## What was encoded

`validate_address` looks at the end of the address and at its length, but not for the separator;
and `encode` takes a name of any length, where the decoder of `base58` has room for so much.
-/

/-- `decode` without a lifetime, at a clock that is at most 300 s behind the token. -/
theorem decodeInvite_none {clock : Int64} (hclock : 0 ≤ clock.toInt)
    (hparse : parseInvite X token = some (.ok payload))
    (hskew : (payload.timestamp.toNat : ℤ) ≤ clock.toInt + 300) :
    decodeInvite X checks token none (clockU64 clock) = some (.ok payload) := by
  have hthree : (300 : UInt64).toNat = 300 := rfl
  have hnat : clock.toInt = (clockU64 clock).toNat ∧ (clockU64 clock).toNat < 2 ^ 63 := by
    have hlt := (clockU64 clock).toNat_lt
    rcases toInt_clock clock with hnat | ⟨hint, -⟩
    · exact hnat
    · omega
  obtain ⟨hint, hnat⟩ := hnat
  obtain ⟨hlatest, hlatestNat⟩ := addU64_eq_some checks (a := clockU64 clock) (b := 300) (by omega)
  have hfuture : ¬ clockU64 clock + 300 < payload.timestamp := by
    rw [UInt64.lt_iff_toNat_lt, hlatestNat]
    omega
  rw [decodeInvite, hparse]
  simp only [checkWindow, hlatest, if_neg hfuture]

/-- An address that the parser gives out was cut at a colon. -/
theorem colon_notMem_of_parseInvite (h : parseInvite X token = some (.ok payload)) :
    ':' ∉ payload.onionAddress.toList := by
  unfold parseInvite at h
  split at h
  · cases h
  split at h
  · cases h
  · cases h
  replace h := Option.some.inj h
  unfold parseBytes at h
  split at h
  · cases h
  split at h
  · rename_i addr nonce ts name hsplit
    -- the address is the part in front of the first colon
    obtain ⟨last, -, haddr, -⟩ := splitn_four_iff.mp hsplit
    dsimp only at h
    split at h
    · cases h
    split at h
    · cases h
    split at h
    · split at h
      · cases h
      · cases h
        rw [String.toList_ofList]
        exact haddr
    · cases h
  · cases h

/-- Colon-free payloads with one token are one payload, up to an empty name. -/
theorem normalized_of_token_eq {other : InvitePayload}
    (hencode : encodeInvite X payload = .ok token)
    (hother : encodeInvite X other = .ok token) (hcolon : ':' ∉ payload.onionAddress.toList)
    (hcolon' : ':' ∉ other.onionAddress.toList) : other.normalized = payload.normalized := by
  obtain ⟨hvalid, htoken⟩ := encodeInvite_eq_ok_iff.mp hencode
  obtain ⟨hvalid', htoken'⟩ := encodeInvite_eq_ok_iff.mp hother
  have hbytes : utf8Bytes (joinFields X payload) = utf8Bytes (joinFields X other) :=
    X.base58.toBase58_injective _ _ (htoken.symm.trans htoken')
  have hparse := parseBytes_joinFields (X := X) hcolon hvalid
  rw [hbytes, parseBytes_joinFields hcolon' hvalid'] at hparse
  exact Except.ok.inj hparse

/-- **`decode` gives back what `encode` accepted exactly if the address has no colon** and the
joined text fits the decoder of `base58`. -/
theorem decode_encode_iff (X : Crates) (hbase : X.base58.Buffered) {payload : InvitePayload}
    {token : String} (hencode : encodeInvite X payload = .ok token) :
    (∀ checks (clock : Int64), 0 ≤ clock.toInt →
      (payload.timestamp.toNat : ℤ) ≤ clock.toInt + 300 →
      (decodeInvite X checks token none (clockU64 clock) = some (.ok payload.normalized) ↔
        ':' ∉ payload.onionAddress.toList ∧
          (utf8Bytes (joinFields X payload)).length ≤ base58Buffer)) ∧
    ∀ other, encodeInvite X other = .ok token → ':' ∉ payload.onionAddress.toList →
      ':' ∉ other.onionAddress.toList → other.normalized = payload.normalized := by
  constructor
  · intro checks clock hclock hskew
    constructor
    · intro hdecode
      have hparse := parseInvite_of_decodeInvite hdecode
      have hcolon : ':' ∉ payload.normalized.onionAddress.toList :=
        colon_notMem_of_parseInvite hparse
      refine ⟨hcolon, ?_⟩
      by_contra hlong
      exact parseInvite_of_oversized hbase hencode (Nat.not_le.mp hlong) _ hparse
    · rintro ⟨hcolon, hlen⟩
      have hparse := parseInvite_encodeInvite hcolon (Base58.reads_of_length_le hlen) hencode
      exact decodeInvite_none hclock hparse hskew
  · intro other hother hcolon hcolon'
    exact normalized_of_token_eq hencode hother hcolon hcolon'

theorem decode_encode_iff_thousand :
    ∃ token, encodeInvite .standard someInvite = .ok token ∧
      decodeInvite .standard true token none (clockU64 1100) =
        some (.ok someInvite.normalized) := by
  obtain ⟨token, hencode, -⟩ := exists_someToken .standard
  refine ⟨token, hencode, ?_⟩
  exact ((decode_encode_iff .standard Crates.standard_buffered hencode).1 true 1100 (by decide)
    (by decide)).mpr ⟨by decide +kernel, by decide +kernel⟩

/-! ### Payloads that do not come back -/

/-- An address that is long enough and ends as an address does, with a colon in front of that. -/
def colonOnion : String := String.ofList (List.replicate 55 'a') ++ ":.onion"

/-- An invite to it. -/
def colonInvite : InvitePayload := { someInvite with onionAddress := colonOnion }

/-- An invite with a name of forty letters: its text has 141 bytes. -/
def wordyInvite : InvitePayload :=
  { someInvite with suggestedName := some (String.ofList (List.replicate 40 'a')) }

/-- An invite to an address that holds the first three fields of another invite. -/
def nestedInvite : InvitePayload :=
  { someInvite with
    onionAddress := someOnion ++ ":" ++ Hex.standard.encode (List.replicate 16 1) ++
      ":1000:.onion" }

/-- The invite whose fields these are. -/
def namedInvite : InvitePayload :=
  { someInvite with
    suggestedName := some (".onion:" ++ Hex.standard.encode (List.replicate 16 1) ++ ":1000:") }

/-- `encode` accepts a colon in the address and a name of any length, and `decode` refuses the
codes; and there are two payloads that `encode` gives one token. -/
theorem invite_not_given_back :
    ¬ (∀ payload token, encodeInvite .standard payload = .ok token →
      ∀ checks (clock : Int64), 0 ≤ clock.toInt →
        (payload.timestamp.toNat : ℤ) ≤ clock.toInt + 300 →
        decodeInvite .standard checks token none (clockU64 clock) =
          some (.ok payload.normalized)) ∧
    (∃ token, encodeInvite .standard colonInvite = .ok token ∧
      decodeInvite .standard true token none (clockU64 1100) =
        some (.error (.invalidInvite "address must end with .onion"))) ∧
    (∃ token, encodeInvite .standard wordyInvite = .ok token ∧
      decodeInvite .standard true token none (clockU64 1100) =
        some (.error (.invalidInvite "bad base58: InvalidBase58Length"))) ∧
    ∃ token, encodeInvite .standard nestedInvite = .ok token ∧
      encodeInvite .standard namedInvite = .ok token ∧
      nestedInvite.normalized ≠ namedInvite.normalized := by
  have hcolon := encodeInvite_of_valid .standard colonInvite (by decide +kernel)
  have hwordy := encodeInvite_of_valid .standard wordyInvite (by decide +kernel)
  have hnested := encodeInvite_of_valid .standard nestedInvite (by decide +kernel)
  have hnamed := encodeInvite_of_valid .standard namedInvite (by decide +kernel)
  have hparse : parseBytes .standard (utf8Bytes (joinFields .standard colonInvite)) =
      .error (.invalidInvite "address must end with .onion") := by decide +kernel
  -- the joined text has 141 bytes
  have hlength : Base58.buffered (utf8Bytes (joinFields .standard wordyInvite)) =
      some (.error "InvalidBase58Length") := by decide +kernel
  -- the address of the one holds the fields of the other, colons included
  have hjoined : joinFields .standard namedInvite = joinFields .standard nestedInvite := by
    decide +kernel
  have hrefused : parseInvite .standard _ = some (.error (.invalidInvite _)) :=
    (parseInvite_of_reads (Base58.reads_of_length_le (by decide +kernel)) hcolon).trans
      (congrArg some hparse)
  refine ⟨fun hall => ?_, ⟨_, hcolon, decodeInvite_of_refused hrefused⟩,
    ⟨_, hwordy, decodeInvite_of_refused ?_⟩, _, hnested, ?_, by decide +kernel⟩
  · have hdecode := hall colonInvite _ hcolon true 1100 (by decide) (by decide)
    rw [decodeInvite_of_refused hrefused] at hdecode
    cases hdecode
  · rw [parseInvite_of_encodeInvite hwordy, Crates.standard_buffered, hlength]
    rfl
  · rw [← hjoined]
    exact hnamed

end Nullpipe

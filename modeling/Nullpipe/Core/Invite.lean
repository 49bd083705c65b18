import Nullpipe.Core.Crates
import Mathlib.Tactic.Common

/-!
# Invite codes

`invite.rs`: an invite code is the base58 text of `address:nonce_hex:timestamp:name`.
Encoding validates the address; decoding cuts the text at its first three colons, checks each
field, and then holds the timestamp against the clock.

`decode` is one function in the source.  Here it is three, since most results are about one
part only.

* `parseBytes` is what happens inside the token, on the bytes that base58 gives back.
* `parseInvite` is all that comes before the clock.  It adds the base58 decoder, which may
  panic: that is the outcome `none`.
* `decodeInvite` is the whole, with the two comparisons of `checkWindow`.

Additions on `u64` are unchecked in the source: they panic in a build with overflow checks and
wrap in one without.  `checks` says which build is meant, and `none` is again the panic.

Two things stand between a code and what it was made from.  A colon in the address moves the
cuts (`splitn_joinFields` asks that there is none), and a text that is longer than the buffer
of the decoder does not come back at all (`parseInvite_of_oversized`).  Where neither is the
case, parsing inverts encoding (`parseInvite_encodeInvite`).  For the addresses Tor displays
there is no colon, and the bound is 35 bytes for the timestamp and the name together
(`IsOnionV3.fits_iff`).
-/

namespace Nullpipe

/-- Internal payload for an invite code. -/
structure InvitePayload where
  onionAddress : String
  nonce : Bytes16
  timestamp : UInt64
  suggestedName : Option String
  deriving DecidableEq

/-- `validate_address`: the `.onion` suffix, and at least 56 bytes before it. -/
def validateAddress (addr : String) : Except ChatError Unit :=
  if ¬ (".onion".toList <:+ addr.toList) then
    .error (.invalidInvite "address must end with .onion")
  else if addr.utf8ByteSize < 56 + ".onion".utf8ByteSize then
    .error (.invalidInvite ("address too short (" ++ toString addr.utf8ByteSize ++ " chars)"))
  else
    .ok ()

/-- The text that is base58-encoded. -/
def joinFields (X : Crates) (payload : InvitePayload) : String :=
  payload.onionAddress ++ ":" ++ X.hex.encode payload.nonce.val ++ ":" ++
    toString payload.timestamp.toNat ++ ":" ++ payload.suggestedName.getD ""

/-- `invite::encode`. -/
def encodeInvite (X : Crates) (payload : InvitePayload) : Except ChatError String :=
  match validateAddress payload.onionAddress with
  | .error e => .error e
  | .ok () => .ok (X.base58.toBase58 (utf8Bytes (joinFields X payload)))

/-- `str::splitn`: at most `n` parts, the last one uncut. -/
def splitn : ℕ → Char → List Char → List (List Char)
  | 0, _, _ => []
  | 1, _, text => [text]
  | n + 2, sep, text =>
    match text.dropWhile (· ≠ sep) with
    | [] => [text]
    | _ :: rest => text.takeWhile (· ≠ sep) :: splitn (n + 1) sep rest

/-- The text without one leading plus sign. -/
def dropPlus : List Char → List Char
  | '+' :: rest => rest
  | text => text

/-- `str::parse::<u64>`: an optional plus sign and at least one decimal digit,
below `2 ^ 64`. -/
def parseU64 (text : List Char) : Option UInt64 :=
  let digits := dropPlus text
  if digits ≠ [] ∧ digits.all Char.isDigit = true ∧ Nat.ofDigitChars 10 digits 0 < 2 ^ 64 then
    some (UInt64.ofNat (Nat.ofDigitChars 10 digits 0))
  else
    none

/-- `invite::decode` on the bytes inside the token, up to the clock. -/
def parseBytes (X : Crates) (bytes : List UInt8) : Except ChatError InvitePayload :=
  match fromUtf8? bytes with
  | none => .error (.invalidInvite "not valid UTF-8")
  | some text =>
    match splitn 4 ':' text.toList with
    | addr :: hexNonce :: ts :: name =>
      let onionAddress := String.ofList addr
      match validateAddress onionAddress with
      | .error e => .error e
      | .ok () =>
        match X.hex.decode (String.ofList hexNonce) with
        | .error _ => .error (.invalidInvite "nonce is not valid hex")
        | .ok nonce =>
          if hlen : nonce.length = 16 then
            match parseU64 ts with
            | none => .error (.invalidInvite "timestamp is not a valid u64")
            | some timestamp =>
              let suggestedName := match name with
                | [] => none
                | name :: _ => if name = [] then none else some (String.ofList name)
              .ok ⟨onionAddress, ⟨nonce, hlen⟩, timestamp, suggestedName⟩
          else
            .error (.invalidInvite
              ("nonce must be 16 bytes, got " ++ toString nonce.length))
    | _ => .error (.invalidInvite "expected three or four colon-separated fields")

/-- The checks `invite::decode` makes before it reads the clock; where the base58 decoder
panics, so does it. -/
def parseInvite (X : Crates) (token : String) : Option (Except ChatError InvitePayload) :=
  if token = "" then
    some (.error (.invalidInvite "empty token"))
  else
    match X.base58.fromBase58 token with
    | none => none
    | some (.error e) => some (.error (.invalidInvite ("bad base58: " ++ e)))
    | some (.ok bytes) => some (parseBytes X bytes)

/-- `a + b` on `u64`: `none` is the overflow panic. -/
def addU64 (checks : Bool) (a b : UInt64) : Option UInt64 :=
  if checks = true ∧ 2 ^ 64 ≤ a.toNat + b.toNat then none else some (a + b)

/-- The two comparisons of `invite::decode` with the clock: 300 s of skew into
the future, and the expiry after `ttl` seconds, where a `ttl` of zero means none. -/
def checkWindow (checks : Bool) (ttl : Option UInt64) (now timestamp : UInt64) :
    Option (Except ChatError Unit) :=
  match addU64 checks now 300 with
  | none => none
  | some latest =>
    if latest < timestamp then
      some (.error (.invalidInvite ("timestamp " ++ toString timestamp.toNat ++
        " is too far in the future (now " ++ toString now.toNat ++ ")")))
    else
      match ttl with
      | none => some (.ok ())
      | some ttl =>
        if 0 < ttl then
          match addU64 checks timestamp ttl with
          | none => none
          | some expiry =>
            if expiry < now then some (.error (.inviteExpired timestamp)) else some (.ok ())
        else some (.ok ())

/-- `invite::decode` at the clock reading `now`. -/
def decodeInvite (X : Crates) (checks : Bool) (token : String) (ttl : Option UInt64)
    (now : UInt64) : Option (Except ChatError InvitePayload) :=
  match parseInvite X token with
  | none => none
  | some (.error e) => some (.error e)
  | some (.ok payload) =>
    match checkWindow checks ttl now payload.timestamp with
    | none => none
    | some (.error e) => some (.error e)
    | some (.ok ()) => some (.ok payload)

/-! ## Fields and separators -/

theorem splitn_cons {n : ℕ} {sep : Char} {field rest : List Char} (hfield : sep ∉ field) :
    splitn (n + 2) sep (field ++ sep :: rest) = field :: splitn (n + 1) sep rest := by
  have hall : ∀ c ∈ field, (decide (c ≠ sep)) = true := fun c hc => by
    have hne : c ≠ sep := fun heq => hfield (heq ▸ hc)
    exact decide_eq_true hne
  have hdrop : (field ++ sep :: rest).dropWhile (· ≠ sep) = sep :: rest := by
    rw [List.dropWhile_append_of_pos hall, List.dropWhile_cons_of_neg (by simp)]
  have htake : (field ++ sep :: rest).takeWhile (· ≠ sep) = field := by
    rw [List.takeWhile_append_of_pos hall, List.takeWhile_cons_of_neg (by simp), List.append_nil]
  rw [splitn, hdrop]
  simp only [htake]

theorem parseU64_toDigits (n : UInt64) : parseU64 (Nat.toDigits 10 n.toNat) = some n := by
  have hdigits : ∀ c ∈ Nat.toDigits 10 n.toNat, c.isDigit = true := fun c hc =>
    Nat.isDigit_of_mem_toDigits (by decide) (by decide) hc
  have hsign : dropPlus (Nat.toDigits 10 n.toNat) = Nat.toDigits 10 n.toNat := by
    unfold dropPlus
    split
    · rename_i rest heq
      have hplus := hdigits '+' (by rw [heq]; exact List.mem_cons_self ..)
      cases hplus
    · rfl
  have hvalue : Nat.ofDigitChars 10 (Nat.toDigits 10 n.toNat) 0 = n.toNat :=
    Nat.ofDigitChars_ten_toDigits
  rw [parseU64]
  simp only [hsign, hvalue]
  rw [if_pos ⟨Nat.toDigits_ne_nil, List.all_eq_true.mpr hdigits, n.toNat_lt⟩, UInt64.ofNat_toNat]

private theorem colon_notMem {text : List Char} (h : ∀ c ∈ text, c.isAlphanum = true) :
    ':' ∉ text := fun hmem => by
  have hcolon := h ':' hmem
  cases hcolon

/-- The payload as `decode` returns it: an empty suggested name counts as none. -/
def InvitePayload.normalized (payload : InvitePayload) : InvitePayload :=
  { payload with suggestedName := payload.suggestedName.filter (· ≠ "") }

theorem toList_joinFields (X : Crates) (payload : InvitePayload) :
    (joinFields X payload).toList =
      payload.onionAddress.toList ++ ':' :: ((X.hex.encode payload.nonce.val).toList ++
        ':' :: (Nat.toDigits 10 payload.timestamp.toNat ++
          ':' :: (payload.suggestedName.getD "").toList)) := by
  simp [joinFields, String.toList_append, Nat.toList_repr, Nat.toString_eq_repr]

/-- The three cuts of the decoder are those of the encoder, if the address has no colon. -/
theorem splitn_joinFields {X : Crates} {payload : InvitePayload}
    (hcolon : ':' ∉ payload.onionAddress.toList) :
    splitn 4 ':' (joinFields X payload).toList =
      [payload.onionAddress.toList, (X.hex.encode payload.nonce.val).toList,
        Nat.toDigits 10 payload.timestamp.toNat, (payload.suggestedName.getD "").toList] := by
  have hts : ':' ∉ Nat.toDigits 10 payload.timestamp.toNat := by
    intro hmem
    have hdigit := Nat.isDigit_of_mem_toDigits (by decide) (by decide) hmem
    cases hdigit
  rw [toList_joinFields, splitn_cons hcolon,
    splitn_cons (colon_notMem (X.hex.isAlphanum_of_mem payload.nonce.val)), splitn_cons hts]
  rfl

/-- The bytes of a code in front of base58: 35 of them are the nonce and the colons. -/
theorem length_joinFields (X : Crates) (payload : InvitePayload) :
    (utf8Bytes (joinFields X payload)).length =
      payload.onionAddress.utf8ByteSize + (Nat.toDigits 10 payload.timestamp.toNat).length +
        (payload.suggestedName.getD "").utf8ByteSize + 35 := by
  have hhex : (X.hex.encode payload.nonce.val).utf8ByteSize = 32 := by
    rw [← length_utf8Bytes, length_utf8Bytes_of_isAlphanum (X.hex.isAlphanum_of_mem _),
      X.hex.length_encode, payload.nonce.property]
  have hts : (toString payload.timestamp.toNat).utf8ByteSize =
      (Nat.toDigits 10 payload.timestamp.toNat).length := by
    rw [← length_utf8Bytes, length_utf8Bytes_of_isAlphanum]
    · rw [Nat.toString_eq_repr, Nat.toList_repr]
    · intro c hc
      rw [Nat.toString_eq_repr, Nat.toList_repr] at hc
      have hdigit := Nat.isDigit_of_mem_toDigits (by decide) (by decide) hc
      simp [Char.isAlphanum, hdigit]
  have hcolon : (":" : String).utf8ByteSize = 1 := rfl
  rw [length_utf8Bytes]
  simp only [joinFields, String.utf8ByteSize_append, hhex, hts, hcolon]
  omega

/-- The code that `encode` makes. -/
theorem encodeInvite_eq_ok_iff {X : Crates} {payload : InvitePayload} {token : String} :
    encodeInvite X payload = .ok token ↔
      validateAddress payload.onionAddress = .ok () ∧
        token = X.base58.toBase58 (utf8Bytes (joinFields X payload)) := by
  unfold encodeInvite
  split
  · rename_i e hvalid
    simp [hvalid]
  · rename_i hvalid
    simp [hvalid, eq_comm]

theorem encodeInvite_of_valid (X : Crates) (payload : InvitePayload)
    (hvalid : validateAddress payload.onionAddress = .ok ()) :
    encodeInvite X payload = .ok (X.base58.toBase58 (utf8Bytes (joinFields X payload))) :=
  encodeInvite_eq_ok_iff.mpr ⟨hvalid, rfl⟩

theorem parseBytes_joinFields {X : Crates} {payload : InvitePayload}
    (hcolon : ':' ∉ payload.onionAddress.toList)
    (hvalid : validateAddress payload.onionAddress = .ok ()) :
    parseBytes X (utf8Bytes (joinFields X payload)) = .ok payload.normalized := by
  unfold parseBytes
  simp only [fromUtf8?_utf8Bytes, splitn_joinFields hcolon, String.ofList_toList, hvalid,
    X.hex.decode_encode, payload.nonce.property, dif_pos, parseU64_toDigits]
  have hname : (if (payload.suggestedName.getD "").toList = [] then none
      else some (payload.suggestedName.getD "")) = payload.suggestedName.filter (· ≠ "") := by
    cases payload.suggestedName with
    | none => rfl
    | some name => by_cases hempty : name = "" <;> simp [hempty, Option.filter]
  rw [hname]
  rfl

/-- What the parser makes of a code is what it makes of the bytes that base58 gives back. -/
theorem parseInvite_of_encodeInvite {X : Crates} {payload : InvitePayload} {token : String}
    (hencode : encodeInvite X payload = .ok token) :
    parseInvite X token =
      match X.base58.fromBase58 (X.base58.toBase58 (utf8Bytes (joinFields X payload))) with
      | none => none
      | some (.error e) => some (.error (.invalidInvite ("bad base58: " ++ e)))
      | some (.ok bytes) => some (parseBytes X bytes) := by
  obtain ⟨-, htoken⟩ := encodeInvite_eq_ok_iff.mp hencode
  have hne : token ≠ "" := by
    rw [htoken]
    apply X.base58.toBase58_ne_empty
    intro hnil
    have hlen := length_joinFields X payload
    rw [hnil, List.length_nil] at hlen
    omega
  rw [parseInvite, if_neg hne, htoken]

theorem parseInvite_of_reads {X : Crates} {payload : InvitePayload} {token : String}
    (hreads : X.base58.Reads (utf8Bytes (joinFields X payload)))
    (hencode : encodeInvite X payload = .ok token) :
    parseInvite X token = some (parseBytes X (utf8Bytes (joinFields X payload))) := by
  rw [parseInvite_of_encodeInvite hencode, show X.base58.fromBase58 _ = _ from hreads]

/-- **Parsing inverts encoding** for addresses without a colon, as Tor displays them, and
texts that base58 gives back. -/
theorem parseInvite_encodeInvite {X : Crates} {payload : InvitePayload} {token : String}
    (hcolon : ':' ∉ payload.onionAddress.toList)
    (hreads : X.base58.Reads (utf8Bytes (joinFields X payload)))
    (hencode : encodeInvite X payload = .ok token) :
    parseInvite X token = some (.ok payload.normalized) := by
  obtain ⟨hvalid, -⟩ := encodeInvite_eq_ok_iff.mp hencode
  rw [parseInvite_of_reads hreads hencode, parseBytes_joinFields hcolon hvalid]

/-- A code whose text does not fit the decoder of `base58` does not parse. -/
theorem parseInvite_of_oversized {X : Crates} {payload : InvitePayload} {token : String}
    (hbase : X.base58.Buffered) (hencode : encodeInvite X payload = .ok token)
    (hlong : base58Buffer < (utf8Bytes (joinFields X payload)).length) (other : InvitePayload) :
    parseInvite X token ≠ some (.ok other) := by
  rw [parseInvite_of_encodeInvite hencode]
  split
  · exact nofun
  · exact nofun
  · rename_i bytes hbytes
    exact absurd hbytes (hbase.ne_ok hlong bytes)

/-- The parser stops without a result exactly where the decoder of `base58` does. -/
theorem parseInvite_eq_none_iff {X : Crates} {token : String} :
    parseInvite X token = none ↔ token ≠ "" ∧ X.base58.fromBase58 token = none := by
  unfold parseInvite
  split
  · rename_i hempty
    simp [hempty]
  · rename_i hne
    split
    · rename_i hpanic
      simp [hne, hpanic]
    · rename_i hbase
      simp [hbase]
    · rename_i hbase
      simp [hbase]

theorem parseInvite_of_decodeInvite {X : Crates} {checks : Bool} {token : String}
    {payload : InvitePayload} {ttl : Option UInt64} {now : UInt64}
    (h : decodeInvite X checks token ttl now = some (.ok payload)) :
    parseInvite X token = some (.ok payload) := by
  rw [decodeInvite] at h
  split at h
  · cases h
  · cases h
  · rename_i parsed hparse
    rw [hparse]
    split at h
    · cases h
    · cases h
    · exact h

/-- `decode` passes on what the parser says is wrong. -/
theorem decodeInvite_of_refused {X : Crates} {checks : Bool} {token : String} {e : ChatError}
    {ttl : Option UInt64} {now : UInt64} (h : parseInvite X token = some (.error e)) :
    decodeInvite X checks token ttl now = some (.error e) := by
  rw [decodeInvite, h]

/-! ## Addresses and clocks -/

/-- A v3 onion address as Tor displays it: 56 base32 characters and the suffix. -/
def IsOnionV3 (addr : String) : Prop :=
  ∃ host : List Char, host.length = 56 ∧
    (∀ c ∈ host, c.isLower = true ∨ c ∈ ['2', '3', '4', '5', '6', '7']) ∧
    addr.toList = host ++ ".onion".toList

theorem IsOnionV3.colon_notMem {addr : String} (h : IsOnionV3 addr) : ':' ∉ addr.toList := by
  obtain ⟨host, -, hchars, haddr⟩ := h
  rw [haddr]
  intro hmem
  rcases List.mem_append.mp hmem with hhost | hsuffix
  · rcases hchars ':' hhost with hlower | hdigit
    · cases hlower
    · simp at hdigit
  · simp at hsuffix

theorem IsOnionV3.utf8ByteSize {addr : String} (h : IsOnionV3 addr) : addr.utf8ByteSize = 62 := by
  obtain ⟨host, hlen, hchars, haddr⟩ := h
  have hsplit : addr = String.ofList host ++ ".onion" := by
    rw [← String.toList_inj, haddr, String.toList_append]
    exact congrArg (· ++ ".onion".toList) String.toList_ofList.symm
  have halnum : ∀ c ∈ (String.ofList host).toList, c.isAlphanum = true := by
    intro c hc
    rw [String.toList_ofList] at hc
    rcases hchars c hc with hlower | hdigit
    · show (c.isUpper || c.isLower || c.isDigit) = true
      rw [hlower, Bool.or_true, Bool.true_or]
    · have hdigits : ['2', '3', '4', '5', '6', '7'].all Char.isAlphanum = true := by decide
      exact List.all_eq_true.mp hdigits c hdigit
  have hhost := length_utf8Bytes_of_isAlphanum halnum
  rw [length_utf8Bytes, String.toList_ofList, hlen] at hhost
  rw [hsplit, String.utf8ByteSize_append, hhost]
  rfl

theorem IsOnionV3.validateAddress {addr : String} (h : IsOnionV3 addr) :
    validateAddress addr = .ok () := by
  have hbytes := h.utf8ByteSize
  have hleast : 56 + ".onion".utf8ByteSize = 62 := rfl
  obtain ⟨host, -, -, haddr⟩ := h
  have hsuffix : ".onion".toList <:+ addr.toList := haddr ▸ List.suffix_append ..
  rw [Nullpipe.validateAddress, if_neg (not_not_intro hsuffix), if_neg (by omega)]

/-- In figures: the timestamp and the name of an invite to such an address may have 35 bytes. -/
theorem IsOnionV3.fits_iff (X : Crates) {payload : InvitePayload}
    (h : IsOnionV3 payload.onionAddress) :
    (utf8Bytes (joinFields X payload)).length ≤ base58Buffer ↔
      (Nat.toDigits 10 payload.timestamp.toNat).length +
        (payload.suggestedName.getD "").utf8ByteSize ≤ 35 := by
  have hbuffer : base58Buffer = 132 := rfl
  rw [length_joinFields, h.utf8ByteSize]
  omega

/-- A sum that fits is neither a panic nor wrapped. -/
theorem addU64_eq_some (checks : Bool) {a b : UInt64} (h : a.toNat + b.toNat < 2 ^ 64) :
    addU64 checks a b = some (a + b) ∧ (a + b).toNat = a.toNat + b.toNat := by
  refine ⟨if_neg fun hover => ?_, ?_⟩
  · have hbig := hover.2
    omega
  · rw [UInt64.toNat_add, Nat.mod_eq_of_lt h]

/-- No addition of `decode` overflows on a clock that `timestamp() as u64` can read. -/
theorem checkWindow_ne_none (checks : Bool) {now issued : UInt64} (hclock : now.toNat < 2 ^ 63) :
    checkWindow checks (some 300) now issued ≠ none := by
  have hthree : (300 : UInt64).toNat = 300 := rfl
  obtain ⟨hlatest, hlatestNat⟩ := addU64_eq_some checks (a := now) (b := 300) (by omega)
  rw [checkWindow, hlatest]
  dsimp only
  split
  · exact nofun
  · rename_i hpast
    rw [UInt64.lt_iff_toNat_lt, hlatestNat] at hpast
    obtain ⟨hexpiry, -⟩ := addU64_eq_some checks (a := issued) (b := 300) (by omega)
    simp only [hexpiry]
    split
    · split <;> exact nofun
    · exact nofun

/-- No sum of `decode` overflows on such a clock: what is left is a panic of the decoder of
`base58`. -/
theorem decodeInvite_eq_none_iff {X : Crates} (checks : Bool) {token : String} {now : UInt64}
    (hnow : now.toNat < 2 ^ 63) :
    decodeInvite X checks token (some 300) now = none ↔
      token ≠ "" ∧ X.base58.fromBase58 token = none := by
  rw [← parseInvite_eq_none_iff, decodeInvite]
  rcases hparse : parseInvite X token with _ | e | payload
  · simp
  · simp
  · have hwindow : checkWindow checks (some 300) now payload.timestamp ≠ none :=
      checkWindow_ne_none checks hnow
    dsimp only
    split
    · contradiction
    · simp
    · simp

/-- **The comparisons are those of the numbers** once the code is not from the future, on any
clock that `timestamp() as u64` can read: neither addition overflows. -/
theorem checkWindow_of_early (checks : Bool) {now issued : UInt64} (hclock : now.toNat < 2 ^ 63)
    (hearly : issued.toNat ≤ now.toNat + 300) :
    checkWindow checks (some 300) now issued =
      some (if issued.toNat + 300 < now.toNat then .error (.inviteExpired issued) else .ok ()) := by
  have hthree : (300 : UInt64).toNat = 300 := rfl
  obtain ⟨hlatest, hlatestNat⟩ := addU64_eq_some checks (a := now) (b := 300) (by omega)
  obtain ⟨hexpiry, hexpiryNat⟩ := addU64_eq_some checks (a := issued) (b := 300) (by omega)
  have hfuture : ¬ now + 300 < issued := by
    rw [UInt64.lt_iff_toNat_lt, hlatestNat]
    omega
  have hexpired : issued + 300 < now ↔ issued.toNat + 300 < now.toNat := by
    rw [UInt64.lt_iff_toNat_lt, hexpiryNat, hthree]
  rw [checkWindow, hlatest]
  simp only [if_neg hfuture, hexpiry, hexpired]
  by_cases hlate : issued.toNat + 300 < now.toNat
  · rw [if_pos hlate, if_pos hlate]
    rfl
  · rw [if_neg hlate, if_neg hlate]
    rfl

/-- **Both comparisons pass** within 300 s of the issue. -/
theorem checkWindow_eq_ok (checks : Bool) {now issued : UInt64} (hclock : now.toNat < 2 ^ 63)
    (hearly : issued.toNat ≤ now.toNat + 300) (hlate : now.toNat ≤ issued.toNat + 300) :
    checkWindow checks (some 300) now issued = some (.ok ()) := by
  rw [checkWindow_of_early checks hclock hearly, if_neg (Nat.not_lt.2 hlate)]

/-- **The second comparison fails** more than 300 s after the issue. -/
theorem checkWindow_expired (checks : Bool) {now issued : UInt64} (hclock : now.toNat < 2 ^ 63)
    (hlate : issued.toNat + 300 < now.toNat) :
    checkWindow checks (some 300) now issued = some (.error (.inviteExpired issued)) := by
  rw [checkWindow_of_early checks hclock (by omega), if_pos hlate]

end Nullpipe

import Nullpipe.Core.Standard
import Nullpipe.Core.Invite

/-!
# The window of an invite

`invite::decode` reads the clock as `Utc::now().timestamp() as u64`: a clock before 1970 comes
out just below `2 ^ 64`.  It then adds 300 to it, and the lifetime to the timestamp, without
looking whether the sums fit.  `InWord` says when they do, and then the two comparisons are
those of the integers (`checkWindow_of_inWord`).  Where a sum does not fit, a build that checks
panics (`checkWindow_of_not_inWord`); one that wraps compares with the wrong number.

`ExpiresExactly` is what one would expect of a lifetime, in either build: `decode` returns, and
it reports an expiry where the integers give one.  `expiry_exact_iff` says that this is so
exactly where nothing overflows.  One direction is the comparisons above; for the other it is
enough to look at the build that checks, since it panics.  That a longer lifetime keeps what a
shorter one lets in is said beside it, of sums that fit (`decodeInvite_mono`).

The two ways a sum may fail to fit are not alike.  A lifetime of nearly `2 ^ 64` seconds is a
value a caller can pass.  A clock before 1970 is one the cast is defined on, but `Utc::now`
does not return there, so that clause is about the arithmetic and not about a run.
-/

namespace Nullpipe

variable {X : Crates} {checks : Bool} {token : String} {payload : InvitePayload}
  {ttl now issued : UInt64}

/-! ## The clock -/

/-- `clock as u64`, for a clock in seconds.  The cast is defined on all of `i64`, and the
results below are about all of it; but `Utc::now` panics on a system clock before 1970, so
that no negative reading gets here. -/
def clockU64 (clock : Int64) : UInt64 := clock.toUInt64

theorem toInt_clock (clock : Int64) :
    (clock.toInt = (clockU64 clock).toNat ∧ (clockU64 clock).toNat < 2 ^ 63) ∨
      (clock.toInt = (clockU64 clock).toNat - 2 ^ 64 ∧ 2 ^ 63 ≤ (clockU64 clock).toNat) := by
  have hcond := BitVec.toInt_eq_toNat_cond clock.toBitVec
  have hint : clock.toInt = clock.toBitVec.toInt := rfl
  have hnat : (clockU64 clock).toNat = clock.toBitVec.toNat := rfl
  rw [hint, hnat, hcond]
  split
  · left
    constructor
    · rfl
    · omega
  · right
    constructor
    · rfl
    · omega

/-- A clock that overflows when 300 s are added stands within 300 s before 1970. -/
theorem clock_overflows_iff (clock : Int64) :
    2 ^ 64 ≤ (clockU64 clock).toNat + 300 ↔ -300 ≤ clock.toInt ∧ clock.toInt < 0 := by
  have hlt := (clockU64 clock).toNat_lt
  rcases toInt_clock clock with ⟨hint, hnat⟩ | ⟨hint, hnat⟩
  · omega
  · omega

/-! ## Sums that fit -/

/-- Neither sum of `decode` overflows: 300 s from now, and, where it is looked at, the end of
a lifetime of `ttl` seconds. -/
def InWord (ttl now issued : UInt64) : Prop :=
  now.toNat + 300 < 2 ^ 64 ∧
    (ttl = 0 ∨ now.toNat + 300 < issued.toNat ∨ issued.toNat + ttl.toNat < 2 ^ 64)

instance (ttl now issued : UInt64) : Decidable (InWord ttl now issued) :=
  inferInstanceAs (Decidable (_ ∧ _))

/-- The comparisons of `decode`, over the integers. -/
def Expired (ttl now issued : UInt64) : Prop :=
  0 < ttl.toNat ∧ issued.toNat ≤ now.toNat + 300 ∧ issued.toNat + ttl.toNat < now.toNat

instance (ttl now issued : UInt64) : Decidable (Expired ttl now issued) :=
  inferInstanceAs (Decidable (_ ∧ _ ∧ _))

theorem addU64_checked_eq_none {a b : UInt64} :
    addU64 true a b = none ↔ 2 ^ 64 ≤ a.toNat + b.toNat := by
  unfold addU64
  constructor
  · intro h
    by_contra hfits
    rw [if_neg (by omega)] at h
    cases h
  · intro h
    rw [if_pos ⟨rfl, h⟩]

theorem ttl_pos_iff : 0 < ttl ↔ 0 < ttl.toNat := by
  rw [UInt64.lt_iff_toNat_lt]
  rfl

/-- The skew is looked at first. -/
theorem checkWindow_future (hnow : now.toNat + 300 < 2 ^ 64)
    (hfuture : now.toNat + 300 < issued.toNat) :
    checkWindow checks (some ttl) now issued =
      some (.error (.invalidInvite ("timestamp " ++ toString issued.toNat ++
        " is too far in the future (now " ++ toString now.toNat ++ ")"))) := by
  have hthree : (300 : UInt64).toNat = 300 := rfl
  obtain ⟨hlatest, hlatestNat⟩ := addU64_eq_some checks (a := now) (b := 300) (by omega)
  rw [checkWindow, hlatest]
  dsimp only
  rw [if_pos]
  rw [UInt64.lt_iff_toNat_lt, hlatestNat]
  omega

/-- **Where no sum overflows the comparisons are exact.** -/
theorem checkWindow_of_inWord (h : InWord ttl now issued)
    (hskew : issued.toNat ≤ now.toNat + 300) :
    checkWindow checks (some ttl) now issued =
      if Expired ttl now issued then some (.error (.inviteExpired issued)) else some (.ok ()) := by
  obtain ⟨hnow, hend⟩ := h
  have hthree : (300 : UInt64).toNat = 300 := rfl
  obtain ⟨hlatest, hlatestNat⟩ := addU64_eq_some checks (a := now) (b := 300) (by omega)
  have hfuture : ¬ now + 300 < issued := by
    rw [UInt64.lt_iff_toNat_lt, hlatestNat]
    omega
  rw [checkWindow, hlatest]
  simp only [if_neg hfuture]
  by_cases hpos : 0 < ttl
  · have hposNat : 0 < ttl.toNat := ttl_pos_iff.mp hpos
    have hfits : issued.toNat + ttl.toNat < 2 ^ 64 := by
      rcases hend with hzero | hlate | hfits
      · rw [hzero] at hposNat
        cases hposNat
      · omega
      · exact hfits
    obtain ⟨hexpiry, hexpiryNat⟩ := addU64_eq_some checks hfits
    have hiff : issued + ttl < now ↔ Expired ttl now issued := by
      rw [UInt64.lt_iff_toNat_lt, hexpiryNat]
      exact ⟨fun hlate => ⟨hposNat, hskew, hlate⟩, fun hexpired => hexpired.2.2⟩
    simp only [if_pos hpos, hexpiry, hiff]
  · have hnot : ¬ Expired ttl now issued := fun hexpired => hpos (ttl_pos_iff.mpr hexpired.1)
    rw [if_neg hpos, if_neg hnot]

/-- An overflow is a panic in a build that checks. -/
theorem checkWindow_of_not_inWord (h : ¬ InWord ttl now issued) :
    checkWindow true (some ttl) now issued = none := by
  have hthree : (300 : UInt64).toNat = 300 := rfl
  by_cases hnow : now.toNat + 300 < 2 ^ 64
  · have hend : ttl ≠ 0 ∧ issued.toNat ≤ now.toNat + 300 ∧ 2 ^ 64 ≤ issued.toNat + ttl.toNat := by
      refine ⟨fun hzero => h ⟨hnow, .inl hzero⟩, ?_, ?_⟩
      · by_contra hlate
        exact h ⟨hnow, .inr (.inl (by omega))⟩
      · by_contra hfits
        exact h ⟨hnow, .inr (.inr (by omega))⟩
    obtain ⟨hne, hskew, hover⟩ := hend
    obtain ⟨hlatest, hlatestNat⟩ := addU64_eq_some true (a := now) (b := 300) (by omega)
    have hfuture : ¬ now + 300 < issued := by
      rw [UInt64.lt_iff_toNat_lt, hlatestNat]
      omega
    have hpos : 0 < ttl := by
      refine ttl_pos_iff.mpr (Nat.pos_of_ne_zero fun hzero => hne ?_)
      exact UInt64.toNat_inj.mp hzero
    rw [checkWindow, hlatest]
    simp only [if_neg hfuture, if_pos hpos, addU64_checked_eq_none.mpr hover]
  · rw [checkWindow, addU64_checked_eq_none.mpr (by omega)]

/-! ## Expiry -/

/-- `decode` on a token whose text parses. -/
theorem decodeInvite_of_parse (htoken : parseInvite X token = some (.ok payload)) :
    decodeInvite X checks token (some ttl) now =
      match checkWindow checks (some ttl) now payload.timestamp with
      | none => none
      | some (.error e) => some (.error e)
      | some (.ok ()) => some (.ok payload) := by
  rcases hwindow : checkWindow checks (some ttl) now payload.timestamp with _ | (_ | ⟨⟩)
  all_goals simp only [decodeInvite, htoken, hwindow]

/-- `decode` neither panics nor wraps, and reports the expiry that the integers give. -/
def ExpiresExactly (X : Crates) (token : String) (payload : InvitePayload) (ttl now : UInt64) :
    Prop :=
  ∀ checks, decodeInvite X checks token (some ttl) now ≠ none ∧
    (decodeInvite X checks token (some ttl) now =
        some (.error (.inviteExpired payload.timestamp)) ↔ Expired ttl now payload.timestamp)

theorem expiresExactly_iff (htoken : parseInvite X token = some (.ok payload)) :
    ExpiresExactly X token payload ttl now ↔ InWord ttl now payload.timestamp := by
  constructor
  · intro hexact
    by_contra hover
    -- an overflow is a panic where sums are checked
    apply (hexact true).1
    rw [decodeInvite_of_parse htoken, checkWindow_of_not_inWord hover]
  · intro hword checks
    rw [decodeInvite_of_parse htoken]
    by_cases hskew : payload.timestamp.toNat ≤ now.toNat + 300
    · rw [checkWindow_of_inWord hword hskew]
      by_cases hexpired : Expired ttl now payload.timestamp
      · rw [if_pos hexpired]
        exact ⟨by simp, by simp [hexpired]⟩
      · rw [if_neg hexpired]
        exact ⟨by simp, by simp [hexpired]⟩
    · have hnot : ¬ Expired ttl now payload.timestamp := fun hexpired => hskew hexpired.2.1
      rw [checkWindow_future hword.1 (by omega)]
      exact ⟨by simp, by simp [hnot]⟩

/-- A longer lifetime keeps what a shorter one lets in. -/
theorem decodeInvite_mono {longer : UInt64} {p : InvitePayload}
    (htoken : parseInvite X token = some (.ok payload)) (hpos : 0 < ttl) (hle : ttl ≤ longer)
    (hword : InWord longer now payload.timestamp)
    (hok : decodeInvite X checks token (some ttl) now = some (.ok p)) :
    decodeInvite X checks token (some longer) now = some (.ok p) := by
  have hleNat : ttl.toNat ≤ longer.toNat := UInt64.le_iff_toNat_le.mp hle
  have hposNat := ttl_pos_iff.mp hpos
  rw [decodeInvite_of_parse htoken] at hok ⊢
  by_cases hskew : payload.timestamp.toNat ≤ now.toNat + 300
  -- the longer lifetime ends within the word, hence the shorter one does
  · have hfits : payload.timestamp.toNat + longer.toNat < 2 ^ 64 := by
      rcases hword.2 with hzero | hlate | hfits
      · have hlongNat : longer.toNat = 0 := congrArg UInt64.toNat hzero
        omega
      · omega
      · exact hfits
    have hword' : InWord ttl now payload.timestamp := ⟨hword.1, .inr (.inr (by omega))⟩
    rw [checkWindow_of_inWord hword' hskew] at hok
    rw [checkWindow_of_inWord hword hskew]
    have hnot : ¬ Expired ttl now payload.timestamp := by
      intro hexpired
      rw [if_pos hexpired] at hok
      cases hok
    have hnot' : ¬ Expired longer now payload.timestamp := by
      intro hexpired
      apply hnot
      refine ⟨hposNat, hskew, ?_⟩
      have hlate := hexpired.2.2
      omega
    rw [if_neg hnot] at hok
    rw [if_neg hnot']
    exact hok
  · rw [checkWindow_future hword.1 (by omega)] at hok
    cases hok

/-- **The expiry is exact exactly where nothing overflows:** the clock does not stand within
300 s before 1970, and a lifetime that is looked at ends within `2 ^ 64` seconds. -/
theorem expiry_exact_iff (X : Crates) {token : String} {payload : InvitePayload}
    (htoken : parseInvite X token = some (.ok payload)) (ttl : UInt64) (clock : Int64) :
    (ExpiresExactly X token payload ttl (clockU64 clock) ↔
      ¬ (-300 ≤ clock.toInt ∧ clock.toInt < 0) ∧
        (ttl = 0 ∨ (clockU64 clock).toNat + 300 < payload.timestamp.toNat ∨
          payload.timestamp.toNat + ttl.toNat < 2 ^ 64)) ∧
    ∀ longer, 0 < ttl → ttl ≤ longer → InWord longer (clockU64 clock) payload.timestamp →
      ∀ checks p, decodeInvite X checks token (some ttl) (clockU64 clock) = some (.ok p) →
        decodeInvite X checks token (some longer) (clockU64 clock) = some (.ok p) := by
  constructor
  · rw [expiresExactly_iff htoken, InWord, ← clock_overflows_iff clock, Nat.not_le]
  · intro longer hpos hle hword checks p hok
    exact decodeInvite_mono htoken hpos hle hword hok

/-! ### At the ends of the range -/

/-- An address as Tor displays them. -/
def someOnion : String := String.ofList (List.replicate 56 'a' ++ ".onion".toList)

/-- An invite of second 1000 to it. -/
def someInvite : InvitePayload := ⟨someOnion, ⟨List.replicate 16 1, rfl⟩, 1000, none⟩

theorem exists_someToken (X : Crates) :
    ∃ token, encodeInvite X someInvite = .ok token ∧
      parseInvite X token = some (.ok someInvite) := by
  have honion : IsOnionV3 someOnion :=
    ⟨List.replicate 56 'a', rfl, fun c hc => .inl (List.eq_of_mem_replicate hc ▸ rfl),
      String.toList_ofList⟩
  have hencode := encodeInvite_of_valid X someInvite honion.validateAddress
  have hcolon : ':' ∉ someInvite.onionAddress.toList := honion.colon_notMem
  have hlen : (utf8Bytes (joinFields X someInvite)).length ≤ base58Buffer := by
    rw [honion.fits_iff X]
    decide +kernel
  exact ⟨_, hencode, parseInvite_encodeInvite hcolon (Base58.reads_of_length_le hlen) hencode⟩

/-- It is good for 300 s. -/
theorem expiry_exact_iff_thousand :
    ∃ token, parseInvite .standard token = some (.ok someInvite) ∧
      ExpiresExactly .standard token someInvite 300 (clockU64 1100) := by
  obtain ⟨token, -, htoken⟩ := exists_someToken .standard
  exact ⟨token, htoken, (expiry_exact_iff .standard htoken 300 1100).1.mpr
    ⟨by decide, .inr (.inr (by decide))⟩⟩

/-- In a build that wraps, the longest lifetime ends before it begins; in one that checks it
panics, as would any lifetime a second before 1970, if the clock could read that. -/
theorem longest_ttl_expires :
    ¬ (∀ token payload ttl clock, parseInvite .standard token = some (.ok payload) →
      ExpiresExactly .standard token payload ttl (clockU64 clock)) ∧
    ∃ token, parseInvite .standard token = some (.ok someInvite) ∧
      decodeInvite .standard false token (some 300) (clockU64 1100) = some (.ok someInvite) ∧
      decodeInvite .standard false token (some 18446744073709551615) (clockU64 1100) =
        some (.error (.inviteExpired 1000)) ∧
      decodeInvite .standard true token (some 18446744073709551615) (clockU64 1100) = none ∧
      decodeInvite .standard true token (some 300) (clockU64 (-1)) = none := by
  obtain ⟨token, -, htoken⟩ := exists_someToken .standard
  refine ⟨fun hall => ?_, token, htoken, ?_, ?_, ?_, ?_⟩
  · have hexact := hall token someInvite 18446744073709551615 1100 htoken
    rw [expiresExactly_iff htoken] at hexact
    exact absurd hexact (by decide +kernel)
  · have hwindow : checkWindow false (some 300) (clockU64 1100) someInvite.timestamp =
        some (.ok ()) := by decide +kernel
    rw [decodeInvite_of_parse htoken, hwindow]
  · have hwindow : checkWindow false (some 18446744073709551615) (clockU64 1100)
        someInvite.timestamp = some (.error (.inviteExpired 1000)) := by decide +kernel
    rw [decodeInvite_of_parse htoken, hwindow]
  · rw [decodeInvite_of_parse htoken, checkWindow_of_not_inWord (by decide +kernel)]
  · rw [decodeInvite_of_parse htoken, checkWindow_of_not_inWord (by decide +kernel)]

end Nullpipe

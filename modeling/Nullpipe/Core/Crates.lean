import Nullpipe.Core.Types

/-!
# Third-party codecs

The code calls `serde_json`, `base58` and `hex`.  They are parameters of the
model: each structure holds the functions the code calls together with the
documented facts the code relies on.

* `SerdeJson` and `Hex` invert their own output, whatever its size.
* `Base58` does so up to `base58Buffer` bytes only.  Version 0.2, which the
  workspace asks for, decodes into an array of that size; `Base58.Buffered` says
  what becomes of a longer text, an error or a panic.  Results that need no more
  than the round trip of one text ask for `Base58.Reads`, which the standard
  encoding has for every text and the crate for those that fit
  (`Base58.reads_of_length_le`).
-/

namespace Nullpipe

/-- The UTF-8 bytes of a string, `str::as_bytes`. -/
def utf8Bytes (text : String) : List UInt8 := text.toByteArray.data.toList

/-- `String::from_utf8`. -/
def fromUtf8? (bytes : List UInt8) : Option String := String.fromUTF8? ⟨bytes.toArray⟩

/-- `std::str::from_utf8(..).is_ok()`. -/
def ValidUtf8 (bytes : List UInt8) : Prop := ByteArray.IsValidUTF8 ⟨bytes.toArray⟩

instance (bytes : List UInt8) : Decidable (ValidUtf8 bytes) :=
  inferInstanceAs (Decidable (ByteArray.IsValidUTF8 _))

theorem validUtf8_utf8Bytes (text : String) : ValidUtf8 (utf8Bytes text) :=
  text.isValidUTF8

@[simp] theorem fromUtf8?_utf8Bytes (text : String) : fromUtf8? (utf8Bytes text) = some text := by
  have hvalid : ByteArray.IsValidUTF8 ⟨(utf8Bytes text).toArray⟩ := text.isValidUTF8
  rw [fromUtf8?, String.fromUTF8?, dif_pos hvalid]
  rfl

/-- Every character takes at least one byte. -/
theorem length_le_utf8Bytes (text : String) : text.toList.length ≤ (utf8Bytes text).length := by
  have hbytes : text.toByteArray = text.toList.utf8Encode := String.utf8Encode_toList.symm
  rw [utf8Bytes, hbytes, List.utf8Encode]
  simp only [List.data_toByteArray, List.length_flatMap]
  induction text.toList with
  | nil => exact Nat.zero_le _
  | cons c cs ih =>
      have hpos := Char.utf8Size_pos c
      simp only [List.length_cons, List.map_cons, List.sum_cons, String.length_utf8EncodeChar]
        at ih ⊢
      omega

theorem length_utf8Bytes (text : String) : (utf8Bytes text).length = text.utf8ByteSize := rfl

theorem utf8Size_of_isAlphanum {c : Char} (h : c.isAlphanum = true) : c.utf8Size = 1 := by
  have hval : c.val ≤ 0x7f := by
    have hrange : (c.val ≥ 65 ∧ c.val ≤ 90 : Bool) || (c.val ≥ 97 && c.val ≤ 122) ||
        (c.val ≥ 48 && c.val ≤ 57) := h
    simp only [Bool.or_eq_true, Bool.and_eq_true, decide_eq_true_eq, UInt32.le_iff_toNat_le]
      at hrange ⊢
    simp at hrange ⊢
    omega
  exact if_pos hval

/-- Letters and digits take one byte each. -/
theorem length_utf8Bytes_of_isAlphanum {text : String}
    (h : ∀ c ∈ text.toList, c.isAlphanum = true) :
    (utf8Bytes text).length = text.toList.length := by
  have hbytes : text.toByteArray = text.toList.utf8Encode := String.utf8Encode_toList.symm
  rw [utf8Bytes, hbytes, List.utf8Encode]
  simp only [List.data_toByteArray, List.length_flatMap]
  generalize text.toList = chars at h ⊢
  induction chars with
  | nil => rfl
  | cons c cs ih =>
      have hone : c.utf8Size = 1 := utf8Size_of_isAlphanum (h c (List.mem_cons_self ..))
      have hrest := ih fun d hd => h d (List.mem_cons_of_mem _ hd)
      simp only [List.length_cons, List.map_cons, List.sum_cons, String.length_utf8EncodeChar,
        hone] at hrest ⊢
      omega

/-- `serde_json` on `WireMessage`: `from_slice` inverts `to_vec`, whose output is
UTF-8, and rejects the empty slice. -/
structure SerdeJson where
  toVec : WireMessage → List UInt8
  fromSlice : List UInt8 → Except String WireMessage
  fromSlice_toVec : ∀ msg, fromSlice (toVec msg) = .ok msg
  validUtf8_toVec : ∀ msg, ValidUtf8 (toVec msg)
  fromSlice_nil : ∃ e, fromSlice [] = .error e

theorem SerdeJson.toVec_ne_nil (json : SerdeJson) (msg : WireMessage) : json.toVec msg ≠ [] := by
  intro hnil
  obtain ⟨e, he⟩ := json.fromSlice_nil
  have hmsg := json.fromSlice_toVec msg
  rw [hnil, he] at hmsg
  cases hmsg

/-- The bytes the decoder of `base58` has room for. -/
def base58Buffer : ℕ := 132

/-- `base58`: encodings are texts over the base58 alphabet, which consists of ASCII letters
and digits, and different bytes have different encodings.  Decoding returns a result or
panics (`none`); it inverts encoding on the bytes it has room for. -/
structure Base58 where
  toBase58 : List UInt8 → String
  fromBase58 : String → Option (Except String (List UInt8))
  fromBase58_toBase58 : ∀ bytes, bytes.length ≤ base58Buffer →
    fromBase58 (toBase58 bytes) = some (.ok bytes)
  toBase58_injective : ∀ bytes bytes', toBase58 bytes = toBase58 bytes' → bytes = bytes'
  isAlphanum_of_mem : ∀ bytes, ∀ c ∈ (toBase58 bytes).toList, c.isAlphanum = true
  toBase58_ne_empty : ∀ bytes, bytes ≠ [] → toBase58 bytes ≠ ""

namespace Base58

variable {base58 : Base58} {bytes : List UInt8}

/-- These bytes come back.  With the standard encoding all of them do. -/
def Reads (base58 : Base58) (bytes : List UInt8) : Prop :=
  base58.fromBase58 (base58.toBase58 bytes) = some (.ok bytes)

theorem reads_of_length_le (h : bytes.length ≤ base58Buffer) : base58.Reads bytes :=
  base58.fromBase58_toBase58 bytes h

/-- What version 0.2 makes of the encoding of `bytes`.  It collects the number in its buffer,
and a number that is too large is an error.  Where the number fits and the leading zeros in
front of it do not, the count of the zeros to skip, `leading_zeros - zcount`, underflows. -/
def buffered (bytes : List UInt8) : Option (Except String (List UInt8)) :=
  if base58Buffer < (bytes.dropWhile (· = 0)).length then some (.error "InvalidBase58Length")
  else if base58Buffer < bytes.length then none
  else some (.ok bytes)

/-- The crate decodes every text that it can have written in this way. -/
def Buffered (base58 : Base58) : Prop :=
  ∀ bytes, base58.fromBase58 (base58.toBase58 bytes) = buffered bytes

theorem buffered_of_length_le (h : bytes.length ≤ base58Buffer) :
    buffered bytes = some (.ok bytes) := by
  have hfront : (bytes.dropWhile (· = 0)).length ≤ bytes.length :=
    (List.dropWhile_suffix _).length_le
  rw [buffered, if_neg (by omega), if_neg (by omega)]

/-- Bytes that do not fit are an error or a panic. -/
theorem Buffered.ne_ok (hbase : base58.Buffered) (h : base58Buffer < bytes.length)
    (result : List UInt8) : base58.fromBase58 (base58.toBase58 bytes) ≠ some (.ok result) := by
  rw [hbase, buffered, if_pos h]
  split
  · exact nofun
  · exact nofun

end Base58

/-- `hex`: two digits a byte; decoding inverts encoding. -/
structure Hex where
  encode : List UInt8 → String
  decode : String → Except String (List UInt8)
  decode_encode : ∀ bytes, decode (encode bytes) = .ok bytes
  length_encode : ∀ bytes, (encode bytes).toList.length = 2 * bytes.length
  isAlphanum_of_mem : ∀ bytes, ∀ c ∈ (encode bytes).toList, c.isAlphanum = true

/-- The third-party functions the room code uses. -/
structure Crates where
  json : SerdeJson
  base58 : Base58
  hex : Hex

/-- `PeerId(discriminator.to_base58())`. -/
def peerId (X : Crates) (discriminator : Bytes16) : PeerId :=
  ⟨X.base58.toBase58 discriminator.val⟩

end Nullpipe

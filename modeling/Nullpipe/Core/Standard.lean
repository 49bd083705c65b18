import Nullpipe.Core.Wire
import Nullpipe.Lib.TextCodec

/-!
# The codecs themselves

`Crates.standard` is the instance of the codec parameters that behaves as the crates do on
everything the code writes.  The concrete runs of the development are runs with it.

* `Hex.standard`: two digits a byte, in lower case.
* `Base58.standard`: one `1` for every leading zero byte and the rest by change of radix, with
  the buffer that version 0.2 decodes into.  What does not fit is an error, and a text that
  begins with 133 or more `1`s stops the decoder (`Base58.standard_buffered`).
* `SerdeJson.standard`: the compact JSON object with the fields of a `WireMessage` in their
  order.  Its reader accepts that canonical form alone, where `serde_json` accepts more;
  `Spelling.lean` is about the other forms.

Each instance carries the proof that reading undoes writing, which comes from the text codecs
of `Lib/TextCodec.lean`.
-/

namespace Nullpipe

open TextCodec

/-! ## Base 16 and base 58 -/

private theorem isAlphanum_of_mem_symbols {A : Alphabet}
    (hsymbols : A.symbols.all Char.isAlphanum = true) {text : List Char}
    (htext : ∀ c ∈ text, c ∈ A.symbols) :
    ∀ c ∈ (String.ofList text).toList, c.isAlphanum = true := by
  intro c hc
  rw [String.toList_ofList] at hc
  exact List.all_eq_true.mp hsymbols c (htext c hc)

def Hex.standard : Hex where
  encode bytes := String.ofList (hexAlphabet.encodePairs bytes)
  decode text :=
    match hexAlphabet.decodePairs text.toList with
    | some bytes => .ok bytes
    | none => .error "invalid hex"
  decode_encode bytes := by
    rw [String.toList_ofList, Alphabet.decodePairs_encodePairs rfl]
  length_encode bytes := by
    rw [String.toList_ofList, Alphabet.length_encodePairs]
  isAlphanum_of_mem _ :=
    isAlphanum_of_mem_symbols rfl fun _ hc => Alphabet.mem_encodePairs rfl hc

/-- Version 0.2 of the crate, its buffer included. -/
def Base58.standard : Base58 where
  toBase58 bytes := String.ofList (base58Alphabet.encodeRadix bytes)
  fromBase58 text :=
    match base58Alphabet.decodeRadix text.toList with
    | some bytes => buffered bytes
    | none => some (.error "InvalidBase58Character")
  fromBase58_toBase58 bytes hlen := by
    rw [String.toList_ofList, Alphabet.decodeRadix_encodeRadix]
    exact buffered_of_length_le hlen
  toBase58_injective bytes bytes' h := by
    have htext := congrArg (base58Alphabet.decodeRadix ·.toList) h
    simp only [String.toList_ofList, Alphabet.decodeRadix_encodeRadix] at htext
    exact Option.some.inj htext
  isAlphanum_of_mem _ :=
    isAlphanum_of_mem_symbols rfl fun _ hc => Alphabet.mem_encodeRadix _ hc
  toBase58_ne_empty bytes hne hempty := by
    have htext := congrArg String.toList hempty
    rw [String.toList_ofList] at htext
    exact Alphabet.encodeRadix_ne_nil _ hne htext

theorem Base58.standard_buffered : Base58.standard.Buffered := by
  intro bytes
  show (match base58Alphabet.decodeRadix (String.ofList _).toList with
    | some bytes => buffered bytes
    | none => some (.error "InvalidBase58Character")) = _
  rw [String.toList_ofList, Alphabet.decodeRadix_encodeRadix]

/-- A hundred and thirty-three leading zeros are one more than the decoder can skip. -/
example : Base58.standard.fromBase58 (String.ofList (List.replicate 133 '1')) = none := by
  decide +kernel

/-! ## JSON -/

/-- The variant names `serde` derives. -/
def MessageType.variant : MessageType → List Char
  | .chat => ['C', 'h', 'a', 't']
  | .system => ['S', 'y', 's', 't', 'e', 'm']
  | .ping => ['P', 'i', 'n', 'g']
  | .pong => ['P', 'o', 'n', 'g']

def MessageType.ofVariant? (text : List Char) : Option MessageType :=
  [.chat, .system, .ping, .pong].find? fun kind => kind.variant = text

theorem MessageType.ofVariant?_variant (kind : MessageType) :
    ofVariant? kind.variant = some kind := by
  cases kind <;> decide

/-- A member of the object: what stands before its key, the key, a colon, and its
string value. -/
def jsonMember (opening : Char) (key value : List Char) : List Char :=
  opening :: (quoteString key ++ ':' :: quoteString value)

/-- `serde_json::to_vec` on a `WireMessage`, as text. -/
def jsonText (msg : WireMessage) : List Char :=
  jsonMember '\x7b' ['t', 'y', 'p', 'e'] msg.kind.variant ++
    jsonMember ',' ['n', 'a', 'm', 'e'] msg.name.toList ++
    jsonMember ',' ['t', 'e', 'x', 't'] msg.text.toList ++ ['\x7d']

def readMember (opening : Char) (key text : List Char) : Option (List Char × List Char) :=
  (expect (opening :: (quoteString key ++ [':'])) text).bind unquoteString

theorem readMember_jsonMember (opening : Char) (key value rest : List Char) :
    readMember opening key (jsonMember opening key value ++ rest) = some (value, rest) := by
  have hfront := expect_append (opening :: (quoteString key ++ [':'])) (quoteString value ++ rest)
  simp only [readMember, jsonMember, List.cons_append, List.append_assoc, List.nil_append]
    at hfront ⊢
  rw [hfront, Option.bind_some, unquoteString_quoteString]

def readJson (text : List Char) : Option WireMessage := do
  let (variant, text) ← readMember '\x7b' ['t', 'y', 'p', 'e'] text
  let kind ← MessageType.ofVariant? variant
  let (name, text) ← readMember ',' ['n', 'a', 'm', 'e'] text
  let (body, text) ← readMember ',' ['t', 'e', 'x', 't'] text
  if text = ['\x7d'] then some ⟨kind, String.ofList name, String.ofList body⟩ else none

theorem readJson_jsonText (msg : WireMessage) : readJson (jsonText msg) = some msg := by
  simp [readJson, jsonText, List.append_assoc, readMember_jsonMember,
    MessageType.ofVariant?_variant]

def SerdeJson.standard : SerdeJson where
  toVec msg := utf8Bytes (String.ofList (jsonText msg))
  fromSlice bytes :=
    match (fromUtf8? bytes).bind fun text => readJson text.toList with
    | some msg => .ok msg
    | none => .error "invalid json"
  fromSlice_toVec msg := by
    rw [fromUtf8?_utf8Bytes, Option.bind_some, String.toList_ofList, readJson_jsonText]
  validUtf8_toVec _ := validUtf8_utf8Bytes _
  fromSlice_nil := ⟨"invalid json", rfl⟩

/-- A long text makes a long payload. -/
theorem not_encodes_of_length {msg : WireMessage} (h : maxPayloadBytes < msg.text.toList.length) :
    ¬ Encodes SerdeJson.standard msg := by
  intro hfits
  have hbytes := length_le_utf8Bytes (String.ofList (jsonText msg))
  have htext := length_le_quoteString msg.text.toList
  have hmember : (quoteString msg.text.toList).length ≤ (jsonText msg).length := by
    simp only [jsonText, jsonMember, List.length_append, List.length_cons]
    omega
  rw [String.toList_ofList] at hbytes
  have hpayload : (utf8Bytes (String.ofList (jsonText msg))).length ≤ maxPayloadBytes := hfits
  omega

/-- The three crates. -/
def Crates.standard : Crates := ⟨.standard, .standard, .standard⟩

theorem Crates.standard_buffered : Crates.standard.base58.Buffered := Base58.standard_buffered

end Nullpipe

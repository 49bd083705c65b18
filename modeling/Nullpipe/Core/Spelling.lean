import Nullpipe.Core.Standard
import Nullpipe.Core.Token
import Nullpipe.Lib.JsonString

/-!
# The spellings of a message

What `serde_json` accepts as a `WireMessage`: an object in which the members may stand in any
order, unknown ones are passed over and `name` and `text` may be left out; or an array of the
fields in their order, the last ones of which may be left out.  A member is a `Field` together
with the bytes it is spelled in, so that the two kinds of payload, `ObjectSpelling` and
`ArraySpelling`, differ only in what stands between the commas.

What `serde_json` writes is compact, so that a message that is decoded and encoded again only
grows by the keys and the fields that its first spelling saved.  To count this each field has a
weight, the least number of bytes it can take with its comma.

* No member or element takes less than its weight (`MemberSpelling.le_length`,
  `ElementSpelling.le_length`): a JSON string has no spelling shorter than the one that is
  written.
* The weights of the fields of a payload sum up to no more than the payload
  (`ObjectSpelling.sum_weight_le`, `ArraySpelling.sum_weight_le`).
* Which fields are there is said by the message, up to those that are empty
  (`FieldsSay.sum_weight_ge`).

The three bounds on the compact form at the end are this comparison for the two kinds.
-/

namespace Nullpipe

open String TextCodec

/-! ## Spellings -/

/-- White space of JSON. -/
def Blank (text : List Char) : Prop := ∀ c ∈ text, c ∈ [' ', '\t', '\n', '\r']

/-- What a member of the object says. -/
inductive Field
  | kind (kind : MessageType)
  | name (name : String)
  | text (text : String)
  /-- an unknown member -/
  | other
  deriving DecidableEq

namespace Field

/-- The key of a known field. -/
def key : Field → List Char
  | .kind _ => ['t', 'y', 'p', 'e']
  | .name _ => ['n', 'a', 'm', 'e']
  | .text _ => ['t', 'e', 'x', 't']
  | .other => []

/-- The string a known field is written as. -/
def value : Field → List Char
  | .kind k => k.variant
  | .name s | .text s => s.toList
  | .other => []

def kind? : Field → Option MessageType
  | .kind k => some k
  | .name _ | .text _ | .other => none

def name? : Field → Option String
  | .name s => some s
  | .kind _ | .text _ | .other => none

def text? : Field → Option String
  | .text s => some s
  | .kind _ | .name _ | .other => none

end Field

/-- A JSON string, with hexadecimal digits of either case. -/
abbrev JsonString (text : List Char) (spelled : List Char) : Prop :=
  StringSpelling hexValue text spelled

/-- The value of a field; a variant is a string, or the key of an object with the value
`null`. -/
inductive ValueSpelling : Field → List Char → Prop
  | string {field : Field} {spelled : List Char} (h : JsonString field.value spelled) :
      ValueSpelling field spelled
  | variant {kind : MessageType} {spelled a b c d : List Char}
      (h : JsonString kind.variant spelled) (ha : Blank a) (hb : Blank b) (hc : Blank c)
      (hd : Blank d) :
      ValueSpelling (.kind kind) ('\x7b' :: (a ++ spelled ++ b ++ ':' :: (c ++
        ['n', 'u', 'l', 'l'] ++ d ++ ['\x7d'])))

/-- A member of an object, between the commas. -/
inductive MemberSpelling : Field → List UInt8 → Prop
  | known {field : Field} {key value a b c d : List Char} (hknown : field ≠ .other)
      (hkey : JsonString field.key key) (hvalue : ValueSpelling field value) (ha : Blank a)
      (hb : Blank b) (hc : Blank c) (hd : Blank d) :
      MemberSpelling field (utf8Bytes (ofList (a ++ key ++ b ++ ':' :: (c ++ value ++ d))))
  | other {bytes : List UInt8} : MemberSpelling .other bytes

/-- An element of an array, between the commas. -/
inductive ElementSpelling : Field → List UInt8 → Prop
  | known {field : Field} {value a b : List Char} (hknown : field ≠ .other)
      (hvalue : ValueSpelling field value) (ha : Blank a) (hb : Blank b) :
      ElementSpelling field (utf8Bytes (ofList (a ++ value ++ b)))

/-- What is put between two brackets. -/
def bracketed (opening closing : Char) (parts : List (List UInt8)) (a b : List Char) :
    List UInt8 :=
  utf8Bytes (ofList (a ++ [opening])) ++ (utf8Bytes ",").intercalate parts ++
    utf8Bytes (ofList (closing :: b))

/-- The fields say what the message is; `name` and `text` are empty by default. -/
structure FieldsSay (fields : List Field) (msg : WireMessage) : Prop where
  kind : fields.filterMap Field.kind? = [msg.kind]
  name : fields.filterMap Field.name? = [msg.name] ∨
    fields.filterMap Field.name? = [] ∧ msg.name = ""
  text : fields.filterMap Field.text? = [msg.text] ∨
    fields.filterMap Field.text? = [] ∧ msg.text = ""

/-- An object with the given members. -/
structure ObjectSpelling (msg : WireMessage) (fields : List Field) (payload : List UInt8) :
    Prop where
  fieldsSay : FieldsSay fields msg
  spelled : ∃ parts a b, List.Forall₂ MemberSpelling fields parts ∧ Blank a ∧ Blank b ∧
    payload = bracketed '\x7b' '\x7d' parts a b

/-- An array of the first fields. -/
structure ArraySpelling (msg : WireMessage) (fields : List Field) (payload : List UInt8) :
    Prop where
  fieldsSay : FieldsSay fields msg
  front : fields <+: [.kind msg.kind, .name msg.name, .text msg.text]
  spelled : ∃ parts a b, List.Forall₂ ElementSpelling fields parts ∧ Blank a ∧ Blank b ∧
    payload = bracketed '[' ']' parts a b

/-- **`serde_json` on a `WireMessage`, as documented:** compact output, unknown members
passed over, defaults for `name` and `text`. -/
structure SerdeJson.Documented (json : SerdeJson) : Prop where
  compact : ∀ msg, json.toVec msg = utf8Bytes (ofList (jsonText msg))
  reads : ∀ payload msg, json.fromSlice payload = .ok msg →
    ∃ fields, ObjectSpelling msg fields payload ∨ ArraySpelling msg fields payload

variable {json : SerdeJson} {msg : WireMessage} {fields : List Field} {field : Field}
  {payload bytes : List UInt8}

/-! ## Lengths -/

theorem length_utf8Bytes_ofList (text : List Char) :
    (utf8Bytes (ofList text)).length = utf8Len text := by
  rw [← utf8ByteSize_ofList]
  rfl

/-- The bytes of a member in the compact form, with the comma or brace in front of it. -/
def Field.size (field : Field) : ℕ :=
  utf8Len (quoteString field.key) + utf8Len (quoteString field.value) + 2

/-- The bytes of an element of an array, with the comma or bracket in front of it. -/
def Field.bareSize (field : Field) : ℕ := utf8Len (quoteString field.value) + 1

/-- The bytes of the compact form. -/
def jsonLength (msg : WireMessage) : ℕ :=
  Field.size (.kind msg.kind) + Field.size (.name msg.name) + Field.size (.text msg.text) + 1

theorem utf8Len_jsonMember {opening : Char} (hopening : opening.utf8Size = 1)
    (key value : List Char) :
    utf8Len (jsonMember opening key value) =
      utf8Len (quoteString key) + utf8Len (quoteString value) + 2 := by
  have hcolon : ':'.utf8Size = 1 := rfl
  rw [jsonMember, utf8Len_cons, utf8Len_append, utf8Len_cons, hopening, hcolon]
  omega

theorem SerdeJson.Documented.length_toVec (h : json.Documented) (msg : WireMessage) :
    (json.toVec msg).length = jsonLength msg := by
  have hclosing : utf8Len ['\x7d'] = 1 := rfl
  rw [h.compact, length_utf8Bytes_ofList, jsonText, utf8Len_append, utf8Len_append,
    utf8Len_append, utf8Len_jsonMember rfl, utf8Len_jsonMember rfl, utf8Len_jsonMember rfl,
    hclosing]
  rfl

theorem length_intercalate {α : Type} (sep : List α) {parts : List (List α)}
    (hparts : parts ≠ []) :
    (sep.intercalate parts).length + sep.length =
      (parts.map fun part => part.length + sep.length).sum := by
  induction parts with
  | nil => exact absurd rfl hparts
  | cons part parts ih =>
      by_cases hnil : parts = []
      · rw [hnil, List.intercalate_singleton]
        rfl
      · rw [List.intercalate_cons_of_ne_nil hnil, List.map_cons, List.sum_cons, ← ih hnil,
          List.length_append, List.length_append]
        omega

/-- The bytes between two brackets, in which each part comes with a comma. -/
theorem le_length_bracketed {opening closing : Char} {parts : List (List UInt8)}
    {a b : List Char} (hparts : parts ≠ []) :
    (parts.map fun part => part.length + 1).sum + 1 ≤
      (bracketed opening closing parts a b).length := by
  have hinner := length_intercalate (utf8Bytes ",") hparts
  have hcomma : (utf8Bytes ",").length = 1 := rfl
  have hopening := opening.utf8Size_pos
  have hclosing := closing.utf8Size_pos
  rw [hcomma] at hinner
  rw [bracketed, List.length_append, List.length_append, length_utf8Bytes_ofList,
    length_utf8Bytes_ofList, utf8Len_append, utf8Len_cons, utf8Len_cons, ← hinner]
  omega

theorem ValueSpelling.le_length {spelled : List Char} (h : ValueSpelling field spelled) :
    utf8Len (quoteString field.value) ≤ utf8Len spelled := by
  cases h with
  | string h => exact h.utf8Len_le
  | variant h =>
      have hle := h.utf8Len_le
      simp only [utf8Len_cons, utf8Len_append]
      dsimp only [Field.value]
      omega

/-- The least number of bytes a member takes, with its comma. -/
def Field.memberWeight (field : Field) : ℕ := if field = .other then 0 else field.size

/-- The least number of bytes an element takes, with its comma. -/
def Field.elementWeight (field : Field) : ℕ := if field = .other then 0 else field.bareSize

/-- A member is its element behind a key, which takes seven bytes with its colon. -/
theorem Field.size_eq (field : Field) (hkey : utf8Len (quoteString field.key) = 6) :
    field.size = field.elementWeight + 7 := by
  have hknown : field ≠ .other := by
    rintro rfl
    exact absurd hkey (by decide)
  rw [size, elementWeight, if_neg hknown, bareSize, hkey]
  omega

theorem MemberSpelling.le_length (h : MemberSpelling field bytes) :
    field.memberWeight ≤ bytes.length + 1 := by
  cases h with
  | known hknown hkey hvalue =>
      have hkeyLe := hkey.utf8Len_le
      have hvalueLe := hvalue.le_length
      have hcolon : ':'.utf8Size = 1 := rfl
      rw [Field.memberWeight, if_neg hknown, length_utf8Bytes_ofList, Field.size]
      simp only [utf8Len_append, utf8Len_cons, hcolon]
      omega
  | other => exact Nat.zero_le _

theorem ElementSpelling.le_length (h : ElementSpelling field bytes) :
    field.elementWeight ≤ bytes.length + 1 := by
  obtain ⟨hknown, hvalue, _, _⟩ := h
  have hvalueLe := hvalue.le_length
  rw [Field.elementWeight, if_neg hknown, length_utf8Bytes_ofList, Field.bareSize]
  simp only [utf8Len_append]
  omega

/-- What the parts take at least. -/
theorem sum_weight_le {weight : Field → ℕ} {parts : List (List UInt8)}
    {spelling : Field → List UInt8 → Prop}
    (hle : ∀ field bytes, spelling field bytes → weight field ≤ bytes.length + 1)
    (h : List.Forall₂ spelling fields parts) :
    (fields.map weight).sum ≤ (parts.map fun part => part.length + 1).sum := by
  induction h with
  | nil => exact Nat.le_refl _
  | cons hpart _ ih =>
      rw [List.map_cons, List.map_cons, List.sum_cons, List.sum_cons]
      exact Nat.add_le_add (hle _ _ hpart) ih

/-- The weight of the fields, kind by kind. -/
theorem sum_weight_eq {weight : Field → ℕ} (hother : weight .other = 0) (fields : List Field) :
    (fields.map weight).sum =
      ((fields.filterMap Field.kind?).map fun k => weight (.kind k)).sum +
        ((fields.filterMap Field.name?).map fun s => weight (.name s)).sum +
          ((fields.filterMap Field.text?).map fun s => weight (.text s)).sum := by
  induction fields with
  | nil => rfl
  | cons field fields ih =>
      rw [List.map_cons, List.sum_cons, ih]
      -- the field is in one of the three lists, or weighs nothing
      cases field with
      | kind k =>
          rw [List.filterMap_cons_some (f := Field.kind?) rfl, List.map_cons, List.sum_cons,
            List.filterMap_cons_none (f := Field.name?) rfl,
            List.filterMap_cons_none (f := Field.text?) rfl]
          omega
      | name s =>
          rw [List.filterMap_cons_some (f := Field.name?) rfl, List.map_cons, List.sum_cons,
            List.filterMap_cons_none (f := Field.kind?) rfl,
            List.filterMap_cons_none (f := Field.text?) rfl]
          omega
      | text s =>
          rw [List.filterMap_cons_some (f := Field.text?) rfl, List.map_cons, List.sum_cons,
            List.filterMap_cons_none (f := Field.kind?) rfl,
            List.filterMap_cons_none (f := Field.name?) rfl]
          omega
      | other =>
          rw [List.filterMap_cons_none (f := Field.kind?) rfl,
            List.filterMap_cons_none (f := Field.name?) rfl,
            List.filterMap_cons_none (f := Field.text?) rfl, hother, Nat.zero_add]

theorem FieldsSay.ne_nil (h : FieldsSay fields msg) : fields ≠ [] := by
  rintro rfl
  exact absurd h.kind (by simp)

/-- Both fields that may be left out are there. -/
def GivesBoth (fields : List Field) : Prop :=
  fields.filterMap Field.name? ≠ [] ∧ fields.filterMap Field.text? ≠ []

theorem FieldsSay.sum_weight {weight : Field → ℕ} (h : FieldsSay fields msg)
    (hother : weight .other = 0) (hgives : GivesBoth fields) :
    (fields.map weight).sum =
      weight (.kind msg.kind) + weight (.name msg.name) + weight (.text msg.text) := by
  have hname : fields.filterMap Field.name? = [msg.name] :=
    h.name.resolve_right fun hnone => hgives.1 hnone.1
  have htext : fields.filterMap Field.text? = [msg.text] :=
    h.text.resolve_right fun hnone => hgives.2 hnone.1
  rw [sum_weight_eq hother, h.kind, hname, htext]
  rfl

/-- What is left out is empty. -/
theorem FieldsSay.sum_weight_ge (h : FieldsSay fields msg) (weight : Field → ℕ)
    (hother : weight .other = 0) :
    weight (.kind msg.kind) + weight (.name msg.name) + weight (.text msg.text) ≤
      (fields.map weight).sum + weight (.name "") + weight (.text "") := by
  rw [sum_weight_eq hother, h.kind]
  rcases h.name with hname | ⟨hname, hempty⟩
  · rcases h.text with htext | ⟨htext, hempty'⟩
    · rw [hname, htext]
      simp only [List.map_cons, List.map_nil, List.sum_cons, List.sum_nil]
      omega
    · rw [hname, htext, hempty']
      simp only [List.map_cons, List.map_nil, List.sum_cons, List.sum_nil]
      omega
  · rcases h.text with htext | ⟨htext, hempty'⟩
    · rw [hname, htext, hempty]
      simp only [List.map_cons, List.map_nil, List.sum_cons, List.sum_nil]
      omega
    · rw [hname, htext, hempty, hempty']
      simp only [List.map_cons, List.map_nil, List.sum_cons, List.sum_nil]
      omega

/-! ## How much the compact form is longer -/

theorem parts_ne_nil {spelling : Field → List UInt8 → Prop} {parts : List (List UInt8)}
    (h : List.Forall₂ spelling fields parts) (hfields : fields ≠ []) : parts ≠ [] := by
  rintro rfl
  exact hfields (List.forall₂_nil_right_iff.mp h)

/-- The members take their bytes in the payload. -/
theorem ObjectSpelling.sum_weight_le (h : ObjectSpelling msg fields payload) :
    (fields.map Field.memberWeight).sum + 1 ≤ payload.length := by
  obtain ⟨parts, a, b, hparts, -, -, rfl⟩ := h.spelled
  exact Nat.le_trans
    (Nat.add_le_add_right (Nullpipe.sum_weight_le (fun _ _ h => h.le_length) hparts) 1)
    (le_length_bracketed (parts_ne_nil hparts h.fieldsSay.ne_nil))

theorem ArraySpelling.sum_weight_le (h : ArraySpelling msg fields payload) :
    (fields.map Field.elementWeight).sum + 1 ≤ payload.length := by
  obtain ⟨parts, a, b, hparts, -, -, rfl⟩ := h.spelled
  exact Nat.le_trans
    (Nat.add_le_add_right (Nullpipe.sum_weight_le (fun _ _ h => h.le_length) hparts) 1)
    (le_length_bracketed (parts_ne_nil hparts h.fieldsSay.ne_nil))

/-- **An object that gives both fields is no shorter than the compact form.** -/
theorem ObjectSpelling.jsonLength_le (h : ObjectSpelling msg fields payload)
    (hgives : GivesBoth fields) : jsonLength msg ≤ payload.length := by
  have hsum := h.sum_weight_le
  rw [h.fieldsSay.sum_weight rfl hgives] at hsum
  exact hsum

/-- Two members that are left out save 20 bytes. -/
theorem ObjectSpelling.jsonLength_le_add (h : ObjectSpelling msg fields payload) :
    jsonLength msg ≤ payload.length + 20 := by
  have hsum := h.sum_weight_le
  have hsay := h.fieldsSay.sum_weight_ge Field.memberWeight rfl
  have hname : Field.memberWeight (.name "") = 10 := rfl
  have htext : Field.memberWeight (.text "") = 10 := rfl
  have hlength : jsonLength msg = Field.memberWeight (.kind msg.kind) +
    Field.memberWeight (.name msg.name) + Field.memberWeight (.text msg.text) + 1 := rfl
  omega

/-- An array saves the keys as well. -/
theorem ArraySpelling.jsonLength_le_add (h : ArraySpelling msg fields payload) :
    jsonLength msg ≤ payload.length + 27 := by
  have hsum := h.sum_weight_le
  have hsay := h.fieldsSay.sum_weight_ge Field.elementWeight rfl
  have hname : Field.elementWeight (.name "") = 3 := rfl
  have htext : Field.elementWeight (.text "") = 3 := rfl
  have hkeys : jsonLength msg = Field.elementWeight (.kind msg.kind) +
      Field.elementWeight (.name msg.name) + Field.elementWeight (.text msg.text) + 22 := by
    have hkind := Field.size_eq (.kind msg.kind) rfl
    have hname := Field.size_eq (.name msg.name) rfl
    have htext := Field.size_eq (.text msg.text) rfl
    rw [jsonLength, hkind, hname, htext]
    omega
  omega

end Nullpipe

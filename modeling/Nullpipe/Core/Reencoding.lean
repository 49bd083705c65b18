import Nullpipe.Core.Payload
import Nullpipe.Core.Spelling

/-!
# Messages that are encoded again

The hub decodes a message and encodes it for the others.  The limit is on the JSON text, at
both ends, and the compact form of a message may be longer than the text it came in: by the
members that were left out, or by the keys that an array does without.

`accepted_passed_on` says when a message that was accepted can be passed on.  It asks of
`serde_json` only what its documentation says (`SerdeJson.Documented`), so the bound comes from
the counts of `Spelling.lean`: nothing for an object with both members, 20 bytes for any object,
27 for an array.

The rest of the module shows that this is not about nothing.  `readJsonDefault` is a reader of
compact objects that may lack the name or the text; `SerdeJson.defaulting_documented` says that
it is as documented.  For that each text it reads has to be given as a spelling: member by
member (`exists_optional`, `eq_of_readMember`), and the members joined by commas
(`objectSpelling_of_members`).  A message of the full length without a name is then accepted
and cannot be passed on (`nameless_not_passed_on`).
-/

namespace Nullpipe

open String TextCodec

variable {json : SerdeJson} {msg : WireMessage} {data payload : List UInt8}

/-- The payload of a frame. -/
def payloadOf (data : List UInt8) : List UInt8 := (data.drop 4).take (fromBeBytes (data.take 4))

/-- A frame that is accepted holds its whole payload, which is not too long. -/
theorem of_decodeMessage_eq_ok (h : decodeMessage json data = .ok msg) :
    (payloadOf data).length ≤ maxPayloadBytes ∧ json.fromSlice (payloadOf data) = .ok msg := by
  unfold decodeMessage at h
  dsimp only at h
  split_ifs at h with hshort hzero hlong htruncated
  have hread : json.fromSlice (payloadOf data) = .ok msg := by
    unfold payloadOf
    split at h
    · cases h
    · cases h
      assumption
  refine ⟨?_, hread⟩
  rw [payloadOf, List.length_take]
  omega

theorem exists_encodeMessage_iff (hjson : json.Documented) :
    (∃ frame, encodeMessage json msg = .ok frame) ↔ jsonLength msg ≤ maxPayloadBytes := by
  rw [← hjson.length_toVec]
  constructor
  · rintro ⟨frame, h⟩
    exact (encodeMessage_eq_ok.mp h).1
  · intro h
    exact ⟨_, Encodes.encodeMessage h⟩

/-- **A message that is accepted can be passed on, unless it grows beyond the limit:** what is
encoded is decoded to the same message; it is encoded if its compact form fits, and it fits
where the payload is an object that gives both the name and the text, and where the payload
is 27 bytes below the limit. -/
theorem accepted_passed_on (hjson : json.Documented) (hdecode : decodeMessage json data = .ok msg) :
    (∀ frame, encodeMessage json msg = .ok frame → decodeMessage json frame = .ok msg) ∧
    ((∃ frame, encodeMessage json msg = .ok frame) ↔ jsonLength msg ≤ maxPayloadBytes) ∧
    (∀ fields, ObjectSpelling msg fields (payloadOf data) → GivesBoth fields →
      ∃ frame, encodeMessage json msg = .ok frame) ∧
    ((payloadOf data).length + 27 ≤ maxPayloadBytes →
      ∃ frame, encodeMessage json msg = .ok frame) := by
  obtain ⟨hlength, hread⟩ := of_decodeMessage_eq_ok hdecode
  refine ⟨fun frame hframe => decodeMessage_encodeMessage hframe,
    exists_encodeMessage_iff hjson, fun fields hobject hgives => ?_, fun hbelow => ?_⟩
  · exact (exists_encodeMessage_iff hjson).mpr
      (Nat.le_trans (hobject.jsonLength_le hgives) hlength)
  · refine (exists_encodeMessage_iff hjson).mpr ?_
    obtain ⟨fields, hobject | harray⟩ := hjson.reads _ _ hread
    · have hgrowth := hobject.jsonLength_le_add
      omega
    · have hgrowth := harray.jsonLength_le_add
      omega

/-! ## A reader with defaults -/

/-- A member that may be left out. -/
def readMemberOr (key text : List Char) : List Char × List Char :=
  (readMember ',' key text).getD ([], text)

/-- The compact form, in which the name and the text may be missing. -/
def readJsonDefault (text : List Char) : Option WireMessage := do
  let (variant, text) ← readMember '\x7b' ['t', 'y', 'p', 'e'] text
  let kind ← MessageType.ofVariant? variant
  let (name, text) := readMemberOr ['n', 'a', 'm', 'e'] text
  let (body, text) := readMemberOr ['t', 'e', 'x', 't'] text
  if text = ['\x7d'] then some ⟨kind, ofList name, ofList body⟩ else none

/-- No control character stands in a JSON text without white space. -/
def printable (text : List Char) : Bool := text.all fun c => decide (32 ≤ c.toNat)

theorem le_of_mem_jsonMember {opening : Char} {key value : List Char}
    (hopening : 32 ≤ opening.toNat) : ∀ c ∈ jsonMember opening key value, 32 ≤ c.toNat := by
  intro c hc
  rw [jsonMember, List.mem_cons, List.mem_append, List.mem_cons] at hc
  rcases hc with rfl | hc | rfl | hc
  · exact hopening
  · exact le_of_mem_quoteString c hc
  · decide
  · exact le_of_mem_quoteString c hc

theorem printable_iff {text : List Char} :
    printable text = true ↔ ∀ c ∈ text, 32 ≤ c.toNat := by
  rw [printable, List.all_eq_true]
  exact forall₂_congr fun c _ => decide_eq_true_iff

theorem printable_jsonText (msg : WireMessage) : printable (jsonText msg) = true := by
  rw [printable_iff]
  intro c hc
  rw [jsonText, List.mem_append, List.mem_append, List.mem_append, List.mem_singleton] at hc
  rcases hc with ((hc | hc) | hc) | rfl
  · exact le_of_mem_jsonMember (by decide) c hc
  · exact le_of_mem_jsonMember (by decide) c hc
  · exact le_of_mem_jsonMember (by decide) c hc
  · decide

theorem readMemberOr_jsonMember (key value rest : List Char) :
    readMemberOr key (jsonMember ',' key value ++ rest) = (value, rest) := by
  rw [readMemberOr, readMember_jsonMember]
  rfl

theorem readJsonDefault_jsonText (msg : WireMessage) :
    readJsonDefault (jsonText msg) = some msg := by
  simp [readJsonDefault, jsonText, List.append_assoc, readMember_jsonMember,
    readMemberOr_jsonMember, MessageType.ofVariant?_variant]

theorem validUtf8_jsonText (msg : WireMessage) :
    ValidUtf8 (utf8Bytes (ofList (jsonText msg))) :=
  validUtf8_utf8Bytes _

/-- `serde_json` on compact objects, with its defaults. -/
def SerdeJson.defaulting : SerdeJson where
  toVec msg := utf8Bytes (ofList (jsonText msg))
  fromSlice bytes :=
    match (fromUtf8? bytes).bind fun text =>
      if printable text.toList then readJsonDefault text.toList else none with
    | some msg => .ok msg
    | none => .error "invalid json"
  fromSlice_toVec msg := by
    rw [fromUtf8?_utf8Bytes, Option.bind_some, String.toList_ofList,
      if_pos (printable_jsonText msg),
      readJsonDefault_jsonText]
  validUtf8_toVec := validUtf8_jsonText
  fromSlice_nil := ⟨"invalid json", rfl⟩

/-! ## It is as documented -/

theorem utf8Bytes_append (front back : List Char) :
    utf8Bytes (ofList (front ++ back)) = utf8Bytes (ofList front) ++ utf8Bytes (ofList back) := by
  rw [ofList_append, utf8Bytes, toByteArray_append, ByteArray.data_append, Array.toList_append]
  rfl

theorem utf8Bytes_intercalate (members : List (List Char)) :
    (utf8Bytes ",").intercalate (members.map fun m => utf8Bytes (ofList m)) =
      utf8Bytes (ofList ([','].intercalate members)) := by
  induction members with
  | nil => rfl
  | cons m members ih =>
      by_cases hnil : members = []
      · rw [hnil, List.map_singleton, List.intercalate_singleton, List.intercalate_singleton]
      · have hmap : members.map (fun m => utf8Bytes (ofList m)) ≠ [] := by simpa using hnil
        rw [List.map_cons, List.intercalate_cons_of_ne_nil hmap, ih,
          List.intercalate_cons_of_ne_nil hnil, utf8Bytes_append, utf8Bytes_append]

theorem bracketed_members (opening closing : Char) (members : List (List Char)) :
    bracketed opening closing (members.map fun m => utf8Bytes (ofList m)) [] [] =
      utf8Bytes (ofList (opening :: ([','].intercalate members ++ [closing]))) := by
  rw [bracketed, utf8Bytes_intercalate, List.nil_append, ← utf8Bytes_append, ← utf8Bytes_append]
  simp

theorem readsHex_hexValue : ReadsHex hexValue := by
  intro c x h
  have hall : ∀ symbol ∈ hexAlphabet.symbols, hexAlphabet.digit? symbol = hexValue symbol :=
    List.forall_iff_forall_mem.mp (by decide)
  have hmem : c ∈ hexAlphabet.symbols := by
    by_contra hnot
    rw [Alphabet.digit?, if_neg hnot] at h
    cases h
  rw [← hall c hmem, h]

/-- A member in the compact form, up to the spelling of its value. -/
def memberText (field : Field) (spelled : List Char) : List Char :=
  quoteString field.key ++ ':' :: spelled

theorem memberSpelling_memberText {field : Field} {spelled : List Char} (hknown : field ≠ .other)
    (h : JsonString field.value spelled) :
    MemberSpelling field (utf8Bytes (ofList (memberText field spelled))) := by
  have hblank : Blank [] := fun c hc => absurd hc List.not_mem_nil
  have hmember := MemberSpelling.known hknown
    (stringSpelling_quoteString readsHex_hexValue field.key) (.string h) hblank hblank hblank
    hblank
  simpa only [memberText, List.nil_append, List.append_nil] using hmember

/-- What `readMember` reads is spelled in front of the rest. -/
theorem eq_of_readMember {opening : Char} {key text value rest : List Char}
    (hprintable : ∀ c ∈ text, 32 ≤ c.toNat) (h : readMember opening key text = some (value, rest)) :
    ∃ spelled, JsonString value spelled ∧
      text = opening :: (quoteString key ++ ':' :: (spelled ++ rest)) := by
  obtain ⟨back, hfront, hvalue⟩ := Option.bind_eq_some_iff.mp h
  have htext := eq_append_of_expect hfront
  subst htext
  obtain ⟨spelled, hspelled, rfl⟩ := stringSpelling_of_unquoteString readsHex_hexValue
    (fun c hc => hprintable c (List.mem_append_right _ hc)) hvalue
  exact ⟨spelled, hspelled, by simp⟩

/-- The member of a field that may be left out: it is empty, or there. -/
def Optional (field : Field) (members : List (Field × List Char)) : Prop :=
  (members = [] ∧ field.value = []) ∨
    ∃ spelled, members = [(field, spelled)] ∧ JsonString field.value spelled

/-- A member that may be left out, and what follows it. -/
theorem exists_optional (field : Field) {text value rest : List Char}
    (hprintable : ∀ c ∈ text, 32 ≤ c.toNat) (h : readMemberOr field.key text = (value, rest))
    (hvalue : field.value = value) :
    ∃ members, Optional field members ∧
      text = members.flatMap (fun m => ',' :: memberText m.1 m.2) ++ rest := by
  unfold readMemberOr at h
  cases hread : readMember ',' field.key text with
  | none =>
      rw [hread] at h
      cases h
      exact ⟨[], .inl ⟨rfl, hvalue⟩, rfl⟩
  | some parts =>
      rw [hread] at h
      cases h
      obtain ⟨spelled, hspelled, htext⟩ := eq_of_readMember hprintable hread
      refine ⟨[(field, spelled)], .inr ⟨spelled, rfl, hvalue ▸ hspelled⟩, ?_⟩
      rw [htext, List.flatMap_singleton, memberText]
      simp

/-- Members behind the first one come with a comma. -/
theorem intercalate_comma (first : List Char) (members : List (List Char)) :
    [','].intercalate (first :: members) = first ++ members.flatMap fun m => ',' :: m := by
  induction members generalizing first with
  | nil => simp
  | cons m members ih =>
      rw [List.intercalate_cons_cons, ih, List.flatMap_cons]
      simp

theorem memberSpellings {members : List (Field × List Char)}
    (h : ∀ m ∈ members, m.1 ≠ .other ∧ JsonString m.1.value m.2) :
    List.Forall₂ MemberSpelling (members.map Prod.fst)
      ((members.map fun m => memberText m.1 m.2).map fun m => utf8Bytes (ofList m)) := by
  induction members with
  | nil => exact .nil
  | cons m members ih =>
      obtain ⟨⟨hknown, hvalue⟩, hrest⟩ := List.forall_mem_cons.mp h
      rw [List.map_cons, List.map_cons, List.map_cons]
      exact .cons (memberSpelling_memberText hknown hvalue) (ih hrest)

/-- The members of a compact object. -/
theorem objectSpelling_of_members (members : List (Field × List Char))
    (hsay : FieldsSay (members.map Prod.fst) msg)
    (hmembers : ∀ m ∈ members, m.1 ≠ .other ∧ JsonString m.1.value m.2) :
    ObjectSpelling msg (members.map Prod.fst) (utf8Bytes (ofList ('\x7b' ::
      ([','].intercalate (members.map fun m => memberText m.1 m.2) ++ ['\x7d'])))) := by
  have hblank : Blank [] := fun c hc => absurd hc List.not_mem_nil
  rw [← bracketed_members]
  exact ⟨hsay, _, [], [], memberSpellings hmembers, hblank, hblank, rfl⟩

theorem MessageType.eq_of_ofVariant? {text : List Char} {kind : MessageType}
    (h : ofVariant? text = some kind) : text = kind.variant := by
  have hfound := List.find?_some h
  exact (of_decide_eq_true hfound).symm

/-- A compact object in which the name and the text may be missing. -/
theorem objectSpelling_compact (msg : WireMessage) {spelled : List Char}
    {names texts : List (Field × List Char)} (hkind : JsonString msg.kind.variant spelled)
    (hnames : Optional (.name msg.name) names)
    (htexts : Optional (.text msg.text) texts) :
    ∃ fields, ObjectSpelling msg fields (utf8Bytes (ofList ('\x7b' ::
      (memberText (.kind msg.kind) spelled ++
        ((names ++ texts).flatMap (fun m => ',' :: memberText m.1 m.2) ++ ['\x7d']))))) := by
  have hempty : ∀ text : String, text.toList = [] → text = "" := fun text h =>
    toList_eq_nil_iff.mp h
  have hsay : FieldsSay (((.kind msg.kind, spelled) :: (names ++ texts)).map Prod.fst) msg := by
    -- a member that is missing stands for an empty string, in the four cases
    rcases hnames with ⟨rfl, hname⟩ | ⟨_, rfl, -⟩
    · rcases htexts with ⟨rfl, htext⟩ | ⟨_, rfl, -⟩
      · exact ⟨rfl, .inr ⟨rfl, hempty _ hname⟩, .inr ⟨rfl, hempty _ htext⟩⟩
      · exact ⟨rfl, .inr ⟨rfl, hempty _ hname⟩, .inl rfl⟩
    · rcases htexts with ⟨rfl, htext⟩ | ⟨_, rfl, -⟩
      · exact ⟨rfl, .inl rfl, .inr ⟨rfl, hempty _ htext⟩⟩
      · exact ⟨rfl, .inl rfl, .inl rfl⟩
  have hoptional : ∀ {field : Field} {members : List (Field × List Char)},
      Optional field members → field ≠ .other →
        ∀ m ∈ members, m.1 ≠ .other ∧ JsonString m.1.value m.2 := by
    rintro field members (⟨rfl, -⟩ | ⟨spelled, rfl, hspelled⟩) hknown m hm
    · exact absurd hm List.not_mem_nil
    · cases List.mem_singleton.mp hm
      exact ⟨hknown, hspelled⟩
  have hobject := objectSpelling_of_members ((.kind msg.kind, spelled) :: (names ++ texts)) hsay
    (List.forall_mem_cons.mpr ⟨⟨by simp, hkind⟩, List.forall_mem_append.mpr
      ⟨hoptional hnames (by simp), hoptional htexts (by simp)⟩⟩)
  rw [List.map_cons (f := fun m : Field × List Char => memberText m.1 m.2), intercalate_comma,
    List.flatMap_map, List.append_assoc] at hobject
  exact ⟨_, hobject⟩

theorem exists_objectSpelling {text : List Char} (hprintable : ∀ c ∈ text, 32 ≤ c.toNat)
    (h : readJsonDefault text = some msg) :
    ∃ fields, ObjectSpelling msg fields (utf8Bytes (ofList text)) := by
  unfold readJsonDefault at h
  obtain ⟨⟨variant, text₁⟩, hkind, h⟩ := Option.bind_eq_some_iff.mp h
  obtain ⟨kind, hvariant, h⟩ := Option.bind_eq_some_iff.mp h
  cases hname : readMemberOr ['n', 'a', 'm', 'e'] text₁ with
  | mk name text₂ =>
  cases htext : readMemberOr ['t', 'e', 'x', 't'] text₂ with
  | mk body text₃ =>
  simp only [hname, htext] at h
  split_ifs at h with hclose
  cases h
  cases hclose
  obtain ⟨spelled, hspelled, rfl⟩ := eq_of_readMember hprintable hkind
  cases MessageType.eq_of_ofVariant? hvariant
  obtain ⟨names, hnames, rfl⟩ := exists_optional (.name (ofList name))
    (fun c hc => hprintable c (by simp [hc])) hname toList_ofList
  obtain ⟨texts, htexts, rfl⟩ := exists_optional (.text (ofList body))
    (fun c hc => hprintable c (by simp [hc])) htext toList_ofList
  obtain ⟨fields, hobject⟩ := objectSpelling_compact ⟨kind, ofList name, ofList body⟩
    hspelled hnames htexts
  refine ⟨fields, ?_⟩
  rw [List.flatMap_append, memberText, List.append_assoc, List.append_assoc, List.cons_append]
    at hobject
  exact hobject

theorem eq_of_fromUtf8? {bytes : List UInt8} {text : String} (h : fromUtf8? bytes = some text) :
    bytes = utf8Bytes text := by
  unfold fromUtf8? fromUTF8? at h
  split_ifs at h with hvalid
  cases h
  rfl

theorem SerdeJson.defaulting_eq_ok (h : SerdeJson.defaulting.fromSlice payload = .ok msg) :
    ∃ text : String, payload = utf8Bytes text ∧ printable text.toList = true ∧
      readJsonDefault text.toList = some msg := by
  have hread : ((fromUtf8? payload).bind fun text =>
      if printable text.toList then readJsonDefault text.toList else none) = some msg := by
    unfold SerdeJson.defaulting at h
    dsimp only at h
    split at h
    · cases h
      assumption
    · cases h
  obtain ⟨text, hbytes, hmsg⟩ := Option.bind_eq_some_iff.mp hread
  split_ifs at hmsg with hprintable
  exact ⟨text, eq_of_fromUtf8? hbytes, hprintable, hmsg⟩

theorem SerdeJson.defaulting_documented : SerdeJson.defaulting.Documented where
  compact _ := rfl
  reads payload msg h := by
    obtain ⟨text, rfl, hprintable, hread⟩ := defaulting_eq_ok h
    obtain ⟨fields, hobject⟩ := exists_objectSpelling (printable_iff.mp hprintable) hread
    rw [ofList_toList] at hobject
    exact ⟨fields, .inl hobject⟩

/-! ## A message without a name -/

/-- A message of some letters, without a name. -/
def nameless (n : ℕ) : WireMessage := ⟨.chat, "", ofList (List.replicate n 'a')⟩

/-- Its text without the name. -/
def namelessText (n : ℕ) : List Char :=
  jsonMember '\x7b' ['t', 'y', 'p', 'e'] MessageType.chat.variant ++
    jsonMember ',' ['t', 'e', 'x', 't'] (List.replicate n 'a') ++ ['\x7d']

theorem quoteString_replicate (n : ℕ) :
    quoteString (List.replicate n 'a') = '"' :: (List.replicate n 'a' ++ ['"']) := by
  have hbody : (List.replicate n 'a').flatMap escapeChar = List.replicate n 'a' := by
    induction n with
    | zero => rfl
    | succ n ih =>
        rw [List.replicate_succ, List.flatMap_cons, ih]
        rfl
  rw [quoteString, hbody]

theorem utf8Len_replicate (n : ℕ) : utf8Len (List.replicate n 'a') = n := by
  induction n with
  | zero => rfl
  | succ n ih =>
      rw [List.replicate_succ, utf8Len_cons, ih]
      rfl

theorem readJsonDefault_nameless (n : ℕ) :
    readJsonDefault (namelessText n) = some (nameless n) := by
  have hname : ∀ rest, readMemberOr ['n', 'a', 'm', 'e']
      (jsonMember ',' ['t', 'e', 'x', 't'] (List.replicate n 'a') ++ rest) =
        ([], jsonMember ',' ['t', 'e', 'x', 't'] (List.replicate n 'a') ++ rest) := by
    intro rest
    have hkey : quoteString ['n', 'a', 'm', 'e'] = ['"', 'n', 'a', 'm', 'e', '"'] := rfl
    have hkey' : quoteString ['t', 'e', 'x', 't'] = ['"', 't', 'e', 'x', 't', '"'] := rfl
    have hread : readMember ',' ['n', 'a', 'm', 'e']
        (jsonMember ',' ['t', 'e', 'x', 't'] (List.replicate n 'a') ++ rest) = none := by
      simp [readMember, expect, jsonMember, hkey, hkey']
    rw [readMemberOr, hread]
    rfl
  simp [readJsonDefault, namelessText, List.append_assoc, readMember_jsonMember, hname,
    readMemberOr_jsonMember, MessageType.ofVariant?_variant, nameless]

/-- It is read as the message. -/
theorem defaulting_nameless (n : ℕ) :
    SerdeJson.defaulting.fromSlice (utf8Bytes (ofList (namelessText n))) = .ok (nameless n) := by
  have hprintable : printable (namelessText n) = true := by
    rw [printable_iff]
    intro c hc
    rw [namelessText, List.mem_append, List.mem_append, List.mem_singleton] at hc
    rcases hc with (hc | hc) | rfl
    · exact le_of_mem_jsonMember (by decide) c hc
    · exact le_of_mem_jsonMember (by decide) c hc
    · decide
  unfold SerdeJson.defaulting
  dsimp only
  rw [fromUtf8?_utf8Bytes, Option.bind_some, toList_ofList, if_pos hprintable,
    readJsonDefault_nameless]

theorem length_namelessText (n : ℕ) : (utf8Bytes (ofList (namelessText n))).length = n + 25 := by
  have hkind : utf8Len (jsonMember '\x7b' ['t', 'y', 'p', 'e'] MessageType.chat.variant) = 14 := rfl
  have hkey : utf8Len (quoteString ['t', 'e', 'x', 't']) = 6 := rfl
  have hquote : '"'.utf8Size = 1 := rfl
  have hclosing : utf8Len ['\x7d'] = 1 := rfl
  rw [length_utf8Bytes_ofList, namelessText, utf8Len_append, utf8Len_append, hkind,
    utf8Len_jsonMember rfl, quoteString_replicate, utf8Len_cons, utf8Len_append, utf8Len_replicate,
    hkey, hclosing, utf8Len_cons, utf8Len_nil, hquote]
  omega

theorem jsonLength_nameless (n : ℕ) : jsonLength (nameless n) = n + 35 := by
  have hkind : Field.size (.kind .chat) = 14 := rfl
  have hname : Field.size (.name "") = 10 := rfl
  have hkey : utf8Len (quoteString ['t', 'e', 'x', 't']) = 6 := rfl
  have hquote : '"'.utf8Size = 1 := rfl
  have htext : Field.size (.text (ofList (List.replicate n 'a'))) = n + 10 := by
    rw [Field.size, Field.key, Field.value, toList_ofList, quoteString_replicate, utf8Len_cons,
      utf8Len_append, utf8Len_replicate, hkey, utf8Len_cons, utf8Len_nil, hquote]
    omega
  rw [jsonLength, nameless, hkind, hname, htext]
  omega

theorem decodeMessage_nameless {n : ℕ} (hn : n + 25 ≤ maxPayloadBytes) :
    decodeMessage SerdeJson.defaulting (frameOf (utf8Bytes (ofList (namelessText n)))) =
      .ok (nameless n) := by
  have hlength := length_namelessText n
  have hgood : GoodPayload (utf8Bytes (ofList (namelessText n))) :=
    ⟨by omega, by omega, validUtf8_utf8Bytes _⟩
  have hdecoded : decoded .defaulting _ = _ := decoded_frameOf hgood
  rw [defaulting_nameless, decoded] at hdecoded
  cases hdecode : decodeMessage SerdeJson.defaulting
      (frameOf (utf8Bytes (ofList (namelessText n)))) with
  | error e =>
      rw [hdecode] at hdecoded
      cases hdecoded
  | ok msg =>
      rw [hdecode] at hdecoded
      cases hdecoded
      rfl

/-- A short message without a name. -/
theorem accepted_passed_on_nameless :
    ∃ frame, encodeMessage .defaulting (nameless 100) = .ok frame ∧
      decodeMessage .defaulting frame = .ok (nameless 100) := by
  have hdecode := decodeMessage_nameless (n := 100) (by decide)
  obtain ⟨hagain, hiff, -, -⟩ := accepted_passed_on SerdeJson.defaulting_documented hdecode
  obtain ⟨frame, hframe⟩ := hiff.mpr (by rw [jsonLength_nameless]; decide)
  exact ⟨frame, hframe, hagain frame hframe⟩

/-- **A message of the full length without a name cannot be passed on.** -/
theorem nameless_not_passed_on :
    ¬ ∀ json : SerdeJson, json.Documented → ∀ data msg, decodeMessage json data = .ok msg →
      ∃ frame, encodeMessage json msg = .ok frame := by
  intro hall
  have hencode := hall .defaulting SerdeJson.defaulting_documented _ _
    (decodeMessage_nameless (n := 16359) (by decide))
  rw [exists_encodeMessage_iff SerdeJson.defaulting_documented, jsonLength_nameless] at hencode
  exact absurd hencode (by decide)

end Nullpipe

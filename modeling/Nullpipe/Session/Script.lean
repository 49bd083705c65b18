import Nullpipe.Session.Step
import Nullpipe.Room.Reading

/-!
# What the two sides write

In a session that nothing disturbs the joiner writes nonce, discriminator, the
frame of its name and then one frame for each text (`Guest.script`), and the hub writes the
accept byte and the join notice (`Guest.greeting`).  The handshake has no delimiters: each
side has to stop reading at the right byte.  The lemmas here say that it does, for any front
part of the script that has arrived.

* The first 32 bytes are nonce and discriminator (`hello_of_prefix`), of the lengths that the
  type `Bytes16` fixes.
* The frame behind them is that of the name (`nameFrame_of_prefix`), since a frame is read off
  its length and nothing else.
* A reader of the name that has part of the script is waiting for more or has exactly the name
  (`progress_name`, `nameRead_of_script`): the hub never takes a byte of what follows.

A name whose frame does not fit is never sent, so the lemmas that need the frame ask for
`Encodes`.  The join notice of a name that does fit may be too long itself; then the greeting
is the accept byte alone (`greeting_of_not_encodes`).
-/

namespace Nullpipe

open Channel Framing

variable {X : Crates} {me : Guest} {msgs more : List WireMessage} {info : PeerInfo} {id : PeerId}
  {nonce discriminator : Bytes16} {read got rest : List UInt8}

/-! ## The scripts -/

namespace Guest

/-- The messages a joiner makes of its user's texts. -/
def messages (me : Guest) (texts : List String) : List WireMessage :=
  texts.map (.chat me.name)

/-- What a joiner writes until it has sent `msgs`. -/
def script (X : Crates) (me : Guest) (msgs : List WireMessage) : List UInt8 :=
  me.hello ++ frameBytes X.json (.system me.name) ++ msgs.flatMap (frameBytes X.json)

/-- The notices a hub sends to a peer of this name: one, if it fits a frame. -/
def notices (X : Crates) (me : Guest) : List WireMessage :=
  [WireMessage.system (me.name ++ " joined")].filter fun msg => Encodes X.json msg

/-- What a hub writes to a peer of this name. -/
def greeting (X : Crates) (me : Guest) : List UInt8 :=
  0 :: (me.notices X).flatMap (frameBytes X.json)

@[simp] theorem messages_append (me : Guest) (texts more : List String) :
    me.messages (texts ++ more) = me.messages texts ++ me.messages more := List.map_append

@[simp] theorem length_hello (me : Guest) : me.hello.length = handshakeLen := by
  rw [hello, List.length_append, me.nonce.property, me.discriminator.property]
  rfl

@[simp] theorem script_append (X : Crates) (me : Guest) (msgs more : List WireMessage) :
    me.script X (msgs ++ more) = me.script X msgs ++ more.flatMap (frameBytes X.json) := by
  rw [script, List.flatMap_append, ← List.append_assoc, script]

/-- The script with its first part split off. -/
theorem script_split (X : Crates) (me : Guest) (msgs : List WireMessage) :
    me.script X msgs = me.hello ++ (frameBytes X.json (.system me.name) ++
      msgs.flatMap (frameBytes X.json)) := List.append_assoc ..

theorem script_prefix (h : msgs <+: more) : me.script X msgs <+: me.script X more := by
  obtain ⟨rest, rfl⟩ := h
  rw [script_append]
  exact List.prefix_append ..

theorem encodes_of_mem_notices {msg : WireMessage} (h : msg ∈ me.notices X) :
    Encodes X.json msg := by
  have hfits := (List.mem_filter.mp h).2
  exact of_decide_eq_true hfits

end Guest

/-- The join notice of a handler for a peer of this name is the one of the
greeting. -/
theorem greeting_of_encodes {frame : List UInt8} (hname : info.name = me.name)
    (hencode : encodeMessage X.json (joinNotice info) = .ok frame) :
    me.greeting X = 0 :: frame := by
  rw [joinNotice, hname] at hencode
  obtain ⟨hfits, hframe⟩ := encodes_of_encodeMessage hencode
  rw [Guest.greeting, Guest.notices, List.filter_singleton, decide_eq_true hfits, cond_true,
    List.flatMap_singleton, hframe]

theorem greeting_of_not_encodes {e : ChatError} (hname : info.name = me.name)
    (hencode : encodeMessage X.json (joinNotice info) = .error e) : me.greeting X = [0] := by
  rw [joinNotice, hname] at hencode
  have hfits : ¬ Encodes X.json (WireMessage.system (me.name ++ " joined")) := by
    intro hfits
    rw [hfits.encodeMessage] at hencode
    cases hencode
  rw [Guest.greeting, Guest.notices, List.filter_singleton, decide_eq_false hfits, cond_false]
  rfl

/-! ## Reading the script -/

/-- Thirty-two bytes of the script are the nonce and the discriminator. -/
theorem hello_of_prefix (h : nonce.val ++ discriminator.val ++ got <+: me.hello ++ rest) :
    nonce = me.nonce ∧ discriminator = me.discriminator ∧ got <+: rest := by
  obtain ⟨later, hlater⟩ := h
  rw [Guest.hello] at hlater
  simp only [List.append_assoc] at hlater
  obtain ⟨hnonce, hlater⟩ := List.append_inj hlater
    (nonce.property.trans me.nonce.property.symm)
  obtain ⟨hdiscriminator, hlater⟩ := List.append_inj hlater
    (discriminator.property.trans me.discriminator.property.symm)
  exact ⟨Subtype.ext hnonce, Subtype.ext hdiscriminator, later, hlater⟩

/-- A handshake that was read off the script names its joiner. -/
theorem Presents.of_script (h : Presents X id read got) (hread : read <+: me.script X msgs) :
    id = peerId X me.discriminator ∧ read = me.hello ++ got := by
  obtain ⟨nonce, discriminator, rfl, rfl⟩ := h
  rw [Guest.script_split] at hread
  obtain ⟨rfl, rfl, -⟩ := hello_of_prefix hread
  exact ⟨rfl, rfl⟩

/-- The frame behind the handshake is the one of the name. -/
theorem nameFrame_of_prefix {frame later : List UInt8} (hname : Encodes X.json (.system me.name))
    (hframe : readFrame got = .frame frame)
    (hgot : got <+: frameBytes X.json (.system me.name) ++ later) :
    frame = frameBytes X.json (.system me.name) := by
  obtain ⟨more, hmore⟩ := hgot
  have hfirst := Format.progress_append_frame hframe more
  have hsecond := Format.progress_append_frame (readFrame_encodeMessage hname.encodeMessage) later
  rw [hmore, hsecond] at hfirst
  exact (Progress.frame.inj hfirst).symm

/-- A complete handshake that was read off the script gives the id and the name of
its joiner, and ends where the name frame does. -/
theorem Greets.of_script (h : Greets X info read got) (hname : Encodes X.json (.system me.name))
    (hread : read <+: me.script X msgs) :
    info.id = peerId X me.discriminator ∧ info.name = me.name ∧ read = me.script X [] ++ got := by
  obtain ⟨nonce, discriminator, frame, msg, hid, hmsgName, hframe, hdecode, rfl⟩ := h
  rw [Guest.script_split, List.append_assoc (nonce.val ++ discriminator.val)] at hread
  obtain ⟨rfl, rfl, hrest⟩ := hello_of_prefix hread
  have hexact := nameFrame_of_prefix hname (Format.progress_append_frame hframe got) hrest
  rw [hexact, decodeMessage_encodeMessage hname.encodeMessage] at hdecode
  have hmsg := Except.ok.inj hdecode
  refine ⟨hid, ?_, ?_⟩
  · rw [hmsgName, ← hmsg]
    rfl
  · rw [hexact]
    simp [Guest.script, Guest.hello]

/-- A reader of the name that has part of the script is waiting for more or has
exactly the name. -/
theorem progress_name (hname : Encodes X.json (.system me.name)) (hne : got ≠ [])
    (hgot : me.hello ++ got <+: me.script X msgs) :
    (∃ k, readFrame got = .needs k) ∨
      readFrame got = .frame (frameBytes X.json (.system me.name)) := by
  rw [Guest.script_split, List.prefix_append_right_inj] at hgot
  by_cases hlen : (frameBytes X.json (.system me.name)).length ≤ got.length
  · obtain ⟨more, rfl⟩ := List.prefix_of_prefix_length_le (List.prefix_append ..) hgot hlen
    exact .inr (Format.progress_append_frame (readFrame_encodeMessage hname.encodeMessage) more)
  · have hfront := List.prefix_of_prefix_length_le hgot (List.prefix_append ..)
      (Nat.le_of_not_le hlen)
    -- a front part of a single frame
    have hsingle : got <+: [WireMessage.system me.name].flatMap (frameBytes X.json) := by
      rwa [List.flatMap_singleton]
    have hcases := Format.progress_of_frames (F := wireFormat) (fun msg hmsg => by
      rw [List.mem_singleton.mp hmsg]
      exact readFrame_encodeMessage hname.encodeMessage) hsingle hne
    rcases hcases with hmore | ⟨msg, rest, heq, hframe⟩
    · exact .inl hmore
    · cases heq
      exact .inr hframe

/-- What follows the bytes of the name on the hub: it waits for more, or it has the
name of the joiner. -/
theorem nameRead_of_script {chunk : List UInt8} (hname : Encodes X.json (.system me.name))
    (hne : chunk ≠ []) (hgot : me.hello ++ (got ++ chunk) <+: me.script X msgs)
    (deadline now : ℕ) :
    nameRead X.json id (got ++ chunk) deadline now = .readName id (got ++ chunk) deadline ∨
      nameRead X.json id (got ++ chunk) deadline now = .register ⟨id, me.name, now⟩ := by
  have hgotNe : got ++ chunk ≠ [] := fun hnil => hne (List.append_eq_nil_iff.mp hnil).2
  rcases progress_name hname hgotNe hgot with ⟨k, hneeds⟩ | hframe
  · left
    rw [nameRead, hneeds]
  · right
    rw [nameRead, hframe]
    simp only [decodeMessage_encodeMessage hname.encodeMessage]
    rfl

end Nullpipe

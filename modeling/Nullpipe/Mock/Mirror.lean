import Nullpipe.Mock.Replay
import Nullpipe.Mock.Rerun

/-!
# The mock joiner and the joiner

The plan for the mock has it run "the same handshake and `Joiner::run()` code".  The handshake
is the same; the reader and the writer are not.  The joiner shows every message that decodes and
passes over what does not, the mock shows chat messages only and stops at the first frame that
does not decode; and only the joiner shows its user the texts it sends.

`StandsIn` says that the two can come to the same outcomes, up to the sender of a message, when
nothing disturbs either.  `mock_stands_in_iff` is proved by cases on what the hub and the user
do.

* If the hub does not let the joiner in, both fail with the same errors.
* If it does and the user says nothing, the outcomes are what the two readers make of the
  stream.  The mock never hands on more than the joiner (`length_mockedOf_le`), and it hands on
  as much only of chat messages with nothing behind them that decodes
  (`chatsFirst_of_length`).  Then it hands on the same (`ChatsFirst.map_faceless`).
* If it does and the user has a text, the joiner has an outcome with one event more
  (`exists_longer_outcome`).
-/

namespace Nullpipe

open Channel Framing Transition Mock

variable {X : Crates} {checks : Bool} {me : Guest} {bytes : List UInt8} {texts : List String}
  {start : ℕ} {config : JoinConfig} {json : SerdeJson} {frames : List (List UInt8)}

/-! ## The two readers -/

/-- Chat messages, and behind them nothing that decodes. -/
def ChatsFirst (json : SerdeJson) (frames : List (List UInt8)) : Prop :=
  ∃ chats rest, frames = chats ++ rest ∧
    (∀ f ∈ chats, ∃ msg, decodeMessage json f = .ok msg ∧ msg.kind = .chat) ∧
    ∀ f ∈ rest, ∃ e, decodeMessage json f = .error e

/-- What the reader of the joiner hands on of some frames. -/
def shownOf (json : SerdeJson) (frames : List (List UInt8)) : List ChatEvent :=
  Verdict.handed (frames.map (readAll json incomingEvent))

/-- What the reader of the mock does. -/
def mockedOf (json : SerdeJson) (frames : List (List UInt8)) : List ChatEvent :=
  Verdict.handed (frames.map (hears json))

theorem shownOf_ok {f : List UInt8} {msg : WireMessage} (h : decodeMessage json f = .ok msg) :
    shownOf json (f :: frames) = incomingEvent msg :: shownOf json frames := by
  rw [shownOf, List.map_cons, Verdict.handed_cons, readAll, decoded, h]
  rfl

theorem shownOf_error {f : List UInt8} {e : ChatError} (h : decodeMessage json f = .error e) :
    shownOf json (f :: frames) = shownOf json frames := by
  rw [shownOf, List.map_cons, Verdict.handed_cons, readAll, decoded, h]
  rfl

theorem mockedOf_chat {f : List UInt8} {msg : WireMessage} (h : decodeMessage json f = .ok msg)
    (hkind : msg.kind = .chat) :
    mockedOf json (f :: frames) =
      .message ⟨"[peer]"⟩ msg.name msg.text :: mockedOf json frames := by
  have hverdict : hears json f = .hand (.message ⟨"[peer]"⟩ msg.name msg.text) := by
    rw [hears, decoded, h]
    exact if_pos hkind
  rw [mockedOf, List.map_cons, Verdict.handed_cons, hverdict]
  rfl

theorem mockedOf_other {f : List UInt8} {msg : WireMessage} (h : decodeMessage json f = .ok msg)
    (hkind : msg.kind ≠ .chat) : mockedOf json (f :: frames) = mockedOf json frames := by
  have hverdict : hears json f = .skip := by
    rw [hears, decoded, h]
    exact if_neg hkind
  rw [mockedOf, List.map_cons, Verdict.handed_cons, hverdict]
  rfl

theorem mockedOf_error {f : List UInt8} {e : ChatError} (h : decodeMessage json f = .error e) :
    mockedOf json (f :: frames) = [] := by
  rw [mockedOf, List.map_cons, Verdict.handed_cons, hears, decoded, h]
  rfl

/-- A joiner shows nothing of frames that do not decode. -/
theorem shownOf_eq_nil_iff :
    shownOf json frames = [] ↔ ∀ f ∈ frames, ∃ e, decodeMessage json f = .error e := by
  induction frames with
  | nil => exact ⟨fun _ f hf => absurd hf List.not_mem_nil, fun _ => rfl⟩
  | cons f frames ih =>
      cases hdecode : decodeMessage json f with
      | ok msg =>
          rw [shownOf_ok hdecode]
          constructor
          · intro hnil
            cases hnil
          · intro hall
            obtain ⟨e, he⟩ := hall f (List.mem_cons_self ..)
            rw [hdecode] at he
            cases he
      | error e =>
          rw [shownOf_error hdecode, ih]
          constructor
          · intro hall f' hf'
            rcases List.mem_cons.mp hf' with rfl | hmem
            · exact ⟨e, hdecode⟩
            · exact hall f' hmem
          · intro hall f' hf'
            exact hall f' (List.mem_cons_of_mem _ hf')

/-- The mock hands on no more than the joiner. -/
theorem length_mockedOf_le (json : SerdeJson) (frames : List (List UInt8)) :
    (mockedOf json frames).length ≤ (shownOf json frames).length := by
  induction frames with
  | nil => exact Nat.le_refl _
  | cons f frames ih =>
      cases hdecode : decodeMessage json f with
      | error e =>
          rw [mockedOf_error hdecode]
          exact Nat.zero_le _
      | ok msg =>
          rw [shownOf_ok hdecode, List.length_cons]
          by_cases hkind : msg.kind = .chat
          · rw [mockedOf_chat hdecode hkind, List.length_cons]
            omega
          · rw [mockedOf_other hdecode hkind]
            omega

/-- **The two readers hand on equally much** of chat messages that nothing else follows. -/
theorem chatsFirst_of_length
    (hlen : (shownOf json frames).length = (mockedOf json frames).length) :
    ChatsFirst json frames := by
  induction frames with
  | nil =>
      exact ⟨[], [], rfl, fun f hf => absurd hf List.not_mem_nil,
        fun f hf => absurd hf List.not_mem_nil⟩
  | cons f frames ih =>
      cases hdecode : decodeMessage json f with
      | error e =>
          rw [mockedOf_error hdecode] at hlen
          refine ⟨[], f :: frames, rfl, fun f hf => absurd hf List.not_mem_nil, ?_⟩
          exact shownOf_eq_nil_iff.mp (List.length_eq_zero_iff.mp hlen)
      | ok msg =>
          rw [shownOf_ok hdecode, List.length_cons] at hlen
          by_cases hkind : msg.kind = .chat
          · rw [mockedOf_chat hdecode hkind, List.length_cons] at hlen
            obtain ⟨chats, rest, rfl, hchats, hrest⟩ := ih (by omega)
            refine ⟨f :: chats, rest, rfl, ?_, hrest⟩
            intro f' hf'
            rcases List.mem_cons.mp hf' with rfl | hmem
            · exact ⟨msg, hdecode, hkind⟩
            · exact hchats f' hmem
          · have hle := length_mockedOf_le json frames
            rw [mockedOf_other hdecode hkind] at hlen
            omega

/-- **And they hand on the same**, but for the sender. -/
theorem ChatsFirst.map_faceless (h : ChatsFirst json frames) :
    (shownOf json frames).map faceless = (mockedOf json frames).map faceless := by
  obtain ⟨chats, rest, rfl, hchats, hrest⟩ := h
  induction chats with
  | nil =>
      rw [List.nil_append, shownOf_eq_nil_iff.mpr hrest]
      cases rest with
      | nil => rfl
      | cons f rest =>
          obtain ⟨e, he⟩ := hrest f (List.mem_cons_self ..)
          rw [mockedOf_error he]
  | cons f chats ih =>
      obtain ⟨msg, hdecode, hkind⟩ := hchats f (List.mem_cons_self ..)
      have hrec := ih fun f' hf' => hchats f' (List.mem_cons_of_mem _ hf')
      rw [List.cons_append, shownOf_ok hdecode, mockedOf_chat hdecode hkind, List.map_cons,
        List.map_cons, hrec]
      rfl

/-! ## The two joiners -/

/-- The joiner and the mock can come to the same. -/
def StandsIn (X : Crates) (checks : Bool) (config : JoinConfig) (me : Guest) (bytes : List UInt8)
    (texts : List String) (start : ℕ) : Prop :=
  ∀ o, JoinerOutcome X checks config me bytes texts start o ↔
    MockOutcome X me bytes texts start o

/-- **A mock that stands in for a joiner with something to show** shows as much. -/
theorem StandsIn.chatsFirst (h : StandsIn X checks config me bytes texts start)
    (hadmits : Admits X me bytes) :
    texts = [] ∧ ChatsFirst X.json (wireFormat.frames bytes.tail) := by
  have hlength : ∀ o, JoinerOutcome X checks config me bytes texts start o →
      o.events.length = (mockedOf X.json (wireFormat.frames bytes.tail)).length + 2 := by
    intro o ho
    rcases ((h o).mp ho).events with ⟨e, hrefuses, -⟩ | ⟨-, -, joinedAt, -, hevents⟩
    · exact absurd hadmits hrefuses.not_admits
    · rw [hevents]
      simp only [List.length_map, List.length_append, List.length_cons, List.length_nil]
      rfl
  -- a run in which nobody says anything
  have hquiet := hlength _ (joinerOutcome_of_listens (.ran hadmits (Nat.le_refl start)))
  have hsame : (shownOf X.json (wireFormat.frames bytes.tail)).length =
      (mockedOf X.json (wireFormat.frames bytes.tail)).length := by
    simp only [List.length_map, List.length_append, List.length_cons, List.length_nil] at hquiet
    exact Nat.add_right_cancel (m := 2) hquiet
  refine ⟨?_, chatsFirst_of_length hsame⟩
  cases texts with
  | nil => rfl
  | cons text rest =>
      obtain ⟨o, ho, hlong⟩ := exists_longer_outcome checks config start text rest hadmits
      have hshort := hlength o ho
      have hshown : (wireFormat.heard (incoming X) bytes.tail).length =
          (shownOf X.json (wireFormat.frames bytes.tail)).length := rfl
      omega

/-- The outcomes of listening to equal events. -/
theorem Mock.Listens.congr {heard heard' : List ChatEvent} {o : Mock.Outcome}
    (hsame : heard.map faceless = heard'.map faceless)
    (h : Listens X me bytes start heard o) : Listens X me bytes start heard' o := by
  cases h with
  | refused h => exact .refused h
  | @ran joinedAt hadmits hle =>
      have hmap : (joinEvent X me joinedAt :: heard ++ [ChatEvent.roomClosed]).map faceless =
          (joinEvent X me joinedAt :: heard' ++ [ChatEvent.roomClosed]).map faceless := by
        simp only [List.map_append, List.map_cons, hsame]
      rw [hmap]
      exact .ran hadmits hle

/-- **When the mock stands in for the joiner.**  They can come to the same, up to the sender of the
messages, exactly if the hub does not let the joiner in, or if the user says nothing and the
stream is of chat messages, with nothing behind them that decodes. -/
theorem mock_stands_in_iff (X : Crates) (checks : Bool) (config : JoinConfig) (me : Guest)
    (bytes : List UInt8) (texts : List String) (start : ℕ) :
    StandsIn X checks config me bytes texts start ↔
      ¬ Admits X me bytes ∨
        texts = [] ∧ ChatsFirst X.json (wireFormat.frames bytes.tail) := by
  constructor
  · intro hstands
    by_cases hadmits : Admits X me bytes
    · exact .inr (hstands.chatsFirst hadmits)
    · exact .inl hadmits
  · rintro (hrefused | ⟨rfl, hchats⟩) o
    · constructor
      · intro ho
        have hlistens := ho.listens fun hadmits => absurd hadmits hrefused
        cases hlistens with
        | refused h => exact mockOutcome_of_listens (.refused h)
        | ran hadmits => exact absurd hadmits hrefused
      · intro ho
        rcases ho.events with ⟨e, hrefuses, rfl⟩ | ⟨hadmits, -⟩
        · exact joinerOutcome_of_refuses hrefuses
        · exact absurd hadmits hrefused
    · constructor
      · intro ho
        have hlistens := ho.listens fun _ => rfl
        exact mockOutcome_of_listens (hlistens.congr hchats.map_faceless)
      · intro ho
        exact joinerOutcome_of_listens (ho.listens.congr hchats.map_faceless.symm)

/-- The join notice of a hub is shown by the joiner and not by the mock, and so is a text that
the user sends. -/
theorem mock_differs :
    ¬ StandsIn .standard true ⟨"ann", ""⟩ annGuest
      (0 :: frameBytes SerdeJson.standard (.system "ann joined")) [] 0 ∧
    ¬ StandsIn .standard true ⟨"ann", ""⟩ annGuest [0] ["hi"] 0 := by
  have hname : Encodes SerdeJson.standard (.system annGuest.name) := by decide
  have hnotice : Encodes SerdeJson.standard (.system "ann joined") := by decide
  have hencode := hnotice.encodeMessage
  constructor
  · intro hstands
    -- the frame of the notice decodes, and not to a chat message
    obtain ⟨-, chats, rest, hframes, hchats, hrest⟩ := hstands.chatsFirst ⟨rfl, hname⟩
    have hone : wireFormat.frames (frameBytes SerdeJson.standard (.system "ann joined")) =
        [frameBytes SerdeJson.standard (.system "ann joined")] := by
      rw [Format.frames, Format.messages_of_frame (readFrame_encodeMessage hencode) rfl,
        List.drop_length]
      rfl
    have hdecode := decodeMessage_encodeMessage hencode
    rw [List.tail_cons, hone] at hframes
    cases chats with
    | nil =>
        obtain ⟨e, he⟩ := hrest _ (hframes ▸ List.mem_singleton_self _)
        have herror : decodeMessage SerdeJson.standard _ = .error e := he
        rw [hdecode] at herror
        cases herror
    | cons f chats =>
        obtain ⟨msg, hmsg, hkind⟩ := hchats f (List.mem_cons_self ..)
        rw [← (List.cons.inj hframes).1] at hmsg
        have hok : decodeMessage SerdeJson.standard _ = .ok msg := hmsg
        rw [hdecode] at hok
        cases hok
        cases hkind
  · intro hstands
    -- the user has said something
    have hnone := (hstands.chatsFirst ⟨rfl, hname⟩).1
    cases hnone

end Nullpipe

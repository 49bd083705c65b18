import Nullpipe.Hub.Handshake

/-!
# The answer to a client

A handshake of the hub takes turns: it listens until its buffer is full, looks the nonce
up, and answers.  As long as what is read and written fits the turn, the answer is a
function of the bytes of the client and of the nonces used before, whatever the chunks;
a parameter is what is said to a stream that is cut short.

The module names neither of the two implementations.  `Turn` is the place of a handshake as
both see it, and `Turn.Fits` what a socket and a set of nonces have to do with it, so that each
implementation needs one lemma for each of its steps: `Turn.Fits.listened`, `Turn.Fits.grant`,
`Turn.Fits.refuse`, `Turn.Fits.cut` and `Turn.Fits.write`.  `Turn.Fits.arrive` covers the
network: what comes in does not change the turn, unless the stream had ended.

`Turn.Fits.answer` is the result: at its end a handshake has given the client the answer that
`answer` computes of its bytes.
-/

namespace Nullpipe.Hub

open Channel

variable {X : Crates} {used used' : Finset Bytes16}
  {short : ReadEnd → List UInt8} {k : Socket} {bytes buf rest : List UInt8}
  {nonce discriminator : Bytes16}

/-! ## The answer -/

/-- What a client gets: the reply bytes, the used nonces after it, and its id if it is
accepted. -/
structure Answer where
  reply : List UInt8
  used : Finset Bytes16
  id : Option PeerId

/-- The answer to a nonce and a discriminator. -/
def answerTo (X : Crates) (used : Finset Bytes16) (nonce discriminator : Bytes16) : Answer :=
  if nonce ∈ used then ⟨[1], used, none⟩
  else ⟨[0], insert nonce used, some (peerId X discriminator)⟩

theorem length_take_handshakeLen (hfull : handshakeLen ≤ bytes.length) :
    (bytes.take handshakeLen).length = handshakeLen := by
  rw [List.length_take]
  omega

/-- The answer to the bytes of a client, where `short` is said to a stream that is cut
short. -/
def answer (X : Crates) (used : Finset Bytes16) (short bytes : List UInt8) : Answer :=
  if h : handshakeLen ≤ bytes.length then
    answerTo X used (nonceBytes (bytes.take handshakeLen) (length_take_handshakeLen h))
      (discriminatorBytes (bytes.take handshakeLen) (length_take_handshakeLen h))
  else
    ⟨short, used, none⟩

/-- The stream of a client: its bytes, and how it ends. -/
structure Client where
  bytes : List UInt8
  ending : ReadEnd

/-- What has come in is what this client sends, as far as it has got. -/
def Client.Sends (client : Client) (k : Socket) : Prop :=
  k.arrived <+: client.bytes ∧ ∀ e, k.readEnd = some e → e = client.ending ∧
    k.arrived = client.bytes

theorem Client.sends_of_arrived {client : Client} (harrived : k.arrived = client.bytes)
    (hend : k.readEnd = some client.ending) : client.Sends k := by
  refine ⟨harrived ▸ List.prefix_refl _, fun e he => ⟨?_, harrived⟩⟩
  rw [hend] at he
  exact (Option.some.inj he).symm

theorem length_hello (nonce discriminator : Bytes16) :
    (nonce.val ++ discriminator.val).length = handshakeLen := by
  rw [List.length_append, nonce.property, discriminator.property]
  rfl

theorem answer_of_hello {said : List UInt8} (h : nonce.val ++ discriminator.val <+: bytes) :
    answer X used said bytes = answerTo X used nonce discriminator := by
  have hlen := length_hello nonce discriminator
  have hfull : handshakeLen ≤ bytes.length := hlen ▸ h.length_le
  have htake : bytes.take handshakeLen = nonce.val ++ discriminator.val := by
    obtain ⟨more, rfl⟩ := h
    exact List.take_left' hlen
  rw [answer, dif_pos hfull]
  have hnonce : (bytes.take handshakeLen).take 16 = nonce.val := by
    rw [htake]
    exact List.take_left' nonce.property
  have hdiscriminator : (bytes.take handshakeLen).drop 16 = discriminator.val := by
    rw [htake]
    exact List.drop_left' nonce.property
  congr 1
  · exact Subtype.ext hnonce
  · exact Subtype.ext hdiscriminator

theorem answer_of_short {said : List UInt8} (h : bytes.length < handshakeLen) :
    answer X used said bytes = ⟨said, used, none⟩ := dif_neg (Nat.not_le.mpr h)

/-! ## Turns -/

/-- Where a handshake stands; `rest` is what is left of the reply. -/
inductive Turn
  | listening (buf : List UInt8)
  | checking (nonce discriminator : Bytes16)
  | granted (id : PeerId) (rest : List UInt8)
  | refused (rest : List UInt8)
  | cutShort (rest : List UInt8)
  /-- returned `Err` -/
  | failed

/-- The turn after the buffer has been filled up to `buf`. -/
def listened (buf : List UInt8) : Turn :=
  if h : buf.length = handshakeLen then .checking (nonceBytes buf h) (discriminatorBytes buf h)
  else .listening buf

/-- A full buffer was read, and this is the answer to it. -/
def Decided (X : Crates) (used : Finset Bytes16) (read : List UInt8) (a : Answer) : Prop :=
  ∃ nonce discriminator : Bytes16, read = nonce.val ++ discriminator.val ∧
    answerTo X used nonce discriminator = a

/-- The stream has ended before the buffer was full. -/
def CutShort (used : Finset Bytes16) (short : ReadEnd → List UInt8) (k : Socket) (a : Answer) :
    Prop :=
  k.read.length < handshakeLen ∧ k.inbox = [] ∧ ∃ e, k.readEnd = some e ∧ a = ⟨short e, used, none⟩

/-- What was read and written agrees with the turn; `used` are the nonces used before. -/
def Turn.Fits (X : Crates) (used : Finset Bytes16) (short : ReadEnd → List UInt8) (k : Socket)
    (used' : Finset Bytes16) : Turn → Prop
  | .listening buf => k.read = buf ∧ buf.length < handshakeLen ∧ k.written = [] ∧ used' = used
  | .checking nonce discriminator =>
    k.read = nonce.val ++ discriminator.val ∧ k.written = [] ∧ used' = used
  | .granted id rest => Decided X used k.read ⟨k.written ++ rest, used', some id⟩
  | .refused rest => Decided X used k.read ⟨k.written ++ rest, used', none⟩
  | .cutShort rest => CutShort used short k ⟨k.written ++ rest, used', none⟩
  | .failed => Decided X used k.read ⟨k.written, used', none⟩ ∨
    CutShort used short k ⟨k.written, used', none⟩

/-- The handshake has answered, and whom it has accepted. -/
def Turn.answered : Turn → Option (Option PeerId)
  | .granted id [] => some (some id)
  | .failed => some none
  | _ => none

theorem Turn.Fits.listened {chunk : List UInt8}
    (h : (Turn.listening buf).Fits X used short k used')
    (hfit : buf.length + chunk.length ≤ handshakeLen) :
    (listened (buf ++ chunk)).Fits X used short (k.take chunk) used' := by
  obtain ⟨hread, -, hwritten, hused⟩ := h
  have hread' : (k.take chunk).read = buf ++ chunk := by rw [Socket.read_take, hread]
  unfold Hub.listened
  split
  · refine ⟨?_, hwritten, hused⟩
    rw [hread']
    exact (List.take_append_drop 16 _).symm
  · rename_i hlen
    rw [List.length_append] at hlen
    exact ⟨hread', by rw [List.length_append]; omega, hwritten, hused⟩

/-- A new nonce is inserted. -/
theorem Turn.Fits.grant (h : (Turn.checking nonce discriminator).Fits X used short k used')
    (hfresh : nonce ∉ used') :
    (Turn.granted (peerId X discriminator) [0]).Fits X used short k (insert nonce used') := by
  obtain ⟨hread, hwritten, rfl⟩ := h
  refine ⟨nonce, discriminator, hread, ?_⟩
  rw [answerTo, if_neg hfresh, hwritten]
  rfl

theorem Turn.Fits.refuse (h : (Turn.checking nonce discriminator).Fits X used short k used')
    (hused : nonce ∈ used') : (Turn.refused [1]).Fits X used short k used' := by
  obtain ⟨hread, hwritten, rfl⟩ := h
  refine ⟨nonce, discriminator, hread, ?_⟩
  rw [answerTo, if_pos hused, hwritten]
  rfl

/-- The stream ends, and what is said to that is to be written. -/
theorem Turn.Fits.cut {e : ReadEnd} (h : (Turn.listening buf).Fits X used short k used')
    (hinbox : k.inbox = []) (hend : k.readEnd = some e) :
    (Turn.cutShort (short e)).Fits X used short k used' := by
  obtain ⟨rfl, hlen, hwritten, rfl⟩ := h
  exact ⟨hlen, hinbox, e, hend, by rw [hwritten, List.nil_append]⟩

/-- Part of the reply is written. -/
theorem Turn.Fits.write {chunk : List UInt8} :
    (∀ {id}, (Turn.granted id (chunk ++ rest)).Fits X used short k used' →
      (Turn.granted id rest).Fits X used short (k.write chunk) used') ∧
    ((Turn.refused (chunk ++ rest)).Fits X used short k used' →
      (Turn.refused rest).Fits X used short (k.write chunk) used') ∧
    ((Turn.cutShort (chunk ++ rest)).Fits X used short k used' →
      (Turn.cutShort rest).Fits X used short (k.write chunk) used') := by
  unfold Turn.Fits
  simp only [Socket.written_write, Socket.read_write, List.append_assoc, CutShort,
    Socket.inbox_write, Socket.readEnd_write]
  exact ⟨id, id, id⟩

/-- The whole reply is written. -/
theorem Turn.Fits.failed_of_refused (h : (Turn.refused []).Fits X used short k used') :
    Turn.failed.Fits X used short k used' := by
  simp only [Turn.Fits, List.append_nil] at h
  exact .inl h

theorem Turn.Fits.failed_of_cutShort (h : (Turn.cutShort []).Fits X used short k used') :
    Turn.failed.Fits X used short k used' := by
  simp only [Turn.Fits, List.append_nil] at h
  exact .inr h

/-- **The answer is a function of the client and of the nonces used before.** -/
theorem Turn.Fits.answer {turn : Turn} {client : Client} {id : Option PeerId}
    (h : turn.Fits X used short k used') (hsends : client.Sends k)
    (hanswered : turn.answered = some id) :
    (⟨k.written, used', id⟩ : Answer) = answer X used (short client.ending) client.bytes := by
  have hread : k.read <+: client.bytes := (List.prefix_append ..).trans hsends.1
  have hdecided : ∀ {a : Answer}, Decided X used k.read a →
      a = Hub.answer X used (short client.ending) client.bytes := by
    rintro a ⟨nonce, discriminator, heq, rfl⟩
    exact (answer_of_hello (heq ▸ hread)).symm
  have hcut : ∀ {a : Answer}, CutShort used short k a →
      a = Hub.answer X used (short client.ending) client.bytes := by
    rintro a ⟨hlen, hinbox, e, hend, rfl⟩
    obtain ⟨rfl, hall⟩ := hsends.2 e hend
    rw [Socket.arrived, hinbox, List.append_nil] at hall
    exact (answer_of_short (hall ▸ hlen)).symm
  cases turn with
  | granted id' rest =>
      cases rest with
      | nil =>
          cases hanswered
          simp only [Turn.Fits, List.append_nil] at h
          exact hdecided h
      | cons => cases hanswered
  | failed =>
      cases hanswered
      exact h.elim hdecided hcut
  | _ => cases hanswered

/-- What comes in does not change the turn, unless the stream had ended. -/
theorem Turn.Fits.arrive {turn : Turn} (h : turn.Fits X used short k used') {k' : Socket}
    (hopen : k.readEnd = none) (hread : k'.read = k.read) (hwritten : k'.written = k.written) :
    turn.Fits X used short k' used' := by
  have hcut : ∀ {a : Answer}, ¬ CutShort used short k a := by
    rintro a ⟨-, -, e, hend, -⟩
    rw [hopen] at hend
    cases hend
  cases turn with
  | cutShort => exact absurd h hcut
  | failed =>
      unfold Turn.Fits
      rw [hread, hwritten]
      exact .inl (h.resolve_right hcut)
  | _ =>
      unfold Turn.Fits
      rw [hread, hwritten]
      exact h

end Nullpipe.Hub

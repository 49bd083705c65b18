import Nullpipe.Hub.Answer
import Nullpipe.Room.Frame
import Nullpipe.Core.Standard

/-!
# Two handshakes, one answer

`Hub::handshake` fills its buffer read by read, `hub_handshake` with one `read_exact`.
Both go through the same turns (`Answer.lean`), so on a whole handshake they give the same
answer.  To a stream that is cut short the one says `1`, the other nothing.

For each of the two the module proves that the answer is a function of what the client sends,
which is two statements.

* **No other answer.**  Each phase has its turn (`Phase.turn`, `Handler.turn`).  While nothing
  disturbs the handshake, what it has read and written fits its turn: `PhaseStep.atTurn` and
  `HandlerStep.atTurn`, hence `HubAnswers.eq` and `RoomAnswers.eq`.
* **An answer.**  There is a run to it, whatever the client sends.  The stream brings all of it
  (`exists_hubRun_arrived`); then either the buffer fills and the nonce is looked up
  (`exists_hubRun_checked`), or the stream is read to its end (`exists_hubRun_short`).  The
  same three steps are made for the room.

Together these are `hubAnswers_iff` and `roomAnswers_iff`.  The comparison in
`handshakes_agree_iff` is then one of two functions: they differ exactly on a stream that ends
in good order before 32 bytes.  A stream that breaks off gets the same from both, namely
nothing.
-/

namespace Nullpipe.Hub

open Channel Transition

variable {X : Crates} {c : ConnId} {used : Finset Bytes16} {bytes : List UInt8}
  {nonce discriminator : Bytes16}

/-! ## `Hub::handshake` -/

/-- What `Hub::handshake` says to a stream that is cut short. -/
def hubShort : ReadEnd → List UInt8
  | .eof => [1]
  | .error => []

def Phase.turn (X : Crates) : Phase → Turn
  | .idle => .listening []
  | .reading buf _ => .listening buf
  | .rejectEof rest => .cutShort rest
  | .lockNonces nonce discriminator => .checking nonce discriminator
  | .rejectReused rest => .refused rest
  | .writeAccept discriminator rest _ => .granted (peerId X discriminator) rest
  | .flushAccept discriminator _ => .granted (peerId X discriminator) []
  | .admitted id _ => .granted id []
  | .failed _ => .failed

/-- The handshake has returned, and whom it has accepted. -/
def Phase.answered : Phase → Option (Option PeerId)
  | .admitted id _ => some (some id)
  | .failed _ => some none
  | _ => none

/-- No timeout fires, no write and no flush fails. -/
def PhaseLabel.Quiet : PhaseLabel → Prop
  | .readTimeout | .writeFail _ | .writeTimeout | .flushFail _ | .flushTimeout => False
  | _ => True

/-- A step of connection `c` alone, which nothing disturbs. -/
def HubLabel.Alone (c : ConnId) : HubLabel → Prop
  | .handshake d l => d = c ∧ l.Quiet
  | .arrive d _ | .finish d _ => d = c
  | .tick _ => True

/-- The handshake of `c` has not returned. -/
def Unanswered (c : ConnId) (s : HubState) (_ : HubLabel) : Prop :=
  (s.conns c).phase.answered = none

/-- `Hub::handshake`, alone with a client, comes to this answer: in some run with the
client's bytes cut into any chunks. -/
def HubAnswers (X : Crates) (used : Finset Bytes16) (client : Client) (a : Answer) : Prop :=
  ∃ c ls s t, s.conns c = ⟨.fresh, .idle⟩ ∧ s.used = used ∧ s.nonceLock = none ∧
    Run (Guarded (fun l s t => HubStep X l s t ∧ l.Alone c) (Unanswered c)) s ls t ∧
    client.Sends (t.conns c).sock ∧ (t.conns c).phase.answered = some a.id ∧
    a.reply = (t.conns c).sock.written ∧ a.used = t.used

theorem turn_afterRead (X : Crates) (buf : List UInt8) (now : ℕ) :
    (afterRead buf now).turn X = listened buf := by
  unfold afterRead listened
  split <;> rfl

theorem Phase.answered_turn {phase : Phase} {id : Option PeerId}
    (h : phase.answered = some id) : (phase.turn X).answered = some id := by
  cases phase with
  | admitted | failed => exact h
  | _ => cases h

/-- A handshake at its turn. -/
def HubState.AtTurn (X : Crates) (used : Finset Bytes16) (c : ConnId) (s : HubState) : Prop :=
  ((s.conns c).phase.turn X).Fits X used hubShort (s.conns c).sock s.used

theorem PhaseStep.atTurn {l : PhaseLabel} {s t : HubState} (h : PhaseStep X c l s t)
    (hl : l.Quiet) (hwaits : (s.conns c).phase.answered = none) (hs : s.AtTurn X used c) :
    t.AtTurn X used c := by
  unfold HubState.AtTurn at hs ⊢
  -- each phase has its turn, and a step either stays in it or takes the next one
  cases h with
  | start hphase =>
      rw [hphase] at hs
      simp only [HubState.conns_setConn_self]
      exact hs
  | read hphase htake hfit =>
      rw [hphase] at hs
      simp only [HubState.conns_setConn_self, turn_afterRead]
      exact hs.listened hfit
  | readEof hphase hinbox hend =>
      rw [hphase] at hs
      simp only [HubState.conns_setConn_self]
      exact hs.cut hinbox hend
  | readFail hphase hinbox hend =>
      rw [hphase] at hs
      simp only [HubState.conns_setConn_self]
      exact (hs.cut hinbox hend).failed_of_cutShort
  | writeEof hphase =>
      rw [hphase] at hs
      simp only [HubState.conns_setConn_self]
      have hwritten := Turn.Fits.write.2.2 hs
      split
      · rename_i hrest
        subst hrest
        exact hwritten.failed_of_cutShort
      · exact hwritten
  | insertNonce hphase _ hfresh =>
      rw [hphase] at hs
      simp only [HubState.conns_setConn_self]
      exact hs.grant hfresh
  | refuseNonce hphase _ hused =>
      rw [hphase] at hs
      simp only [HubState.conns_setConn_self]
      exact hs.refuse hused
  | writeReject hphase =>
      rw [hphase] at hs
      simp only [HubState.conns_setConn_self]
      have hwritten := Turn.Fits.write.2.1 hs
      split
      · rename_i hrest
        subst hrest
        exact hwritten.failed_of_refused
      · exact hwritten
  | writeAccept hphase =>
      rw [hphase] at hs
      simp only [HubState.conns_setConn_self]
      have hwritten := Turn.Fits.write.1 hs
      split
      · rename_i hrest
        subst hrest
        exact hwritten
      · exact hwritten
  | flushAccept hphase =>
      rw [hphase] at hs
      simp only [HubState.conns_setConn_self]
      exact hs
  | readTimeout | eofFail | rejectFail | acceptFail | acceptTimeout | flushFail | flushTimeout =>
      cases hl
  | use hphase =>
      rw [hphase] at hwaits
      cases hwaits

theorem HubStep.atTurn {l : HubLabel} {s t : HubState} (h : HubStep X l s t) (hl : l.Alone c)
    (hwaits : (s.conns c).phase.answered = none) (hs : s.AtTurn X used c) : t.AtTurn X used c := by
  cases h with
  | handshake h =>
      obtain ⟨rfl, hquiet⟩ := hl
      exact h.atTurn hquiet hwaits hs
  | arrive hopen | finish hopen =>
      obtain rfl : _ = c := hl
      unfold HubState.AtTurn
      simp only [HubState.conns_setConn_self]
      exact hs.arrive hopen rfl rfl
  | tick => exact hs

theorem HubAnswers.eq {client : Client} {a : Answer} (h : HubAnswers X used client a) :
    a = answer X used (hubShort client.ending) client.bytes := by
  obtain ⟨c, ls, s, t, hidle, rfl, -, hrun, hsends, hanswered, hreply, hused⟩ := h
  have hturn : t.AtTurn X s.used c := by
    refine hrun.invariant (I := fun t => t.AtTurn X s.used c) ?_ fun hs hstep =>
      hstep.1.1.atTurn hstep.1.2 hstep.2 hs
    unfold HubState.AtTurn
    rw [hidle]
    exact ⟨rfl, by decide, rfl, rfl⟩
  obtain ⟨reply, after, id⟩ := a
  obtain rfl : reply = _ := hreply
  obtain rfl : after = _ := hused
  exact hturn.answer hsends (Phase.answered_turn hanswered)

/-! ### A run to the answer -/

/-- The steps of a handshake that nothing disturbs, up to its return. -/
abbrev AloneStep (X : Crates) (c : ConnId) : HubLabel → HubState → HubState → Prop :=
  Guarded (fun l s t => HubStep X l s t ∧ l.Alone c) (Unanswered c)

theorem PhaseStep.alone {l : PhaseLabel} {s t : HubState} (h : PhaseStep X c l s t)
    (hl : l.Quiet) (hwaits : (s.conns c).phase.answered = none) :
    AloneStep X c (.handshake c l) s t := ⟨⟨.handshake h, rfl, hl⟩, hwaits⟩

/-- The stream has brought all its client sends, and the hub starts to read. -/
theorem exists_hubRun_arrived {s : HubState} (hidle : s.conns c = ⟨.fresh, .idle⟩)
    (client : Client) :
    ∃ ls, Run (AloneStep X c) s ls (s.setConn c
      ⟨⟨[], client.bytes, some client.ending, [], 0⟩, .reading [] (s.now + readTimeout)⟩) := by
  have harrive : AloneStep X c (.arrive c client.bytes) s
      (s.setConn c ⟨⟨[], client.bytes, none, [], 0⟩, .idle⟩) := by
    have hstep : HubStep X (.arrive c client.bytes) s _ := .arrive (by rw [hidle]; rfl)
    rw [hidle] at hstep
    exact ⟨⟨hstep, rfl⟩, by rw [Unanswered, hidle]; rfl⟩
  have hfinish : AloneStep X c (.finish c client.ending)
      (s.setConn c ⟨⟨[], client.bytes, none, [], 0⟩, .idle⟩)
      (s.setConn c ⟨⟨[], client.bytes, some client.ending, [], 0⟩, .idle⟩) := by
    have hstep : HubStep X (.finish c client.ending)
        (s.setConn c ⟨⟨[], client.bytes, none, [], 0⟩, .idle⟩) _ :=
      .finish (by rw [HubState.conns_setConn_self])
    rw [HubState.conns_setConn_self, HubState.setConn_setConn] at hstep
    exact ⟨⟨hstep, rfl⟩, by rw [Unanswered, HubState.conns_setConn_self]; rfl⟩
  have hstart : PhaseStep X c .start
      (s.setConn c ⟨⟨[], client.bytes, some client.ending, [], 0⟩, .idle⟩) _ :=
    .start (by rw [HubState.conns_setConn_self])
  rw [HubState.conns_setConn_self, HubState.setConn_setConn] at hstart
  exact ⟨_, ((Run.single harrive).snoc hfinish).snoc
    (hstart.alone trivial (by rw [HubState.conns_setConn_self]; rfl))⟩

/-- A full buffer is answered. -/
theorem exists_hubRun_checked {s : HubState} {sock : Socket} (hlock : s.nonceLock = none)
    (hphase : s.conns c = ⟨sock, .lockNonces nonce discriminator⟩) :
    ∃ ls t id, Run (AloneStep X c) s ls t ∧ (t.conns c).sock.arrived = sock.arrived ∧
      (t.conns c).sock.readEnd = sock.readEnd ∧ (t.conns c).phase.answered = some id := by
  -- a used nonce is answered with 1, a new one with 0
  by_cases hused : nonce ∈ s.used
  · have hrefuse : PhaseStep X c .refuseNonce s _ := .refuseNonce (by rw [hphase]) hlock hused
    rw [hphase] at hrefuse
    have hrun := Run.single (hrefuse.alone trivial (by rw [hphase]; rfl))
    generalize ht : HubState.mk _ _ _ _ = t at hrun
    have hrejecting : t.conns c = ⟨sock, .rejectReused ([1] ++ [])⟩ := by
      rw [← ht]
      exact HubState.conns_setConn_self ..
    have hwrite : PhaseStep X c (.write [1]) t _ :=
      .writeReject (by rw [hrejecting]) (List.cons_ne_nil _ _)
    refine ⟨_, _, none, hrun.snoc (hwrite.alone trivial (by rw [hrejecting]; rfl)), ?_⟩
    simp only [HubState.conns_setConn_self, hrejecting]
    exact ⟨rfl, rfl, rfl⟩
  · have hinsert : PhaseStep X c .insertNonce s _ := .insertNonce (by rw [hphase]) hlock hused
    rw [hphase] at hinsert
    have hrun := Run.single (hinsert.alone trivial (by rw [hphase]; rfl))
    generalize ht : HubState.mk _ _ _ _ = t at hrun
    have haccepting : t.conns c =
        ⟨sock, .writeAccept discriminator ([0] ++ []) (s.now + writeTimeout)⟩ := by
      rw [← ht]
      exact HubState.conns_setConn_self ..
    have hwrite : PhaseStep X c (.write [0]) t _ :=
      .writeAccept (by rw [haccepting]) (List.cons_ne_nil _ _)
    rw [haccepting] at hwrite
    have hrun := hrun.snoc (hwrite.alone trivial (by rw [haccepting]; rfl))
    have hflush : PhaseStep X c .flush
        (t.setConn c ⟨sock.write [0], .flushAccept discriminator (t.now + writeTimeout)⟩) _ :=
      .flushAccept (by rw [HubState.conns_setConn_self])
    rw [HubState.conns_setConn_self, HubState.setConn_setConn] at hflush
    refine ⟨_, _, some (peerId X discriminator), hrun.snoc
      (hflush.alone trivial (by simp only [HubState.conns_setConn_self]; rfl)), ?_⟩
    simp only [HubState.conns_setConn_self]
    exact ⟨rfl, rfl, rfl⟩

/-- The hub reads a stream that is cut short up to its end. -/
theorem exists_hubRun_short {s : HubState} {ending : ReadEnd} {deadline : ℕ}
    (hshort : bytes.length < handshakeLen)
    (hphase : s.conns c = ⟨⟨[], bytes, some ending, [], 0⟩, .reading [] deadline⟩) :
    ∃ ls deadline, Run (AloneStep X c) s ls
      (s.setConn c ⟨⟨bytes, [], some ending, [], 0⟩, .reading bytes deadline⟩) := by
  by_cases hnil : bytes = []
  · subst hnil
    refine ⟨[], deadline, ?_⟩
    have hsame : s.setConn c ⟨⟨[], [], some ending, [], 0⟩, .reading [] deadline⟩ = s := by
      rw [← hphase, HubState.setConn, Function.update_eq_self]
    rw [hsame]
    exact .nil
  · have hread : PhaseStep X c (.read bytes) s _ :=
      .read (by rw [hphase]) (by rw [hphase]; exact ⟨hnil, List.prefix_refl _⟩)
        (by rw [List.length_nil]; omega)
    have hmore : afterRead bytes s.now = .reading bytes (s.now + readTimeout) :=
      dif_neg (Nat.ne_of_lt hshort)
    have hempty : bytes.drop bytes.length = [] := List.drop_length
    simp only [hphase, Socket.take, hempty, List.nil_append, hmore] at hread
    exact ⟨_, _, .single (hread.alone trivial (by rw [hphase]; rfl))⟩

/-- Every client gets an answer. -/
theorem exists_hubRun_answered {s : HubState} (hlock : s.nonceLock = none)
    (hidle : s.conns c = ⟨.fresh, .idle⟩) (client : Client) :
    ∃ ls t id, Run (AloneStep X c) s ls t ∧ client.Sends (t.conns c).sock ∧
      (t.conns c).phase.answered = some id := by
  obtain ⟨ls, hrun⟩ := exists_hubRun_arrived (X := X) hidle client
  -- enough bytes for a handshake, or the stream is cut short
  by_cases hfull : handshakeLen ≤ client.bytes.length
  · have hlen := length_take_handshakeLen hfull
    have hread : PhaseStep X c (.read (client.bytes.take handshakeLen)) (s.setConn c
        ⟨⟨[], client.bytes, some client.ending, [], 0⟩, .reading [] (s.now + readTimeout)⟩) _ :=
      .read (by rw [HubState.conns_setConn_self])
        (by
          rw [HubState.conns_setConn_self]
          exact ⟨List.ne_nil_of_length_pos (by rw [hlen]; decide), List.take_prefix ..⟩)
        (by rw [hlen]; exact Nat.le_refl _)
    rw [HubState.conns_setConn_self, HubState.setConn_setConn, List.nil_append, afterRead,
      dif_pos hlen] at hread
    have hrun := hrun.snoc (hread.alone trivial (by rw [HubState.conns_setConn_self]; rfl))
    obtain ⟨ms, t, id, hchecked, harrived, hend, hanswered⟩ := exists_hubRun_checked (X := X)
      (show (HubState.setConn s c _).nonceLock = none from hlock) (HubState.conns_setConn_self ..)
    refine ⟨_, t, id, hrun.append hchecked,
      Client.sends_of_arrived (harrived.trans ?_) hend, hanswered⟩
    rw [Socket.arrived, Socket.take, hlen, List.nil_append]
    exact List.take_append_drop ..
  · obtain ⟨ms, deadline, hshort⟩ := exists_hubRun_short (X := X) (Nat.lt_of_not_le hfull)
      (HubState.conns_setConn_self s c
        ⟨⟨[], client.bytes, some client.ending, [], 0⟩, .reading [] (s.now + readTimeout)⟩)
    rw [HubState.setConn_setConn] at hshort
    have hrun := hrun.append hshort
    have hall : client.Sends ⟨client.bytes, [], some client.ending, [], 0⟩ :=
      Client.sends_of_arrived (List.append_nil _) rfl
    generalize ht : s.setConn c _ = t at hrun
    have hphase : t.conns c = ⟨⟨client.bytes, [], some client.ending, [], 0⟩,
        .reading client.bytes deadline⟩ := by
      rw [← ht, HubState.conns_setConn_self]
    have hwaits : (t.conns c).phase.answered = none := by
      rw [hphase]
      rfl
    -- an error of the stream is not answered, its end in good order is
    cases hend : client.ending with
    | error =>
        rw [hend] at hphase hall
        have hfail : PhaseStep X c (.readFail "") t _ :=
          .readFail (by rw [hphase]) (by rw [hphase]) (by rw [hphase])
        refine ⟨_, _, none, hrun.snoc (hfail.alone trivial hwaits), ?_⟩
        simp only [HubState.conns_setConn_self, hphase]
        exact ⟨hall, rfl⟩
    | eof =>
        rw [hend] at hphase hall
        have heof : PhaseStep X c .readEof t _ :=
          .readEof (by rw [hphase]) (by rw [hphase]) (by rw [hphase])
        have hwrite : PhaseStep X c (.write [1])
            (t.setConn c { t.conns c with phase := .rejectEof ([1] ++ []) }) _ :=
          .writeEof (by rw [HubState.conns_setConn_self]) (List.cons_ne_nil _ _)
        refine ⟨_, _, none, (hrun.snoc (heof.alone trivial hwaits)).snoc
          (hwrite.alone trivial (by simp only [HubState.conns_setConn_self]; rfl)), ?_⟩
        simp only [HubState.conns_setConn_self, hphase]
        exact ⟨hall, rfl⟩

/-- **`Hub::handshake` gives every client its answer, and no other.** -/
theorem hubAnswers_iff {client : Client} {a : Answer} :
    HubAnswers X used client a ↔ a = answer X used (hubShort client.ending) client.bytes := by
  refine ⟨HubAnswers.eq, ?_⟩
  rintro rfl
  obtain ⟨ls, t, id, hrun, hsends, hanswered⟩ := exists_hubRun_answered (X := X) (c := 0)
    (s := ⟨0, used, none, fun _ => ⟨.fresh, .idle⟩⟩) rfl rfl client
  have hanswers : HubAnswers X used client ⟨(t.conns 0).sock.written, t.used, id⟩ :=
    ⟨0, ls, _, t, rfl, rfl, rfl, hrun, hsends, hanswered, rfl, rfl⟩
  exact hanswers.eq ▸ hanswers

end Nullpipe.Hub

/-! ## `hub_handshake` -/

namespace Nullpipe

open Channel Room Transition Hub

variable {X : Crates} {cfg : HostConfig} {c : ConnId} {used : Finset Bytes16}

/-- `hub_handshake` says nothing to a stream that is cut short. -/
def roomShort (_ : ReadEnd) : List UInt8 := []

/-- The turn of a handler, up to the name stage. -/
def Handler.turn : Handler → Option Turn
  | .spawned => some (.listening [])
  | .readHandshake buf _ => some (.listening buf)
  | .lockNonces nonce discriminator => some (.checking nonce discriminator)
  | .rejectReused rest => some (.refused rest)
  | .writeAccept id rest _ => some (.granted id rest)
  | .flushAccept id _ => some (.granted id [])
  | .readName id _ _ => some (.granted id [])
  | .failed _ => some .failed
  | _ => none

/-- The handler has come to the name stage or has returned `Err`, and whom it has
accepted. -/
def Handler.answered : Handler → Option (Option PeerId)
  | .readName id _ _ => some (some id)
  | .failed _ => some none
  | _ => none

/-- No timeout fires, no write and no flush fails. -/
def HandlerLabel.Quiet : HandlerLabel → Prop
  | .readTimeout | .writeFail _ | .writeTimeout | .flushFail _ | .flushTimeout => False
  | _ => True

/-- A step of the handler of `c` alone, which nothing disturbs. -/
def Label.Alone (c : ConnId) : Label → Prop
  | .handler d l => d = c ∧ l.Quiet
  | .net d _ => d = c
  | .tick _ => True
  | _ => False

/-- The handler of `c` has not answered its client. -/
def Room.Unanswered (c : ConnId) (s : Room) (_ : Label) : Prop :=
  (s.conns c).handler.answered = none

/-- `hub_handshake`, alone with a client, comes to this answer before the name stage: in
some run with the client's bytes cut into any chunks. -/
def RoomAnswers (X : Crates) (cfg : HostConfig) (used : Finset Bytes16) (client : Client)
    (a : Answer) : Prop :=
  ∃ c ls s t, (s.conns c).handler = .spawned ∧ (s.conns c).sock = .fresh ∧ s.used = used ∧
    s.nonceLock = none ∧
    Run (Guarded (fun l s t => Step X cfg l s t ∧ l.Alone c) (Room.Unanswered c)) s ls t ∧
    client.Sends (t.conns c).sock ∧ (t.conns c).handler.answered = some a.id ∧
    a.reply = (t.conns c).sock.written ∧ a.used = t.used

theorem turn_handshakeRead (buf : List UInt8) (deadline : ℕ) :
    (handshakeRead buf deadline).turn = some (listened buf) := by
  unfold handshakeRead listened
  split <;> rfl

theorem Handler.answered_turn {handler : Handler} {turn : Turn} {id : Option PeerId}
    (hturn : handler.turn = some turn) (h : handler.answered = some id) :
    turn.answered = some id := by
  cases handler with
  | readName | failed =>
      cases hturn
      exact h
  | _ => cases h

/-- A handler at its turn. -/
def Room.AtTurn (X : Crates) (used : Finset Bytes16) (c : ConnId) (s : Room) : Prop :=
  ∃ turn, (s.conns c).handler.turn = some turn ∧
    turn.Fits X used roomShort (s.conns c).sock s.used

theorem HandlerStep.atTurn {l : HandlerLabel} {s t : Room} (h : HandlerStep X c l s t)
    (hl : l.Quiet) (hwaits : (s.conns c).handler.answered = none) (hs : s.AtTurn X used c) :
    t.AtTurn X used c := by
  obtain ⟨turn, hturn, hs⟩ := hs
  unfold Room.AtTurn
  cases h with
  | start hphase =>
      rw [hphase] at hturn
      cases hturn
      simp only [conns_setConn_self]
      exact ⟨_, rfl, hs⟩
  | readHandshake hphase htake hfit =>
      rw [hphase] at hturn
      cases hturn
      simp only [conns_setConn_self]
      exact ⟨_, turn_handshakeRead .., hs.listened hfit⟩
  | handshakeReadFail hphase hend =>
      rw [hphase] at hturn
      cases hturn
      simp only [conns_setConn_self]
      obtain ⟨e, he⟩ := Option.isSome_iff_exists.mp hend.2
      exact ⟨_, rfl, (hs.cut hend.1 he).failed_of_cutShort⟩
  | insertNonce hphase _ hfresh =>
      rw [hphase] at hturn
      cases hturn
      simp only [conns_setConn_self]
      exact ⟨_, rfl, hs.grant hfresh⟩
  | refuseNonce hphase _ hused =>
      rw [hphase] at hturn
      cases hturn
      simp only [conns_setConn_self]
      exact ⟨_, rfl, hs.refuse hused⟩
  | writeReject hphase =>
      rw [hphase] at hturn
      cases hturn
      simp only [conns_setConn_self]
      have hwritten := Turn.Fits.write.2.1 hs
      split
      · rename_i hrest
        subst hrest
        exact ⟨_, rfl, hwritten.failed_of_refused⟩
      · exact ⟨_, rfl, hwritten⟩
  | writeAccept hphase =>
      rw [hphase] at hturn
      cases hturn
      simp only [conns_setConn_self]
      have hwritten := Turn.Fits.write.1 hs
      split
      · rename_i hrest
        subst hrest
        exact ⟨_, rfl, hwritten⟩
      · exact ⟨_, rfl, hwritten⟩
  | flushAccept hphase =>
      rw [hphase] at hturn
      cases hturn
      simp only [conns_setConn_self]
      exact ⟨_, rfl, hs⟩
  | handshakeReadTimeout | rejectFail | acceptFail | acceptTimeout | flushFail | flushTimeout
  | nameReadTimeout | noticeFail => cases hl
  -- the name stage has begun
  | readName hphase | nameReadFail hphase =>
      rw [hphase] at hwaits
      cases hwaits
  | _ hphase =>
      rw [hphase] at hturn
      cases hturn

theorem Step.atTurn {l : Label} {s t : Room} (h : Step X cfg l s t) (hl : l.Alone c)
    (hwaits : (s.conns c).handler.answered = none) (hs : s.AtTurn X used c) :
    t.AtTurn X used c := by
  cases h with
  | handler h =>
      obtain ⟨rfl, hquiet⟩ := hl
      exact h.atTurn hquiet hwaits hs
  | net h =>
      obtain rfl : _ = c := hl
      obtain ⟨turn, hturn, hs⟩ := hs
      cases h with
      | arrive hopen | finish hopen =>
          refine ⟨turn, ?_, ?_⟩ <;> simp only [conns_setConn_self]
          · exact hturn
          · exact hs.arrive hopen rfl rfl
  | tick => exact hs
  | user | host | accept | reader | writer => cases hl

theorem RoomAnswers.eq {client : Client} {a : Answer} (h : RoomAnswers X cfg used client a) :
    a = answer X used (roomShort client.ending) client.bytes := by
  obtain ⟨c, ls, s, t, hspawned, hfresh, rfl, -, hrun, hsends, hanswered, hreply, hused⟩ := h
  have hturn : t.AtTurn X s.used c := by
    refine hrun.invariant (I := fun t => t.AtTurn X s.used c) ?_ fun hs hstep =>
      hstep.1.1.atTurn hstep.1.2 hstep.2 hs
    refine ⟨.listening [], by rw [hspawned]; rfl, ?_⟩
    rw [hfresh]
    exact ⟨rfl, by decide, rfl, rfl⟩
  obtain ⟨reply, after, id⟩ := a
  obtain rfl : reply = _ := hreply
  obtain rfl : after = _ := hused
  obtain ⟨turn, hphase, hfits⟩ := hturn
  exact hfits.answer hsends (Handler.answered_turn hphase hanswered)

/-! ### A run to the answer -/

/-- The steps of a handler that nothing disturbs, up to its answer. -/
abbrev HandlerAloneStep (X : Crates) (cfg : HostConfig) (c : ConnId) : Label → Room → Room → Prop :=
  Guarded (fun l s t => Step X cfg l s t ∧ l.Alone c) (Room.Unanswered c)

theorem HandlerStep.alone {l : HandlerLabel} {s t : Room} (h : HandlerStep X c l s t)
    (hl : l.Quiet) (hwaits : (s.conns c).handler.answered = none) :
    HandlerAloneStep X cfg c (.handler c l) s t := ⟨⟨.handler h, rfl, hl⟩, hwaits⟩

/-- The stream has brought all its client sends, and the handler starts to read. -/
theorem exists_roomRun_arrived (X : Crates) (cfg : HostConfig) {s : Room}
    (hspawned : (s.conns c).handler = .spawned) (hfresh : (s.conns c).sock = .fresh)
    (client : Client) :
    ∃ ls t, Run (HandlerAloneStep X cfg c) s ls t ∧ t.nonceLock = s.nonceLock ∧
      (t.conns c).sock = ⟨[], client.bytes, some client.ending, [], 0⟩ ∧
      (t.conns c).handler = .readHandshake [] (t.now + readTimeout) := by
  have hwaits : (s.conns c).handler.answered = none := by
    rw [hspawned]
    rfl
  have harrive : HandlerAloneStep X cfg c (.net c (.arrive client.bytes)) s _ :=
    ⟨⟨.net (.arrive (by rw [hfresh]; rfl)), rfl⟩, hwaits⟩
  have hfinish : HandlerAloneStep X cfg c (.net c (.finish client.ending)) (s.setConn c
      { s.conns c with sock := (s.conns c).sock.arrive client.bytes }) _ :=
    ⟨⟨.net (.finish (by rw [conns_setConn_self, hfresh]; rfl)), rfl⟩,
      by rw [Room.Unanswered, conns_setConn_self]; exact hwaits⟩
  rw [conns_setConn_self, setConn_setConn] at hfinish
  have hrun := (Run.single harrive).snoc hfinish
  generalize ht : s.setConn c _ = t at hrun
  have hconn : t.conns c = { s.conns c with
      sock := ⟨[], client.bytes, some client.ending, [], 0⟩ } := by
    rw [← ht, conns_setConn_self]
    simp only [hfresh]
    rfl
  have hstart : HandlerStep X c .start t _ := .start (by rw [hconn]; exact hspawned)
  refine ⟨_, _, hrun.snoc (hstart.alone trivial (by rw [hconn]; exact hwaits)), ?_, ?_, ?_⟩
  · rw [nonceLock_setConn, ← ht, nonceLock_setConn]
  · rw [conns_setConn_self, hconn]
  · rw [conns_setConn_self]
    rfl

/-- A full buffer is answered. -/
theorem exists_roomRun_checked (X : Crates) (cfg : HostConfig) {s : Room}
    {nonce discriminator : Bytes16} (hlock : s.nonceLock = none)
    (hphase : (s.conns c).handler = .lockNonces nonce discriminator) :
    ∃ ls t id, Run (HandlerAloneStep X cfg c) s ls t ∧
      (t.conns c).sock.arrived = (s.conns c).sock.arrived ∧
      (t.conns c).sock.readEnd = (s.conns c).sock.readEnd ∧
      (t.conns c).handler.answered = some id := by
  have hwaits : (s.conns c).handler.answered = none := by
    rw [hphase]
    rfl
  -- as for the hub
  by_cases hused : nonce ∈ s.used
  · have hrefuse : HandlerStep X c .refuseNonce s _ := .refuseNonce hphase hlock hused
    have hstep : HandlerAloneStep X cfg c _ s _ := hrefuse.alone trivial hwaits
    have hrun := Run.single hstep
    generalize ht : Room.mk _ _ _ _ _ _ _ _ _ _ _ _ _ _ _ _ _ _ _ _ = t at hrun
    have hconn : t.conns c = { s.conns c with handler := .rejectReused ([1] ++ []) } := by
      rw [← ht]
      exact conns_setConn_self ..
    have hwrite : HandlerStep X c (.write [1]) t _ :=
      .writeReject (by rw [hconn]) (List.cons_ne_nil _ _)
    refine ⟨_, _, none, hrun.snoc (hwrite.alone trivial (by rw [hconn]; rfl)), ?_⟩
    simp only [conns_setConn_self, hconn]
    exact ⟨rfl, rfl, rfl⟩
  · have hinsert : HandlerStep X c .insertNonce s _ := .insertNonce hphase hlock hused
    have hstep : HandlerAloneStep X cfg c _ s _ := hinsert.alone trivial hwaits
    have hrun := Run.single hstep
    generalize ht : Room.mk _ _ _ _ _ _ _ _ _ _ _ _ _ _ _ _ _ _ _ _ = t at hrun
    have hconn : t.conns c = { s.conns c with
        handler := .writeAccept (peerId X discriminator) ([0] ++ []) (s.now + writeTimeout) } := by
      rw [← ht]
      exact conns_setConn_self ..
    have hwrite : HandlerStep X c (.write [0]) t _ :=
      .writeAccept (by rw [hconn]) (List.cons_ne_nil _ _)
    rw [hconn] at hwrite
    have hrun := hrun.snoc (hwrite.alone trivial (by rw [hconn]; rfl))
    generalize hu : t.setConn c _ = u at hrun
    have hconn' : u.conns c = { s.conns c with
        sock := (s.conns c).sock.write [0]
        handler := .flushAccept (peerId X discriminator) (t.now + writeTimeout) } := by
      rw [← hu, conns_setConn_self]
      rfl
    have hflush : HandlerStep X c .flush u _ := .flushAccept (by rw [hconn'])
    refine ⟨_, _, some (peerId X discriminator),
      hrun.snoc (hflush.alone trivial (by rw [hconn']; rfl)), ?_⟩
    simp only [conns_setConn_self, hconn']
    exact ⟨rfl, rfl, rfl⟩

/-- Every client gets an answer or is turned away without one. -/
theorem exists_roomRun_answered (X : Crates) (cfg : HostConfig) {s : Room}
    (hlock : s.nonceLock = none) (hspawned : (s.conns c).handler = .spawned)
    (hfresh : (s.conns c).sock = .fresh)
    (client : Client) :
    ∃ ls t id, Run (HandlerAloneStep X cfg c) s ls t ∧ client.Sends (t.conns c).sock ∧
      (t.conns c).handler.answered = some id := by
  obtain ⟨ls, t, hrun, hlock', hsock, hphase⟩ :=
    exists_roomRun_arrived X cfg hspawned hfresh client
  have hwaits : (t.conns c).handler.answered = none := by
    rw [hphase]
    rfl
  by_cases hfull : handshakeLen ≤ client.bytes.length
  · have hlen := length_take_handshakeLen hfull
    have hread : HandlerStep X c (.read (client.bytes.take handshakeLen)) t _ :=
      .readHandshake hphase
        (by
          rw [hsock]
          exact ⟨List.ne_nil_of_length_pos (by rw [hlen]; decide), List.take_prefix ..⟩)
        (by rw [hlen]; exact Nat.le_refl _)
    rw [List.nil_append, handshakeRead, dif_pos hlen] at hread
    have hrun := hrun.snoc (hread.alone trivial hwaits)
    generalize hu : t.setConn c _ = u at hrun
    have hconn : u.conns c = { t.conns c with
        sock := (t.conns c).sock.take (client.bytes.take handshakeLen)
        handler := .lockNonces (nonceBytes (client.bytes.take handshakeLen) hlen)
          (discriminatorBytes (client.bytes.take handshakeLen) hlen) } := by
      rw [← hu, conns_setConn_self]
    have hfree : u.nonceLock = none := by
      rw [← hu, nonceLock_setConn, hlock', hlock]
    obtain ⟨ms, v, id, hchecked, harrived, hend, hanswered⟩ :=
      exists_roomRun_checked X cfg hfree (by rw [hconn])
    rw [hconn, hsock] at harrived hend
    refine ⟨_, v, id, hrun.append hchecked,
      Client.sends_of_arrived (harrived.trans ?_) hend, hanswered⟩
    rw [Socket.arrived, Socket.take, hlen, List.nil_append]
    exact List.take_append_drop ..
  · -- the bytes are read, and then the end of the stream
    have hshort : ∃ ms u, Run (HandlerAloneStep X cfg c) t ms u ∧
        (u.conns c).sock = ⟨client.bytes, [], some client.ending, [], 0⟩ ∧
        ∃ deadline, (u.conns c).handler = .readHandshake client.bytes deadline := by
      by_cases hnil : client.bytes = []
      · rw [hnil] at hsock ⊢
        exact ⟨[], t, .nil, hsock, _, hphase⟩
      · have hread : HandlerStep X c (.read client.bytes) t _ :=
          .readHandshake hphase (by rw [hsock]; exact ⟨hnil, List.prefix_refl _⟩)
            (by rw [List.length_nil]; omega)
        refine ⟨_, _, .single (hread.alone trivial hwaits), ?_, t.now + readTimeout, ?_⟩ <;>
          rw [conns_setConn_self]
        · simp [hsock, Socket.take]
        · exact dif_neg (by rw [List.nil_append]; omega)
    obtain ⟨ms, u, hmore, hsock, deadline, hphase⟩ := hshort
    have hfail : HandlerStep X c (.readFail "") u _ :=
      .handshakeReadFail hphase (by rw [hsock]; exact ⟨rfl, rfl⟩)
    refine ⟨_, _, none, (hrun.append hmore).snoc (hfail.alone trivial (by rw [hphase]; rfl)), ?_⟩
    simp only [conns_setConn_self, hsock]
    exact ⟨Client.sends_of_arrived (List.append_nil _) rfl, rfl⟩

/-- **`hub_handshake` gives every client its answer, and no other.** -/
theorem roomAnswers_iff {client : Client} {a : Answer} :
    RoomAnswers X cfg used client a ↔
      a = answer X used (roomShort client.ending) client.bytes := by
  refine ⟨RoomAnswers.eq, ?_⟩
  rintro rfl
  let s : Room := setConn { Room.init 0 with used := used } 0
    { Conn.fresh with handler := .spawned }
  have hconn : s.conns 0 = { Conn.fresh with handler := .spawned } := conns_setConn_self ..
  have hspawned : (s.conns 0).handler = .spawned := by rw [hconn]
  have hfresh : (s.conns 0).sock = .fresh := by
    rw [hconn]
    rfl
  obtain ⟨ls, t, id, hrun, hsends, hanswered⟩ :=
    exists_roomRun_answered X cfg (s := s) rfl hspawned hfresh client
  have hanswers : RoomAnswers X cfg used client ⟨(t.conns 0).sock.written, t.used, id⟩ :=
    ⟨0, ls, s, t, hspawned, hfresh, rfl, rfl, hrun, hsends, hanswered, rfl, rfl⟩
  exact hanswers.eq ▸ hanswers

/-! ### Where they agree -/

/-- **The two handshakes agree** on a client that sends a whole handshake or whose stream
breaks, and disagree on one that closes its stream earlier. -/
theorem handshakes_agree_iff (X : Crates) (cfg : HostConfig) (used : Finset Bytes16)
    (client : Client) :
    ((∃ a, HubAnswers X used client a) ∧ (∃ a, RoomAnswers X cfg used client a) ∧
      ∀ a b, HubAnswers X used client a → RoomAnswers X cfg used client b → a = b) ↔
      handshakeLen ≤ client.bytes.length ∨ client.ending = .error := by
  simp only [hubAnswers_iff, roomAnswers_iff]
  constructor
  · rintro ⟨-, -, hagree⟩
    by_contra hnot
    push Not at hnot
    have hsame := hagree _ _ rfl rfl
    rw [answer_of_short hnot.1, answer_of_short hnot.1] at hsame
    have hreply : hubShort client.ending = roomShort client.ending := congrArg Answer.reply hsame
    cases hend : client.ending with
    | eof =>
        rw [hend] at hreply
        cases hreply
    | error => exact hnot.2 hend
  · intro hcond
    refine ⟨⟨_, rfl⟩, ⟨_, rfl⟩, ?_⟩
    rintro _ _ rfl rfl
    rcases hcond with hfull | hend
    · rw [answer, answer, dif_pos hfull, dif_pos hfull]
    · rw [hend]
      rfl

/-- A client that closes its stream after 31 bytes. -/
theorem handshakes_disagree :
    HubAnswers .standard ∅ ⟨List.replicate 31 0, .eof⟩ ⟨[1], ∅, none⟩ ∧
      RoomAnswers .standard ⟨"host", 300⟩ ∅ ⟨List.replicate 31 0, .eof⟩ ⟨[], ∅, none⟩ ∧
      ¬ ∀ a b, HubAnswers .standard ∅ ⟨List.replicate 31 0, .eof⟩ a →
        RoomAnswers .standard ⟨"host", 300⟩ ∅ ⟨List.replicate 31 0, .eof⟩ b → a = b := by
  have hshort : (List.replicate 31 (0 : UInt8)).length < handshakeLen := by decide
  have hhub : HubAnswers .standard ∅ ⟨List.replicate 31 0, .eof⟩ ⟨[1], ∅, none⟩ :=
    hubAnswers_iff.mpr (answer_of_short hshort).symm
  have hroom : RoomAnswers .standard ⟨"host", 300⟩ ∅ ⟨List.replicate 31 0, .eof⟩ ⟨[], ∅, none⟩ :=
    roomAnswers_iff.mpr (answer_of_short hshort).symm
  refine ⟨hhub, hroom, fun hagree => ?_⟩
  have hreply := congrArg Answer.reply (hagree _ _ hhub hroom)
  cases hreply

end Nullpipe

import Nullpipe.Room.Subscription

/-!
# What a peer is sent

The stream to a peer is the accept byte, the join notice, and then messages of the
broadcast log.  A writer may lag, skip what does not fit a frame, and stop for good at
any byte; unless a write to the peer fails, what it has sent is nevertheless a front
part of whole frames of a part of the log, in the order of the log.

`Outflow` is the invariant, and has a part for each task that writes.

* `Handler.Greeted`: what the handler has written when it stands somewhere, at most its
  verdict and then the join notice.
* `Pours`: the writer has taken `got`, a part of the log up to its cursor, and has written the
  frames of that, up to the rest of the current one.  A writer that has ended may leave any
  rest.

Here, unlike in `Subscription.lean`, timeouts and lag are allowed for: a part of the log
instead of a stretch of it, and `Writer.Leaves` instead of `Writer.Holds`.  A failed write is
not, as the next frame would follow a torn one (`Alignment.lean`).

`Outflow.written` is what the invariant is for: behind the verdict, the stream is a front part
of the frames of the join notice and a part of the log.
-/

namespace Nullpipe

open Channel Room Transition

variable {X : Crates} {cfg : HostConfig} {s t : Room} {c : ConnId} {l : Label}

/-- No write to peer `c` fails. -/
def Label.Unbroken (c : ConnId) (l : Label) : Prop :=
  l ≠ .writer c .writeFail ∧ ∀ reason, l ≠ .handler c (.writeFail reason)

/-- What a peer is sent ahead of the messages of the log. -/
def greetingBytes (X : Crates) (info : PeerInfo) : List UInt8 :=
  0 :: frameBytes X.json (joinNotice info)

/-- What the handler has written when it stands here: at most its verdict, then the
join notice. -/
def Handler.Greeted (X : Crates) (written : List UInt8) : Handler → Prop
  | .notifyJoin info rest => written ++ rest = greetingBytes X info
  | .spawnReader info | .subscribe info => written = greetingBytes X info
  | .serve _ | .abortWriter _ | .deregister _ | .emitLeave _ | .ended _ => True
  | _ => written.tail = []

/-- What is left of the frame a writer writes; one that has ended may leave anything. -/
def Writer.Leaves (rest : List UInt8) (w : Writer) : Prop := w = .ended ∨ w.Holds rest

/-- The writer of `k` has taken `got` off the log and written their frames, up to `rest`. -/
structure Pours (X : Crates) (info : PeerInfo) (bcast got : List WireMessage) (rest : List UInt8)
    (k : Conn) : Prop where
  taken : got.Sublist (bcast.take k.cursor)
  leaves : k.writer.Leaves rest
  written : k.sock.written ++ rest = greetingBytes X info ++ got.flatMap (frameBytes X.json)

/-- The outgoing stream of a connection. -/
structure Outflow (X : Crates) (bcast : List WireMessage) (k : Conn) : Prop where
  greeted : k.handler.Greeted X k.sock.written
  pours : k.writer ≠ .unspawned → ∀ info, k.handler.joined = some info →
    ∃ got rest, Pours X info bcast got rest k

theorem Outflow.fresh (X : Crates) : Outflow X [] Conn.fresh := ⟨rfl, fun hw => absurd rfl hw⟩

/-! ## One connection -/

theorem Pours.mono {info : PeerInfo} {bcast bcast' got : List WireMessage} {rest : List UInt8}
    {k k' : Conn} (h : Pours X info bcast got rest k) (hlog : bcast <+: bcast')
    (hcursor : k'.cursor = k.cursor) (hwriter : k'.writer = k.writer)
    (hwritten : k'.sock.written = k.sock.written) : Pours X info bcast' got rest k' := by
  obtain ⟨more, rfl⟩ := hlog
  refine ⟨?_, hwriter ▸ h.leaves, hwritten ▸ h.written⟩
  rw [hcursor, List.take_append]
  exact h.taken.trans (List.sublist_append_left ..)

/-- A step that leaves handler, writer, cursor and outgoing bytes alone. -/
theorem Outflow.frame {bcast bcast' : List WireMessage} {k k' : Conn} (h : Outflow X bcast k)
    (hlog : bcast <+: bcast') (hhandler : k'.handler = k.handler) (hwriter : k'.writer = k.writer)
    (hcursor : k'.cursor = k.cursor) (hwritten : k'.sock.written = k.sock.written) :
    Outflow X bcast' k' := by
  refine ⟨by rw [hhandler, hwritten]; exact h.greeted, fun hspawned info hjoined => ?_⟩
  rw [hwriter] at hspawned
  rw [hhandler] at hjoined
  obtain ⟨got, rest, hpours⟩ := h.pours hspawned info hjoined
  exact ⟨got, rest, hpours.mono hlog hcursor hwriter hwritten⟩

theorem tail_of_prefix_singleton {written : List UInt8} {byte : UInt8} (h : written <+: [byte]) :
    written.tail = [] := by
  rw [← List.length_eq_zero_iff, List.length_tail]
  have hle : written.length ≤ 1 := h.length_le
  omega

theorem greeted_handshakeRead (buf : List UInt8) (deadline : ℕ) {written : List UInt8}
    (h : written.tail = []) : (handshakeRead buf deadline).Greeted X written :=
  handshakeRead_cases (P := Handler.Greeted X written) (fun _ _ => h) (fun _ _ => h) buf deadline

theorem greeted_nameRead (json : SerdeJson) (id : PeerId) (got : List UInt8) (deadline now : ℕ)
    {written : List UInt8} (h : written.tail = []) :
    (nameRead json id got deadline now).Greeted X written :=
  nameRead_cases (P := Handler.Greeted X written) (fun _ _ _ => h) (fun _ => h) (fun _ => h) ..

/-- The join notice is next, if it fits a frame. -/
theorem greeted_afterEmitJoin (info : PeerInfo) :
    (afterEmitJoin X.json info).Greeted X [0] := by
  unfold afterEmitJoin
  cases hencode : encodeMessage X.json (joinNotice info) with
  | ok frame =>
      obtain ⟨-, hframe⟩ := encodes_of_encodeMessage hencode
      show [0] ++ frame = greetingBytes X info
      rw [greetingBytes, hframe]
      rfl
  | error e =>
      show [0] = greetingBytes X info
      rw [greetingBytes, frameBytes, hencode]

/-- What the handler writes is its verdict and the join notice. -/
theorem HandlerStep.greeted {l : HandlerLabel} (h : HandlerStep X c l s t)
    (hl : ∀ reason, l ≠ .writeFail reason) (hc : (s.conns c).Coherent X)
    (hs : (s.conns c).handler.Greeted X (s.conns c).sock.written) :
    (t.conns c).handler.Greeted X (t.conns c).sock.written := by
  have hfits := hc.fits
  cases h with
  | rejectFail | acceptFail | noticeFail => exact absurd rfl (hl _)
  | readHandshake hphase =>
      rw [hphase] at hs
      simp only [conns_setConn_self]
      exact greeted_handshakeRead _ _ hs
  | readName hphase =>
      rw [hphase] at hs
      simp only [conns_setConn_self]
      exact greeted_nameRead _ _ _ _ _ hs
  | @writeReject _ chunk rest hphase =>
      rw [hphase] at hfits
      have hpart : (s.conns c).sock.written ++ chunk <+: [1] := by
        rw [← hfits.2, ← List.append_assoc]
        exact List.prefix_append ..
      simp only [conns_setConn_self]
      split <;> exact tail_of_prefix_singleton hpart
  | @writeAccept _ _ chunk rest _ hphase =>
      rw [hphase] at hfits
      have hpart : (s.conns c).sock.written ++ chunk <+: [0] := by
        rw [← hfits.2, ← List.append_assoc]
        exact List.prefix_append ..
      simp only [conns_setConn_self]
      split <;> exact tail_of_prefix_singleton hpart
  | emitJoin hphase =>
      rw [hphase] at hfits
      simp only [conns_setConn_self]
      rw [hfits.2]
      exact greeted_afterEmitJoin _
  | @writeNotice _ info chunk rest hphase =>
      rw [hphase] at hs
      have hbytes : (s.conns c).sock.written ++ chunk ++ rest = greetingBytes X info := by
        rw [List.append_assoc]
        exact hs
      simp only [conns_setConn_self]
      by_cases hrest : rest = []
      · rw [if_pos hrest]
        rw [hrest, List.append_nil] at hbytes
        exact hbytes
      · rw [if_neg hrest]
        exact hbytes
  | subscribe | readerDone | shutdown | abortWriter | deregister | emitLeave =>
      simp only [conns_setConn_self]
      trivial
  | _ hphase =>
      rw [hphase] at hs
      simp only [conns_setConn_self]
      exact hs

theorem HandlerStep.outflow {l : HandlerLabel} (h : HandlerStep X c l s t)
    (hl : ∀ reason, l ≠ .writeFail reason) (hc : (s.conns c).Coherent X)
    (hs : Outflow X s.bcast (s.conns c)) : Outflow X t.bcast (t.conns c) := by
  refine ⟨h.greeted hl hc hs.greeted, fun hwriter info hjoined => ?_⟩
  have hgreeted := hs.greeted
  by_cases hsubscribe : l = .subscribe
  · -- the subscription starts with an empty frame at the end of the log
    subst hsubscribe
    cases h with
    | @subscribe _ info' hphase =>
        rw [conns_setConn_self] at hjoined
        cases hjoined
        rw [hphase] at hgreeted
        have hwritten : (s.conns c).sock.written = greetingBytes X info := hgreeted
        refine ⟨[], [], List.nil_sublist _, .inr ?_, ?_⟩
        · rw [conns_setConn_self]
          rfl
        · rw [conns_setConn_self]
          simp [hwritten]
  · have hsame : (t.conns c).writer = (s.conns c).writer ∧
        (t.conns c).cursor = (s.conns c).cursor := by
      cases h with
      | subscribe => exact absurd rfl hsubscribe
      | _ => exact ⟨by rw [conns_setConn_self], by rw [conns_setConn_self]⟩
    rw [hsame.1] at hwriter
    -- a handler with a writer has joined its peer and writes no more itself
    have hserves : (s.conns c).handler.joined = some info ∧
        (t.conns c).sock.written = (s.conns c).sock.written := by
      have hspawned := hc.spawned
      cases h with
      | readerDone hphase | shutdown hphase | abortWriter hphase | deregister hphase
      | emitLeave hphase =>
          rw [conns_setConn_self] at hjoined ⊢
          rw [hphase]
          exact ⟨hjoined, rfl⟩
      | subscribe => exact absurd rfl hsubscribe
      | _ hphase =>
          rw [hphase] at hspawned
          exact absurd hspawned.2 hwriter
    obtain ⟨got, rest, hpours⟩ := hs.pours hwriter info hserves.1
    have hlog : t.bcast = s.bcast := h.bcast
    exact ⟨got, rest, hpours.mono (hlog ▸ List.prefix_rfl) hsame.2 hsame.1 hserves.2⟩

/-- **A writer sends the log in order**, from where it is or from further on. -/
theorem WriterStep.pours {l : WriterLabel} {info : PeerInfo} {got : List WireMessage}
    {rest : List UInt8} (h : WriterStep X c l s t) (hl : l ≠ .writeFail)
    (hs : Pours X info s.bcast got rest (s.conns c)) :
    ∃ got' rest', Pours X info t.bcast got' rest' (t.conns c) := by
  obtain ⟨htaken, hleaves, hwritten⟩ := hs
  cases h with
  | @recv _ msg next hphase hrecv =>
      obtain ⟨hget, rfl⟩ := Broadcast.recv_value hrecv
      rw [hphase] at hleaves
      have hnil : rest = [] := hleaves.resolve_left nofun
      subst hnil
      rw [List.append_nil] at hwritten
      refine ⟨got ++ [msg], frameBytes X.json msg, ?_, .inr ?_, ?_⟩
      · rw [conns_setConn_self]
        show (got ++ [msg]).Sublist (s.bcast.take ((s.conns c).cursor + 1))
        rw [List.take_add_one, hget]
        exact htaken.append (List.Sublist.refl _)
      · rw [conns_setConn_self]
        exact holds_afterRecv ..
      · rw [conns_setConn_self]
        simp [hwritten]
  | @lagged _ skipped next hphase hrecv =>
      have hnext : (s.conns c).cursor ≤ next := (Broadcast.lt_of_lagged hrecv).1.le
      refine ⟨got, rest, ?_, ?_, ?_⟩
      · rw [conns_setConn_self]
        exact htaken.trans (List.take_sublist_take_left hnext)
      · rw [conns_setConn_self]
        exact hleaves
      · rw [conns_setConn_self]
        exact hwritten
  | @write _ chunk rest' deadline hphase =>
      rw [hphase] at hleaves
      have hrest : rest = chunk ++ rest' := hleaves.resolve_left nofun
      subst hrest
      refine ⟨got, rest', ?_, .inr ?_, ?_⟩
      · rw [conns_setConn_self]
        exact htaken
      · simp only [conns_setConn_self]
        split
        · rename_i hend
          exact hend
        · rfl
      · rw [conns_setConn_self, ← hwritten]
        simp
  | writeFail => exact absurd rfl hl
  | flush hphase | flushFail hphase =>
      rw [hphase] at hleaves
      have hnil : rest = [] := hleaves.resolve_left nofun
      refine ⟨got, rest, ?_, .inr ?_, ?_⟩
      · rw [conns_setConn_self]
        exact htaken
      · rw [conns_setConn_self]
        exact hnil
      · rw [conns_setConn_self]
        exact hwritten
  | closed | writeTimeout | flushTimeout | cancel =>
      refine ⟨got, rest, ?_, .inl ?_, ?_⟩
      · rw [conns_setConn_self]
        exact htaken
      · rw [conns_setConn_self]
      · rw [conns_setConn_self]
        exact hwritten

theorem WriterStep.bcast {l : WriterLabel} (h : WriterStep X c l s t) : t.bcast = s.bcast := by
  cases h <;> rfl

theorem WriterStep.outflow {l : WriterLabel} (h : WriterStep X c l s t) (hl : l ≠ .writeFail)
    (hc : (s.conns c).Coherent X) (hs : Outflow X s.bcast (s.conns c)) :
    Outflow X t.bcast (t.conns c) := by
  obtain ⟨hspawned, -, -⟩ := h.spawned
  have hhandler := h.frame.1
  refine ⟨?_, fun _ info hjoined => ?_⟩
  · rw [hhandler]
    -- no handler that still writes has a writer
    have hafter := hc.spawned
    cases hphase : (s.conns c).handler with
    | serve | abortWriter | deregister | emitLeave | ended => trivial
    | _ =>
        rw [hphase] at hafter
        exact absurd hafter.2 hspawned
  · rw [hhandler] at hjoined
    obtain ⟨got, rest, hpours⟩ := hs.pours hspawned info hjoined
    exact h.pours hl hpours

/-! ## Every run -/

/-- **Every step of a room in which no write to the peer fails.** -/
theorem Step.outflow (h : Step X cfg l s t) (hl : l.Unbroken c) (hs : RoomReachable X cfg s)
    (hflow : Outflow X s.bcast (s.conns c)) : Outflow X t.bcast (t.conns c) := by
  have hlog : s.bcast <+: t.bcast := by
    rw [h.bcast]
    exact List.prefix_append ..
  have hcoherent := hs.coherent c
  by_cases hconn : l.conn = some c
  · cases h.connStep hconn with
    | accept haccept hready hidle =>
        have hgreeted := hflow.greeted
        have hnone := hcoherent.spawned
        rw [hidle] at hgreeted hnone
        rw [conns_setConn_self]
        exact ⟨hgreeted, fun hwriter => absurd hnone.2 hwriter⟩
    | handler h => exact h.outflow (fun reason heq => hl.2 reason (heq ▸ rfl)) hcoherent hflow
    | reader h =>
        obtain ⟨hhandler, -, -, hwriter, -, hcursor, hwritten⟩ := h.frame
        exact hflow.frame hlog hhandler hwriter hcursor hwritten
    | writer h => exact h.outflow (fun heq => hl.1 (heq ▸ rfl)) hcoherent hflow
    | net h =>
        obtain ⟨hhandler, -, -, -, hwriter, -, hcursor, -, hwritten⟩ := h.frame
        exact hflow.frame hlog hhandler hwriter hcursor hwritten
  · have hsame : t.conns c = s.conns c := h.conns_of_ne hconn
    rw [hsame]
    exact hflow.frame hlog rfl rfl rfl rfl

/-- **What a peer has been sent**, behind the verdict on its nonce: a front part of the
join notice and a part of the log. -/
theorem Outflow.written {bcast : List WireMessage} {k : Conn} (h : Outflow X bcast k)
    (hc : k.Coherent X) : k.sock.written.tail = [] ∨ ∃ info got, k.handler.joined = some info ∧
      got.Sublist bcast ∧
      k.sock.written.tail <+: (joinNotice info :: got).flatMap (frameBytes X.json) := by
  obtain ⟨hgreeted, hpours⟩ := h
  have hspawned := hc.spawned
  -- the handler is at the join notice or has just written it
  have hjoining : ∀ {info rest}, k.handler.joined = some info →
      k.sock.written ++ rest = greetingBytes X info →
      k.sock.written.tail = [] ∨ ∃ info got, k.handler.joined = some info ∧ got.Sublist bcast ∧
        k.sock.written.tail <+: (joinNotice info :: got).flatMap (frameBytes X.json) := by
    intro info rest hjoined hwritten
    cases hbytes : k.sock.written with
    | nil => exact .inl rfl
    | cons byte more =>
        rw [hbytes, greetingBytes, List.cons_append] at hwritten
        refine .inr ⟨info, [], hjoined, List.nil_sublist _, ?_⟩
        rw [List.flatMap_cons, List.flatMap_nil, List.append_nil, ← (List.cons.inj hwritten).2]
        exact List.prefix_append ..
  -- the writer has its subscription
  have hserving : ∀ {info}, k.handler.joined = some info → k.writer ≠ .unspawned →
      k.sock.written.tail = [] ∨ ∃ info got, k.handler.joined = some info ∧ got.Sublist bcast ∧
        k.sock.written.tail <+: (joinNotice info :: got).flatMap (frameBytes X.json) := by
    intro info hjoined hwriter
    obtain ⟨got, rest, htaken, -, hwritten⟩ := hpours hwriter info hjoined
    cases hbytes : k.sock.written with
    | nil => exact .inl rfl
    | cons byte more =>
        rw [hbytes, greetingBytes, List.cons_append, List.cons_append] at hwritten
        refine .inr ⟨info, got, hjoined, htaken.trans (List.take_sublist ..), ?_⟩
        rw [List.flatMap_cons, ← (List.cons.inj hwritten).2]
        exact List.prefix_append ..
  cases hphase : k.handler with
  | notifyJoin info rest =>
      rw [hphase] at hgreeted hjoining
      exact hjoining rfl hgreeted
  | spawnReader info | subscribe info =>
      rw [hphase] at hgreeted hjoining
      exact hjoining rfl ((List.append_nil _).trans hgreeted)
  | serve | abortWriter | deregister | emitLeave | ended =>
      rw [hphase] at hspawned hserving
      exact hserving rfl hspawned.2
  | _ =>
      rw [hphase] at hgreeted
      exact .inl hgreeted

end Nullpipe

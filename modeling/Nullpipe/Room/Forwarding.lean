import Nullpipe.Core.Payload
import Nullpipe.Room.Messages
import Nullpipe.Room.Reading

/-!
# What the reader of a peer puts on the message channel

All peers share the message channel, and two of them may go by one id; so what a reader
forwards is not read off the channel but watched as it happens (`ForwardStep`).  For any
bytes behind the handshake it is what the opening of the stream says, without the pings.

* `Forwards` is the invariant: the reader has handed out a front part of the messages in its
  stream (`Conn.Reads`, of `Room/Reading.lean`), and has forwarded what it has handed out, up
  to the message it holds.  A closed message channel drops what is sent, which is why an
  equality is claimed only while the channel is open.
* Nothing is forwarded before a peer has joined (`ForwardStep.begins`), and behind that the
  invariant is kept step by step (`ForwardStep.forwards`).

A reader also comes to its end.  `Conn.rank` bounds the steps it can still take, once
nothing more arrives: no step of another task raises it, and each step of the reader lowers
it (`Step.rank`, `reads_le_rank`).  A reader that cannot take a step has ended or waits for
room on the channel (`exists_readerStep`): the bytes it is missing are there, or its stream
has ended and the read fails.  `HubReads` has all of that for one connection.
-/

namespace Nullpipe

open Channel Room Framing Transition

variable {X : Crates} {cfg : HostConfig} {s t : Room} {c : ConnId} {l : Label} {info : PeerInfo}
  {out : List (PeerId × WireMessage)}

/-! ## Watching a reader -/

/-- What a step puts on the message channel for the peer of connection `c`. -/
def forwardedBy (c : ConnId) (s : Room) (l : Label) : List (PeerId × WireMessage) :=
  match (s.conns c).reader with
  | .sending id msg => if l = .reader c .send then [(id, msg)] else []
  | _ => []

/-- The steps of a room, with what the reader of `c` has forwarded so far. -/
def ForwardStep (X : Crates) (cfg : HostConfig) (c : ConnId) (l : Label)
    (s t : Room × List (PeerId × WireMessage)) : Prop :=
  Step X cfg l s.1 t.1 ∧ t.2 = s.2 ++ forwardedBy c s.1 l

theorem forwardedBy_of_ne (h : l ≠ .reader c .send) : forwardedBy c s l = [] := by
  unfold forwardedBy
  split
  · rw [if_neg h]
  · rfl

theorem forwardedBy_send {id : PeerId} {msg : WireMessage}
    (h : (s.conns c).reader = .sending id msg) :
    forwardedBy c s (.reader c .send) = [(id, msg)] := by
  unfold forwardedBy
  rw [h]
  exact if_pos rfl

/-- A send has its message in hand and room for it. -/
theorem Step.of_send (h : Step X cfg (.reader c .send) s t) :
    ∃ id msg, (s.conns c).reader = .sending id msg ∧ s.msgs.HasRoom msgChanCap := by
  cases h with
  | reader h =>
      cases h with
      | send hphase hroom => exact ⟨_, _, hphase, hroom⟩

/-- What a step of the reader puts on the message channel. -/
theorem ReaderStep.sent {l : ReaderLabel} (h : ReaderStep X c l s t) :
    t.msgs.sent = s.msgs.sent ++ forwardedBy c s (.reader c l) := by
  by_cases hsend : l = .send
  · subst hsend
    cases h with
    | send hphase =>
        rw [forwardedBy_send hphase]
        exact Mpsc.sent_push ..
  · have hne : Label.reader c l ≠ .reader c .send := fun heq => hsend (Label.reader.inj heq).2
    rw [forwardedBy_of_ne hne, List.append_nil]
    cases h with
    | send => exact absurd rfl hsend
    | _ => rfl

/-! ## Channels and tasks do not come back -/

theorem Step.msgs_isOpen (h : Step X cfg l s t) (hopen : t.msgs.isOpen = true) :
    s.msgs.isOpen = true := by
  cases h with
  | user h => cases h <;> exact hopen
  | host h => cases h <;> first | exact hopen | cases hopen
  | accept h => cases h <;> exact hopen
  | handler h => cases h <;> exact hopen
  | reader h => cases h <;> exact hopen
  | writer h => cases h <;> exact hopen
  | net h => cases h <;> exact hopen
  | tick => exact hopen

theorem Step.readerAborted (h : Step X cfg l s t) (hlive : (t.conns c).readerAborted = false) :
    (s.conns c).readerAborted = false := by
  by_cases hconn : l.conn = some c
  · cases h.connStep hconn with
    | accept =>
        rw [conns_setConn_self] at hlive
        exact hlive
    | handler h =>
        cases h with
        | shutdown =>
            rw [conns_setConn_self] at hlive
            cases hlive
        | _ =>
            rw [conns_setConn_self] at hlive
            exact hlive
    | reader h => rwa [h.frame.2.2.1] at hlive
    | writer h => rwa [h.frame.2.2.2.1] at hlive
    | net h => rwa [h.frame.2.2.2.1] at hlive
  · rwa [h.conns_of_ne hconn] at hlive

/-! ## What is forwarded -/

/-- A message with the id of its peer. -/
def tagged (info : PeerInfo) (msgs : List WireMessage) : List (PeerId × WireMessage) :=
  msgs.map fun msg => (info.id, msg)

@[simp] theorem tagged_nil (info : PeerInfo) : tagged info [] = [] := rfl

@[simp] theorem tagged_append (info : PeerInfo) (msgs more : List WireMessage) :
    tagged info (msgs ++ more) = tagged info msgs ++ tagged info more := List.map_append

@[simp] theorem forwards_append (msgs more : List WireMessage) :
    forwards (msgs ++ more) = forwards msgs ++ forwards more := List.filter_append ..

/-- A reader that was left alone has forwarded a front part of the messages it has handed
out; while the channel is open, all of them but the one it holds. -/
def Forwards (X : Crates) (c : ConnId) (info : PeerInfo)
    (s : Room × List (PeerId × WireMessage)) : Prop :=
  ∃ done, (s.1.conns c).Reads X done ∧ ((s.1.conns c).readerAborted = false →
    s.2 <+: tagged info (forwards done) ∧
      (s.1.msgs.isOpen = true →
        s.2 ++ tagged info (s.1.conns c).reader.held = tagged info (forwards done)))

theorem ForwardStep.forwards {s t : Room × List (PeerId × WireMessage)}
    (h : ForwardStep X cfg c l s t) (hs : RoomReachable X cfg s.1)
    (hjoined : (s.1.conns c).handler.joined = some info) (hforwards : Forwards X c info s) :
    Forwards X c info t := by
  obtain ⟨hstep, hout⟩ := h
  obtain ⟨done, hreads, hlive⟩ := hforwards
  rcases hstep.reads (hs.coherent c) hjoined hreads with
    ⟨hsend, more, hreads', hheld⟩ | ⟨hreads', hheld, hwhy⟩
  · -- the reader hands messages out, or another task moves
    rw [forwardedBy_of_ne hsend, List.append_nil] at hout
    refine ⟨done ++ more, hreads', fun habort => ?_⟩
    obtain ⟨hfront, hall⟩ := hlive (hstep.readerAborted habort)
    rw [hout, hheld, forwards_append, tagged_append, tagged_append]
    refine ⟨hfront.trans (List.prefix_append _ _), fun hopen => ?_⟩
    rw [← List.append_assoc, hall (hstep.msgs_isOpen hopen)]
  · refine ⟨done, hreads', fun habort => ?_⟩
    obtain ⟨hfront, hall⟩ := hlive (hstep.readerAborted habort)
    rw [hheld, tagged_nil, List.append_nil]
    by_cases hsend : l = .reader c .send
    · -- what it held goes on the channel under the id of the peer
      subst hsend
      obtain ⟨id, msg, hphase, hroom⟩ := hstep.of_send
      obtain ⟨info', hjoined', hid⟩ := hs.owned.reader c id (by rw [hphase]; rfl)
      rw [hjoined] at hjoined'
      cases hjoined'
      have hall := hall hroom.1
      rw [hphase] at hall
      have hnew : t.2 = tagged info (Nullpipe.forwards done) := by
        rw [hout, forwardedBy_send hphase, ← hid]
        exact hall
      rw [hnew]
      exact ⟨List.prefix_refl _, fun _ => rfl⟩
    · -- what it held is lost: the channel was closed
      rw [forwardedBy_of_ne hsend, List.append_nil] at hout
      rw [hout]
      refine ⟨hfront, fun hopen => ?_⟩
      rcases hwhy with heq | hclosed | haborted
      · exact absurd heq hsend
      · rw [hstep.msgs_isOpen hopen] at hclosed
        cases hclosed
      · rw [hstep.readerAborted habort] at haborted
        cases haborted

/-- Before a peer has joined nothing is forwarded for it, and then its reader begins. -/
theorem ForwardStep.begins {s t : Room × List (PeerId × WireMessage)}
    (h : ForwardStep X cfg c l s t) (hs : RoomReachable X cfg s.1)
    (hnot : (s.1.conns c).handler.joined = none) (hout : s.2 = []) :
    t.2 = [] ∧ ∀ info, (t.1.conns c).handler.joined = some info → Forwards X c info t := by
  obtain ⟨s, before⟩ := s
  obtain ⟨t, after⟩ := t
  obtain ⟨hstep, hnext⟩ := h
  dsimp only at hs hnot hout hstep hnext ⊢
  -- a reader that sends belongs to a peer that has joined
  have hquiet : l ≠ .reader c .send := by
    rintro rfl
    obtain ⟨id, msg, hphase, -⟩ := hstep.of_send
    obtain ⟨info, hjoined, -⟩ := hs.owned.reader c id (by rw [hphase]; rfl)
    rw [hnot] at hjoined
    cases hjoined
  rw [forwardedBy_of_ne hquiet, List.append_nil, hout] at hnext
  refine ⟨hnext, fun info hjoined => ?_⟩
  rcases hstep.joined c with ⟨rfl, info', hphase, hjoins⟩ | ⟨-, hsame⟩
  · have hc := hs.coherent c
    have hfits := hc.fits
    have hspawned := hc.spawned
    rw [hphase] at hfits hspawned
    have hstart : (s.conns c).Reads X [] := .start hfits.1 hspawned.1
    cases hstep with
    | handler h =>
        cases h with
        | emitJoin =>
            refine ⟨[], hstart.congr (by rw [conns_setConn_self]) (by simp) (by simp) (by simp)
              (by rw [conns_setConn_self]; exact id), fun _ => ?_⟩
            dsimp only
            rw [hnext, conns_setConn_self, hspawned.1]
            exact ⟨List.prefix_refl _, fun _ => rfl⟩
  · rw [hsame, hnot] at hjoined
    cases hjoined

/-- **Every run:** what the reader of a joined peer has forwarded. -/
theorem forwards_of_run {now : ℕ} {ls : List Label} {t : Room × List (PeerId × WireMessage)}
    (hrun : Run (ForwardStep X cfg c) (Room.init now, []) ls t)
    (hjoined : (t.1.conns c).handler.joined = some info) : Forwards X c info t := by
  have hall : RoomReachable X cfg t.1 ∧
      (((t.1.conns c).handler.joined = none ∧ t.2 = []) ∨
        ∃ info, (t.1.conns c).handler.joined = some info ∧ Forwards X c info t) := by
    refine hrun.invariant (I := fun t => RoomReachable X cfg t.1 ∧
      (((t.1.conns c).handler.joined = none ∧ t.2 = []) ∨
        ∃ info, (t.1.conns c).handler.joined = some info ∧ Forwards X c info t))
      ⟨⟨now, .refl _⟩, .inl ⟨rfl, rfl⟩⟩ ?_
    rintro l u v ⟨hu, hcases⟩ hstep
    refine ⟨hu.run (.single hstep.1), ?_⟩
    rcases hcases with ⟨hnot, hout⟩ | ⟨info, hjoined, hforwards⟩
    · obtain ⟨hnext, hbegins⟩ := hstep.begins hu hnot hout
      cases hjoins : (v.1.conns c).handler.joined with
      | none => exact .inl ⟨rfl, hnext⟩
      | some info => exact .inr ⟨info, rfl, hbegins info hjoins⟩
    · exact .inr ⟨info, hstep.1.joined_mono hjoined, hstep.forwards hu hjoined hforwards⟩
  rcases hall.2 with ⟨hnot, -⟩ | ⟨info', hjoined', hforwards⟩
  · rw [hnot] at hjoined
    cases hjoined
  · rw [hjoined] at hjoined'
    cases hjoined'
    exact hforwards

/-! ## The end of a reader -/

/-- A bound on the steps a reader still takes when nothing more arrives. -/
def Conn.rank (k : Conn) : ℕ :=
  2 * k.sock.inbox.length + match k.reader with
    | .unspawned => 3
    | .spawned _ => 2
    | .reading _ _ _ => 1
    | .sending _ _ => 2
    | .ended _ => 0

/-- The steps of the reader of `c`. -/
def Label.reads (c : ConnId) : Label → Bool
  | .reader d _ => d = c
  | _ => false

theorem ReaderStep.rank_lt {l : ReaderLabel} (h : ReaderStep X c l s t) :
    (t.conns c).rank < (s.conns c).rank := by
  unfold Conn.rank
  cases h with
  | start hphase | readFail hphase | readTimeout hphase | send hphase | sendClosed hphase =>
      simp only [conns_setConn_self, hphase]
      omega
  | read hphase htake | message hphase htake | ping hphase htake | badFrame hphase htake
  | badMessage hphase htake =>
      have htaken := Socket.length_take_lt htake
      simp only [conns_setConn_self, hphase]
      omega
  | cancel habort hspawned hlive =>
      rw [conns_setConn_self]
      cases hreader : (s.conns c).reader with
      | unspawned => exact absurd hreader hspawned
      | ended reason => exact absurd hreader (hlive reason)
      | spawned | reading | sending =>
          dsimp only
          omega

theorem HandlerStep.rank_le {l : HandlerLabel} (h : HandlerStep X c l s t)
    (hc : (s.conns c).Coherent X) : (t.conns c).rank ≤ (s.conns c).rank := by
  unfold Conn.rank
  cases h with
  | readHandshake _ htake | readName _ htake =>
      have htaken := Socket.length_take_lt htake
      simp only [conns_setConn_self]
      omega
  | spawnReader hphase =>
      have hspawned := hc.spawned
      rw [hphase] at hspawned
      simp only [conns_setConn_self, hspawned.1]
      omega
  | _ => simp

/-- Once the stream has ended no step makes more work for its reader, and a step of the
reader makes less. -/
theorem Step.rank (h : Step X cfg l s t) (hs : RoomReachable X cfg s)
    (hend : (s.conns c).sock.readEnd.isSome) :
    (t.conns c).rank + (if l.reads c then 1 else 0) ≤ (s.conns c).rank ∧
      (t.conns c).sock.readEnd.isSome := by
  by_cases hconn : l.conn = some c
  · cases h.connStep hconn with
    | accept =>
        rw [conns_setConn_self]
        exact ⟨Nat.le_refl _, hend⟩
    | handler h =>
        refine ⟨h.rank_le (hs.coherent c), ?_⟩
        rw [h.readEnd]
        exact hend
    | reader h =>
        have hlt := h.rank_lt
        refine ⟨?_, ?_⟩
        · simp only [Label.reads, decide_true, if_true]
          omega
        · rw [h.arrived.2]
          exact hend
    | writer h =>
        obtain ⟨-, -, hreader, -, -, -, hinbox, hreadEnd⟩ := h.frame
        unfold Conn.rank
        rw [hreader, hinbox, hreadEnd]
        exact ⟨Nat.le_refl _, hend⟩
    | net h =>
        -- nothing arrives at a stream that has ended
        cases h with
        | arrive hopen | finish hopen =>
            rw [hopen] at hend
            cases hend
  · have hreads : l.reads c = false := by
      cases l with
      | reader d l =>
          exact decide_eq_false fun heq => hconn (by rw [heq]; rfl)
      | _ => rfl
    rw [h.conns_of_ne hconn, hreads]
    exact ⟨Nat.le_refl _, hend⟩

/-- **A reader whose stream has ended takes no more steps than its rank.** -/
theorem reads_le_rank {ls : List Label} (hs : RoomReachable X cfg s)
    (hend : (s.conns c).sock.readEnd.isSome) (hrun : Run (Step X cfg) s ls t) :
    ls.countP (Label.reads c) ≤ (s.conns c).rank := by
  have hall : RoomReachable X cfg t ∧ (t.conns c).sock.readEnd.isSome ∧
      (t.conns c).rank + ls.countP (Label.reads c) ≤ (s.conns c).rank := by
    refine hrun.history (I := fun ls t => RoomReachable X cfg t ∧
      (t.conns c).sock.readEnd.isSome ∧
        (t.conns c).rank + ls.countP (Label.reads c) ≤ (s.conns c).rank)
      ⟨hs, hend, Nat.le_refl _⟩ ?_
    rintro ls l u v ⟨hu, hend, hle⟩ hstep
    obtain ⟨hrank, hend'⟩ := hstep.rank hu hend
    refine ⟨hu.run (.single hstep), hend', ?_⟩
    rw [List.countP_append, List.countP_singleton]
    omega
  omega

/-- **A reader whose stream has ended can go on until it has ended itself,** one byte at a
time, unless the message channel is full. -/
theorem exists_readerStep {done : List WireMessage} (hreads : (s.conns c).Reads X done)
    (hspawned : (s.conns c).reader ≠ .unspawned)
    (hlive : ∀ reason, (s.conns c).reader ≠ .ended reason)
    (hend : (s.conns c).sock.readEnd.isSome) :
    (∃ l t, ReaderStep X c l s t ∧ l ≠ .readTimeout ∧ l ≠ .cancel) ∨
      ((∃ id msg, (s.conns c).reader = .sending id msg) ∧
        msgChanCap ≤ s.msgs.queue.length) := by
  cases hreader : (s.conns c).reader with
  | unspawned => exact absurd hreader hspawned
  | ended reason => exact absurd hreader (hlive reason)
  | spawned id => exact .inl ⟨_, _, .start hreader, by simp, by simp⟩
  | sending id msg =>
      by_cases hopen : s.msgs.isOpen = true
      · by_cases hroom : s.msgs.queue.length < msgChanCap
        · exact .inl ⟨_, _, .send hreader ⟨hopen, hroom⟩, by simp, by simp⟩
        · exact .inr ⟨⟨id, msg, rfl⟩, Nat.le_of_not_lt hroom⟩
      · exact .inl ⟨_, _, .sendClosed hreader (by simpa using hopen), by simp, by simp⟩
  | reading id got deadline =>
      -- take one byte if there is one, and fail at the end of the stream if not
      refine .inl ?_
      cases hreads with
      | ended hended => exact absurd hended (hlive _)
      | live _ hneeds _ =>
          rw [hreader] at hneeds
          obtain ⟨n, hneeds⟩ := hneeds
          cases hinbox : (s.conns c).sock.inbox with
          | nil => exact ⟨_, _, .readFail hreader ⟨hinbox, hend⟩, by simp, by simp⟩
          | cons byte rest =>
              have htake : (s.conns c).sock.CanTake [byte] := by
                refine ⟨List.cons_ne_nil _ _, ?_⟩
                rw [hinbox]
                exact ⟨rest, rfl⟩
              have hfit : [byte].length ≤ n := Format.progress_needs_pos hneeds
              -- the byte completes a frame, good or bad, or it does not
              cases hprogress : readFrame (got ++ [byte]) with
              | needs k => exact ⟨_, _, .read hreader htake hneeds hfit hprogress, by simp, by simp⟩
              | failed e =>
                  exact ⟨_, _, .badFrame hreader htake hneeds hfit hprogress, by simp, by simp⟩
              | frame frame =>
                  cases hdecode : decodeMessage X.json frame with
                  | error e =>
                      exact ⟨_, _, .badMessage hreader htake hneeds hfit hprogress hdecode,
                        by simp, by simp⟩
                  | ok msg =>
                      by_cases hkind : msg.kind = .ping
                      · exact ⟨_, _, .ping hreader htake hneeds hfit hprogress hdecode hkind,
                          by simp, by simp⟩
                      · exact ⟨_, _, .message hreader htake hneeds hfit hprogress hdecode hkind,
                          by simp, by simp⟩

/-! ## Any bytes -/

/-- What the hub's reader of connection `c` does with the bytes behind the handshake. -/
structure HubReads (X : Crates) (cfg : HostConfig) (c : ConnId) (info : PeerInfo)
    (s : Room × List (PeerId × WireMessage)) : Prop where
  front : ∀ ps, Payloads (payload (s.1.conns c).sock.arrived) ps →
    s.2 <+: tagged info (forwards (opening X.json ps))
  whole : ∀ ps, Payloads (payload (s.1.conns c).sock.arrived) ps → s.1.msgs.isOpen = true →
    ∀ reason, (s.1.conns c).reader = .ended reason → reason ≠ .timedOut →
      s.2 = tagged info (forwards (opening X.json ps))
  bounded : (s.1.conns c).sock.readEnd.isSome → ∀ ls t, Run (Step X cfg) s.1 ls t →
    ls.countP (Label.reads c) ≤ (s.1.conns c).rank
  goesOn : (s.1.conns c).sock.readEnd.isSome → (s.1.conns c).reader ≠ .unspawned →
    (∀ reason, (s.1.conns c).reader ≠ .ended reason) →
      (∃ l t, ReaderStep X c l s.1 t ∧ l ≠ .readTimeout ∧ l ≠ .cancel) ∨
        ((∃ id msg, (s.1.conns c).reader = .sending id msg) ∧
          msgChanCap ≤ s.1.msgs.queue.length)

theorem hubReads_of_run {now : ℕ} {ls : List Label} {t : Room × List (PeerId × WireMessage)}
    (hrun : Run (ForwardStep X cfg c) (Room.init now, []) ls t)
    (hjoined : (t.1.conns c).handler.joined = some info)
    (habort : (t.1.conns c).readerAborted = false) : HubReads X cfg c info t := by
  have hreach : RoomReachable X cfg t.1 :=
    hrun.invariant (I := fun t => RoomReachable X cfg t.1) ⟨now, .refl _⟩
      fun hu hstep => hu.run (.single hstep.1)
  obtain ⟨done, hreads, hlive⟩ := forwards_of_run hrun hjoined
  obtain ⟨hfront, hall⟩ := hlive habort
  have hopening : ∀ ps, Payloads (payload (t.1.conns c).sock.arrived) ps →
      framed X (t.1.conns c) = opening X.json ps := fun ps hps => hps.streamMessages_eq
  refine ⟨?_, ?_, ?_, ?_⟩
  · intro ps hps
    obtain ⟨more, hmore⟩ := hreads.prefix_framed
    rw [← hopening ps hps, ← hmore, forwards_append, tagged_append]
    exact hfront.trans (List.prefix_append _ _)
  · intro ps hps hopen reason hended hreason
    have hdone := hreads.eq_framed (by simp [hended, hreason]) habort (.inl ⟨reason, hended⟩)
    have hsent := hall hopen
    rw [hended] at hsent
    rw [← hopening ps hps, ← hdone, ← hsent]
    exact (List.append_nil _).symm
  · intro hend ls t hrun
    exact reads_le_rank hreach hend hrun
  · intro hend hspawned hlive
    exact exists_readerStep hreads hspawned hlive hend

end Nullpipe

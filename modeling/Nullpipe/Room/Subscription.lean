import Nullpipe.Room.Handshake
import Nullpipe.Room.Admit
import Nullpipe.Core.Standard

/-!
# Host messages around a join

Between the event that a peer has joined and the subscription of its writer to
the broadcast channel lie a network write and the spawn of the reader.  What the
host broadcasts in between is not in the peer's part of the log.  `hostMessages_iff` says
that this is all that is missing.

`Outgoing` follows a peer from its join event on.  It has one case for each stretch of the
way: while the join notice is written, while the reader is spawned, and once the writer runs.
In the last one the writer has taken a part `got` of the log behind the place where it
subscribed, and the stream holds the frames of that behind the join notice, up to the rest of
the frame that is being written (`Feeds`).

* `HandlerStep.joined_cases` lists what a handler can still do behind its join event, and
  `Outgoing.handler` goes through it.
* `WriterStep.feeds` is the writer's part: it works off the log in order, and a message that
  does not fit a frame leaves nothing to write.
* A run is `Clean` if no write or flush fails or times out and the receiver does not lag.

At the end of a clean run a writer that has `CaughtUp` has written everything behind its
subscription.  That is exactly what the host has said since the join event if and only if
nothing with a frame was said before the subscription (`beforeSubscription`).
-/

namespace Nullpipe

open Channel Room Transition

variable {X : Crates} {cfg : HostConfig} {s t u : Room} {c : ConnId} {ls : List Label}
  {info : PeerInfo}

/-! ## After the join event -/

/-- The steps of a handler after its join event. -/
theorem HandlerStep.joined_cases {l : HandlerLabel} (h : HandlerStep X c l s t)
    (hjoined : (s.conns c).handler.joined = some info) :
    (∃ chunk rest, (s.conns c).handler = .notifyJoin info (chunk ++ rest) ∧ l = .write chunk ∧
      t = s.setConn c { s.conns c with
        sock := (s.conns c).sock.write chunk
        handler := if rest = [] then .spawnReader info else .notifyJoin info rest }) ∨
    (∃ rest reason, (s.conns c).handler = .notifyJoin info rest ∧ l = .writeFail reason) ∨
    ((s.conns c).handler = .spawnReader info ∧ l = .spawnReader ∧
      t = s.setConn c { s.conns c with
        reader := .spawned info.id
        handler := .subscribe info }) ∨
    ((s.conns c).handler = .subscribe info ∧ l = .subscribe ∧
      t = s.setConn c { s.conns c with
        cursor := s.bcast.length
        writer := .recv
        handler := .serve info }) ∨
    (l ≠ .subscribe ∧ (t.conns c).handler.Gone) := by
  cases h with
  | @writeNotice _ info' chunk rest hphase =>
      rw [hphase] at hjoined
      cases hjoined
      exact .inl ⟨chunk, rest, hphase, rfl, rfl⟩
  | noticeFail hphase =>
      rw [hphase] at hjoined
      cases hjoined
      exact .inr (.inl ⟨_, _, hphase, rfl⟩)
  | spawnReader hphase =>
      rw [hphase] at hjoined
      cases hjoined
      exact .inr (.inr (.inl ⟨hphase, rfl, rfl⟩))
  | subscribe hphase =>
      rw [hphase] at hjoined
      cases hjoined
      exact .inr (.inr (.inr (.inl ⟨hphase, rfl, rfl⟩)))
  | readerDone | shutdown | abortWriter | deregister | emitLeave =>
      -- past the select there is no way back to the subscription
      exact .inr (.inr (.inr (.inr ⟨by simp, by rw [conns_setConn_self]; trivial⟩)))
  | start hphase | readHandshake hphase | handshakeReadFail hphase | handshakeReadTimeout hphase
  | insertNonce hphase | refuseNonce hphase | writeReject hphase | rejectFail hphase
  | writeAccept hphase | acceptFail hphase | acceptTimeout hphase | flushAccept hphase
  | flushFail hphase | flushTimeout hphase | readName hphase | nameReadFail hphase
  | nameReadTimeout hphase | register hphase | emitJoin hphase =>
      rw [hphase] at hjoined
      cases hjoined

/-- A handler that has left its select does not come back. -/
theorem HandlerStep.gone {l : HandlerLabel} (h : HandlerStep X c l s t)
    (hgone : (s.conns c).handler.Gone) : (t.conns c).handler.Gone := by
  have hjoined : ∃ info, (s.conns c).handler.joined = some info := by
    cases hk : (s.conns c).handler with
    | abortWriter info | deregister info | emitLeave info | ended info => exact ⟨info, rfl⟩
    | _ => rw [hk] at hgone; cases hgone
  obtain ⟨info, hjoined⟩ := hjoined
  rcases h.joined_cases hjoined with ⟨_, _, hphase, -⟩ | ⟨_, _, hphase, -⟩ | ⟨hphase, -⟩ |
    ⟨hphase, -⟩ | ⟨-, hafter⟩
  · rw [hphase] at hgone
    cases hgone
  · rw [hphase] at hgone
    cases hgone
  · rw [hphase] at hgone
    cases hgone
  · rw [hphase] at hgone
    cases hgone
  · exact hafter

/-! ## The outgoing stream -/

/-- Nothing goes wrong with the outgoing side of connection `c`: no write or flush
fails or times out, and its receiver does not lag. -/
def Label.Clean (c : ConnId) : Label → Prop
  | .handler d (.writeFail _) => d ≠ c
  | .writer d .lagged | .writer d .writeFail | .writer d .writeTimeout | .writer d .flushFail
  | .writer d .flushTimeout => d ≠ c
  | _ => True

/-- The part of the current frame a writer has not written yet. -/
def Writer.Holds (rest : List UInt8) : Writer → Prop
  | .recv | .flushing _ => rest = []
  | .writing rest' _ => rest = rest'
  | .unspawned | .ended => False

/-- The writer of connection `k` has taken `got` off the log behind `base`, and has
written the frames of that behind `front`, up to `rest`. -/
structure Feeds (X : Crates) (base got : List WireMessage) (front rest : List UInt8)
    (bcast : List WireMessage) (k : Conn) : Prop where
  cursor : k.cursor ≤ bcast.length
  taken : bcast.take k.cursor = base ++ got
  holds : k.writer.Holds rest
  written : k.sock.written ++ rest = front ++ got.flatMap (frameBytes X.json)

/-- Where the outgoing stream of a peer stands in a run `ls` that starts at its
join event, with the log `log` and with the bytes `front` written or about to be
written at that point. -/
inductive Outgoing (X : Crates) (c : ConnId) (info : PeerInfo) (front : List UInt8)
    (log : List WireMessage) (ls : List Label) (t : Room) : Prop
  | joining (rest : List UInt8) (hnot : .handler c .subscribe ∉ ls)
      (hwriter : (t.conns c).writer = .unspawned)
      (hphase : (t.conns c).handler = .notifyJoin info rest ∨ rest = [] ∧
        ((t.conns c).handler = .spawnReader info ∨ (t.conns c).handler = .subscribe info))
      (hwritten : (t.conns c).sock.written ++ rest = front)
  /-- `got` is what the subscription has delivered, `missed` what was broadcast
  before it -/
  | serving (missed post : List Label) (got : List WireMessage) (rest : List UInt8)
      (hphase : (t.conns c).handler = .serve info)
      (hsplit : ls = missed ++ .handler c .subscribe :: post)
      (hnot : .handler c .subscribe ∉ missed)
      (hcursor : (t.conns c).cursor ≤ t.bcast.length)
      (htake : t.bcast.take (t.conns c).cursor = log ++ broadcasts missed ++ got)
      (hwriter : (t.conns c).writer.Holds rest)
      (hwritten : (t.conns c).sock.written ++ rest = front ++ got.flatMap (frameBytes X.json))
  | gone (hgone : (t.conns c).handler.Gone)

variable {front : List UInt8} {log : List WireMessage}

/-- A step that leaves handler, writer, cursor and outgoing bytes alone. -/
theorem Outgoing.frame {l : Label} (h : Outgoing X c info front log ls t)
    (hl : l ≠ .handler c .subscribe) (hhandler : (u.conns c).handler = (t.conns c).handler)
    (hwriter : (u.conns c).writer = (t.conns c).writer)
    (hcursor : (u.conns c).cursor = (t.conns c).cursor)
    (hwritten : (u.conns c).sock.written = (t.conns c).sock.written)
    (hbcast : t.bcast <+: u.bcast) : Outgoing X c info front log (ls ++ [l]) u := by
  cases h with
  | joining rest hnot hw hphase hbytes =>
      refine .joining rest ?_ (hwriter.trans hw) (by rw [hhandler]; exact hphase)
        (by rw [hwritten]; exact hbytes)
      simp only [List.mem_append, List.mem_singleton, not_or]
      exact ⟨hnot, hl.symm⟩
  | serving missed post got rest hphase hsplit hnot hle htake hholds hbytes =>
      obtain ⟨more, hmore⟩ := hbcast
      have hsplit' : ls ++ [l] = missed ++ .handler c .subscribe :: (post ++ [l]) := by
        rw [hsplit]
        simp
      have hle' : (u.conns c).cursor ≤ u.bcast.length := by
        rw [hcursor, ← hmore, List.length_append]
        omega
      have htake' : u.bcast.take (u.conns c).cursor = log ++ broadcasts missed ++ got := by
        rw [hcursor, ← hmore, List.take_append_of_le_length hle, htake]
      exact .serving missed (post ++ [l]) got rest (hhandler.trans hphase) hsplit' hnot hle' htake'
        (by rw [hwriter]; exact hholds)
        (by rw [hwritten]; exact hbytes)
  | gone hgone => exact .gone (by rw [hhandler]; exact hgone)

theorem HandlerStep.bcast {l : HandlerLabel} (h : HandlerStep X c l s t) : t.bcast = s.bcast := by
  cases h <;> rfl

/-- A step of the handler itself. -/
theorem Outgoing.handler {l : HandlerLabel} (h : Outgoing X c info front log ls t)
    (hstep : HandlerStep X c l t u) (hclean : (Label.handler c l).Clean c)
    (hlog : t.bcast = log ++ broadcasts ls) :
    Outgoing X c info front log (ls ++ [.handler c l]) u := by
  cases h with
  | joining rest hnot hw hphase hbytes =>
      have hjoined : (t.conns c).handler.joined = some info := by
        rcases hphase with hphase | ⟨-, hphase | hphase⟩ <;> rw [hphase] <;> rfl
      have hnot' (hne : l ≠ .subscribe) :
          Label.handler c .subscribe ∉ ls ++ [Label.handler c l] := by
        simp only [List.mem_append, List.mem_singleton, Label.handler.injEq, true_and, not_or]
        exact ⟨hnot, hne.symm⟩
      rcases hstep.joined_cases hjoined with ⟨chunk, rest', hphase', rfl, rfl⟩ |
        ⟨_, reason, -, rfl⟩ | ⟨hphase', rfl, rfl⟩ | ⟨hphase', rfl, rfl⟩ | ⟨-, hgone⟩
      · -- a part of the join notice is written
        have hrest : rest = chunk ++ rest' := by
          rcases hphase with hphase | ⟨-, hphase | hphase⟩ <;> rw [hphase] at hphase' <;>
            cases hphase'
          rfl
        rw [hrest, ← List.append_assoc] at hbytes
        by_cases hend : rest' = []
        · rw [hend, List.append_nil] at hbytes
          refine .joining [] (hnot' (by simp)) (by simpa using hw) (.inr ⟨rfl, .inl ?_⟩) ?_
          · simp [hend]
          · simpa using hbytes
        · refine .joining rest' (hnot' (by simp)) (by simpa using hw) (.inl ?_) ?_
          · simp [hend]
          · simpa using hbytes
      · exact absurd rfl hclean
      · refine .joining [] (hnot' (by simp)) (by simpa using hw) (.inr ⟨rfl, .inr (by simp)⟩) ?_
        have hrest : rest = [] := by
          rcases hphase with hphase | ⟨hrest, -⟩
          · rw [hphase] at hphase'
            cases hphase'
          · exact hrest
        rw [hrest] at hbytes
        simpa using hbytes
      · -- the subscription starts at the end of the log
        have hrest : rest = [] := by
          rcases hphase with hphase | ⟨hrest, -⟩
          · rw [hphase] at hphase'
            cases hphase'
          · exact hrest
        rw [hrest] at hbytes
        refine .serving ls [] [] [] (by simp) rfl hnot (by simp) ?_ ?_ ?_
        · simpa using hlog
        · simp [Writer.Holds]
        · simpa using hbytes
      · exact .gone hgone
  -- a handler that serves can only leave its select
  | serving _ _ _ _ hphase =>
      rcases hstep.joined_cases (by rw [hphase]; rfl) with ⟨_, _, hphase', -⟩ |
        ⟨_, _, hphase', -⟩ | ⟨hphase', -⟩ | ⟨hphase', -⟩ | ⟨-, hgone⟩
      · rw [hphase] at hphase'
        cases hphase'
      · rw [hphase] at hphase'
        cases hphase'
      · rw [hphase] at hphase'
        cases hphase'
      · rw [hphase] at hphase'
        cases hphase'
      · exact .gone hgone
  | gone hgone => exact .gone (hstep.gone hgone)

/-- A message that does not fit a frame leaves nothing to write. -/
theorem holds_afterRecv (json : SerdeJson) (msg : WireMessage) (now : ℕ) :
    (afterRecv json msg now).Holds (frameBytes json msg) := by
  unfold afterRecv frameBytes
  cases encodeMessage json msg <;> rfl

/-- **A writer works off the log in order**, and what does not fit a frame is passed
over. -/
theorem WriterStep.feeds {l : WriterLabel} {base got : List WireMessage} {rest : List UInt8}
    (hstep : WriterStep X c l t u) (hclean : (Label.writer c l).Clean c)
    (hserve : (t.conns c).handler = .serve info) (habort : (t.conns c).writerAborted = false)
    (h : Feeds X base got front rest t.bcast (t.conns c)) :
    ∃ got' rest', Feeds X base got' front rest' u.bcast (u.conns c) := by
  obtain ⟨hle, htake, hholds, hbytes⟩ := h
  cases hstep with
  -- the next message of the log is taken, and its frame is what is left to write
  | @recv _ msg next hw hrecv =>
      obtain ⟨hget, rfl⟩ := Broadcast.recv_value hrecv
      rw [hw] at hholds
      cases hholds
      have hlt := (List.getElem?_eq_some_iff.mp hget).1
      have hnext : t.bcast.take ((t.conns c).cursor + 1) = base ++ (got ++ [msg]) := by
        rw [List.take_add_one, htake, hget, List.append_assoc]
        rfl
      refine ⟨got ++ [msg], frameBytes X.json msg, by simpa using hlt, by simpa using hnext, ?_, ?_⟩
      · rw [conns_setConn_self]
        exact holds_afterRecv ..
      · rw [List.append_nil] at hbytes
        simp [hbytes]
  | @write _ chunk rest' deadline hw =>
      rw [hw] at hholds
      cases hholds
      refine ⟨got, rest', by simpa using hle, by simpa using htake, ?_, by simpa using hbytes⟩
      simp only [conns_setConn_self]
      split
      · rename_i hend
        exact hend
      · rfl
  | flush hw =>
      rw [hw] at hholds
      exact ⟨got, rest, by simpa using hle, by simpa using htake,
        by simpa [Writer.Holds] using hholds, by simpa using hbytes⟩
  | closed _ _ hclosed =>
      -- the handler itself holds a sender of the channel
      rcases (hclosed.2.2 c).2.2.2 with hidle | ⟨_, hended⟩ | ⟨_, hfailed⟩
      · rw [hserve] at hidle
        cases hidle
      · rw [hserve] at hended
        cases hended
      · rw [hserve] at hfailed
        cases hfailed
  | cancel haborted =>
      rw [habort] at haborted
      cases haborted
  | lagged | writeFail | writeTimeout | flushFail | flushTimeout => exact absurd rfl hclean

/-- A step of the writer of a served peer. -/
theorem Outgoing.writer {l : WriterLabel} (h : Outgoing X c info front log ls t)
    (hstep : WriterStep X c l t u) (hclean : (Label.writer c l).Clean c)
    (hcoherent : (t.conns c).Coherent X) :
    Outgoing X c info front log (ls ++ [.writer c l]) u := by
  obtain ⟨hspawned, -, -⟩ := hstep.spawned
  have hhandler := hstep.frame.1
  cases h with
  -- no writer is spawned before the subscription
  | joining rest hnot hw => exact absurd hw hspawned
  | serving missed post got rest hphase hsplit hnot hle htake hholds hbytes =>
      have hsplit' : ls ++ [Label.writer c l] =
          missed ++ .handler c .subscribe :: (post ++ [Label.writer c l]) := by
        rw [hsplit]
        simp
      have haborts := hcoherent.aborts
      rw [hphase] at haborts
      obtain ⟨got', rest', hle', htake', hholds', hbytes'⟩ :=
        hstep.feeds hclean hphase haborts.2 ⟨hle, htake, hholds, hbytes⟩
      exact .serving missed _ got' rest' (hhandler.trans hphase) hsplit' hnot hle' htake' hholds'
        hbytes'
  | gone hgone => exact .gone (by rw [hhandler]; exact hgone)

/-- **One step.** -/
theorem Outgoing.step {l : Label} (h : Outgoing X c info front log ls t)
    (hstep : Step X cfg l t u) (hclean : l.Clean c) (hcoherent : (t.conns c).Coherent X)
    (hlog : t.bcast = log ++ broadcasts ls) : Outgoing X c info front log (ls ++ [l]) u := by
  have hbcast : t.bcast <+: u.bcast := ⟨_, hstep.bcast.symm⟩
  by_cases hconn : l.conn = some c
  · cases hstep.connStep hconn with
    | accept _ _ hidle =>
        -- the connection is in use, so it is not accepted again
        cases h with
        | joining rest _ _ hphase =>
            rcases hphase with hphase | ⟨-, hphase | hphase⟩ <;> rw [hphase] at hidle <;>
              cases hidle
        | serving _ _ _ _ hphase =>
            rw [hphase] at hidle
            cases hidle
        | gone hgone =>
            rw [hidle] at hgone
            cases hgone
    | handler hstep =>
        exact h.handler hstep hclean hlog
    | reader hstep =>
        obtain ⟨hhandler, -, -, hwriter, -, hcursor, hwritten⟩ := hstep.frame
        exact h.frame (by simp) hhandler hwriter hcursor hwritten hbcast
    | writer hstep =>
        exact h.writer hstep hclean hcoherent
    | net hstep =>
        obtain ⟨hhandler, -, -, -, hwriter, -, hcursor, -, hwritten⟩ := hstep.frame
        exact h.frame (by simp) hhandler hwriter hcursor hwritten hbcast
  · have hsame := hstep.conns_of_ne hconn
    refine h.frame ?_ (by rw [hsame]) (by rw [hsame]) (by rw [hsame]) (by rw [hsame]) hbcast
    rintro rfl
    exact hconn rfl

/-- What is queued to the peer when its join event is emitted. -/
theorem Outgoing.start (hs : RoomReachable X cfg s)
    (hphase : (s.conns c).handler = .emitJoin info)
    (hstep : Step X cfg (.handler c .emitJoin) s t) :
    Outgoing X c info ((s.conns c).sock.written ++ frameBytes X.json (joinNotice info))
      t.bcast [] t := by
  have hspawned := (hs.coherent c).spawned
  rw [hphase] at hspawned
  cases hstep with
  | handler hstep =>
      cases hstep with
      | emitJoin hphase' =>
          rw [hphase] at hphase'
          cases hphase'
          refine .joining (frameBytes X.json (joinNotice info)) List.not_mem_nil
            (by simpa using hspawned.2) ?_ (by simp)
          simp only [conns_setConn_self, afterEmitJoin, frameBytes]
          cases encodeMessage X.json (joinNotice info) with
          | ok frame => exact .inl rfl
          | error e => exact .inr ⟨rfl, .inl rfl⟩

/-- The outgoing stream throughout a clean run after the join event. -/
theorem Outgoing.run {log : List WireMessage} (hrun : RoomRun X cfg t ls u)
    (ht : RoomReachable X cfg t) (hlog : t.bcast = log) (h : Outgoing X c info front log [] t)
    (hclean : ∀ l ∈ ls, l.Clean c) : Outgoing X c info front log ls u := by
  induction hrun with
  | nil => exact h
  | snoc hrun hstep ih =>
      have hbefore := ih fun l hl => hclean l (List.mem_append_left _ hl)
      have hreach := ht.run hrun
      exact hbefore.step hstep (hclean _ (by simp)) (hreach.coherent c)
        (by rw [RoomRun.bcast hrun, hlog])

/-! ## When all host messages arrive -/

/-- The writer of the peer has nothing left to do. -/
def CaughtUp (s : Room) (c : ConnId) : Prop :=
  (s.conns c).writer = .recv ∧ (s.conns c).cursor = s.bcast.length

/-- The steps of a run before the writer of the peer has its subscription. -/
def beforeSubscription (c : ConnId) (ls : List Label) : List Label :=
  ls.takeWhile (· ≠ .handler c .subscribe)

private theorem flatMap_frameBytes_eq_nil {json : SerdeJson} {msgs : List WireMessage}
    (hencodes : ∀ msg ∈ msgs, Encodes json msg) (h : msgs.flatMap (frameBytes json) = []) :
    msgs = [] := by
  cases msgs with
  | nil => rfl
  | cons msg msgs =>
      have hmsg := frameBytes_ne_nil (hencodes msg (List.mem_cons_self ..))
      rw [List.flatMap_cons, List.append_eq_nil_iff] at h
      exact absurd h.1 hmsg

/-- **After the join event of a peer, exactly the host messages are written to its
stream if and only if none was broadcast before its subscription.**  The peer is
still connected at the end of the run and its writer has caught up. -/
theorem hostMessages_iff (hs : RoomReachable X cfg s)
    (hphase : (s.conns c).handler = .emitJoin info) (hjoin : Step X cfg (.handler c .emitJoin) s t)
    (hrun : RoomRun X cfg t ls u) (hserved : (u.conns c).handler = .serve info)
    (hcaught : CaughtUp u c) (hclean : ∀ l ∈ ls, l.Clean c)
    (hencodes : ∀ msg ∈ broadcasts ls, Encodes X.json msg) :
    (u.conns c).sock.written =
        (s.conns c).sock.written ++ frameBytes X.json (joinNotice info) ++
          (broadcasts ls).flatMap (frameBytes X.json) ↔
      broadcasts (beforeSubscription c ls) = [] := by
  have ht : RoomReachable X cfg t := hs.run (.single hjoin)
  have houtgoing := Outgoing.run hrun ht rfl (.start hs hphase hjoin) hclean
  cases houtgoing with
  | joining rest _ _ hphase' =>
      rcases hphase' with h | ⟨-, h | h⟩ <;> rw [hserved] at h <;> cases h
  | gone hgone =>
      rw [hserved] at hgone
      cases hgone
  | serving missed post got rest _ hsplit hnot hle htake hholds hwritten =>
      -- a writer that has caught up has taken the whole log and holds nothing
      rw [hcaught.1] at hholds
      cases hholds
      rw [hcaught.2, List.take_length, hrun.bcast, List.append_assoc] at htake
      -- so what was broadcast is what was missed, then what was taken
      have hall : broadcasts ls = broadcasts missed ++ got := List.append_cancel_left htake
      have hbefore : beforeSubscription c ls = missed := by
        rw [beforeSubscription, hsplit, List.takeWhile_append_of_pos, List.takeWhile_cons_of_neg,
          List.append_nil]
        · simp
        · intro l hl
          have hne : l ≠ .handler c .subscribe := fun heq => hnot (heq ▸ hl)
          simpa using hne
      rw [List.append_nil] at hwritten
      rw [hbefore, hwritten, hall, List.flatMap_append]
      constructor
      · intro heq
        -- the frames of what was missed have no bytes, so there are none
        have hcancel := congrArg List.length (List.append_cancel_left heq)
        rw [List.length_append] at hcancel
        refine flatMap_frameBytes_eq_nil (fun msg hmsg => hencodes msg ?_)
          (List.length_eq_zero_iff.mp (by omega))
        rw [hall]
        exact List.mem_append_left _ hmsg
      · intro hnone
        rw [hnone]
        rfl

/-! ### A text in the window -/

/-- Ann has just been registered; her join event comes next. -/
def Room.joining : Room :=
  ((Room.opened ⟨"host", 300⟩ 0 "room.onion").greeted .standard 0 (.fill 0)
    (.fill 7) "ann").registered
    0 ⟨peerId .standard (.fill 7), "ann", 0⟩

/-- Ann's join event is out. -/
def Room.announcing : Room :=
  Room.joining.announced .standard 0 ⟨peerId .standard (.fill 7), "ann", 0⟩

/-- The host says something before ann's writer subscribes. -/
def windowLabels : List Label :=
  textLabels ⟨"host", 300⟩ "hi" ++ serveLabels .standard 0 ⟨peerId .standard (.fill 7), "ann", 0⟩

/-- Ann is served. -/
def Room.deaf : Room :=
  (Room.announcing.told ⟨"host", 300⟩ "hi").served .standard 0
    ⟨peerId .standard (.fill 7), "ann", 0⟩

theorem reachable_joining : RoomReachable .standard ⟨"host", 300⟩ Room.joining :=
  ((reachable_opened ..).run (run_handshake rfl (by decide) rfl rfl (by decide) (by decide))).run
    (.single (step_register rfl))

theorem step_announcing :
    Step .standard ⟨"host", 300⟩ (.handler 0 .emitJoin) Room.joining Room.announcing :=
  step_emitJoin rfl (by decide)

theorem run_window : RoomRun .standard ⟨"host", 300⟩ Room.announcing windowLabels Room.deaf :=
  (run_text rfl (by decide) rfl rfl rfl).append (run_serve rfl (by decide))

theorem clean_window : ∀ l ∈ windowLabels, l.Clean 0 := by
  intro l hl
  simp only [windowLabels, textLabels, serveLabels, List.cons_append, List.nil_append,
    List.mem_cons, List.not_mem_nil, or_false] at hl
  rcases hl with rfl | rfl | rfl | rfl | rfl | rfl | rfl <;> trivial

theorem encodes_window : ∀ msg ∈ broadcasts windowLabels, Encodes SerdeJson.standard msg := by
  intro msg hmsg
  cases List.mem_singleton.mp hmsg
  decide

/-- The host's text is queued after the join event and never written. -/
theorem hostMessages_fail :
    ¬ ∀ (s t u : Room) (c : ConnId) (info : PeerInfo) (ls : List Label),
      RoomReachable .standard ⟨"host", 300⟩ s → (s.conns c).handler = .emitJoin info →
      s.events.HasRoom eventChanCap →
      Step .standard ⟨"host", 300⟩ (.handler c .emitJoin) s t →
      RoomRun .standard ⟨"host", 300⟩ t ls u → (u.conns c).handler = .serve info →
      CaughtUp u c → (∀ l ∈ ls, l.Clean c) →
      (∀ msg ∈ broadcasts ls, Encodes SerdeJson.standard msg) →
      (u.conns c).sock.written =
        (s.conns c).sock.written ++ frameBytes SerdeJson.standard (joinNotice info) ++
          (broadcasts ls).flatMap (frameBytes SerdeJson.standard) := by
  intro hlaw
  have hwritten := hlaw _ _ _ 0 _ _ reachable_joining rfl (by decide) step_announcing run_window rfl
    ⟨rfl, rfl⟩ clean_window encodes_window
  have hdeaf : (Room.deaf.conns 0).sock.written = (Room.joining.conns 0).sock.written ++
      frameBytes SerdeJson.standard (joinNotice ⟨peerId .standard (.fill 7), "ann", 0⟩) := rfl
  have hmissing : (broadcasts windowLabels).flatMap (frameBytes SerdeJson.standard) = [] :=
    List.self_eq_append_right.mp (hdeaf.symm.trans hwritten)
  cases flatMap_frameBytes_eq_nil encodes_window hmissing

theorem hostMessages_iff_window :
    ¬ (Room.deaf.conns 0).sock.written =
        (Room.joining.conns 0).sock.written ++
          frameBytes SerdeJson.standard (joinNotice ⟨peerId .standard (.fill 7), "ann", 0⟩) ++
          (broadcasts windowLabels).flatMap (frameBytes SerdeJson.standard) := by
  have hiff := hostMessages_iff reachable_joining rfl step_announcing run_window rfl ⟨rfl, rfl⟩
    clean_window encodes_window
  intro hwritten
  cases hiff.mp hwritten

end Nullpipe

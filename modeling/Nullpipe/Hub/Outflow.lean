import Nullpipe.Hub.Origin

/-!
# What the peers of the hub are written

A writer of the hub mixes two channels: the events of the broadcast log and the frames of
its direct queue.  None of the latter is a chat message, so the chat that a peer reads is a
selection of the one log, in its order, however the writers lag (`hub_heard_in_order`).

* `Notifies`: the frames of a direct queue are those of messages that are no chat: pongs,
  announcements and pings.  `ServerReachable.notifies` is the invariant, by
  `ServerStep.notifies`, which lists what is ever sent there.
* `Phase.Answers`: a handshake writes at most one byte, so the frames start behind it.
* `Server.Pours`: the writer has taken messages from its two channels and has written their
  frames, up to the rest of the current one; the chat among them is a part of the log up to its
  cursor.  `WriterStep.pours` goes through its steps.  A receiver that lags moves its cursor on,
  and the part of the log remains one.

A write that fails, or times out, leaves a torn frame, behind which a reader finds nothing; so
the runs are those in which no write to the peer does (`ServerLabel.Unbroken`).
-/

namespace Nullpipe.Hub

open Channel Framing Transition Server

variable {X : Crates} {s t : Server} {c : ConnId} {l : ServerLabel} {msgs : List WireMessage}
  {u v : HubState}

/-! ## The direct queues -/

/-- The frame of a message that is no chat. -/
def Notifies (json : SerdeJson) (frame : List UInt8) : Prop :=
  ∃ msg : WireMessage, encodeMessage json msg = .ok frame ∧ msg.kind ≠ .chat

theorem mem_sent_post {q : Mpsc (List UInt8)} {frame f : List UInt8}
    (h : f ∈ (q.post frame).sent) : f = frame ∨ f ∈ q.sent := by
  unfold Mpsc.post at h
  split at h
  · rw [Mpsc.sent_push] at h
    exact (List.mem_append.mp h).symm.imp_left List.mem_singleton.mp
  · exact .inr h

private theorem mem_sent_foldl (frame : List UInt8) (entries : List (PeerId × PeerEntry))
    (s : Server) (c : ConnId) {f : List UInt8}
    (h : f ∈ ((entries.foldl (fun t p => t.sendDirect p.2.tx frame) s).tasks c).direct.sent) :
    f = frame ∨ f ∈ (s.tasks c).direct.sent := by
  induction entries generalizing s with
  | nil => exact .inr h
  | cons p entries ih =>
      rcases ih (s.sendDirect p.2.tx frame) h with hframe | hmem
      · exact .inl hframe
      · by_cases hc : c = p.2.tx
        · subst hc
          rw [sendDirect, tasks_setTasks_self] at hmem
          exact mem_sent_post hmem
        · rw [sendDirect, tasks_setTasks_of_ne _ _ _ hc] at hmem
          exact .inr hmem

theorem mem_sent_broadcastMessage (msg : WireMessage) (hkind : msg.kind ≠ .chat)
    {f : List UInt8} (h : f ∈ ((s.broadcastMessage X.json msg).tasks c).direct.sent) :
    Notifies X.json f ∨ f ∈ (s.tasks c).direct.sent := by
  unfold broadcastMessage at h
  split at h
  · rename_i frame hencode
    rcases mem_sent_foldl frame _ s c h with rfl | hmem
    · exact .inl ⟨msg, hencode, hkind⟩
    · exact .inr hmem
  · exact .inr h

/-- No chat message goes to a direct queue. -/
theorem ServerStep.notifies (h : ServerStep X l s t) {f : List UInt8}
    (hmem : f ∈ (t.tasks c).direct.sent) : Notifies X.json f ∨ f ∈ (s.tasks c).direct.sent := by
  by_cases hl : l.of = some c
  · refine (?_ : f ∈ (s.tasks c).direct.sent ∨ _).symm
    cases h.own hl with
    | accept =>
        rw [tasks_setTasks_self] at hmem
        exact .inl hmem
    | shake | arrive | finish => exact .inl hmem
    | conn hown =>
        cases hown <;>
          · simp only [tasks_setTasks_self] at hmem
            exact .inl hmem
    | reader hown =>
        cases hown with
        | pong =>
            rw [tasks_setTasks_self] at hmem
            dsimp only at hmem
            split at hmem
            · rename_i frame hencode
              -- the reader posts a pong
              rcases mem_sent_post hmem with rfl | hmem
              · exact .inr ⟨.pong, hencode, nofun⟩
              · exact .inl hmem
            · exact .inl hmem
        | _ =>
            simp only [tasks_setTasks_self] at hmem
            exact .inl hmem
    | writer hown =>
        cases hown <;>
          · simp only [tasks_setTasks_self, Mpsc.sent_pop, Mpsc.sent_close] at hmem
            exact .inl hmem
  · have hne : ∀ {d}, l.of = some d → c ≠ d := fun hd heq => hl (heq ▸ hd)
    cases h with
    | owner h =>
        cases h with
        | accept =>
            rw [tasks_setTasks_of_ne _ _ _ (hne rfl)] at hmem
            exact .inr hmem
        | broadcastFrames => exact mem_sent_broadcastMessage (.system _) nofun hmem
        | broadcastPing => exact mem_sent_broadcastMessage .ping nofun hmem
        | _ => exact .inr hmem
    | conn h | reader h | writer h =>
        cases h <;>
          · simp only [tasks_setTasks_of_ne _ _ _ (hne rfl)] at hmem
            exact .inr hmem
    | shake | arrive | finish | tick => exact .inr hmem

theorem ServerReachable.notifies (hs : ServerReachable X s) {c : ConnId} {f : List UInt8}
    (hmem : f ∈ (s.tasks c).direct.sent) : Notifies X.json f := by
  obtain ⟨now, hreach⟩ := hs
  have hall : ∀ f ∈ (s.tasks c).direct.sent, Notifies X.json f := by
    refine hreach.invariant (I := fun r => ∀ f ∈ (r.tasks c).direct.sent, Notifies X.json f)
      nofun ?_
    intro l r r' hr hstep f hmem
    exact (hstep.notifies hmem).elim id (hr f)
  exact hall f hmem

/-! ## The answer to the handshake -/

/-- What a handshake has written: at most one byte, and one when the peer is admitted. -/
def Phase.Answers (written : List UInt8) : Phase → Prop
  | .idle | .reading .. | .lockNonces .. => written.length = 0
  | .rejectEof rest | .rejectReused rest | .writeAccept _ rest _ =>
    written.length + rest.length = 1
  | .flushAccept .. => written.length = 1
  | .admitted .. => 1 ≤ written.length
  | .failed _ => written.length ≤ 1

theorem answers_afterRead (buf : List UInt8) (now : ℕ) {written : List UInt8}
    (h : written.length = 0) : (afterRead buf now).Answers written := by
  unfold afterRead
  split <;> exact h

theorem PhaseStep.answers {l : PhaseLabel} (h : PhaseStep X c l u v)
    (hu : (u.conns c).phase.Answers (u.conns c).sock.written) :
    (v.conns c).phase.Answers (v.conns c).sock.written := by
  cases h with
  | read hphase =>
      rw [hphase] at hu
      simp only [HubState.conns_setConn_self]
      exact answers_afterRead _ _ hu
  | @writeEof _ chunk rest hphase | @writeReject _ chunk rest hphase
  | @writeAccept _ _ chunk rest _ hphase =>
      rw [hphase] at hu
      have hlen : (u.conns c).sock.written.length + (chunk ++ rest).length = 1 := hu
      rw [List.length_append] at hlen
      simp only [HubState.conns_setConn_self]
      split
      · rename_i hrest
        subst hrest
        simp only [Phase.Answers, Socket.written_write, List.length_append]
        simp only [List.length_nil] at hlen
        omega
      · simp only [Phase.Answers, Socket.written_write, List.length_append]
        omega
  | use hphase =>
      rw [hphase] at hu
      have hlen : 1 ≤ (u.conns c).sock.written.length := hu
      simp only [HubState.conns_setConn_self, hphase, Phase.Answers, Socket.written_write,
        Socket.written_take, List.length_append]
      omega
  | start hphase | readEof hphase | readFail hphase | readTimeout hphase | eofFail hphase
  | insertNonce hphase | refuseNonce hphase | rejectFail hphase | acceptFail hphase
  | acceptTimeout hphase | flushAccept hphase | flushFail hphase | flushTimeout hphase =>
      rw [hphase] at hu
      simp only [HubState.conns_setConn_self]
      simp only [Phase.Answers, Socket.written_flush, List.length_singleton] at hu ⊢
      omega

theorem ServerReachable.answers (hs : ServerReachable X s) (c : ConnId) :
    (s.shake.conns c).phase.Answers (s.sock c).written := by
  obtain ⟨now, hreach⟩ := hs.shake
  refine hreach.invariant (I := fun u => (u.conns c).phase.Answers (u.conns c).sock.written) rfl ?_
  intro l u v hu hstep
  by_cases hl : ∃ l', l = .handshake c l'
  · obtain ⟨l', rfl⟩ := hl
    cases hstep with
    | handshake h => exact h.answers hu
  · push Not at hl
    obtain ⟨hphase, -, hwritten⟩ := hstep.frame hl
    rw [hphase, hwritten]
    exact hu

/-- A handshake writes no more than its answer. -/
theorem PhaseStep.tail_written {l : PhaseLabel} (h : PhaseStep X c l u v)
    (huse : ∀ r w, l ≠ .use r w) (hu : (u.conns c).phase.Answers (u.conns c).sock.written) :
    (v.conns c).sock.written.tail = [] := by
  have hlen : (v.conns c).sock.written.length ≤ 1 := by
    have hv := h.answers hu
    cases hphase : (v.conns c).phase with
    | admitted =>
        obtain ⟨discriminator, deadline, hflush, hsock⟩ := h.admits huse hphase
        rw [hflush] at hu
        rw [hsock, Socket.written_flush]
        exact Nat.le_of_eq hu
    | _ =>
        rw [hphase] at hv
        simp only [Phase.Answers] at hv
        omega
  rw [← List.length_eq_zero_iff, List.length_tail]
  omega

/-! ## The stream of a peer -/

/-- No write to peer `c` fails or takes too long. -/
def ServerLabel.Unbroken (c : ConnId) (l : ServerLabel) : Prop :=
  l ≠ .writer c .writeFail ∧ l ≠ .writer c .writeTimeout

/-- What is left of the frame that is being written. -/
def ConnTask.rest : ConnTask → List UInt8
  | .writing rest _ => rest
  | _ => []

/-- The writer of a connection has taken `msgs` from its channels and written their frames;
their chat is a selection of the log in front of its cursor. -/
structure Server.Pours (X : Crates) (s : Server) (c : ConnId) (msgs : List WireMessage) :
    Prop where
  chat : (spoken msgs).Sublist (said (s.bcast.take (s.tasks c).cursor))
  encodes : ∀ msg ∈ msgs, Encodes X.json msg
  written : (s.sock c).written.tail ++ (s.tasks c).conn.rest = msgs.flatMap (frameBytes X.json)
  early : (s.tasks c).conn.stage ≤ 4 → (s.sock c).written.tail = []

theorem take_sublist_take {α : Type*} {log log' : List α} {m n : ℕ} (hlog : log <+: log')
    (hle : m ≤ n) : (log.take m).Sublist (log'.take n) :=
  ((List.take_prefix_take_left hle).trans (hlog.take n)).sublist

/-- A step that takes nothing and writes nothing. -/
theorem Server.Pours.keep (h : s.Pours X c msgs) (hlog : s.bcast <+: t.bcast)
    (hcursor : (s.tasks c).cursor ≤ (t.tasks c).cursor)
    (hwritten : (t.sock c).written = (s.sock c).written)
    (hrest : (t.tasks c).conn.rest = (s.tasks c).conn.rest)
    (hstage : (t.tasks c).conn.stage ≤ 4 → (s.tasks c).conn.stage ≤ 4) : t.Pours X c msgs where
  chat := h.chat.trans ((take_sublist_take hlog hcursor).filterMap _)
  encodes := h.encodes
  written := by
    rw [hwritten, hrest]
    exact h.written
  early hlow := by
    rw [hwritten]
    exact h.early (hstage hlow)

/-- What a writer makes of an event says what the event says. -/
theorem spoken_eventMessage {event : ChatEvent} {msg : WireMessage}
    (h : eventMessage event = some msg) : spoken [msg] = said [event] := by
  cases event <;> cases h <;> rfl

/-- A writer that takes a message. -/
theorem Server.Pours.take (h : s.Pours X c msgs) {msg : WireMessage} {frame : List UInt8}
    (hencode : encodeMessage X.json msg = .ok frame) (hphase : (s.tasks c).conn = .select)
    (hrest : (t.tasks c).conn.rest = frame) (hstage : (t.tasks c).conn.stage = 5)
    (hsock : t.sock c = s.sock c)
    (hchat : (spoken (msgs ++ [msg])).Sublist (said (t.bcast.take (t.tasks c).cursor))) :
    t.Pours X c (msgs ++ [msg]) where
  chat := hchat
  encodes more hmem := by
    rcases List.mem_append.mp hmem with hmem | hmem
    · exact h.encodes more hmem
    · rw [List.mem_singleton.mp hmem]
      exact (encodes_of_encodeMessage hencode).1
  written := by
    have hwritten := h.written
    rw [hphase, show ConnTask.select.rest = [] from rfl, List.append_nil] at hwritten
    rw [hsock, hrest, hwritten, List.flatMap_append, List.flatMap_singleton,
      (encodes_of_encodeMessage hencode).2]
  early hlow := by
    rw [hstage] at hlow
    exact absurd hlow (by decide)

/-- A step that takes no message. -/
theorem Server.Pours.still (h : t.Pours X c msgs) : ∃ more, t.Pours X c (msgs ++ more) :=
  ⟨[], (List.append_nil msgs).symm ▸ h⟩

theorem WriterStep.pours {l : WriterLabel} (h : WriterStep X c l s t)
    (hs : ServerReachable X s) (hl : ServerLabel.Unbroken c (.writer c l))
    (hp : s.Pours X c msgs) : ∃ more, t.Pours X c (msgs ++ more) := by
  cases h with
  | @takeFrame _ frame rest hphase hqueue =>
      have hsent : frame ∈ (s.tasks c).direct.sent := by
        rw [Mpsc.sent, hqueue]
        exact List.mem_append_right _ List.mem_cons_self
      -- a frame of the direct queue is a notice, so it says nothing
      obtain ⟨msg, hencode, hkind⟩ := hs.notifies hsent
      refine ⟨[msg], hp.take hencode hphase ?_ ?_ rfl ?_⟩
      · rw [tasks_setTasks_self]
        rfl
      · rw [tasks_setTasks_self]
        rfl
      · have hnone : spoken [msg] = [] := by simp [spoken, hkind]
        rw [spoken_append, hnone, List.append_nil, tasks_setTasks_self]
        exact hp.chat
  | @takeEvent _ event _ hphase _ hrecv =>
      obtain ⟨hget, rfl⟩ := Broadcast.recv_value hrecv
      have htake : s.bcast.take ((s.tasks c).cursor + 1) =
          s.bcast.take (s.tasks c).cursor ++ [event] :=
        List.take_add_one.trans (by rw [hget]; rfl)
      -- an event that makes no frame is passed over
      have hskip : afterEvent X.json event s.now = .select → (s.setTasks c { s.tasks c with
          cursor := (s.tasks c).cursor + 1
          conn := afterEvent X.json event s.now }).Pours X c msgs := fun hselect => by
        refine hp.keep List.prefix_rfl ?_ rfl ?_ ?_
        · rw [tasks_setTasks_self]
          exact Nat.le_succ _
        · rw [tasks_setTasks_self, hselect, hphase]
        · rw [tasks_setTasks_self, hselect, hphase]
          exact id
      cases hevent : eventMessage event with
      | none =>
          refine Pours.still (hskip ?_)
          rw [afterEvent, hevent]
      | some msg =>
          cases hencode : encodeMessage X.json msg with
          | error e =>
              refine Pours.still (hskip ?_)
              rw [afterEvent, hevent]
              dsimp only
              rw [hencode]
          | ok frame =>
              have hwriting : afterEvent X.json event s.now =
                  .writing frame (s.now + Nullpipe.writeTimeout) := by
                rw [afterEvent, hevent]
                dsimp only
                rw [hencode]
              refine ⟨[msg], hp.take hencode hphase ?_ ?_ rfl ?_⟩
              · rw [tasks_setTasks_self, hwriting]
                rfl
              · rw [tasks_setTasks_self, hwriting]
                rfl
              · rw [tasks_setTasks_self, bcast_setTasks, htake, said_append, spoken_append,
                  spoken_eventMessage hevent]
                exact hp.chat.append (List.Sublist.refl _)
  | @write _ chunk rest _ hphase =>
      -- the accept byte is in front of what the writer writes
      have hadm : 1 ≤ (s.sock c).written.length := by
        have hstage : 2 ≤ (s.tasks c).conn.stage := by
          rw [hphase]
          exact Nat.le_of_ble_eq_true rfl
        obtain ⟨id, name, hadm⟩ := (hs.wellFormed.fits c).admitted hstage
        have hanswers := hs.answers c
        rw [hadm] at hanswers
        exact hanswers
      have hne : (s.sock c).written ≠ [] := List.ne_nil_of_length_pos hadm
      have hconn : ∀ deadline, (if rest = [] then ConnTask.select else .writing rest deadline).rest
          = rest ∧ (if rest = [] then ConnTask.select else .writing rest deadline).stage = 5 := by
        intro deadline
        split
        · rename_i hrest
          exact ⟨hrest.symm, rfl⟩
        · exact ⟨rfl, rfl⟩
      refine Pours.still ⟨?_, hp.encodes, ?_, fun hlow => ?_⟩
      · rw [tasks_setTasks_self]
        exact hp.chat
      · have hwritten := hp.written
        rw [hphase, ConnTask.rest] at hwritten
        rw [tasks_setTasks_self, sock_setTasks, sock_setSock_self, Socket.written_write,
          List.tail_append_of_ne_nil hne, List.append_assoc, (hconn _).1]
        exact hwritten
      · rw [tasks_setTasks_self, (hconn _).2] at hlow
        exact absurd hlow (by decide)
  | rxClosed hphase | broadcastClosed hphase =>
      refine Pours.still (hp.keep List.prefix_rfl ?_ rfl ?_ ?_)
      · rw [tasks_setTasks_self]
      · rw [tasks_setTasks_self, hphase]
        rfl
      · rw [tasks_setTasks_self]
        exact fun hlow => absurd hlow (by simp [ConnTask.stage])
  | lagged hphase _ hrecv =>
      refine Pours.still (hp.keep List.prefix_rfl ?_ rfl ?_ ?_)
      · rw [tasks_setTasks_self]
        exact (Broadcast.lt_of_lagged hrecv).1.le
      · rw [tasks_setTasks_self]
      · rw [tasks_setTasks_self]
        exact id
  | writeFail => exact absurd rfl hl.1
  | writeTimeout => exact absurd rfl hl.2

theorem ServerStep.pours (h : ServerStep X l s t) (hs : ServerReachable X s)
    (hl : l.Unbroken c) (hp : s.Pours X c msgs) : ∃ more, t.Pours X c (msgs ++ more) := by
  by_cases hof : l.of = some c
  · cases h.own hof with
    | writer hown => exact hown.pours hs hl hp
    | accept _ _ hphase =>
        refine Pours.still (hp.keep List.prefix_rfl ?_ rfl ?_ ?_)
        · rw [tasks_setTasks_self]
        · rw [tasks_setTasks_self, hphase]
          rfl
        · rw [hphase]
          exact fun _ => by decide
    | shake hphase huse hshake =>
        have htail := hshake.tail_written huse (hs.answers c)
        -- in the handshake nothing is poured yet
        have hlow : (s.tasks c).conn.stage ≤ 4 := by
          rw [hphase]
          decide
        refine Pours.still ⟨hp.chat, hp.encodes, ?_, fun _ => htail⟩
        have hwritten := hp.written
        rw [hp.early hlow] at hwritten
        exact (congrArg (· ++ _) htail).trans hwritten
    | conn hown =>
        cases hown with
        | subscribe hphase =>
            have hcursor := (hs.wellFormed.fits c).cursor
            refine Pours.still (hp.keep List.prefix_rfl ?_ rfl ?_ ?_)
            · rw [tasks_setTasks_self]
              exact hcursor
            · rw [tasks_setTasks_self, hphase]
              rfl
            · rw [hphase]
              exact fun _ => by decide
        | announceJoin hphase | broadcastLeave hphase =>
            refine Pours.still (hp.keep (List.prefix_append _ _) ?_ rfl ?_ ?_) <;>
              simp [hphase, ConnTask.rest, ConnTask.stage]
        | register hphase | spawnReader hphase | deregister hphase | sendLeft hphase
        | sendLeftClosed hphase =>
            refine Pours.still (hp.keep List.prefix_rfl ?_ rfl ?_ ?_) <;>
              simp [hphase, ConnTask.rest, ConnTask.stage]
    | reader hown =>
        cases hown with
        | read | message | ping | badFrame | badMessage =>
            refine Pours.still (hp.keep List.prefix_rfl ?_ ?_ ?_ ?_) <;> simp
        | relay =>
            refine Pours.still (hp.keep (List.prefix_append _ _) ?_ rfl ?_ ?_) <;> simp
        | start | readFail | readTimeout | pong | send | sendClosed =>
            refine Pours.still (hp.keep List.prefix_rfl ?_ rfl ?_ ?_) <;> simp
    | arrive | finish =>
        refine Pours.still (hp.keep List.prefix_rfl (Nat.le_refl _) ?_ rfl id)
        rw [sock_setSock_self]
        rfl
  · obtain ⟨htold, hconn⟩ := h.frame hof
    have hsock : t.sock c = s.sock c := congrArg HubConn.sock hconn
    refine Pours.still (hp.keep h.bcast ?_ (by rw [hsock]) ?_ ?_)
    · rw [htold.cursor]
    · rw [htold.conn]
    · rw [htold.conn]
      exact id

theorem pours_of_run {now : ℕ} {ls : List ServerLabel} (hrun : ServerRun X (.init now) ls s)
    (hl : ∀ l ∈ ls, l.Unbroken c) : ∃ msgs, s.Pours X c msgs := by
  have hguarded : Run (Guarded (ServerStep X) fun _ l => l.Unbroken c) (.init now) ls s :=
    hrun.guard fun l hmem _ => hl l hmem
  have hall : ServerReachable X s ∧ ∃ msgs, s.Pours X c msgs := by
    refine hguarded.invariant (I := fun r => ServerReachable X r ∧ ∃ msgs, r.Pours X c msgs)
      ⟨⟨now, .refl _⟩, [], List.Sublist.refl _, nofun, rfl, fun _ => rfl⟩ ?_
    rintro l r r' ⟨⟨now, hr⟩, msgs, hp⟩ ⟨hstep, hunbroken⟩
    obtain ⟨more, hp'⟩ := hstep.pours ⟨now, hr⟩ hunbroken hp
    exact ⟨⟨now, hr.snoc hstep⟩, _, hp'⟩
  exact hall.2

/-- **The peers of the hub read the chat in one order.**  Unless a write to it fails or takes
too long, the chat that a peer can read is a selection of what was said on the broadcast
channel, in its order and under the names it has there: no message twice, and nothing else,
whatever else the hub sends it and however its writer lags. -/
theorem hub_heard_in_order (X : Crates) (now : ℕ) (ls : List ServerLabel) (s : Server)
    (hrun : ServerRun X (.init now) ls s) (c : ConnId) (hl : ∀ l ∈ ls, l.Unbroken c) :
    (spoken (streamMessages X.json (s.sock c).written.tail)).Sublist (said s.bcast) := by
  obtain ⟨msgs, hp⟩ := pours_of_run hrun hl
  have hread : streamMessages X.json (s.sock c).written.tail <+: msgs := by
    have hall : streamMessages X.json (msgs.flatMap (frameBytes X.json)) = msgs := by
      have hframes := streamMessages_flatMap hp.encodes []
      rwa [List.append_nil, streamMessages, streamMessages,
        Format.messages_of_needs Format.progress_nil, List.append_nil] at hframes
    rw [← hall, ← hp.written]
    exact Format.messages_prefix_append _ _
  have hcursor : (s.bcast.take (s.tasks c).cursor).Sublist s.bcast := List.take_sublist _ _
  exact ((hread.sublist.filterMap _).trans hp.chat).trans (hcursor.filterMap _)

theorem hub_heard_in_order_echoed : said Server.echoed.bcast =
      [(peerName .standard (.fill 7), "hi")] ∧
    (spoken (streamMessages SerdeJson.standard (Server.echoed.sock 0).written.tail)).Sublist
      (said Server.echoed.bcast) :=
  ⟨rfl, hub_heard_in_order .standard 0 _ _ (run_greet.append run_echo) 0 (by
    simp [attendLabels, serveLabels, acceptLabels, checkLabels, hearLabels, echoLabels,
      writeLabels, ServerLabel.Unbroken, HubLabel.server])⟩

end Nullpipe.Hub

import Nullpipe.Joiner.Events
import Nullpipe.Core.Token

/-!
# What a joiner says of itself

A joiner introduces itself twice: to the hub, in its handshake, and to its user, in
the `PeerJoin` event.  `Speaks` ties both to one guest, whom the invite admits, and
says that the hub has sent the accept byte to every joiner that has joined.  It holds
of every run, with any timeouts, failures and users.

The difficulty is that the guest is not known at first: its discriminator is drawn when the
stream is there.  While the joiner is `JoinMain.Offline` it has written and announced nothing,
and any guest will do; in the step that gives it a stream the guest is made known, and from
then on it is the only one.

* `JoinMainStep.target`: the connector is called for the payload of the invite code, so the
  guest is one whom the invite admits.
* `JoinMain.Answered`: what has been read is nothing before the reply, and starts with the
  accept byte once the joiner was let in.  This is where the reply of the hub comes in.
* `JoinMainStep.tells`: the main task announces nobody but that guest.  What the reader holds
  and what is kept back are messages, so nobody else is announced either, whatever the hub
  sends.

`JoinMainStep.speaks` and `JoinReaderStep.speaks` are the step lemmas of the two tasks.
-/

namespace Nullpipe

open Channel Framing Transition

variable {X : Crates} {checks : Bool} {me : Guest} {j j' : Joiner}

/-- The invite of this configuration admits `me`, under the name `me` goes by. -/
def Guest.Invited (X : Crates) (config : JoinConfig) (me : Guest) : Prop :=
  ∃ payload, parseInvite X config.inviteCode = some (.ok payload) ∧ me.nonce = payload.nonce ∧
    me.name = effectiveName config payload

/-- The joiner has no stream: it is dialing, or it gave up. -/
def JoinMain.Offline : JoinMain → Prop
  | .connect | .connecting _ | .panicked | .sendError _ | .failed _ => True
  | _ => False

/-- What has been read when the main task is here: nothing before the reply of the hub,
and the accept byte first once it has let the joiner in. -/
def JoinMain.Answered (read : List UInt8) : JoinMain → Prop
  | .connect | .connecting _ | .readReply .. | .writing _ .hello _ _ | .flushing _ .hello _ =>
    read = []
  | .panicked | .sendError _ | .failed _ => True
  | _ => read.head? = some 0

/-- The joiner speaks as `me`, to the hub and to its user. -/
structure Joiner.Speaks (X : Crates) (me : Guest) (j : Joiner) : Prop where
  spoken : j.Spoken X me
  minds : j.main.Minds j.reader
  answered : j.main.Answered j.sock.read
  target : ∀ payload, j.main = .connecting payload →
    parseInvite X j.config.inviteCode = some (.ok payload)
  invited : me.Invited X j.config ∨ j.main.Offline ∧ j.sock.written = []
  told : ∀ info, .peerJoin info ∈ j.events.sent →
    j.main.Joined ∧ info.id = peerId X me.discriminator ∧ info.name = me.name
  kept : ∀ ev ∈ j.pending, ev.IsMessage
  holding : ∀ ev, j.reader = .emitting ev → ev.IsMessage

theorem Joiner.Speaks.init (X : Crates) (me : Guest) (now : ℕ) (config : JoinConfig) :
    (Joiner.init now config).Speaks X me :=
  ⟨.init .., rfl, rfl, nofun, .inr ⟨trivial, rfl⟩, nofun, nofun, nofun⟩

/-- A joiner that has joined has a stream, and was let in. -/
theorem JoinMain.Joined.not_offline {main : JoinMain} (h : main.Joined) : ¬ main.Offline := by
  cases main with
  | connect | connecting | panicked | sendError | failed => exact absurd h id
  | _ => exact id

theorem JoinMain.Joined.accepted {main : JoinMain} {read : List UInt8} (h : main.Joined)
    (hread : main.Answered read) : read.head? = some 0 := by
  cases main with
  | connect | connecting | panicked | sendError | failed | readReply => exact absurd h id
  | writing _ what | flushing _ what =>
      obtain ⟨text, rfl⟩ := h
      exact hread
  | _ => exact hread

/-- What a joiner that has joined was invited as. -/
theorem Joiner.Speaks.guest (h : j.Speaks X me) (hjoined : j.main.Joined) :
    me.Invited X j.config :=
  h.invited.resolve_right fun hout => hjoined.not_offline hout.1

/-! ## The main task -/

/-- Who has joined stays joined. -/
theorem JoinMainStep.joined {l : JoinMainLabel} (h : JoinMainStep X checks l j j')
    (hs : j.main.Joined) : j'.main.Joined := by
  cases h with
  | decode hphase | connected hphase | connectFailed hphase | reply hphase | replyFail hphase
  | replyTimeout hphase | sendError hphase | sendErrorClosed hphase =>
      rw [hphase] at hs
      exact absurd hs id
  | write hphase =>
      rw [hphase] at hs
      dsimp only
      split <;> exact hs
  | writeFail hphase | writeTimeout hphase | flush hphase | flushFail hphase
  | flushTimeout hphase =>
      rw [hphase] at hs
      obtain ⟨text, rfl⟩ := hs
      trivial
  | takeText =>
      dsimp only
      unfold afterText
      split
      · trivial
      · exact ⟨_, rfl⟩
  | drainText hphase =>
      simp only [main_tryEmit, hphase]
      trivial
  | flushEvent hphase =>
      rw [hphase] at hs
      simp only [hphase]
      trivial
  | awaitReader => cases ‹Option ChatError› <;> trivial
  | _ => trivial

/-- The reply of the hub is the first byte that is read. -/
theorem JoinMainStep.answered {l : JoinMainLabel} (h : JoinMainStep X checks l j j')
    (hs : j.main.Answered j.sock.read) : j'.main.Answered j'.sock.read := by
  cases h with
  | decode hphase =>
      rw [hphase] at hs
      dsimp only
      rcases decodeInvite X checks j.config.inviteCode (some joinTtl) j.timestamp with _ | _ | _
      · trivial
      · trivial
      · exact hs
  | connected hphase =>
      rw [hphase] at hs
      exact hs
  | @write _ _ what _ _ _ hphase =>
      rw [hphase] at hs
      dsimp only
      split <;> cases what <;> exact hs
  | @writeFail _ _ what _ _ _ hphase | @writeTimeout _ _ what _ _ hphase
  | @flushFail _ _ what _ _ hphase | @flushTimeout _ _ what _ hphase =>
      rw [hphase] at hs
      cases what with
      | hello | name => trivial
      | text => exact hs
  | @flush _ _ what _ hphase =>
      rw [hphase] at hs
      cases what <;> exact hs
  | reply hphase =>
      rw [hphase] at hs
      have hread : j.sock.read = [] := hs
      dsimp only
      unfold afterReply
      split
      · trivial
      · rename_i byte _ hbyte
        split
        · trivial
        · rw [Socket.read_take, hread, of_not_not hbyte]
          rfl
  | takeText hphase =>
      rw [hphase] at hs
      dsimp only
      unfold afterText
      split <;> exact hs
  | echo hphase | drainText hphase =>
      rw [hphase] at hs
      simp only [main_tryEmit, sock_tryEmit, hphase]
      exact hs
  | flushEvent hphase =>
      exact hs
  | @awaitReader _ result hphase =>
      rw [hphase] at hs
      cases result <;> exact hs
  | connectFailed | replyFail | replyTimeout | sendError | sendErrorClosed => trivial
  | _ hphase =>
      rw [hphase] at hs
      exact hs

/-- A joiner without a stream has none after the step, or was given one. -/
theorem JoinMainStep.offline {l : JoinMainLabel} (h : JoinMainStep X checks l j j')
    (hl : ∀ d, l ≠ .connected d) (hs : j.main.Offline ∧ j.sock.written = []) :
    j'.main.Offline ∧ j'.sock.written = [] := by
  obtain ⟨hmain, hwritten⟩ := hs
  cases h with
  | decode =>
      refine ⟨?_, hwritten⟩
      dsimp only
      rcases decodeInvite X checks j.config.inviteCode (some joinTtl) j.timestamp with _ | _ | _
        <;> trivial
  | connected => exact absurd rfl (hl _)
  | connectFailed | sendError | sendErrorClosed => exact ⟨trivial, hwritten⟩
  | _ hphase =>
      rw [hphase] at hmain
      exact absurd hmain id

/-- The connector is called for the payload of the invite code. -/
theorem JoinMainStep.target {l : JoinMainLabel} (h : JoinMainStep X checks l j j')
    {payload : InvitePayload} (hphase : j'.main = .connecting payload) :
    parseInvite X j.config.inviteCode = some (.ok payload) := by
  by_cases hl : l = .decode
  · subst hl
    cases h with
    | decode =>
        have hnext : afterDecode (decodeInvite X checks j.config.inviteCode (some joinTtl)
          j.timestamp) = .connecting payload := hphase
        rcases hdecode : decodeInvite X checks j.config.inviteCode (some joinTtl) j.timestamp
          with _ | _ | payload'
        · rw [hdecode] at hnext
          cases hnext
        · rw [hdecode] at hnext
          cases hnext
        · rw [hdecode] at hnext
          cases hnext
          exact parseInvite_of_decodeInvite hdecode
  · have hnot := (h.not_dialing hl).2
    rw [hphase] at hnot
    exact absurd trivial hnot

/-- What is kept back are messages. -/
theorem JoinMainStep.kept {l : JoinMainLabel} (h : JoinMainStep X checks l j j')
    (hs : ∀ ev ∈ j.pending, ev.IsMessage) : ∀ ev ∈ j'.pending, ev.IsMessage := by
  have hmore : ∀ me text, ∀ ev ∈ (tryEmit j (makeEvent X me text)).pending, ev.IsMessage := by
    intro me text ev hev
    unfold tryEmit at hev
    split at hev
    · exact hs ev hev
    · rcases List.mem_append.mp hev with hold | hnew
      · exact hs ev hold
      · rw [List.mem_singleton.mp hnew]
        trivial
  cases h with
  | echo | drainText => exact hmore _ _
  | flushEvent _ hkept =>
      intro ev hev
      exact hs ev (hkept ▸ List.mem_append_left _ hev)
  | flushed => exact nofun
  | _ => exact hs

/-- **The one announcement.**  The main task announces nobody but itself. -/
theorem JoinMainStep.tells {l : JoinMainLabel} (h : JoinMainStep X checks l j j')
    (hs : ∀ ev ∈ j.pending, ev.IsMessage) {info : PeerInfo}
    (hsent : .peerJoin info ∈ j'.events.sent) : .peerJoin info ∈ j.events.sent ∨
      ∃ who, j.main = .emitJoin who ∧ info.id = peerId X who.discriminator ∧
        info.name = who.name := by
  -- an event that is emitted joins the stream or is dropped
  have htry : ∀ ev : ChatEvent, .peerJoin info ∈ (j.events.trySend eventChanCap ev).sent →
      .peerJoin info ∈ j.events.sent ∨ ev = .peerJoin info := by
    intro ev hmem
    rcases Mpsc.trySend_cases eventChanCap j.events ev with hpush | hsame
    · rw [hpush, Mpsc.sent_push] at hmem
      rcases List.mem_append.mp hmem with hold | hnew
      · exact .inl hold
      · exact .inr (List.mem_singleton.mp hnew).symm
    · rw [hsame] at hmem
      exact .inl hmem
  cases h with
  | emitJoin hphase =>
      rcases htry _ hsent with hold | hnew
      · exact .inl hold
      · cases hnew
        exact .inr ⟨_, hphase, rfl, rfl⟩
  | echo | drainText =>
      simp only [events_tryEmit] at hsent
      exact .inl ((htry _ hsent).resolve_right nofun)
  | emitError | emitClosed => exact .inl ((htry _ hsent).resolve_right nofun)
  | sendError =>
      rw [Mpsc.sent_push] at hsent
      rcases List.mem_append.mp hsent with hold | hnew
      · exact .inl hold
      · cases List.mem_singleton.mp hnew
  | flushEvent _ hkept =>
      rw [Mpsc.sent_push] at hsent
      rcases List.mem_append.mp hsent with hold | hnew
      · exact .inl hold
      · -- a message, not an announcement
        have hmessage := hs _ (hkept ▸ List.mem_append_right _ (List.mem_singleton_self _))
        rw [← List.mem_singleton.mp hnew] at hmessage
        exact absurd hmessage id
  | _ => exact .inl hsent

theorem JoinMainStep.holding {l : JoinMainLabel} (h : JoinMainStep X checks l j j')
    (hs : ∀ ev, j.reader = .emitting ev → ev.IsMessage) :
    ∀ ev, j'.reader = .emitting ev → ev.IsMessage := by
  cases h with
  | spawnReader => exact nofun
  | echo | drainText =>
      simp only [tryEmit]
      split <;> exact hs
  | _ => exact hs

theorem JoinMainStep.config {l : JoinMainLabel} (h : JoinMainStep X checks l j j') :
    j'.config = j.config :=
  JoinerStep.config (.main h)

/-- The step that makes the joiner known is the one that gives it a stream. -/
theorem JoinMainStep.speaks {l : JoinMainLabel} (h : JoinMainStep X checks l j j')
    (hs : j.Speaks X me) : ∃ me', j'.Speaks X me' ∧ (me' = me ∨ ∃ d, l = .connected d) := by
  have hminds := h.minds hs.minds
  have hanswered := h.answered hs.answered
  have htarget : ∀ payload, j'.main = .connecting payload →
      parseInvite X j'.config.inviteCode = some (.ok payload) := by
    intro payload hphase
    rw [h.config]
    exact h.target hphase
  by_cases hconnected : ∃ d, l = .connected d
  · obtain ⟨d, rfl⟩ := hconnected
    obtain ⟨payload, hphase, hspoken⟩ := h.spoken_connected hs.spoken
    -- here the joiner gets its discriminator, and with it who it is
    refine ⟨_, ⟨hspoken, hminds, hanswered, htarget, .inl ?_, fun info hsent => ?_, h.kept hs.kept,
      h.holding hs.holding⟩, .inr ⟨d, rfl⟩⟩
    · rw [h.config]
      exact ⟨payload, hs.target payload hphase, rfl, rfl⟩
    · -- a joiner that is dialing has not announced itself
      rcases h.tells hs.kept hsent with hold | ⟨who, hjoin, -⟩
      · have hjoined := (hs.told info hold).1
        rw [hphase] at hjoined
        exact absurd hjoined id
      · rw [hphase] at hjoin
        cases hjoin
  · push Not at hconnected
    refine ⟨me, ⟨h.spoken hconnected hs.spoken, hminds, hanswered, htarget, ?_,
      fun info hsent => ?_, h.kept hs.kept, h.holding hs.holding⟩, .inl rfl⟩
    · rw [h.config]
      exact hs.invited.imp_right fun hout => h.offline hconnected hout
    · rcases h.tells hs.kept hsent with hold | ⟨who, hjoin, hid, hname⟩
      · obtain ⟨hjoined, hid, hname⟩ := hs.told info hold
        exact ⟨h.joined hjoined, hid, hname⟩
      · have hspoken := hs.spoken
        rw [Joiner.Spoken, hjoin] at hspoken
        obtain ⟨rfl, -⟩ := hspoken
        refine ⟨h.joined ?_, hid, hname⟩
        rw [hjoin]
        trivial

/-! ## The joiner -/

theorem JoinReaderStep.speaks {l : JoinReaderLabel} (h : JoinReaderStep X l j j')
    (hs : j.Speaks X me) : j'.Speaks X me := by
  -- the reader does not depend on the build
  have hstep : JoinerStep X true (.reader l) j j' := .reader h
  obtain ⟨hmain, -, hwritten⟩ := hstep.main_frame (by simp)
  obtain ⟨hevents, hholding⟩ := h.events
  have hread : ∃ chunk, j'.sock.read = j.sock.read ++ chunk := by
    cases h with
    | read | message | skip | malformed => exact ⟨_, rfl⟩
    | _ => exact ⟨[], (List.append_nil _).symm⟩
  obtain ⟨hrunning, hminds⟩ := hs.minds.of_busy h.busy
  refine ⟨hstep.spoken (by simp) hs.spoken, hmain ▸ hminds _, ?_, ?_, ?_, fun info hsent => ?_,
    h.frame.2.2 ▸ hs.kept, hholding⟩
  · -- a reader that runs was let in
    obtain ⟨chunk, hchunk⟩ := hread
    have hanswered := hs.answered
    rw [hmain, hchunk]
    have hhead : j.sock.read.head? = some 0 → (j.sock.read ++ chunk).head? = some 0 := by
      intro hzero
      rw [List.head?_append, hzero]
      rfl
    cases hphase : j.main with
    | connect | connecting | readReply =>
        rw [hphase] at hrunning
        cases hrunning
    | panicked | sendError | failed => trivial
    | writing _ what | flushing _ what =>
        rw [hphase] at hrunning hanswered
        cases what with
        | hello => cases hrunning
        | name | text => exact hhead hanswered
    | _ =>
        rw [hphase] at hanswered
        exact hhead hanswered
  · rw [hmain, hstep.config]
    exact hs.target
  · rw [hmain, hstep.config, hwritten]
    exact hs.invited
  · rw [hmain]
    rcases hevents with hsame | ⟨ev, hphase, -, hpush⟩
    · rw [hsame] at hsent
      exact hs.told info hsent
    · rw [hpush, Mpsc.sent_push] at hsent
      rcases List.mem_append.mp hsent with hold | hnew
      · exact hs.told info hold
      · have hmessage := hs.holding ev hphase
        rw [← List.mem_singleton.mp hnew] at hmessage
        exact absurd hmessage id

/-- **Every step of a joiner keeps what it says of itself.** -/
theorem JoinerStep.speaks {l : JoinerLabel} (h : JoinerStep X checks l j j')
    (hs : j.Speaks X me) : ∃ me', j'.Speaks X me' ∧ (me' = me ∨ ∃ d, l = .main (.connected d)) := by
  cases h with
  | main h =>
      obtain ⟨me', hs', hme⟩ := h.speaks hs
      exact ⟨me', hs', hme.imp_right fun ⟨d, hd⟩ => ⟨d, by rw [hd]⟩⟩
  | reader h => exact ⟨me, h.speaks hs, .inl rfl⟩
  | user h =>
      refine ⟨me, ?_, .inl rfl⟩
      cases h with
      | takeEvent =>
          refine { hs with told := fun info hsent => ?_ }
          rw [Mpsc.sent_pop] at hsent
          exact hs.told info hsent
      | closeEvents =>
          refine { hs with told := fun info hsent => ?_ }
          rw [Mpsc.sent_close] at hsent
          exact hs.told info hsent
      | _ => exact { hs with }
  | net | finish | tick => exact ⟨me, { hs with }, .inl rfl⟩

end Nullpipe

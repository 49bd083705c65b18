import Nullpipe.Session.Script
import Nullpipe.Joiner.Staying

/-!
# The joiner's side of a session

`GuestSide` says where the joiner stands when its stream carries a front part of the
hub's greeting and nothing disturbs it: it is on its way to the write loop or in it,
and what it has read are the accept byte, taken by the handshake, and whole notices,
taken by the reader, up to the part of a frame that the reader holds.

Main task and reader read from one stream, and `JoinMain.Intake` draws the line between them:
before the reader is spawned the main task has read nothing, then the one byte of the reply;
behind that all bytes are the reader's (`Notices`).

* The main task: `JoinMainStep.course` says that it stays on its way, since the reply is the
  accept byte (`GuestSide.reply_eq`), its name and its texts fit frames, and no write fails.
* The reader: the next bytes it takes leave its frame unfinished or complete the next notice
  (`GuestSide.next`), so no frame is malformed and each of them decodes
  (`JoinReaderStep.notices`).

Bytes that arrive must be those of the greeting (`GuestSide.arrive`); that they are is for
`Protocol.lean` to say, where the hub is at the other end.
-/

namespace Nullpipe

open Channel Framing Transition

variable {X : Crates} {checks : Bool} {me : Guest} {j j' : Joiner}

/-! ## The invariant -/

/-- The joiner is in its handshake or in its write loop. -/
def JoinMain.OnCourse : JoinMain → Prop
  | .writing _ _ rest _ => rest ≠ []
  | .flushing .. | .readReply .. | .emitJoin _ | .spawnReader _ | .select _ | .echo .. => True
  | _ => False

/-- The part of a frame a reader holds. -/
def JoinReader.buffer : JoinReader → List UInt8
  | .reading got _ => got
  | _ => []

/-- A reader that was spawned behind the accept byte has read whole notices and the
part of a frame it holds. -/
structure Notices (X : Crates) (me : Guest) (reader : JoinReader) (read : List UInt8) : Prop where
  spawned : reader ≠ .unspawned
  first : reader = .spawned → read = [0]
  reads : ∃ done, done <+: me.notices X ∧
    read = [0] ++ done.flatMap (frameBytes X.json) ++ reader.buffer
  needs : ∃ k, readFrame reader.buffer = .needs k

/-- What has been read when the main task is here. -/
def JoinMain.Intake (X : Crates) (me : Guest) (reader : JoinReader) (read : List UInt8) :
    JoinMain → Prop
  | .writing _ .hello _ _ | .flushing _ .hello _ | .readReply .. =>
    reader = .unspawned ∧ read = []
  | .writing _ .name _ _ | .flushing _ .name _ | .emitJoin _ | .spawnReader _ =>
    reader = .unspawned ∧ read = [0]
  | _ => Notices X me reader read

/-- The joiner `me` during a session. -/
structure GuestSide (X : Crates) (me : Guest) (j : Joiner) : Prop where
  stays : j.Stays
  spoken : j.Spoken X me
  course : j.main.OnCourse
  texts : ∀ text ∈ j.messages.sent, Encodes X.json (.chat me.name text)
  arrived : j.sock.arrived <+: me.greeting X
  intake : j.main.Intake X me j.reader j.sock.read

/-- The steps of a joiner without timeouts and errors of the stream, whose user sends
what fits a frame and does not leave. -/
def JoinerLabel.Quiet (X : Crates) (me : Guest) : JoinerLabel → Prop
  | .main l => ¬ l.Fails ∧ l ≠ .replyTimeout
  | .reader l => l ≠ .readTimeout
  | .user (.send text) => Encodes X.json (.chat me.name text)
  | .user l => l = .takeEvent
  | _ => True

/-! ## The main task -/

theorem GuestSide.takesFitting (hs : GuestSide X me j) {l : JoinMainLabel}
    (h : JoinMainStep X checks l j j') : TakesFitting X j l := by
  rintro who text rfl hphase
  have hspoken := hs.spoken
  rw [Joiner.Spoken, hphase] at hspoken
  obtain ⟨rfl, -, -⟩ := hspoken
  cases h with
  | takeText _ _ _ hqueue =>
      refine hs.texts text ?_
      rw [Mpsc.sent, hqueue]
      exact List.mem_append_right _ (List.mem_cons_self ..)

/-- The reply of the hub is the accept byte. -/
theorem GuestSide.reply_eq (hs : GuestSide X me j) {byte : UInt8} {who : Guest} {deadline : ℕ}
    (hphase : j.main = .readReply who deadline) (htake : j.sock.CanTake [byte]) : byte = 0 := by
  have hintake := hs.intake
  rw [hphase] at hintake
  have hahead : j.sock.read ++ [byte] <+: me.greeting X := by
    refine List.IsPrefix.trans ?_ hs.arrived
    rw [Socket.arrived, List.prefix_append_right_inj]
    exact htake.2
  rw [hintake.2, List.nil_append, Guest.greeting, List.cons_prefix_cons] at hahead
  exact hahead.1

theorem JoinMainStep.course {l : JoinMainLabel} (h : JoinMainStep X checks l j j')
    (hl : (JoinerLabel.main l).Quiet X me) (hname : Encodes X.json (.system me.name))
    (hs : GuestSide X me j) :
    j'.main.OnCourse ∧ j'.main.Intake X me j'.reader j'.sock.read := by
  have hcourse := hs.course
  have hintake := hs.intake
  have hspoken := hs.spoken
  rw [Joiner.Spoken] at hspoken
  have hfits := hs.takesFitting h
  cases h with
  | writeFail | writeTimeout | flushFail | flushTimeout => exact absurd trivial hl.1
  | replyTimeout => exact absurd rfl hl.2
  | replyFail _ hend =>
      have hclosed := hend.2
      rw [hs.stays.stream] at hclosed
      cases hclosed
  | @write _ _ what _ rest _ hphase =>
      rw [hphase] at hintake
      dsimp only
      by_cases hrest : rest = []
      · rw [if_pos hrest]
        refine ⟨trivial, ?_⟩
        cases what <;> exact hintake
      · rw [if_neg hrest]
        refine ⟨hrest, ?_⟩
        cases what <;> exact hintake
  | @flush _ _ what _ hphase =>
      rw [hphase] at hintake
      cases what <;> exact ⟨trivial, hintake⟩
  | reply hphase htake =>
      -- the hub of a session accepts
      have hbyte := hs.reply_eq hphase htake
      rw [hphase] at hintake hspoken
      obtain ⟨rfl, -, -⟩ := hspoken
      obtain ⟨hreader, hread⟩ := hintake
      subst hbyte
      dsimp only
      rw [afterReply, if_neg (not_not_intro rfl), hname.encodeMessage, Socket.read_take, hread]
      exact ⟨frameBytes_ne_nil hname, hreader, rfl⟩
  | emitJoin hphase =>
      rw [hphase] at hintake
      exact ⟨trivial, hintake⟩
  | spawnReader hphase =>
      rw [hphase] at hintake
      refine ⟨trivial, nofun, fun _ => hintake.2, ⟨[], List.nil_prefix, ?_⟩, _, Format.progress_nil⟩
      simpa [JoinReader.buffer] using hintake.2
  | shutdown _ hshutdown =>
      rw [hs.stays.calm] at hshutdown
      cases hshutdown
  | readerDone _ _ hdone =>
      rw [hs.stays.undone] at hdone
      cases hdone
  | takeText hphase =>
      -- only texts that fit a frame are sent in a session
      have htext := hfits _ _ rfl hphase
      rw [hphase] at hintake
      dsimp only
      rw [afterText, htext.encodeMessage]
      exact ⟨frameBytes_ne_nil htext, hintake⟩
  | inputClosed _ _ _ _ hclosed =>
      rw [hs.stays.handles] at hclosed
      cases hclosed
  | eventsClosed _ _ _ _ _ hclosed =>
      rw [hs.stays.listens] at hclosed
      cases hclosed
  | echo hphase =>
      rw [hphase] at hintake
      unfold tryEmit
      split <;> exact ⟨trivial, hintake⟩
  | decode hphase | connected hphase | connectFailed hphase | drainText hphase | drained hphase
  | flushEvent hphase | flushed hphase | abortReader hphase | awaitReader hphase
  | emitError hphase | emitClosed hphase | sendError hphase | sendErrorClosed hphase =>
      rw [hphase] at hcourse
      cases hcourse

/-- The texts sent are the user's. -/
theorem JoinMainStep.sent {l : JoinMainLabel} (h : JoinMainStep X checks l j j') :
    j'.messages.sent = j.messages.sent := by
  cases h with
  | takeText => exact Mpsc.sent_pop _
  | drainText => exact Mpsc.sent_pop _
  | abortReader | sendError | sendErrorClosed => exact Mpsc.sent_close _
  | echo => rw [messages_tryEmit]
  | _ => rfl

theorem JoinMainStep.guestSide {l : JoinMainLabel} (h : JoinMainStep X checks l j j')
    (hl : (JoinerLabel.main l).Quiet X me) (hname : Encodes X.json (.system me.name))
    (hs : GuestSide X me j) : GuestSide X me j' := by
  have hstep : JoinerStep X checks (.main l) j j' := .main h
  have hconnected : ∀ d, l ≠ .connected d := by
    rintro d rfl
    have hcourse := hs.course
    cases h with
    | connected hphase =>
        rw [hphase] at hcourse
        cases hcourse
  obtain ⟨hcourse, hintake⟩ := h.course hl hname hs
  exact {
    stays := h.stays hl.1 (hs.takesFitting h) hs.stays
    spoken := h.spoken hconnected hs.spoken
    course := hcourse
    texts := by
      rw [h.sent]
      exact hs.texts
    arrived := by
      rw [hstep.arrived (by simp)]
      exact hs.arrived
    intake := hintake }

/-! ## The reader -/

/-- While the joiner has a reader, what is read are notices. -/
theorem GuestSide.notices (hs : GuestSide X me j) (hspawned : j.reader ≠ .unspawned) :
    Notices X me j.reader j.sock.read ∧
      ∀ reader read, Notices X me reader read → j.main.Intake X me reader read := by
  have hintake := hs.intake
  have hcourse := hs.course
  cases hmain : j.main with
  | writing who what =>
      rw [hmain] at hintake
      cases what with
      | hello | name => exact absurd hintake.1 hspawned
      | text => exact ⟨hintake, fun _ _ => id⟩
  | flushing who what =>
      rw [hmain] at hintake
      cases what with
      | hello | name => exact absurd hintake.1 hspawned
      | text => exact ⟨hintake, fun _ _ => id⟩
  | readReply | emitJoin | spawnReader =>
      rw [hmain] at hintake
      exact absurd hintake.1 hspawned
  | select | echo =>
      rw [hmain] at hintake
      exact ⟨hintake, fun _ _ => id⟩
  | _ =>
      rw [hmain] at hcourse
      cases hcourse

theorem notices_frames {msg : WireMessage} (hmsg : msg ∈ me.notices X) :
    readFrame (frameBytes X.json msg) = .frame (frameBytes X.json msg) :=
  readFrame_encodeMessage (Guest.encodes_of_mem_notices hmsg).encodeMessage

section

variable {got chunk : List UInt8} {deadline k : ℕ}

/-- **The next bytes the reader takes** leave its frame unfinished or complete the next
notice. -/
theorem GuestSide.next (hs : GuestSide X me j) (hphase : j.reader = .reading got deadline)
    (htake : j.sock.CanTake chunk) (hneeds : readFrame got = .needs k) (hfit : chunk.length ≤ k) :
    ∃ done, done <+: me.notices X ∧
      j.sock.read = [0] ++ done.flatMap (frameBytes X.json) ++ got ∧
      ((∃ k', readFrame (got ++ chunk) = .needs k') ∨
        ∃ msg, done ++ [msg] <+: me.notices X ∧ Encodes X.json msg ∧
          readFrame (got ++ chunk) = .frame (frameBytes X.json msg) ∧
          got ++ chunk = frameBytes X.json msg) := by
  obtain ⟨⟨-, -, ⟨done, hdone, hread⟩, -⟩, -⟩ := hs.notices (by rw [hphase]; nofun)
  rw [hphase, JoinReader.buffer] at hread
  have hahead : j.sock.read ++ chunk <+: me.greeting X := by
    refine List.IsPrefix.trans ?_ hs.arrived
    rw [Socket.arrived, List.prefix_append_right_inj]
    exact htake.2
  rw [hread, List.append_assoc] at hahead
  refine ⟨done, hdone, hread, ?_⟩
  rcases Format.progress_of_aligned (fun msg hmsg => notices_frames hmsg) hdone hahead hneeds hfit
    htake.1 with hmore | ⟨msg, hmsg, hframe, hexact⟩
  · exact .inl hmore
  · have hmem : msg ∈ me.notices X :=
      hmsg.subset (List.mem_append_right _ (List.mem_singleton_self _))
    exact .inr ⟨msg, hmsg, Guest.encodes_of_mem_notices hmem, hframe, hexact⟩

end

/-- **The reader takes the notices frame by frame**, and each of them decodes. -/
theorem JoinReaderStep.notices {l : JoinReaderLabel} (h : JoinReaderStep X l j j')
    (hl : l ≠ .readTimeout) (hs : GuestSide X me j) :
    ¬ l.GivesUp ∧ Notices X me j'.reader j'.sock.read := by
  have hlive := hs.stays.live
  cases h with
  | start hphase =>
      obtain ⟨hnotices, -⟩ := hs.notices (by rw [hphase]; nofun)
      refine ⟨id, nofun, nofun, ⟨[], List.nil_prefix, ?_⟩, _, Format.progress_nil⟩
      simpa [JoinReader.buffer] using hnotices.first hphase
  | read hphase htake hneeds hfit hmore =>
      obtain ⟨done, hdone, hread, -⟩ := hs.next hphase htake hneeds hfit
      refine ⟨id, nofun, nofun, ⟨done, hdone, ?_⟩, _, hmore⟩
      rw [Socket.read_take, hread, List.append_assoc]
      rfl
  | message hphase htake hneeds hfit hframe hdecode =>
      obtain ⟨done, -, hread, hnext⟩ := hs.next hphase htake hneeds hfit
      rcases hnext with ⟨k', hmore⟩ | ⟨msg, hmsg, -, -, hexact⟩
      · rw [hmore] at hframe
        cases hframe
      · refine ⟨id, nofun, nofun, ⟨done ++ [msg], hmsg, ?_⟩, _, Format.progress_nil⟩
        rw [Socket.read_take, hread, List.append_assoc, hexact, List.flatMap_append,
          List.flatMap_singleton]
        simp [JoinReader.buffer]
  | skip hphase htake hneeds hfit hframe hdecode =>
      -- every notice decodes
      obtain ⟨done, -, -, hnext⟩ := hs.next hphase htake hneeds hfit
      rcases hnext with ⟨k', hmore⟩ | ⟨msg, -, hfits, hwhole, -⟩
      · rw [hmore] at hframe
        cases hframe
      · rw [hwhole] at hframe
        cases hframe
        rw [decodeMessage_encodeMessage hfits.encodeMessage] at hdecode
        cases hdecode
  | malformed hphase htake hneeds hfit hfailed =>
      obtain ⟨done, -, -, hnext⟩ := hs.next hphase htake hneeds hfit
      rcases hnext with ⟨k', hmore⟩ | ⟨msg, -, -, hwhole, -⟩
      · rw [hmore] at hfailed
        cases hfailed
      · rw [hwhole] at hfailed
        cases hfailed
  | emit hphase | emitClosed hphase =>
      obtain ⟨⟨-, -, ⟨done, hdone, hread⟩, hneeds⟩, -⟩ := hs.notices (by rw [hphase]; nofun)
      rw [hphase] at hread
      exact ⟨id, nofun, nofun, ⟨done, hdone, hread⟩, _, Format.progress_nil⟩
  | readFail _ hend =>
      have hclosed := hend.2
      rw [hs.stays.stream] at hclosed
      cases hclosed
  | readTimeout => exact absurd rfl hl
  | done hphase => exact absurd hphase hlive.1
  | cancel haborted =>
      rw [hs.stays.spared] at haborted
      cases haborted

/-- A reader that has not been spawned does not step. -/
theorem JoinReaderStep.spawned {l : JoinReaderLabel} (h : JoinReaderStep X l j j') :
    j.reader ≠ .unspawned := by
  cases h with
  | cancel _ hspawned => exact hspawned
  | _ hphase =>
      rw [hphase]
      exact nofun

theorem JoinReaderStep.guestSide {l : JoinReaderLabel} (h : JoinReaderStep X l j j')
    (hl : l ≠ .readTimeout) (hs : GuestSide X me j) : GuestSide X me j' := by
  -- the reader does not depend on the build
  have hstep : JoinerStep X true (.reader l) j j' := .reader h
  obtain ⟨hgoes, hnotices⟩ := h.notices hl hs
  obtain ⟨hmain, hreceived, hwritten⟩ := hstep.main_frame (by simp)
  exact {
    stays := h.stays hgoes hs.stays
    spoken := hstep.spoken (by simp) hs.spoken
    course := by
      rw [hmain]
      exact hs.course
    texts := by cases h <;> exact hs.texts
    arrived := by
      rw [hstep.arrived (by simp)]
      exact hs.arrived
    intake := by
      rw [hmain]
      exact (hs.notices h.spawned).2 _ _ hnotices }

/-! ## The rest -/

theorem JoinUserStep.guestSide {l : JoinUserLabel} (h : JoinUserStep l j j')
    (hl : (JoinerLabel.user l).Quiet X me) (hs : GuestSide X me j) : GuestSide X me j' := by
  cases h with
  | @send _ text =>
      refine ⟨{ hs.stays with }, hs.spoken, hs.course, fun more hmem => ?_, hs.arrived, hs.intake⟩
      rw [Mpsc.sent_push] at hmem
      rcases List.mem_append.mp hmem with hold | hnew
      · exact hs.texts more hold
      · rw [List.mem_singleton.mp hnew]
        exact hl
  | takeEvent => exact ⟨{ hs.stays with }, hs.spoken, hs.course, hs.texts, hs.arrived, hs.intake⟩
  | quit | dropSend | closeEvents => cases hl

/-- Bytes of the greeting arrive. -/
theorem GuestSide.arrive {chunk : List UInt8} (hs : GuestSide X me j)
    (hnext : j.sock.arrived ++ chunk <+: me.greeting X) :
    GuestSide X me { j with sock := j.sock.arrive chunk } := by
  refine ⟨{ hs.stays with }, hs.spoken, hs.course, hs.texts, ?_, hs.intake⟩
  rw [Socket.arrived_arrive]
  exact hnext

/-- **The joiner's side of a session is kept by every quiet step.** -/
theorem JoinerStep.guestSide {l : JoinerLabel} (h : JoinerStep X checks l j j')
    (hl : l.Quiet X me) (hjoiner : ∀ chunk, l ≠ .net chunk) (hend : ∀ e, l ≠ .finish e)
    (hname : Encodes X.json (.system me.name)) (hs : GuestSide X me j) : GuestSide X me j' := by
  cases h with
  | main h => exact h.guestSide hl hname hs
  | reader h => exact h.guestSide hl hs
  | user h => exact h.guestSide hl hs
  | net => exact absurd rfl (hjoiner _)
  | finish => exact absurd rfl (hend _)
  | tick => exact ⟨{ hs.stays with }, hs.spoken, hs.course, hs.texts, hs.arrived, hs.intake⟩

end Nullpipe

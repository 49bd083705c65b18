import Nullpipe.Mock.Original

/-!
# The joiner comes to its end

The other half of `Mock/Original.lean`, as `Mock/Replay.lean` is of `Mock/Quiet.lean`.  What a
joiner whose user says nothing may emit, it can (`joinerOutcome_of_listens`), and it fails with
each error a refusal may give (`joinerOutcome_of_refuses`).

There is one run more.  A text that is sent while the joiner closes is shown to its user and
never written (`exists_longer_outcome`): the reader has ended, the main task has left its loop,
and `drain_and_flush` finds the text in the queue.  Its events are one more than the mock can
emit with any user, and this is what tells the two apart as soon as the user has something to
say.
-/

namespace Nullpipe

open Channel Framing Transition Mock

variable {X : Crates} {checks : Bool} {me : Guest} {bytes : List UInt8} {texts : List String}
  {start : ℕ} {j j' : Joiner} {out : List ChatEvent} {config : JoinConfig}

/-! ## Single steps -/

theorem JoinMainStep.peaceful {l : JoinMainLabel} (h : JoinMainStep X checks l j j')
    (hl : (JoinerLabel.main l).Peaceful) (hj' : j'.Peaceful bytes texts) :
    PeacefulStep X checks bytes texts (.main l) j j' :=
  ⟨⟨.main h, hl⟩, hj'⟩

theorem JoinReaderStep.peaceful {l : JoinReaderLabel} (h : JoinReaderStep X l j j')
    (hl : (JoinerLabel.reader l).Peaceful) (hj' : j'.Peaceful bytes texts) :
    PeacefulStep X checks bytes texts (.reader l) j j' :=
  ⟨⟨.reader h, hl⟩, hj'⟩

/-- The user takes the one event there is. -/
theorem peacefulStep_takeEvent (X : Crates) (checks : Bool) {event : ChatEvent}
    (hj : j.Peaceful bytes texts)
    (hqueue : j.events.queue = [event]) :
    PeacefulStep X checks bytes texts (.user .takeEvent) j
      { j with events := ⟨j.events.received ++ [event], [], true⟩ } := by
  have htake := JoinUserStep.takeEvent (j := j) hqueue
  rw [Mpsc.pop_of_queue hqueue, hj.listens.1] at htake
  exact ⟨⟨.user htake, trivial⟩, hj.hub, hj.user, hj.stays, hj.calm, rfl, Nat.succ_pos _⟩

/-! ## The handshake -/

theorem peaceful_hubStream (bytes : List UInt8) (texts : List String) (start : ℕ)
    (config : JoinConfig) (me : Guest) :
    (atHandshake me (Joiner.init start config) (hubStream bytes, .start me start)).Peaceful
      bytes texts :=
  ⟨delivers_hubStream bytes, List.nil_prefix, rfl, rfl, rfl, Nat.succ_pos _⟩

theorem reachable_hubStream :
    Reachable (PeacefulStep X checks bytes texts) (.dialed start config me)
      (atHandshake me (Joiner.init start config) (hubStream bytes, .start me start)) := by
  have harrive : PeacefulStep X checks bytes texts (.net bytes) (.dialed start config me)
      { Joiner.dialed start config me with sock := Socket.fresh.arrive bytes } :=
    ⟨⟨.net rfl, trivial⟩, Socket.delivers_arrive bytes, List.nil_prefix, rfl, rfl, rfl,
      Nat.succ_pos _⟩
  have hfinish : PeacefulStep X checks bytes texts (.finish .eof)
      { Joiner.dialed start config me with sock := Socket.fresh.arrive bytes }
      (atHandshake me (Joiner.init start config) (hubStream bytes, .start me start)) :=
    ⟨⟨.finish rfl, trivial⟩, peaceful_hubStream ..⟩
  exact ((Reachable.refl _).snoc harrive).snoc hfinish

/-- **A quiet run of the handshake is one of the joiner.** -/
theorem reachable_handshake (checks : Bool) {s t : Socket × Mock.Handshake}
    {ls : List HandshakeLabel} (hrun : QuietRun X me j.now s ls t)
    (hj : (atHandshake me j s).Peaceful bytes texts) :
    (atHandshake me j t).Peaceful bytes texts ∧
      Reachable (PeacefulStep X checks bytes texts) (atHandshake me j s) (atHandshake me j t) := by
  refine Run.invariant (I := fun t => (atHandshake me j t).Peaceful bytes texts ∧
    Reachable (PeacefulStep X checks bytes texts) (atHandshake me j s) (atHandshake me j t)) hrun
    ⟨hj, .refl _⟩ ?_
  rintro l u v ⟨hu, hreach⟩ ⟨hstep, hl⟩
  obtain ⟨harrived, hend⟩ := hstep.frame
  have hv : (atHandshake me j v).Peaceful bytes texts :=
    ⟨hu.hub.congr harrived hend, hu.user, hu.stays, hu.calm, hu.listens⟩
  have hpeace : (JoinerLabel.main l.main).Peaceful := by
    cases l with
    | write | flush | reply | replyFail => trivial
    | _ => exact hl
  exact ⟨hv, hreach.snoc ((HandshakeStep.main hstep).peaceful hpeace hv)⟩

/-- The joiner fails with each error that a refusal may give. -/
theorem joinerOutcome_of_refuses {e : ChatError} (h : Refuses X me bytes e) :
    JoinerOutcome X checks config me bytes texts start ⟨me.hello, [.error e]⟩ := by
  obtain ⟨ls, k, hrun⟩ := exists_run_refused h start
  obtain ⟨hpeace, ms, hms⟩ := reachable_handshake (X := X) checks hrun
    (peaceful_hubStream bytes texts start config me)
  have hsend : JoinMainStep X checks .sendError
      (atHandshake me (Joiner.init start config) (k, .failed e)) _ := .sendError rfl hpeace.listens
  have hend := (reachable_hubStream.run hms).snoc (hsend.peaceful trivial
    ⟨hpeace.hub, List.nil_prefix, rfl, rfl, rfl, Nat.succ_lt_succ (Nat.succ_pos _)⟩)
  have hsilent : Admits X me bytes → texts = [] := fun hadmits => absurd hadmits h.not_admits
  obtain ⟨-, -, hplace⟩ := Joiner.fits_of_reachable hend hsilent
  rcases hplace with ⟨p, hmain, -, -⟩ | ⟨-, -, hwritten, -⟩
  · cases p <;> cases hmain
  · refine ⟨_, hend, trivial, ?_⟩
    rw [Joiner.outcome, hwritten]
    rfl

/-! ## The reader -/

def JoinReader.ofEar (deadline : ℕ) : Ear ChatEvent → JoinReader
  | .reading got => .reading got deadline
  | .holding event => .emitting event
  | .finished => .finished

/-- A joiner whose reader is the listener `s` and has read `got` before. -/
def Joiner.hearing (j : Joiner) (got : List UInt8) (s : Listener ChatEvent) : Joiner :=
  { j with
    reader := .ofEar (j.now + readTimeout) s.ear
    sock := { j.sock with read := got, inbox := s.unread }
    events := ⟨j.events.received ++ s.handed, [], true⟩ }

theorem Joiner.Peaceful.hearing (hj : j.Peaceful bytes texts) (hend : j.sock.readEnd = some .eof)
    {got : List UInt8} {s : Listener ChatEvent} (hall : got ++ s.unread = bytes) :
    (j.hearing got s).Peaceful bytes texts :=
  ⟨Socket.delivers_of_split hend hall, hj.user, hj.stays, hj.calm, rfl, Nat.succ_pos _⟩

/-- **A step of the listener is one of the joiner**, or two: the user takes the event. -/
theorem reachable_listenStep {k : ListenLabel} {s t : Listener ChatEvent} {got : List UInt8}
    (h : ListenStep wireFormat (incoming X) k s t) (hj : j.Peaceful bytes texts)
    (hend : j.sock.readEnd = some .eof) (hall : got ++ s.unread = bytes) :
    ∃ got', got' ++ t.unread = bytes ∧
      Reachable (PeacefulStep X checks bytes texts) (j.hearing got s) (j.hearing got' t) := by
  have hsock : ∀ {chunk rest : List UInt8} {ear : Ear ChatEvent} {out : List ChatEvent},
      (j.hearing got ⟨ear, chunk ++ rest, out⟩).sock.take chunk =
        { j.sock with read := got ++ chunk, inbox := rest } :=
    Socket.take_append ..
  cases h with
  | @read held chunk rest out _ _ hchunk hneeds hfit hmore =>
      have hall' : (got ++ chunk) ++ rest = bytes := by rwa [List.append_assoc]
      have hstep := JoinReaderStep.read (X := X)
        (j := j.hearing got ⟨.reading held, chunk ++ rest, out⟩)
        rfl (Socket.canTake_append hchunk) hneeds hfit hmore
      rw [hsock] at hstep
      refine ⟨got ++ chunk, hall', (Reachable.refl _).snoc (hstep.peaceful trivial ?_)⟩
      exact hj.hearing hend (s := ⟨.reading (held ++ chunk), rest, out⟩) hall'
  | @frame held chunk rest f out _ hchunk hneeds hfit hframe =>
      have hall' : (got ++ chunk) ++ rest = bytes := by rwa [List.append_assoc]
      refine ⟨got ++ chunk, hall', ?_⟩
      -- the joiner passes over what does not decode
      cases hdecode : decodeMessage X.json f with
      | ok msg =>
          have hverdict : incoming X f = .hand (incomingEvent msg) := by
            rw [incoming, readAll, decoded, hdecode]
            rfl
          have hstep := JoinReaderStep.message (X := X)
            (j := j.hearing got ⟨.reading held, chunk ++ rest, out⟩)
            rfl (Socket.canTake_append hchunk) hneeds hfit hframe hdecode
          rw [hsock] at hstep
          rw [hverdict]
          refine (Reachable.refl _).snoc (hstep.peaceful trivial ?_)
          exact hj.hearing hend (s := ⟨.holding (incomingEvent msg), rest, out⟩) hall'
      | error e =>
          have hverdict : incoming X f = .skip := by
            rw [incoming, readAll, decoded, hdecode]
            rfl
          have hstep := JoinReaderStep.skip (X := X)
            (j := j.hearing got ⟨.reading held, chunk ++ rest, out⟩)
            rfl (Socket.canTake_append hchunk) hneeds hfit hframe hdecode
          rw [hsock] at hstep
          rw [hverdict]
          refine (Reachable.refl _).snoc (hstep.peaceful trivial ?_)
          exact hj.hearing hend (s := ⟨.reading [], rest, out⟩) hall'
  | @malformed held chunk rest out _ _ hchunk hneeds hfit hfailed =>
      have hall' : (got ++ chunk) ++ rest = bytes := by rwa [List.append_assoc]
      have hstep := JoinReaderStep.malformed (X := X)
        (j := j.hearing got ⟨.reading held, chunk ++ rest, out⟩)
        rfl (Socket.canTake_append hchunk) hneeds hfit hfailed
      rw [hsock] at hstep
      refine ⟨got ++ chunk, hall', (Reachable.refl _).snoc (hstep.peaceful trivial ?_)⟩
      exact hj.hearing hend (s := ⟨.finished, rest, out⟩) hall'
  | @finish held out _ hneeds =>
      have hstep := JoinReaderStep.readFail (X := X) (j := j.hearing got ⟨.reading held, [], out⟩)
        rfl ⟨rfl, by rw [Joiner.hearing, hend]; rfl⟩
      refine ⟨got, hall, (Reachable.refl _).snoc (hstep.peaceful trivial ?_)⟩
      exact hj.hearing hend (s := ⟨.finished, [], out⟩) hall
  | @hand event rest out =>
      -- the reader emits, and the user takes the event at once
      have hholds := hj.hearing hend (s := ⟨.holding event, rest, out⟩) hall
      have hemitted : PeacefulStep X checks bytes texts (.reader .emit)
          (j.hearing got ⟨.holding event, rest, out⟩) _ :=
        (JoinReaderStep.emit rfl hholds.listens).peaceful trivial
          ⟨hholds.hub, hj.user, hj.stays, hj.calm, rfl, Nat.succ_lt_succ (Nat.succ_pos _)⟩
      have htaken := peacefulStep_takeEvent X checks hemitted.2 rfl
      have hstate : { j.hearing got ⟨.reading [], rest, out⟩ with
          events := ⟨j.events.received ++ out ++ [event], [], true⟩ } =
          j.hearing got ⟨.reading [], rest, out ++ [event]⟩ := by
        rw [List.append_assoc]
        rfl
      refine ⟨got, hall, ((Reachable.refl _).snoc hemitted).snoc (l := .user .takeEvent) ?_⟩
      rw [← hstate]
      exact htaken

/-! ## The main task -/

/-- A joiner that has announced itself and whose reader is at work. -/
def Joiner.running (X : Crates) (j : Joiner) (me : Guest) : Joiner :=
  { j with
    main := .select me
    reader := .reading [] (j.now + readTimeout)
    events := ⟨j.events.received ++ [joinEvent X me j.now], [], true⟩ }

theorem reachable_running (X : Crates) (checks : Bool) (hj : j.Peaceful bytes texts)
    (hmain : j.main = .emitJoin me)
    (hqueue : j.events.queue = []) :
    Reachable (PeacefulStep X checks bytes texts) j (j.running X me) := by
  have hjoin : JoinMainStep X checks .emitJoin j _ := .emitJoin hmain
  rw [Mpsc.trySend_of_hasRoom hj.listens, Mpsc.push, hqueue, List.nil_append] at hjoin
  have hemitted : PeacefulStep X checks bytes texts (.main .emitJoin) j _ := hjoin.peaceful trivial
    ⟨hj.hub, hj.user, hj.stays, hj.calm, hj.listens.1, Nat.succ_lt_succ (Nat.succ_pos _)⟩
  have htaken := peacefulStep_takeEvent X checks hemitted.2 rfl
  have hspawn : JoinMainStep X checks .spawnReader
      { j with
        main := .spawnReader me
        events := ⟨j.events.received ++ [joinEvent X me j.now], [], true⟩ } _ := .spawnReader rfl
  have hstart := JoinReaderStep.start (X := X)
    (j := { j with
      main := .select me
      reader := .spawned
      events := ⟨j.events.received ++ [joinEvent X me j.now], [], true⟩ }) rfl
  exact ((((Reachable.refl j).snoc hemitted).snoc htaken).snoc
    (hspawn.peaceful trivial htaken.2)).snoc (hstart.peaceful trivial htaken.2)

/-- A joiner whose reader has ended, about to close. -/
def Joiner.draining (j : Joiner) (me : Guest) : Joiner :=
  { j with main := .drain me, reader := .ended, readerDone := true }

theorem reachable_draining (X : Crates) (checks : Bool) (hj : j.Peaceful bytes texts)
    (hmain : j.main = .select me)
    (hreader : j.reader = .finished) :
    Reachable (PeacefulStep X checks bytes texts) j (j.draining me) := by
  have hdone := JoinReaderStep.done (X := X) hreader
  have hdrain : JoinMainStep X checks .readerDone
      { j with readerDone := true, reader := .ended } _ :=
    .readerDone hmain hj.calm rfl
  exact ((Reachable.refl j).snoc (hdone.peaceful trivial hj)).snoc (hdrain.peaceful trivial hj)

theorem tryEmit_of_queue_nil {event : ChatEvent} (hroom : j.events.HasRoom eventChanCap)
    (hqueue : j.events.queue = []) :
    tryEmit j event = { j with events := ⟨j.events.received, [event], true⟩ } := by
  rw [tryEmit, if_pos hroom, Mpsc.push, hqueue, hroom.1]
  rfl

/-- What was sent in the meantime is shown to the user. -/
theorem reachable_echoed (X : Crates) (checks : Bool) {text : String} {rest : List String}
    (hj : j.Peaceful bytes (text :: rest)) (hmain : j.main = .drain me)
    (hmessages : j.messages = .empty) (hqueue : j.events.queue = []) :
    Reachable (PeacefulStep X checks bytes (text :: rest)) j
      { j with
        messages := ⟨[text], [], true⟩
        events := ⟨j.events.received ++ [makeEvent X me text], [], true⟩ } := by
  have hone : [text] <+: text :: rest := ⟨rest, rfl⟩
  have hroom : j.messages.HasRoom sendChanCap := by
    rw [hmessages]
    exact ⟨rfl, Nat.succ_pos _⟩
  have hsend : JoinUserStep (.send text) j _ := .send hj.stays hroom
  rw [hmessages] at hsend
  have hsent : PeacefulStep X checks bytes (text :: rest) (.user (.send text)) _ _ :=
    ⟨⟨.user hsend, trivial⟩, hj.hub, hone, hj.stays, hj.calm, hj.listens⟩
  have hdrain : JoinMainStep X checks (.drainText text)
      { j with messages := Mpsc.empty.push text } _ := .drainText hmain rfl
  rw [tryEmit_of_queue_nil (j := { j with messages := Mpsc.empty.push text }) hj.listens hqueue]
    at hdrain
  have hdrained : PeacefulStep X checks bytes (text :: rest) (.main (.drainText text)) _ _ :=
    hdrain.peaceful trivial
      ⟨hj.hub, hone, hj.stays, hj.calm, rfl, Nat.succ_lt_succ (Nat.succ_pos _)⟩
  exact (((Reachable.refl j).snoc hsent).snoc hdrained).snoc
    (peacefulStep_takeEvent X checks hdrained.2 rfl)

/-- The joiner closes when nothing is left to drain. -/
theorem exists_reachable_closed (X : Crates) (checks : Bool) (hj : j.Peaceful bytes texts)
    (hmain : j.main = .drain me)
    (hreader : j.reader = .ended) (hmessages : j.messages.queue = []) (hpending : j.pending = [])
    (hqueue : j.events.queue = []) :
    ∃ j', Reachable (PeacefulStep X checks bytes texts) j j' ∧ j'.main.Done ∧
      j'.outcome = ⟨j.sock.written, (j.events.sent ++ [ChatEvent.roomClosed]).map faceless⟩ := by
  -- nothing is left to drain or to flush, and the reader need not be waited for
  have hdrained : JoinMainStep X checks .drained j _ := .drained hmain hmessages
  have hflushed : JoinMainStep X checks .flushed { j with main := .flushPending } _ :=
    .flushed rfl (.inl hpending)
  have habort : JoinMainStep X checks .abortReader
      { j with pending := [], main := .abortReader none } _ := .abortReader rfl
  have hawait : JoinMainStep X checks .awaitReader
      { j with
        pending := []
        messages := j.messages.close
        readerAborted := true
        main := .awaitReader none } _ := .awaitReader rfl hreader
  have hclose : JoinMainStep X checks .emitClosed
      { j with
        pending := []
        messages := j.messages.close
        readerAborted := true
        main := .emitClosed } _ := .emitClosed rfl
  rw [Mpsc.trySend_of_hasRoom hj.listens] at hclose
  have hpeace : Undisturbed bytes texts j.sock j.messages.close j.sendOpen j.shutdown j.events :=
    ⟨hj.hub, hj.user, hj.stays, hj.calm, hj.listens⟩
  have hroom : (j.events.push .roomClosed).queue.length < eventChanCap := by
    rw [Mpsc.push, hqueue]
    exact Nat.succ_lt_succ (Nat.succ_pos _)
  have hclosed : PeacefulStep X checks bytes texts (.main .emitClosed) _ _ :=
    hclose.peaceful trivial ⟨hj.hub, hj.user, hj.stays, hj.calm, hj.listens.1, hroom⟩
  have hreach := (((Reachable.refl j).snoc (hdrained.peaceful trivial hj)).snoc
    (hflushed.peaceful trivial hj)).snoc (habort.peaceful trivial hpeace)
  refine ⟨_, (hreach.snoc (hawait.peaceful trivial hpeace)).snoc hclosed, trivial, ?_⟩
  rw [Joiner.outcome, Mpsc.sent_push]

/-! ## Whole runs -/

/-- A joiner that the hub has let in. -/
def Joiner.letIn (X : Crates) (start : ℕ) (config : JoinConfig) (me : Guest) (bytes : List UInt8) :
    Joiner :=
  atHandshake me (Joiner.init start config)
    (⟨[0], bytes.tail, some .eof, me.script X [], (me.script X []).length⟩, .entered)

/-- With a hub that lets it in the joiner gets to where it drains what is left. -/
theorem exists_reachable_draining (checks : Bool) (config : JoinConfig) (texts : List String)
    (hadmits : Admits X me bytes) {joinedAt : ℕ}
    (hle : start ≤ joinedAt) :
    ∃ j, Reachable (PeacefulStep X checks bytes texts) (.dialed start config me) j ∧
      j.Peaceful bytes texts ∧ j.main = .drain me ∧ j.reader = .ended ∧ j.messages = .empty ∧
      j.pending = [] ∧ j.sock.written = me.script X [] ∧
      j.events =
        ⟨joinEvent X me joinedAt :: wireFormat.heard (incoming X) bytes.tail, [], true⟩ := by
  obtain ⟨d, rfl⟩ := Nat.exists_eq_add_of_le hle
  obtain ⟨ls, hrun⟩ := exists_run_entered hadmits start
  obtain ⟨hpeace, ms, hms⟩ := reachable_handshake (X := X) checks hrun
    (peaceful_hubStream bytes texts start config me)
  -- the clock goes on to the time of the announcement
  have htick : PeacefulStep X checks bytes texts (.tick d) (.letIn X start config me bytes)
      { Joiner.letIn X start config me bytes with now := start + d } :=
    ⟨⟨.tick, trivial⟩, hpeace⟩
  obtain ⟨ls', hrunning⟩ := reachable_running X checks
    (j := { Joiner.letIn X start config me bytes with now := start + d }) hpeace rfl rfl
  have hentered := ((reachable_hubStream.run hms).snoc htick).run hrunning
  -- the reader takes the rest of the stream
  generalize hstate : Joiner.running X
    { Joiner.letIn X start config me bytes with now := start + d } me = j at hentered
  have hj : j.Peaceful bytes texts := by
    rw [← hstate]
    exact ⟨hpeace.hub, List.nil_prefix, rfl, rfl, rfl, Nat.succ_pos _⟩
  have hend : j.sock.readEnd = some .eof := by rw [← hstate]; rfl
  have hwaits : (Ear.reading [] : Ear ChatEvent).Waits wireFormat := waits_nil
  obtain ⟨got, rest, hall, ks, hheard⟩ : ∃ got rest, got ++ rest = bytes ∧
      Reachable (PeacefulStep X checks bytes texts) (j.hearing [0] ⟨.reading [], bytes.tail, []⟩)
        (j.hearing got ⟨.finished, rest, wireFormat.heard (incoming X) bytes.tail⟩) :=
    exists_reachable_listen (fun _ _ _ _ hmove => reachable_listenStep hmove hj hend) hwaits
      hadmits.zero_tail
  have hsame : j.hearing [0] ⟨.reading [], bytes.tail, []⟩ = j := by
    rw [← hstate]
    rfl
  rw [hsame] at hheard
  have hpeaceful :
      (j.hearing got ⟨.finished, rest, wireFormat.heard (incoming X) bytes.tail⟩).Peaceful
        bytes texts := hj.hearing hend hall
  obtain ⟨ks', hdraining⟩ := reachable_draining X checks hpeaceful
    (by rw [← hstate]; rfl) rfl
  refine ⟨_, (hentered.run hheard).run hdraining, hpeaceful, rfl, rfl, ?_⟩
  rw [← hstate]
  exact ⟨rfl, rfl, rfl, rfl⟩

/-- **What a joiner may emit while its user says nothing, it can.** -/
theorem joinerOutcome_of_listens {o : Mock.Outcome}
    (h : Listens X me bytes start (wireFormat.heard (incoming X) bytes.tail) o) :
    JoinerOutcome X checks config me bytes texts start o := by
  cases h with
  | refused h => exact joinerOutcome_of_refuses h
  | @ran joinedAt hadmits hle =>
      obtain ⟨j, hreach, hj, hmain, hreader, hmessages, hpending, hwritten, hevents⟩ :=
        exists_reachable_draining checks config texts hadmits hle
      obtain ⟨j', ⟨ls, hclosed⟩, hdone, hout⟩ := exists_reachable_closed X checks hj hmain hreader
        (by rw [hmessages]; rfl) hpending (by rw [hevents])
      refine ⟨j', hreach.run hclosed, hdone, ?_⟩
      rw [hout, hwritten, hevents, Mpsc.sent, List.append_nil]

/-- **A user that has something to say can have one event more**: the echo of a text that was
never written. -/
theorem exists_longer_outcome (checks : Bool) (config : JoinConfig) (start : ℕ) (text : String)
    (rest : List String) (hadmits : Admits X me bytes) :
    ∃ o, JoinerOutcome X checks config me bytes (text :: rest) start o ∧
      o.events.length = (wireFormat.heard (incoming X) bytes.tail).length + 3 := by
  obtain ⟨j, hreach, hj, hmain, hreader, hmessages, hpending, hwritten, hevents⟩ :=
    exists_reachable_draining checks config (text :: rest) hadmits (Nat.le_refl start)
  have hnone : j.events.queue = [] := by rw [hevents]
  obtain ⟨ls, hecho⟩ := reachable_echoed X checks hj hmain hmessages hnone
  have hpeace : Undisturbed bytes (text :: rest) j.sock ⟨[text], [], true⟩ j.sendOpen j.shutdown
      ⟨j.events.received ++ [makeEvent X me text], [], true⟩ :=
    ⟨hj.hub, ⟨rest, rfl⟩, hj.stays, hj.calm, rfl, Nat.succ_pos _⟩
  obtain ⟨j', ⟨ls', hclosed⟩, hdone, hout⟩ := exists_reachable_closed X checks
    (j := { j with
      messages := ⟨[text], [], true⟩
      events := ⟨j.events.received ++ [makeEvent X me text], [], true⟩ })
    hpeace hmain hreader rfl hpending rfl
  refine ⟨_, ⟨j', (hreach.run hecho).run hclosed, hdone, rfl⟩, ?_⟩
  rw [hout, hevents]
  simp only [Mpsc.sent, List.length_map, List.length_append, List.length_cons, List.length_nil]

end Nullpipe

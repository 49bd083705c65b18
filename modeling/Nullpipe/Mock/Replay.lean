import Nullpipe.Mock.Quiet

/-!
# The mock comes to its end

The other half of `Mock/Quiet.lean`: what a mock joiner that nothing disturbs may emit, it can.

The handshake and the reader are run as in their own systems (`QuietRun`, `ListenStep`), with
the mock around them.

* `reachable_shaken`: a quiet run of the handshake is one of the mock.
* `reachable_listenStep`: a step of the listener is one of the mock, or two.  The user takes
  every event from the queue at once, so that there is always room for the next one.

Between them the mock announces itself and spawns its tasks (`reachable_running`), and after
them the main task sees that the reader has ended and closes (`exists_reachable_closed`).  The
two ways to end are `mockOutcome_of_refuses` and `mockOutcome_of_listens`.
-/

namespace Nullpipe.Mock

open Channel Framing Transition

variable {X : Crates} {me : Guest} {bytes : List UInt8} {texts : List String} {start : ℕ}
  {m m' : State}

/-! ## The handshake -/

/-- A mock joiner whose handshake stands here. -/
def State.shaken (m : State) (s : Socket × Handshake) : State :=
  { m with sock := s.1, main := .shaking s.2 }

theorem quiet_hubStream (bytes : List UInt8) (texts : List String) (start : ℕ) (me : Guest) :
    ((State.init start me).shaken (hubStream bytes, .start me start)).Quiet bytes texts :=
  ⟨delivers_hubStream bytes, List.nil_prefix, rfl, rfl, rfl, Nat.succ_pos _⟩

/-- The mock joiner shakes hands when all bytes of the hub are there. -/
theorem reachable_hubStream :
    Reachable (QuietStep X bytes texts) (State.init start me)
      ((State.init start me).shaken (hubStream bytes, .start me start)) := by
  have harrive : QuietStep X bytes texts (.net bytes) (State.init start me)
      { State.init start me with sock := Socket.fresh.arrive bytes } :=
    ⟨⟨.net rfl, trivial⟩, Socket.delivers_arrive bytes, List.nil_prefix, rfl, rfl, rfl,
      Nat.succ_pos _⟩
  have hfinish : QuietStep X bytes texts (.finish .eof)
      { State.init start me with sock := Socket.fresh.arrive bytes }
      ((State.init start me).shaken (hubStream bytes, .start me start)) :=
    ⟨⟨.finish rfl, trivial⟩, quiet_hubStream ..⟩
  exact ((Reachable.refl _).snoc harrive).snoc hfinish

/-- **A quiet run of the handshake is one of the mock.** -/
theorem reachable_shaken {s t : Socket × Handshake} {ls : List HandshakeLabel}
    (hrun : QuietRun X m.me m.now s ls t) (hm : (m.shaken s).Quiet bytes texts) :
    (m.shaken t).Quiet bytes texts ∧
      Reachable (QuietStep X bytes texts) (m.shaken s) (m.shaken t) := by
  refine Run.invariant (I := fun t => (m.shaken t).Quiet bytes texts ∧
    Reachable (QuietStep X bytes texts) (m.shaken s) (m.shaken t)) hrun ⟨hm, .refl _⟩ ?_
  rintro l u v ⟨hu, hreach⟩ ⟨hstep, hl⟩
  obtain ⟨harrived, hend⟩ := hstep.frame
  have hv : (m.shaken v).Quiet bytes texts :=
    ⟨hu.hub.congr harrived hend, hu.user, hu.stays, hu.calm, hu.listens⟩
  have hmain : MainStep X (.handshake l) (m.shaken u) (m.shaken v) := .handshake rfl hstep
  exact ⟨hv, hreach.snoc ⟨⟨.main hmain, hl⟩, hv⟩⟩

/-- The mock fails with each error that a refusal may give. -/
theorem mockOutcome_of_refuses {e : ChatError} (h : Refuses X me bytes e) :
    MockOutcome X me bytes texts start ⟨me.hello, [.error e]⟩ := by
  obtain ⟨ls, k, hrun⟩ := exists_run_refused h start
  obtain ⟨hquiet, hreach⟩ := reachable_shaken (m := State.init start me) hrun
    (quiet_hubStream bytes texts start me)
  have hsend : QuietStep X bytes texts (.main .sendError)
      ((State.init start me).shaken (k, .failed e))
      { (State.init start me).shaken (k, .failed e) with
        events := Mpsc.empty.push (.error e)
        messages := Mpsc.empty.close
        main := .failed e } := by
    refine ⟨⟨.main (.sendError rfl hquiet.listens), trivial⟩, hquiet.hub, List.nil_prefix, rfl, rfl,
      rfl, Nat.succ_lt_succ (Nat.succ_pos _)⟩
  obtain ⟨ms, hms⟩ := hreach
  have hend := (reachable_hubStream.run hms).snoc hsend
  obtain ⟨-, -, -, -, -, -, hrefuses, hwritten, -⟩ := fits_of_reachable hend
  refine ⟨_, hend, .inr ⟨e, rfl⟩, ?_⟩
  rw [State.outcome, hwritten]
  rfl

/-! ## The reader -/

/-- The user takes the one event there is. -/
theorem quietStep_takeEvent {event : ChatEvent} (hm : m.Quiet bytes texts)
    (hqueue : m.events.queue = [event]) :
    QuietStep X bytes texts (.user .takeEvent) m
      { m with events := ⟨m.events.received ++ [event], [], true⟩ } := by
  have htake := UserStep.takeEvent (m := m) hqueue
  rw [Mpsc.pop_of_queue hqueue, hm.listens.1] at htake
  exact ⟨⟨.user htake, trivial⟩, hm.hub, hm.user, hm.stays, hm.calm, rfl, Nat.succ_pos _⟩

def Reader.ofEar : Ear ChatEvent → Reader
  | .reading got => .reading got
  | .holding event => .emitting event
  | .finished => .ended

theorem ofEar_hears (json : SerdeJson) (frame : List UInt8) :
    Reader.ofEar (hears json frame).ear = afterFrame json frame := by
  unfold afterFrame hears decoded
  cases decodeMessage json frame with
  | error e => rfl
  | ok msg =>
      obtain ⟨kind, name, text⟩ := msg
      cases kind <;> rfl

/-- A mock joiner whose reader is the listener `s` and has read `got` before. -/
def State.hearing (m : State) (got : List UInt8) (s : Listener ChatEvent) : State :=
  { m with
    reader := .ofEar s.ear
    sock := { m.sock with read := got, inbox := s.unread }
    events := ⟨m.events.received ++ s.handed, [], true⟩ }

theorem State.Quiet.hearing (hm : m.Quiet bytes texts) (hend : m.sock.readEnd = some .eof)
    {got : List UInt8} {s : Listener ChatEvent} (hall : got ++ s.unread = bytes) :
    (m.hearing got s).Quiet bytes texts :=
  ⟨Socket.delivers_of_split hend hall, hm.user, hm.stays, hm.calm, rfl, Nat.succ_pos _⟩

/-- **A step of the listener is one of the mock**, or two: the user takes the event. -/
theorem reachable_listenStep {k : ListenLabel} {s t : Listener ChatEvent} {got : List UInt8}
    (h : ListenStep wireFormat (hears X.json) k s t) (hm : m.Quiet bytes texts)
    (hend : m.sock.readEnd = some .eof) (hall : got ++ s.unread = bytes) :
    ∃ got', got' ++ t.unread = bytes ∧
      Reachable (QuietStep X bytes texts) (m.hearing got s) (m.hearing got' t) := by
  have hsock : ∀ {chunk rest : List UInt8} {ear : Ear ChatEvent} {out : List ChatEvent},
      (m.hearing got ⟨ear, chunk ++ rest, out⟩).sock.take chunk =
        { m.sock with read := got ++ chunk, inbox := rest } :=
    Socket.take_append ..
  cases h with
  | @read held chunk rest out _ _ hchunk hneeds hfit hmore =>
      have hall' : (got ++ chunk) ++ rest = bytes := by rwa [List.append_assoc]
      have hstep := ReaderStep.read (X := X)
        (m := m.hearing got ⟨.reading held, chunk ++ rest, out⟩)
        rfl (Socket.canTake_append hchunk) hneeds hfit hmore
      rw [hsock] at hstep
      refine ⟨got ++ chunk, hall', (Reachable.refl _).snoc ⟨⟨.reader hstep, trivial⟩, ?_⟩⟩
      exact hm.hearing hend (s := ⟨.reading (held ++ chunk), rest, out⟩) hall'
  | @frame held chunk rest f out _ hchunk hneeds hfit hframe =>
      have hall' : (got ++ chunk) ++ rest = bytes := by rwa [List.append_assoc]
      have hstep := ReaderStep.frame (X := X)
        (m := m.hearing got ⟨.reading held, chunk ++ rest, out⟩)
        rfl (Socket.canTake_append hchunk) hneeds hfit hframe
      rw [hsock, ← ofEar_hears] at hstep
      refine ⟨got ++ chunk, hall', (Reachable.refl _).snoc ⟨⟨.reader hstep, trivial⟩, ?_⟩⟩
      exact hm.hearing hend (s := ⟨(hears X.json f).ear, rest, out⟩) hall'
  | @malformed held chunk rest out _ _ hchunk hneeds hfit hfailed =>
      have hall' : (got ++ chunk) ++ rest = bytes := by rwa [List.append_assoc]
      have hstep := ReaderStep.malformed (X := X)
        (m := m.hearing got ⟨.reading held, chunk ++ rest, out⟩)
        rfl (Socket.canTake_append hchunk) hneeds hfit hfailed
      rw [hsock] at hstep
      refine ⟨got ++ chunk, hall', (Reachable.refl _).snoc ⟨⟨.reader hstep, trivial⟩, ?_⟩⟩
      exact hm.hearing hend (s := ⟨.finished, rest, out⟩) hall'
  | @finish held out _ hneeds =>
      have hstep := ReaderStep.readFail (X := X) (m := m.hearing got ⟨.reading held, [], out⟩)
        rfl ⟨rfl, by rw [State.hearing, hend]; rfl⟩
      refine ⟨got, hall, (Reachable.refl _).snoc ⟨⟨.reader hstep, trivial⟩, ?_⟩⟩
      exact hm.hearing hend (s := ⟨.finished, [], out⟩) hall
  | @hand event rest out =>
      -- the reader emits, and the user takes the event at once
      have hholds := hm.hearing hend (s := ⟨.holding event, rest, out⟩) hall
      have hstep := ReaderStep.emit (X := X) (m := m.hearing got ⟨.holding event, rest, out⟩)
        rfl hholds.listens
      have hemitted : QuietStep X bytes texts (.reader .emit)
          (m.hearing got ⟨.holding event, rest, out⟩) _ :=
        ⟨⟨.reader hstep, trivial⟩, hholds.hub, hm.user, hm.stays, hm.calm, rfl,
          Nat.succ_lt_succ (Nat.succ_pos _)⟩
      have htaken := quietStep_takeEvent (X := X) hemitted.2 rfl
      have hstate : { m.hearing got ⟨.reading [], rest, out⟩ with
          events := ⟨m.events.received ++ out ++ [event], [], true⟩ } =
          m.hearing got ⟨.reading [], rest, out ++ [event]⟩ := by
        rw [List.append_assoc]
        rfl
      refine ⟨got, hall, ((Reachable.refl _).snoc hemitted).snoc (l := .user .takeEvent) ?_⟩
      rw [← hstate]
      exact htaken

/-! ## The main task -/

theorem MainStep.quiet {l : MainLabel} (h : MainStep X l m m') (hl : (Label.main l).Quiet)
    (hm' : m'.Quiet bytes texts) : QuietStep X bytes texts (.main l) m m' :=
  ⟨⟨.main h, hl⟩, hm'⟩

/-- A mock joiner that has announced itself and spawned its tasks. -/
def State.running (m : State) (info : PeerInfo) : State :=
  { m with
    main := .select
    reader := .reading []
    writer := .select
    events := ⟨m.events.received ++ [.peerJoin info], [], true⟩
    peers := Function.update m.peers info.id (some info) }

theorem reachable_running {info : PeerInfo} (hm : m.Quiet bytes texts)
    (hmain : m.main = .register info) (hqueue : m.events.queue = []) :
    Reachable (QuietStep X bytes texts) m (m.running info) := by
  have hregister : QuietStep X bytes texts (.main .register) m
      { m with peers := Function.update m.peers info.id (some info), main := .emitJoin info } :=
    ⟨⟨.main (.register hmain), trivial⟩, hm⟩
  have hjoin := MainStep.emitJoin (X := X)
    (m := { m with
      main := .emitJoin info
      peers := Function.update m.peers info.id (some info) }) rfl
  rw [Mpsc.trySend_of_hasRoom hm.listens, Mpsc.push, hqueue, List.nil_append] at hjoin
  have hemitted : QuietStep X bytes texts (.main .emitJoin) _ _ :=
    ⟨⟨.main hjoin, trivial⟩, hm.hub, hm.user, hm.stays, hm.calm, hm.listens.1,
      Nat.succ_lt_succ (Nat.succ_pos _)⟩
  have htaken := quietStep_takeEvent (X := X) hemitted.2 rfl
  have hreader := MainStep.spawnReader (X := X)
    (m := { m with
      main := .spawnReader
      events := ⟨m.events.received ++ [.peerJoin info], [], true⟩
      peers := Function.update m.peers info.id (some info) }) rfl
  have hwriter := MainStep.spawnWriter (X := X)
    (m := { m with
      main := .spawnWriter
      reader := .reading []
      events := ⟨m.events.received ++ [.peerJoin info], [], true⟩
      peers := Function.update m.peers info.id (some info) }) rfl
  exact (((((Reachable.refl m).snoc hregister).snoc hemitted).snoc htaken).snoc
    (hreader.quiet trivial htaken.2)).snoc (hwriter.quiet trivial htaken.2)

/-- The mock closes when its reader has ended. -/
theorem exists_reachable_closed (hm : m.Quiet bytes texts) (hmain : m.main = .select)
    (hreader : m.reader = .ended) (hwriter : m.writer = .select)
    (hqueue : m.events.queue = []) :
    ∃ m', Reachable (QuietStep X bytes texts) m m' ∧ m'.Over ∧
      m'.sock.written = m.sock.written ∧ m'.events.sent = m.events.sent ++ [.roomClosed] := by
  -- the reader is done, the writer is aborted, the peer goes, the room closes
  have hdone : QuietStep X bytes texts (.main .readerDone) m { m with main := .abortWriter } :=
    ⟨⟨.main (.readerDone hmain hreader), trivial⟩, hm⟩
  have habort := MainStep.abortWriter (X := X) (m := { m with main := .abortWriter }) rfl
  have hcancel := WriterStep.cancel (X := X)
    (m := { m with main := .deregister, writerAborted := true }) rfl (by simp [hwriter])
    (by simp [hwriter])
  have hleave := MainStep.deregister (X := X)
    (m := { m with
      main := .deregister
      writer := .ended
      writerAborted := true
      messages := m.messages.close }) rfl
  have hclose := MainStep.emitClosed (X := X)
    (m := { m with
      main := .emitClosed
      writer := .ended
      writerAborted := true
      messages := m.messages.close
      peers := Function.update m.peers (peerId X m.me.discriminator) none }) rfl
  rw [Mpsc.trySend_of_hasRoom hm.listens] at hclose
  have hclosed : QuietStep X bytes texts (.main .emitClosed) _ _ :=
    ⟨⟨.main hclose, trivial⟩, hm.hub, hm.user, hm.stays, hm.calm, hm.listens.1, by
      rw [Mpsc.push, hqueue]
      exact Nat.succ_lt_succ (Nat.succ_pos _)⟩
  have hquiet : Undisturbed bytes texts m.sock m.messages.close m.sendOpen m.shutdown m.events :=
    ⟨hm.hub, hm.user, hm.stays, hm.calm, hm.listens⟩
  have hreach := ((((Reachable.refl m).snoc hdone).snoc
    (habort.quiet trivial hm)).snoc ⟨⟨.writer hcancel, trivial⟩, hquiet⟩).snoc
    (hleave.quiet trivial hquiet)
  exact ⟨_, hreach.snoc hclosed, .inl ⟨rfl, hreader, rfl⟩, rfl, Mpsc.sent_push ..⟩

/-- **What a mock may emit while its user says nothing, it can.** -/
theorem mockOutcome_of_listens {o : Outcome}
    (h : Listens X me bytes start (wireFormat.heard (hears X.json) bytes.tail) o) :
    MockOutcome X me bytes texts start o := by
  cases h with
  | refused h => exact mockOutcome_of_refuses h
  | @ran joinedAt hadmits hle =>
      obtain ⟨d, rfl⟩ := Nat.exists_eq_add_of_le hle
      obtain ⟨ls, hrun⟩ := exists_run_entered hadmits start
      obtain ⟨hquiet, ms, hms⟩ := reachable_shaken (m := State.init start me) hrun
        (quiet_hubStream bytes texts start me)
      have hentered := reachable_hubStream.run hms
      -- the clock goes on to the time of the announcement
      have htick := Step.tick (X := X) (d := d)
        (m := (State.init start me).shaken (⟨[0], bytes.tail, some .eof, me.script X [],
          (me.script X []).length⟩, .entered))
      have hshaken := MainStep.handshook (X := X)
        (m := { (State.init start me).shaken (⟨[0], bytes.tail, some .eof, me.script X [],
          (me.script X []).length⟩, .entered) with now := start + d }) rfl
      have hregister := (hentered.snoc ⟨⟨htick, trivial⟩, hquiet⟩).snoc
        (hshaken.quiet trivial hquiet)
      obtain ⟨ls', hrunning⟩ := reachable_running (X := X) (m := { State.init start me with
        now := start + d
        main := .register ⟨peerId X me.discriminator, me.name, start + d⟩
        sock := ⟨[0], bytes.tail, some .eof, me.script X [], (me.script X []).length⟩ })
        hquiet rfl rfl
      have hall := hregister.run hrunning
      have hwaits : (Ear.reading [] : Ear ChatEvent).Waits wireFormat := waits_nil
      obtain ⟨got, rest, -, ls'', hheard⟩ := exists_reachable_listen
        (s := ⟨.reading [], bytes.tail, []⟩)
        (fun _ _ _ _ hmove => reachable_listenStep hmove (fits_of_reachable hall).1 rfl)
        hwaits hadmits.zero_tail
      have hdone := hall.run hheard
      obtain ⟨m', ⟨ks, hclosed⟩, hover, hwritten, hsent⟩ :=
        exists_reachable_closed (fits_of_reachable hdone).1 rfl rfl rfl rfl
      have hhanded : Mpsc.sent ⟨joinEvent X me (start + d) ::
          wireFormat.heard (hears X.json) bytes.tail, [], true⟩ = _ := List.append_nil _
      refine ⟨m', hdone.run hclosed, hover, ?_⟩
      rw [State.outcome, hwritten, hsent]
      exact congrArg (fun sent => Outcome.mk (me.script X [])
        ((sent ++ [ChatEvent.roomClosed]).map faceless)) hhanded.symm

end Nullpipe.Mock

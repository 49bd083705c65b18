import Nullpipe.Core.Payload
import Nullpipe.Mock.Step

/-!
# A mock joiner that nothing disturbs

The hub sends its bytes and closes the stream, the user sends texts and stays, and there is
always room on the event channel.  Whatever the order of the steps, the mock emits the
`PeerJoin`, then the chat messages up to the first frame that does not decode, then the
`RoomClosed`.

The invariant is `State.Fits`.  It says for each place of the main task what has been emitted,
and it has to say it of a reader that stands anywhere in the stream.  So the reader is taken as
a listener in the sense of `Lib/Listener.lean`: what it has handed on and what is still ahead of
it are one list, which its steps do not change (`ReaderStep.listens`), and `State.Hears` says
which list this is.

The tasks are treated one by one (`MainStep.fits`, `ReaderStep.fits`, `WriterStep.fits`).  What
the environment does the invariant does not see (`State.Same`): it moves the clock forward,
brings bytes, and takes events that have been sent.

What the user says goes only to the stream, so the events are the same with any texts
(`MockOutcome.events`).  With none, what is written is the handshake (`MockOutcome.listens`).
-/

namespace Nullpipe.Mock

open Channel Framing Transition

variable {X : Crates} {me : Guest} {bytes : List UInt8} {texts : List String} {start : ℕ}
  {m m' : State} {out : List ChatEvent}

/-! ## Outcomes -/

/-- An event without the sender of a message. -/
def faceless : ChatEvent → ChatEvent
  | .message _ name text => .message ⟨""⟩ name text
  | event => event

/-- What a joiner has written and emitted when it has come to its end. -/
structure Outcome where
  written : List UInt8
  events : List ChatEvent

/-- The hub sends these bytes and closes the stream, the user sends a front part of these
texts and stays, and the event queue does not fill. -/
structure Undisturbed (bytes : List UInt8) (texts : List String) (sock : Socket)
    (messages : Mpsc String) (sendOpen shutdown : Bool) (events : Mpsc ChatEvent) : Prop where
  hub : sock.Delivers bytes
  user : messages.sent <+: texts
  stays : sendOpen = true
  calm : shutdown = false
  listens : events.HasRoom eventChanCap

/-- The event with which a joiner announces itself. -/
def joinEvent (X : Crates) (me : Guest) (joinedAt : ℕ) : ChatEvent :=
  .peerJoin ⟨peerId X me.discriminator, me.name, joinedAt⟩

/-- The outcomes of a joiner whose user says nothing and whose reader hands on `heard`. -/
inductive Listens (X : Crates) (me : Guest) (bytes : List UInt8) (start : ℕ)
    (heard : List ChatEvent) : Outcome → Prop
  | refused {e : ChatError} (h : Refuses X me bytes e) :
      Listens X me bytes start heard ⟨me.hello, [.error e]⟩
  | ran {joinedAt : ℕ} (hadmits : Admits X me bytes) (hle : start ≤ joinedAt) :
      Listens X me bytes start heard
        ⟨me.script X [], (joinEvent X me joinedAt :: heard ++ [ChatEvent.roomClosed]).map faceless⟩

/-! ## The quiet runs -/

/-- Neither write nor flush fails, and nothing times out. -/
def Label.Quiet : Label → Prop
  | .main (.handshake l) => l.Quiet
  | .writer .writeFail | .writer .flushFail => False
  | _ => True

/-- The mock joiner is left in peace. -/
def State.Quiet (bytes : List UInt8) (texts : List String) (m : State) : Prop :=
  Undisturbed bytes texts m.sock m.messages m.sendOpen m.shutdown m.events

/-- All its tasks have ended. -/
def State.Over (m : State) : Prop :=
  m.main = .ended ∧ m.reader = .ended ∧ m.writer = .ended ∨ ∃ e, m.main = .failed e

def State.outcome (m : State) : Outcome := ⟨m.sock.written, m.events.sent.map faceless⟩

/-- The steps of a mock joiner that nothing disturbs. -/
def QuietStep (X : Crates) (bytes : List UInt8) (texts : List String) :
    Label → State → State → Prop :=
  Within (Guarded (Step X) fun _ l => l.Quiet) (State.Quiet bytes texts)

/-- What the mock joiner can come to, with a hub that sends these bytes and a user that sends
from these texts. -/
def MockOutcome (X : Crates) (me : Guest) (bytes : List UInt8) (texts : List String) (start : ℕ)
    (out : Outcome) : Prop :=
  ∃ m, Reachable (QuietStep X bytes texts) (State.init start me) m ∧ m.Over ∧ out = m.outcome

/-! ## The reader as a listener -/

/-- What the reader of the mock makes of a frame. -/
def hears (json : SerdeJson) (frame : List UInt8) : Verdict ChatEvent :=
  match decoded json frame with
  | some msg => if msg.kind = .chat then .hand (.message ⟨"[peer]"⟩ msg.name msg.text) else .skip
  | none => .stop

def Reader.ear : Reader → Ear ChatEvent
  | .unspawned => .reading []
  | .reading got => .reading got
  | .emitting event => .holding event
  | .ended => .finished

theorem ear_afterFrame (json : SerdeJson) (frame : List UInt8) :
    (afterFrame json frame).ear = (hears json frame).ear := by
  unfold afterFrame hears decoded
  cases decodeMessage json frame with
  | error e => rfl
  | ok msg =>
      obtain ⟨kind, name, text⟩ := msg
      cases kind <;> rfl

/-- The reader of `m` as a listener that has handed on `out`. -/
def State.listener (bytes : List UInt8) (m : State) (out : List ChatEvent) : Listener ChatEvent :=
  ⟨m.reader.ear, m.sock.unread bytes, out⟩

/-- **A step of the reader is one of the listener.** -/
theorem ReaderStep.listens {l : ReaderLabel} (h : ReaderStep X l m m')
    (hsock : m.sock.Delivers bytes) (hwaits : m.reader.ear.Waits wireFormat)
    (hopen : m.events.isOpen = true) (hspared : m.readerAborted = false) (out : List ChatEvent) :
    ∃ k more, m'.events.sent = m.events.sent ++ more ∧
      ListenStep wireFormat (hears X.json) k (m.listener bytes out)
        (m'.listener bytes (out ++ more)) := by
  have hsilent : ∀ k, m'.events = m.events →
      ListenStep wireFormat (hears X.json) k (m.listener bytes out) (m'.listener bytes out) →
      ∃ k more, m'.events.sent = m.events.sent ++ more ∧
        ListenStep wireFormat (hears X.json) k (m.listener bytes out)
          (m'.listener bytes (out ++ more)) := by
    intro k hevents hstep
    refine ⟨k, [], ?_, ?_⟩
    · rw [hevents, List.append_nil]
    · rw [List.append_nil]
      exact hstep
  -- only the step that emits adds to the events
  cases h with
  | read hphase htake hneeds hfit hmore =>
      apply hsilent _ rfl
      rw [State.listener, hphase, hsock.unread_take htake]
      exact .read htake.1 hneeds hfit hmore
  | frame hphase htake hneeds hfit hframe =>
      apply hsilent _ rfl
      rw [State.listener, State.listener, hphase, hsock.unread_take htake, ear_afterFrame]
      exact .frame htake.1 hneeds hfit hframe
  | malformed hphase htake hneeds hfit hfailed =>
      apply hsilent _ rfl
      rw [State.listener, hphase, hsock.unread_take htake]
      exact .malformed htake.1 hneeds hfit hfailed
  | readFail hphase hend =>
      apply hsilent _ rfl
      rw [hphase] at hwaits
      obtain ⟨k, hneeds⟩ := hwaits
      rw [State.listener, State.listener, hphase, (hsock.unread_of_atEnd hend).2]
      exact .finish hneeds
  | emit hphase =>
      refine ⟨.hand, [_], Mpsc.sent_push .., ?_⟩
      rw [State.listener, hphase]
      exact .hand
  | emitClosed _ hclosed =>
      rw [hopen] at hclosed
      cases hclosed
  | cancel habort =>
      rw [hspared] at habort
      cases habort

/-! ## The invariant -/

theorem Handshake.Fits.congr {k k' : Socket} {p : Handshake} (h : p.Fits X me bytes k)
    (hread : k'.read = k.read) (hwritten : k'.written = k.written) : p.Fits X me bytes k' := by
  cases p with
  | writing part => cases part <;> rwa [Handshake.Fits, hread, hwritten]
  | flushing part => cases part <;> rwa [Handshake.Fits, hread, hwritten]
  | readReply | entered => rwa [Handshake.Fits, hread, hwritten]
  | failed => rwa [Handshake.Fits, hwritten]

/-- Before its reader and writer are there the mock has emitted nothing. -/
structure State.Alone (m : State) : Prop where
  reader : m.reader = .unspawned
  writer : m.writer = .unspawned
  sent : m.events.sent = []

/-- The writer writes nothing. -/
def Writer.Still : Writer → Prop
  | .unspawned | .select | .ended => True
  | _ => False

/-- What is written when the user says nothing. -/
def State.Hushed (X : Crates) (me : Guest) (texts : List String) (m : State) : Prop :=
  texts = [] → m.writer.Still ∧ m.sock.written = me.script X []

/-- The mock has announced itself and handed on `out`; the rest of what its reader makes of
the stream is still ahead. -/
structure State.Hears (X : Crates) (me : Guest) (bytes : List UInt8) (texts : List String)
    (start : ℕ) (out : List ChatEvent) (m : State) : Prop where
  admits : Admits X me bytes
  joined : ∃ joinedAt, start ≤ joinedAt ∧ m.events.sent = joinEvent X me joinedAt :: out
  heard : (m.listener bytes out).total wireFormat (hears X.json) =
    wireFormat.heard (hears X.json) bytes.tail
  waits : m.reader.ear.Waits wireFormat
  hushed : m.Hushed X me texts

/-- What the place of the main task says about the rest. -/
def Main.Fits (X : Crates) (me : Guest) (bytes : List UInt8) (texts : List String) (start : ℕ)
    (m : State) : Main → Prop
  | .shaking p => m.Alone ∧ p.Fits X me bytes m.sock
  | .register info | .emitJoin info =>
    m.Alone ∧ Handshake.entered.Fits X me bytes m.sock ∧
      ∃ joinedAt, start ≤ joinedAt ∧ .peerJoin info = joinEvent X me joinedAt
  | .spawnReader =>
    m.reader = .unspawned ∧ m.writer = .unspawned ∧ m.Hears X me bytes texts start []
  | .spawnWriter => m.writer = .unspawned ∧ ∃ out, m.Hears X me bytes texts start out
  | .select => ∃ out, m.Hears X me bytes texts start out
  | .abortWriter | .deregister | .emitClosed =>
    m.reader = .ended ∧ ∃ out, m.Hears X me bytes texts start out
  | .ended =>
    m.reader = .ended ∧ m.Hushed X me texts ∧ Admits X me bytes ∧
      ∃ joinedAt, start ≤ joinedAt ∧ m.events.sent =
        joinEvent X me joinedAt :: wireFormat.heard (hears X.json) bytes.tail ++ [.roomClosed]
  | .failed e =>
    m.reader = .unspawned ∧ m.writer = .unspawned ∧ Refuses X me bytes e ∧
      m.sock.written = me.hello ∧ m.events.sent = [.error e]

/-- The mock joiner keeps to its script. -/
structure State.Fits (X : Crates) (me : Guest) (bytes : List UInt8) (texts : List String)
    (start : ℕ) (m : State) : Prop where
  guest : m.me = me
  clock : start ≤ m.now
  spared : m.readerAborted = false
  place : m.main.Fits X me bytes texts start m

theorem State.Fits.init (X : Crates) (me : Guest) (bytes : List UInt8) (texts : List String)
    (start : ℕ) : (State.init start me).Fits X me bytes texts start :=
  ⟨rfl, Nat.le_refl _, rfl, ⟨rfl, rfl, rfl⟩, rfl, List.nil_append _⟩

/-! ### The environment -/

/-- The environment leaves alone what the invariant is about. -/
structure State.Same (m m' : State) : Prop where
  guest : m'.me = m.me
  clock : m.now ≤ m'.now
  main : m'.main = m.main
  reader : m'.reader = m.reader
  spared : m'.readerAborted = m.readerAborted
  writer : m'.writer = m.writer
  read : m'.sock.read = m.sock.read
  written : m'.sock.written = m.sock.written
  sent : m'.events.sent = m.events.sent

theorem State.Same.hushed (h : m.Same m') (hs : m.Hushed X me texts) : m'.Hushed X me texts := by
  rwa [State.Hushed, h.writer, h.written]

theorem State.Same.hears (h : m.Same m') (hs : m.Hears X me bytes texts start out) :
    m'.Hears X me bytes texts start out := by
  refine ⟨hs.admits, ?_, ?_, ?_, h.hushed hs.hushed⟩
  · rw [h.sent]
    exact hs.joined
  · rw [State.listener, Socket.unread, h.reader, h.read]
    exact hs.heard
  · rw [h.reader]
    exact hs.waits

theorem State.Same.fits (h : m.Same m') (hs : m.Fits X me bytes texts start) :
    m'.Fits X me bytes texts start := by
  refine ⟨h.guest.trans hs.guest, hs.clock.trans h.clock, h.spared.trans hs.spared, ?_⟩
  have hplace := hs.place
  have halone : m.Alone → m'.Alone := by
    intro halone
    exact ⟨h.reader.trans halone.reader, h.writer.trans halone.writer, h.sent.trans halone.sent⟩
  rw [h.main]
  cases hmain : m.main with
  | shaking p =>
      rw [hmain] at hplace
      exact ⟨halone hplace.1, hplace.2.congr h.read h.written⟩
  | register | emitJoin =>
      rw [hmain] at hplace
      exact ⟨halone hplace.1, hplace.2.1.congr h.read h.written, hplace.2.2⟩
  | spawnReader =>
      rw [hmain] at hplace
      exact ⟨h.reader.trans hplace.1, h.writer.trans hplace.2.1, h.hears hplace.2.2⟩
  | spawnWriter =>
      rw [hmain] at hplace
      obtain ⟨hwriter, out, hears⟩ := hplace
      exact ⟨h.writer.trans hwriter, out, h.hears hears⟩
  | select =>
      rw [hmain] at hplace
      obtain ⟨out, hears⟩ := hplace
      exact ⟨out, h.hears hears⟩
  | abortWriter | deregister | emitClosed =>
      rw [hmain] at hplace
      obtain ⟨hreader, out, hears⟩ := hplace
      exact ⟨h.reader.trans hreader, out, h.hears hears⟩
  | ended =>
      rw [hmain] at hplace
      obtain ⟨hreader, hushed, hadmits, joinedAt, hle, hsent⟩ := hplace
      exact ⟨h.reader.trans hreader, h.hushed hushed, hadmits, joinedAt, hle, h.sent.trans hsent⟩
  | failed e =>
      rw [hmain] at hplace
      obtain ⟨hreader, hwriter, hrefuses, hwritten, hsent⟩ := hplace
      exact ⟨h.reader.trans hreader, h.writer.trans hwriter, hrefuses, h.written.trans hwritten,
        h.sent.trans hsent⟩

/-! ### The main task -/

theorem unread_of_read {k : Socket} {byte : UInt8} (hread : k.read = [byte]) :
    k.unread bytes = bytes.tail := by
  rw [Socket.unread, hread, List.length_singleton, List.drop_one]

/-- The reader has handed on everything when it has ended. -/
theorem State.Hears.eq_heard (h : m.Hears X me bytes texts start out) (hended : m.reader = .ended) :
    out = wireFormat.heard (hears X.json) bytes.tail := by
  have hheard := h.heard
  rw [State.listener, hended, Listener.total] at hheard
  exact (List.append_nil out).symm.trans hheard

/-- **A step of the main task keeps the mock to its script.** -/
theorem MainStep.fits {l : MainLabel} (h : MainStep X l m m') (hl : (Label.main l).Quiet)
    (hm : m.Quiet bytes texts) (hm' : m'.Quiet bytes texts) (hs : m.Fits X me bytes texts start) :
    m'.Fits X me bytes texts start := by
  obtain ⟨hguest, hclock, hspared, hplace⟩ := hs
  cases h with
  | handshake hphase hstep =>
      rw [hphase] at hplace
      rw [hguest] at hstep
      exact ⟨hguest, hclock, hspared, ⟨hplace.1.1, hplace.1.2, hplace.1.3⟩,
        hstep.fits hl hm'.hub hplace.2⟩
  | handshook hphase =>
      rw [hphase] at hplace
      refine ⟨hguest, hclock, hspared, ⟨hplace.1.1, hplace.1.2, hplace.1.3⟩, hplace.2, m.now,
        hclock, ?_⟩
      rw [joinEvent, hguest]
  | register hphase =>
      rw [hphase] at hplace
      exact ⟨hguest, hclock, hspared, ⟨hplace.1.1, hplace.1.2, hplace.1.3⟩, hplace.2⟩
  | @emitJoin _ info hphase =>
      rw [hphase] at hplace
      obtain ⟨halone, hentered, joinedAt, hle, hinfo⟩ := hplace
      -- nothing was emitted before, and there is room
      have hsent : (m.events.trySend eventChanCap (.peerJoin info)).sent =
          [joinEvent X me joinedAt] := by
        rw [Mpsc.trySend_of_hasRoom hm.listens, Mpsc.sent_push, halone.sent, hinfo]
        rfl
      refine ⟨hguest, hclock, hspared, halone.reader, halone.writer,
        admits_of_entered hm.hub hentered, ⟨joinedAt, hle, hsent⟩, ?_, ?_, ?_⟩
      · rw [State.listener, halone.reader, unread_of_read hentered.1]
        rfl
      · rw [halone.reader]
        exact waits_nil
      · intro _
        rw [halone.writer]
        exact ⟨trivial, hentered.2.2⟩
  | spawnReader hphase =>
      rw [hphase] at hplace
      obtain ⟨hreader, hwriter, hears⟩ := hplace
      refine ⟨hguest, hclock, hspared, hwriter, [], hears.admits, hears.joined, ?_, waits_nil,
        hears.hushed⟩
      have hheard := hears.heard
      rw [State.listener, hreader] at hheard
      exact hheard
  | spawnWriter hphase =>
      rw [hphase] at hplace
      obtain ⟨-, out, hears⟩ := hplace
      refine ⟨hguest, hclock, hspared, out, hears.admits, hears.joined, hears.heard,
        hears.waits, ?_⟩
      intro htexts
      exact ⟨trivial, (hears.hushed htexts).2⟩
  | readerDone hphase hended =>
      rw [hphase] at hplace
      obtain ⟨out, hears⟩ := hplace
      exact ⟨hguest, hclock, hspared, hended, out, hears.1, hears.2, hears.3, hears.4, hears.5⟩
  | shutdown hphase hshutdown =>
      rw [hm.calm] at hshutdown
      cases hshutdown
  | abortWriter hphase | deregister hphase =>
      rw [hphase] at hplace
      obtain ⟨hended, out, hears⟩ := hplace
      exact ⟨hguest, hclock, hspared, hended, out, hears.1, hears.2, hears.3, hears.4, hears.5⟩
  | emitClosed hphase =>
      rw [hphase] at hplace
      obtain ⟨hended, out, hears⟩ := hplace
      obtain ⟨joinedAt, hle, hsent⟩ := hears.joined
      refine ⟨hguest, hclock, hspared, hended, hears.hushed, hears.admits, joinedAt, hle, ?_⟩
      dsimp only
      -- the reader has ended, so it has handed on what there was
      rw [Mpsc.trySend_of_hasRoom hm.listens, Mpsc.sent_push, hsent, hears.eq_heard hended]
  | sendError hphase =>
      rw [hphase] at hplace
      obtain ⟨halone, hrefuses, hwritten⟩ := hplace
      refine ⟨hguest, hclock, hspared, halone.reader, halone.writer, hrefuses, hwritten, ?_⟩
      dsimp only
      rw [Mpsc.sent_push, halone.sent, List.nil_append]
  | sendErrorClosed hphase hclosed =>
      rw [hm.listens.1] at hclosed
      cases hclosed

/-! ### The reader -/

theorem ReaderStep.frame_eq {l : ReaderLabel} (h : ReaderStep X l m m') :
    m'.me = m.me ∧ m'.now = m.now ∧ m'.main = m.main ∧ m'.readerAborted = m.readerAborted ∧
      m'.writer = m.writer ∧ m'.sock.written = m.sock.written := by
  cases h <;> exact ⟨rfl, rfl, rfl, rfl, rfl, rfl⟩

/-- The reader takes steps only between its start and its end. -/
theorem ReaderStep.busy {l : ReaderLabel} (h : ReaderStep X l m m') :
    m.reader ≠ .unspawned ∧ m.reader ≠ .ended := by
  cases h with
  | cancel _ hspawned hlive => exact ⟨hspawned, hlive⟩
  | _ hphase =>
      rw [hphase]
      exact ⟨by simp, by simp⟩

/-- **A step of the reader keeps the mock to its script.** -/
theorem ReaderStep.fits {l : ReaderLabel} (h : ReaderStep X l m m') (hm : m.Quiet bytes texts)
    (hs : m.Fits X me bytes texts start) : m'.Fits X me bytes texts start := by
  obtain ⟨hguest, hclock, hspared, hplace⟩ := hs
  obtain ⟨hme, hnow, hmain, haborted, hwriter, hwritten⟩ := h.frame_eq
  obtain ⟨hspawned, hlive⟩ := h.busy
  have hears : ∀ out, m.Hears X me bytes texts start out →
      ∃ out', m'.Hears X me bytes texts start out' := by
    intro out hears
    obtain ⟨k, more, hsent, hstep⟩ := h.listens hm.hub hears.waits hm.listens.1 hspared out
    obtain ⟨joinedAt, hle, hjoined⟩ := hears.joined
    refine ⟨out ++ more, hears.admits, ⟨joinedAt, hle, ?_⟩, hstep.total.trans hears.heard,
      hstep.waits, ?_⟩
    · rw [hsent, hjoined]
      rfl
    · rw [State.Hushed, hwriter, hwritten]
      exact hears.hushed
  refine ⟨hme.trans hguest, by rwa [hnow], haborted.trans hspared, ?_⟩
  rw [hmain]
  -- in the other places of the main task there is no reader that could step
  cases hphase : m.main with
  | spawnWriter =>
      rw [hphase] at hplace
      obtain ⟨hnone, out, hs⟩ := hplace
      exact ⟨hwriter.trans hnone, hears out hs⟩
  | select =>
      rw [hphase] at hplace
      obtain ⟨out, hs⟩ := hplace
      exact hears out hs
  | shaking | register | emitJoin =>
      rw [hphase] at hplace
      exact absurd hplace.1.reader hspawned
  | spawnReader | failed =>
      rw [hphase] at hplace
      exact absurd hplace.1 hspawned
  | abortWriter | deregister | emitClosed | ended =>
      rw [hphase] at hplace
      exact absurd hplace.1 hlive

/-! ### The writer -/

theorem WriterStep.frame_eq {l : WriterLabel} (h : WriterStep X l m m') :
    m'.me = m.me ∧ m'.now = m.now ∧ m'.main = m.main ∧ m'.readerAborted = m.readerAborted ∧
      m'.reader = m.reader ∧ m'.sock.read = m.sock.read ∧ m'.events = m.events := by
  cases h <;> exact ⟨rfl, rfl, rfl, rfl, rfl, rfl, rfl⟩

theorem WriterStep.spawned {l : WriterLabel} (h : WriterStep X l m m') :
    m.writer ≠ .unspawned := by
  cases h with
  | cancel _ hspawned => exact hspawned
  | _ hphase =>
      rw [hphase]
      simp

/-- With a user that says nothing the writer writes nothing. -/
theorem WriterStep.hushed {l : WriterLabel} (h : WriterStep X l m m') (hm : m.Quiet bytes texts)
    (hs : m.Hushed X me texts) : m'.Hushed X me texts := by
  intro htexts
  obtain ⟨hstill, hwritten⟩ := hs htexts
  cases h with
  | shutdown | inputClosed | cancel => exact ⟨trivial, hwritten⟩
  | takeText _ _ hqueue =>
      have hnone := hm.user
      rw [htexts, Mpsc.sent, hqueue] at hnone
      have hlen := hnone.length_le
      simp at hlen
  | write hphase | writeFail hphase | flush hphase | flushFail hphase =>
      rw [hphase] at hstill
      exact absurd hstill id

/-- **A step of the writer keeps the mock to its script.** -/
theorem WriterStep.fits {l : WriterLabel} (h : WriterStep X l m m') (hm : m.Quiet bytes texts)
    (hs : m.Fits X me bytes texts start) : m'.Fits X me bytes texts start := by
  obtain ⟨hguest, hclock, hspared, hplace⟩ := hs
  obtain ⟨hme, hnow, hmain, haborted, hreader, hread, hevents⟩ := h.frame_eq
  have hspawned := h.spawned
  have hears : ∀ out, m.Hears X me bytes texts start out →
      m'.Hears X me bytes texts start out := by
    intro out hears
    refine ⟨hears.admits, ?_, ?_, ?_, h.hushed hm hears.hushed⟩
    · rw [hevents]
      exact hears.joined
    · rw [State.listener, Socket.unread, hreader, hread]
      exact hears.heard
    · rw [hreader]
      exact hears.waits
  refine ⟨hme.trans hguest, by rwa [hnow], haborted.trans hspared, ?_⟩
  rw [hmain]
  -- the writer outlives the reader; before both were spawned it takes no step
  cases hphase : m.main with
  | shaking | register | emitJoin =>
      rw [hphase] at hplace
      exact absurd hplace.1.writer hspawned
  | spawnReader | failed =>
      rw [hphase] at hplace
      exact absurd hplace.2.1 hspawned
  | spawnWriter =>
      rw [hphase] at hplace
      exact absurd hplace.1 hspawned
  | select =>
      rw [hphase] at hplace
      obtain ⟨out, hs⟩ := hplace
      exact ⟨out, hears out hs⟩
  | abortWriter | deregister | emitClosed =>
      rw [hphase] at hplace
      obtain ⟨hended, out, hs⟩ := hplace
      exact ⟨hreader.trans hended, out, hears out hs⟩
  | ended =>
      rw [hphase] at hplace
      obtain ⟨hended, hushed, hadmits, joinedAt, hle, hsent⟩ := hplace
      refine ⟨hreader.trans hended, h.hushed hm hushed, hadmits, joinedAt, hle, ?_⟩
      rw [hevents]
      exact hsent

/-! ### Every run -/

theorem Step.fits {l : Label} (h : Step X l m m') (hl : l.Quiet) (hm : m.Quiet bytes texts)
    (hm' : m'.Quiet bytes texts) (hs : m.Fits X me bytes texts start) :
    m'.Fits X me bytes texts start := by
  cases h with
  | main h => exact h.fits hl hm hm' hs
  | reader h => exact h.fits hm hs
  | writer h => exact h.fits hm hs
  | user h =>
      have hsent : m'.events.sent = m.events.sent := by
        cases h with
        | takeEvent => exact Mpsc.sent_pop _
        | _ => rfl
      have hsame : m.Same m' := by
        cases h <;> exact ⟨rfl, Nat.le_refl _, rfl, rfl, rfl, rfl, rfl, rfl, hsent⟩
      exact hsame.fits hs
  | net | finish =>
      refine State.Same.fits ?_ hs
      exact ⟨rfl, Nat.le_refl _, rfl, rfl, rfl, rfl, rfl, rfl, rfl⟩
  | tick =>
      refine State.Same.fits ?_ hs
      exact ⟨rfl, Nat.le_add_right _ _, rfl, rfl, rfl, rfl, rfl, rfl, rfl⟩

theorem State.Quiet.init (bytes : List UInt8) (texts : List String) (start : ℕ) (me : Guest) :
    (State.init start me).Quiet bytes texts := by
  refine ⟨⟨List.nil_prefix, ?_⟩, List.nil_prefix, rfl, rfl, rfl, Nat.succ_pos _⟩
  intro e hend
  cases hend

theorem fits_of_reachable
    (hreach : Reachable (QuietStep X bytes texts) (State.init start me) m) :
    m.Quiet bytes texts ∧ m.Fits X me bytes texts start := by
  refine hreach.invariant (I := fun m => m.Quiet bytes texts ∧ m.Fits X me bytes texts start)
    ⟨.init .., .init ..⟩ ?_
  rintro l m m' ⟨hm, hs⟩ ⟨⟨hstep, hl⟩, hm'⟩
  exact ⟨hm', hstep.fits hl hm hm' hs⟩

/-- **Whatever its user says**, the mock emits what its reader makes of the stream. -/
theorem MockOutcome.events {o : Outcome} (h : MockOutcome X me bytes texts start o) :
    (∃ e, Refuses X me bytes e ∧ o = ⟨me.hello, [.error e]⟩) ∨
    Admits X me bytes ∧ (texts = [] → o.written = me.script X []) ∧ ∃ joinedAt, start ≤ joinedAt ∧
      o.events = (joinEvent X me joinedAt :: wireFormat.heard (hears X.json) bytes.tail ++
        [ChatEvent.roomClosed]).map faceless := by
  obtain ⟨m, hreach, hover, rfl⟩ := h
  obtain ⟨-, -, -, -, hplace⟩ := fits_of_reachable hreach
  rcases hover with ⟨hmain, -, -⟩ | ⟨e, hmain⟩
  · rw [hmain] at hplace
    obtain ⟨-, hushed, hadmits, joinedAt, hle, hsent⟩ := hplace
    refine .inr ⟨hadmits, fun htexts => (hushed htexts).2, joinedAt, hle, ?_⟩
    rw [State.outcome, hsent]
  · rw [hmain] at hplace
    obtain ⟨-, -, hrefuses, hwritten, hsent⟩ := hplace
    refine .inl ⟨e, hrefuses, ?_⟩
    rw [State.outcome, hwritten, hsent]
    rfl

/-- **A mock whose user says nothing listens.** -/
theorem MockOutcome.listens {o : Outcome} (h : MockOutcome X me bytes [] start o) :
    Listens X me bytes start (wireFormat.heard (hears X.json) bytes.tail) o := by
  obtain ⟨written, events⟩ := o
  rcases h.events with ⟨e, hrefuses, heq⟩ | ⟨hadmits, hwritten, joinedAt, hle, hevents⟩
  · rw [heq]
    exact .refused hrefuses
  · cases hwritten rfl
    cases hevents
    exact .ran hadmits hle

end Nullpipe.Mock

import Nullpipe.Mock.Quiet
import Nullpipe.Joiner.Listening

/-!
# A joiner that nothing disturbs

`Mock/Quiet.lean` for `joiner_task` itself, from `Joiner::handshake` on, as long as its user
says nothing or the hub does not let it in: the `PeerJoin`, then every message of the stream
that decodes, whatever its kind, then the `RoomClosed` (`Joiner.Fits`).

In the handshake the joiner is the machine of `Mock/Handshake.lean`, so its part of the invariant
is `Handshake.Fits` and the steps are those proved there (`JoinMainStep.fits_handshake`).  In
the room it is a main task and a reader (`JoinMainStep.fits_room`, `JoinReaderStep.fits`).  The
joiner looks at its reader when its `select!` does, and it emits what is left in its queue of
texts before it closes; with a user that says nothing that queue is empty.

A read deadline may pass in every state.  The runs here are those in which it does not
(`JoinerLabel.Peaceful`), as for the mock, which has none.
-/

namespace Nullpipe

open Channel Framing Transition Mock

variable {X : Crates} {checks : Bool} {me : Guest} {bytes : List UInt8} {texts : List String}
  {start : ℕ} {j j' : Joiner} {out : List ChatEvent} {config : JoinConfig}

/-! ## The quiet runs -/

/-- Neither write nor flush fails, and nothing times out. -/
def JoinerLabel.Peaceful : JoinerLabel → Prop
  | .main (.writeFail _) | .main .writeTimeout | .main (.flushFail _) | .main .flushTimeout
  | .main .replyTimeout | .reader .readTimeout => False
  | _ => True

/-- The joiner is left in peace. -/
def Joiner.Peaceful (bytes : List UInt8) (texts : List String) (j : Joiner) : Prop :=
  Undisturbed bytes texts j.sock j.messages j.sendOpen j.shutdown j.events

/-- The steps of a joiner that nothing disturbs. -/
def PeacefulStep (X : Crates) (checks : Bool) (bytes : List UInt8) (texts : List String) :
    JoinerLabel → Joiner → Joiner → Prop :=
  Within (Guarded (JoinerStep X checks) fun _ l => l.Peaceful) (Joiner.Peaceful bytes texts)

/-- A joiner with a fresh stream, as `Joiner::handshake` finds it. -/
def Joiner.dialed (start : ℕ) (config : JoinConfig) (me : Guest) : Joiner :=
  atHandshake me (Joiner.init start config) (.fresh, .start me start)

def Joiner.outcome (j : Joiner) : Mock.Outcome := ⟨j.sock.written, j.events.sent.map faceless⟩

/-- What the joiner can come to, with a hub that sends these bytes and a user that sends from
these texts. -/
def JoinerOutcome (X : Crates) (checks : Bool) (config : JoinConfig) (me : Guest)
    (bytes : List UInt8) (texts : List String) (start : ℕ) (o : Mock.Outcome) : Prop :=
  ∃ j, Reachable (PeacefulStep X checks bytes texts) (.dialed start config me) j ∧
    j.main.Done ∧ o = j.outcome

/-! ## The invariant -/

/-- Before its reader is there the joiner has emitted nothing. -/
structure Joiner.Alone (j : Joiner) : Prop where
  reader : j.reader = .unspawned
  undone : j.readerDone = false
  spared : j.readerAborted = false
  pending : j.pending = []
  sent : j.events.sent = []

/-- The joiner has announced itself and handed on `out`; the rest of what its reader makes of
the stream is still ahead. -/
structure Joiner.Hears (X : Crates) (me : Guest) (bytes : List UInt8) (start : ℕ)
    (out : List ChatEvent) (j : Joiner) : Prop where
  admits : Admits X me bytes
  written : j.sock.written = me.script X []
  pending : j.pending = []
  joined : ∃ joinedAt, start ≤ joinedAt ∧ j.events.sent = joinEvent X me joinedAt :: out
  heard : Listener.total wireFormat (incoming X) ⟨j.reader.ear, j.sock.unread bytes, out⟩ =
    wireFormat.heard (incoming X) bytes.tail
  waits : j.reader.ear.Waits wireFormat

/-- What the place of the main task says about the rest, behind the handshake. -/
def JoinMain.Fits (X : Crates) (me : Guest) (bytes : List UInt8) (start : ℕ) (j : Joiner) :
    JoinMain → Prop
  | .spawnReader who =>
    who = me ∧ j.reader = .unspawned ∧ j.readerDone = false ∧ j.readerAborted = false ∧
      j.Hears X me bytes start []
  | .select who =>
    who = me ∧ j.readerAborted = false ∧ (j.readerDone = true → j.reader = .ended) ∧
      ∃ out, j.Hears X me bytes start out
  | .drain _ | .flushPending | .abortReader none | .awaitReader none | .emitClosed =>
    j.reader = .ended ∧ ∃ out, j.Hears X me bytes start out
  | .ended =>
    j.reader = .ended ∧ Admits X me bytes ∧ j.sock.written = me.script X [] ∧
      ∃ joinedAt, start ≤ joinedAt ∧ j.events.sent =
        joinEvent X me joinedAt :: wireFormat.heard (incoming X) bytes.tail ++ [.roomClosed]
  | .failed e =>
    j.reader = .unspawned ∧ Refuses X me bytes e ∧ j.sock.written = me.hello ∧
      j.events.sent = [.error e]
  | _ => False

/-- The joiner keeps to its script. -/
structure Joiner.Fits (X : Crates) (me : Guest) (bytes : List UInt8) (start : ℕ) (j : Joiner) :
    Prop where
  clock : start ≤ j.now
  place : (∃ p : Mock.Handshake, j.main = p.main me ∧ p.Fits X me bytes j.sock ∧ j.Alone) ∨
    j.main.Fits X me bytes start j

theorem Joiner.Fits.dialed (X : Crates) (me : Guest) (bytes : List UInt8) (start : ℕ)
    (config : JoinConfig) : (Joiner.dialed start config me).Fits X me bytes start := by
  refine ⟨Nat.le_refl _, .inl ⟨.start me start, rfl, ⟨rfl, ?_⟩, rfl, rfl, rfl, rfl, rfl⟩⟩
  exact List.nil_append _

/-! ### The main task -/

/-- The reader has handed on everything when it has ended. -/
theorem Joiner.Hears.eq_heard (h : j.Hears X me bytes start out) (hended : j.reader = .ended) :
    out = wireFormat.heard (incoming X) bytes.tail := by
  have hheard := h.heard
  rw [hended, Listener.total] at hheard
  exact (List.append_nil out).symm.trans hheard

/-- The user has nothing to say in the room. -/
theorem Joiner.Peaceful.queue_nil (h : j.Peaceful bytes []) : j.messages.queue = [] := by
  have hnone := List.prefix_nil.mp h.user
  exact (List.append_eq_nil_iff.mp hnone).2

/-- **A step out of the handshake.** -/
theorem JoinMainStep.fits_handshake {l : JoinMainLabel} {p : Mock.Handshake}
    (h : JoinMainStep X checks l j j') (hl : (JoinerLabel.main l).Peaceful)
    (hj : j.Peaceful bytes texts) (hj' : j'.Peaceful bytes texts) (hclock : start ≤ j.now)
    (hmain : j.main = p.main me) (hfits : p.Fits X me bytes j.sock) (halone : j.Alone) :
    j'.Fits X me bytes start := by
  -- the handshake is over, well or not, or it goes on
  by_cases hentered : p = .entered
  · subst hentered
    cases h with
    | emitJoin hphase =>
        rw [hmain] at hphase
        cases hphase
        refine ⟨hclock, .inr ⟨rfl, halone.reader, halone.undone, halone.spared,
          admits_of_entered hj.hub hfits, hfits.2.2, halone.pending, ⟨j.now, hclock, ?_⟩, ?_, ?_⟩⟩
        · dsimp only
          rw [Mpsc.trySend_of_hasRoom hj.listens, Mpsc.sent_push, halone.sent]
          rfl
        · rw [halone.reader, unread_of_read hfits.1]
          rfl
        · rw [halone.reader]
          exact waits_nil
    | _ hphase =>
        rw [hmain] at hphase
        cases hphase
  by_cases hfailed : ∃ e, p = .failed e
  · obtain ⟨e, rfl⟩ := hfailed
    cases h with
    | sendError hphase =>
        rw [hmain] at hphase
        cases hphase
        refine ⟨hclock, .inr ⟨halone.reader, hfits.1, hfits.2, ?_⟩⟩
        dsimp only
        rw [Mpsc.sent_push, halone.sent, List.nil_append]
    | sendErrorClosed _ hclosed =>
        rw [hj.listens.1] at hclosed
        cases hclosed
    | _ hphase =>
        rw [hmain] at hphase
        cases hphase
  · obtain ⟨l', t, rfl, hstep, rfl⟩ :=
      handshakeStep_of_main h hmain hentered fun e he => hfailed ⟨e, he⟩
    have hquiet : l'.Quiet := by
      cases l' with
      | write | flush | reply | replyFail => trivial
      | _ => exact hl
    exact ⟨hclock, .inl ⟨t.2, rfl, hstep.fits hquiet hj'.hub hfits,
      ⟨halone.1, halone.2, halone.3, halone.4, halone.5⟩⟩⟩

/-- **A step in the room.** -/
theorem JoinMainStep.fits_room {l : JoinMainLabel} (h : JoinMainStep X checks l j j')
    (hj : j.Peaceful bytes texts) (hsilent : Admits X me bytes → texts = [])
    (hclock : start ≤ j.now) (hplace : j.main.Fits X me bytes start j) :
    j'.Fits X me bytes start := by
  have hnone : Admits X me bytes → j.messages.queue = [] := by
    intro hadmits
    cases hsilent hadmits
    exact hj.queue_nil
  cases h with
  | spawnReader hphase =>
      rw [hphase] at hplace
      obtain ⟨rfl, hreader, hundone, hspared, hs⟩ := hplace
      refine ⟨hclock, .inr ⟨rfl, hspared, ?_, [], hs.admits, hs.written, hs.pending, hs.joined, ?_,
        waits_nil⟩⟩
      · intro hdone
        -- the reader is only being spawned
        rw [hundone] at hdone
        cases hdone
      · have hheard := hs.heard
        rw [hreader] at hheard
        exact hheard
  | shutdown _ hshutdown =>
      rw [hj.calm] at hshutdown
      cases hshutdown
  | readerDone hphase _ hdone =>
      rw [hphase] at hplace
      obtain ⟨rfl, -, hended, out, hs⟩ := hplace
      exact ⟨hclock, .inr ⟨hended hdone, out, hs.1, hs.2, hs.3, hs.4, hs.5, hs.6⟩⟩
  | takeText hphase _ _ hqueue =>
      rw [hphase] at hplace
      obtain ⟨-, -, -, out, hs⟩ := hplace
      -- a joiner that was let in has a user who says nothing
      rw [hnone hs.admits] at hqueue
      cases hqueue
  | inputClosed _ _ _ _ hclosed =>
      rw [hj.stays] at hclosed
      cases hclosed
  | eventsClosed _ _ _ _ _ hclosed =>
      rw [hj.listens.1] at hclosed
      cases hclosed
  | drainText hphase hqueue =>
      rw [hphase] at hplace
      obtain ⟨-, out, hs⟩ := hplace
      rw [hnone hs.admits] at hqueue
      cases hqueue
  | drained hphase =>
      rw [hphase] at hplace
      obtain ⟨hended, out, hs⟩ := hplace
      exact ⟨hclock, .inr ⟨hended, out, hs.1, hs.2, hs.3, hs.4, hs.5, hs.6⟩⟩
  | flushEvent hphase hpending =>
      rw [hphase] at hplace
      obtain ⟨-, out, hs⟩ := hplace
      -- there was always room for an event, so none was put aside
      rw [hs.pending] at hpending
      simp at hpending
  | flushed hphase =>
      rw [hphase] at hplace
      obtain ⟨hended, out, hs⟩ := hplace
      exact ⟨hclock, .inr ⟨hended, out, hs.1, hs.2, rfl, hs.4, hs.5, hs.6⟩⟩
  | @abortReader _ result hphase =>
      rw [hphase] at hplace
      cases result with
      | some e => exact hplace.elim
      | none =>
          obtain ⟨hended, out, hs⟩ := hplace
          exact ⟨hclock, .inr ⟨hended, out, hs.1, hs.2, hs.3, hs.4, hs.5, hs.6⟩⟩
  | @awaitReader _ result hphase =>
      rw [hphase] at hplace
      cases result with
      | some e => exact hplace.elim
      | none =>
          obtain ⟨hended, out, hs⟩ := hplace
          exact ⟨hclock, .inr ⟨hended, out, hs.1, hs.2, hs.3, hs.4, hs.5, hs.6⟩⟩
  | emitClosed hphase =>
      rw [hphase] at hplace
      obtain ⟨hended, out, hs⟩ := hplace
      obtain ⟨joinedAt, hle, hsent⟩ := hs.joined
      refine ⟨hclock, .inr ⟨hended, hs.admits, hs.written, joinedAt, hle, ?_⟩⟩
      dsimp only
      -- all that was ahead of the reader has been handed on when it has ended
      rw [Mpsc.trySend_of_hasRoom hj.listens, Mpsc.sent_push, hsent, hs.eq_heard hended]
  | _ hphase =>
      rw [hphase] at hplace
      exact hplace.elim

/-! ### The reader -/

/-- What a reader has not read is what is here and what still comes. -/
theorem unread_eq {k : Socket} (hk : k.Delivers bytes) :
    k.inbox ++ bytes.drop k.arrived.length = k.unread bytes := by
  obtain ⟨more, hmore⟩ := hk.arrived
  rw [← hmore, List.drop_left, Socket.unread, Socket.arrived, List.append_assoc, List.drop_left]

/-- **A step of the reader keeps the joiner to its script.** -/
theorem JoinReaderStep.fits {l : JoinReaderLabel} (h : JoinReaderStep X l j j')
    (hl : (JoinerLabel.reader l).Peaceful) (hj : j.Peaceful bytes texts)
    (hs : j.Fits X me bytes start) : j'.Fits X me bytes start := by
  obtain ⟨hclock, hplace⟩ := hs
  obtain ⟨hspawned, hlive⟩ := h.busy
  obtain ⟨hmain, hwritten, hpending⟩ := h.frame
  rcases hplace with ⟨p, -, -, halone⟩ | hplace
  · exact absurd halone.reader hspawned
  cases hphase : j.main with
  | select who =>
      rw [hphase] at hplace
      obtain ⟨rfl, hspared, hended, out, hs⟩ := hplace
      have htimeout : l ≠ .readTimeout := by
        rintro rfl
        exact hl
      have hcancel : l ≠ .cancel := by
        rintro rfl
        cases h with
        | cancel habort =>
            rw [hspared] at habort
            cases habort
      have hlater : j.sock.readEnd.isSome → bytes.drop j.sock.arrived.length = [] := by
        intro hend
        obtain ⟨e, he⟩ := Option.isSome_iff_exists.mp hend
        rw [(hj.hub.ended e he).2, List.drop_length]
      -- what the step moves from the stream to the event channel
      have htotal : j'.heardOf X (out ++ l.hands j.reader) (bytes.drop j.sock.arrived.length) = _ :=
        h.total hs.waits htimeout hcancel hlater
      have hsent := h.sent
      rw [JoinerLabel.emits, if_pos hj.listens.1] at hsent
      have hrest : j'.now = j.now ∧ j'.readerAborted = j.readerAborted ∧
          (j'.readerDone = true → j.readerDone = true ∨ j'.reader = .ended) ∧
          j'.sock.arrived = j.sock.arrived ∧ j'.sock.readEnd = j.sock.readEnd ∧
          j'.reader.ear.Waits wireFormat := by
        cases h with
        | read _ htake _ _ hmore =>
            exact ⟨rfl, rfl, .inl, Socket.arrived_take htake, rfl, _, hmore⟩
        | message _ htake | malformed _ htake =>
            exact ⟨rfl, rfl, .inl, Socket.arrived_take htake, rfl, trivial⟩
        | skip _ htake => exact ⟨rfl, rfl, .inl, Socket.arrived_take htake, rfl, waits_nil⟩
        | start | emit | emitClosed => exact ⟨rfl, rfl, .inl, rfl, rfl, waits_nil⟩
        | readFail | cancel => exact ⟨rfl, rfl, .inl, rfl, rfl, trivial⟩
        | done => exact ⟨rfl, rfl, fun _ => .inr rfl, rfl, rfl, trivial⟩
        | readTimeout => exact absurd rfl htimeout
      obtain ⟨hnow, haborted, hdone, harrived, hend, hwaits⟩ := hrest
      rw [Joiner.heardOf, Joiner.heardOf, ← harrived, unread_eq (hj.hub.congr harrived hend),
        harrived, unread_eq hj.hub] at htotal
      obtain ⟨joinedAt, hle, hjoined⟩ := hs.joined
      refine ⟨by rwa [hnow], .inr ?_⟩
      rw [hmain, hphase]
      refine ⟨rfl, haborted.trans hspared, ?_, out ++ l.hands j.reader, hs.admits,
        hwritten.trans hs.written, hpending.trans hs.pending, ⟨joinedAt, hle, ?_⟩,
        htotal.trans hs.heard, hwaits⟩
      · intro hnew
        rcases hdone hnew with hold | hnow
        · exact absurd (hended hold) hlive
        · exact hnow
      · rw [hsent, hjoined]
        rfl
  | spawnReader =>
      rw [hphase] at hplace
      exact absurd hplace.2.1 hspawned
  | failed =>
      rw [hphase] at hplace
      exact absurd hplace.1 hspawned
  | drain | flushPending | emitClosed | ended =>
      rw [hphase] at hplace
      exact absurd hplace.1 hlive
  | abortReader result | awaitReader result =>
      rw [hphase] at hplace
      cases result with
      | some e => exact hplace.elim
      | none => exact absurd hplace.1 hlive
  | _ =>
      rw [hphase] at hplace
      exact hplace.elim

/-! ### The environment -/

/-- The environment leaves alone what the invariant is about. -/
structure Joiner.Same (j j' : Joiner) : Prop where
  clock : j.now ≤ j'.now
  main : j'.main = j.main
  reader : j'.reader = j.reader
  undone : j'.readerDone = j.readerDone
  spared : j'.readerAborted = j.readerAborted
  pending : j'.pending = j.pending
  read : j'.sock.read = j.sock.read
  written : j'.sock.written = j.sock.written
  sent : j'.events.sent = j.events.sent

theorem Joiner.Same.hears (h : j.Same j') (hs : j.Hears X me bytes start out) :
    j'.Hears X me bytes start out := by
  refine ⟨hs.admits, h.written.trans hs.written, h.pending.trans hs.pending, ?_, ?_, ?_⟩
  · rw [h.sent]
    exact hs.joined
  · rw [Socket.unread, h.reader, h.read]
    exact hs.heard
  · rw [h.reader]
    exact hs.waits

theorem Joiner.Same.fits (h : j.Same j') (hs : j.Fits X me bytes start) :
    j'.Fits X me bytes start := by
  obtain ⟨hclock, hplace⟩ := hs
  refine ⟨hclock.trans h.clock, ?_⟩
  rw [h.main]
  rcases hplace with ⟨p, hmain, hfits, halone⟩ | hplace
  · exact .inl ⟨p, hmain, hfits.congr h.read h.written, h.reader.trans halone.reader,
      h.undone.trans halone.undone, h.spared.trans halone.spared, h.pending.trans halone.pending,
      h.sent.trans halone.sent⟩
  right
  cases hphase : j.main with
  | spawnReader =>
      rw [hphase] at hplace
      obtain ⟨hwho, hreader, hundone, hspared, hs⟩ := hplace
      exact ⟨hwho, h.reader.trans hreader, h.undone.trans hundone, h.spared.trans hspared,
        h.hears hs⟩
  | select =>
      rw [hphase] at hplace
      obtain ⟨hwho, hspared, hended, out, hs⟩ := hplace
      refine ⟨hwho, h.spared.trans hspared, ?_, out, h.hears hs⟩
      rw [h.undone, h.reader]
      exact hended
  | drain | flushPending | emitClosed =>
      rw [hphase] at hplace
      obtain ⟨hended, out, hs⟩ := hplace
      exact ⟨h.reader.trans hended, out, h.hears hs⟩
  | abortReader result | awaitReader result =>
      rw [hphase] at hplace
      cases result with
      | some e => exact hplace.elim
      | none =>
          obtain ⟨hended, out, hs⟩ := hplace
          exact ⟨h.reader.trans hended, out, h.hears hs⟩
  | ended =>
      rw [hphase] at hplace
      obtain ⟨hended, hadmits, hwritten, joinedAt, hle, hsent⟩ := hplace
      exact ⟨h.reader.trans hended, hadmits, h.written.trans hwritten, joinedAt, hle,
        h.sent.trans hsent⟩
  | failed =>
      rw [hphase] at hplace
      obtain ⟨hreader, hrefuses, hwritten, hsent⟩ := hplace
      exact ⟨h.reader.trans hreader, hrefuses, h.written.trans hwritten, h.sent.trans hsent⟩
  | _ =>
      rw [hphase] at hplace
      exact hplace.elim

/-! ### Every run -/

theorem JoinerStep.fits {l : JoinerLabel} (h : JoinerStep X checks l j j') (hl : l.Peaceful)
    (hj : j.Peaceful bytes texts) (hj' : j'.Peaceful bytes texts)
    (hsilent : Admits X me bytes → texts = []) (hs : j.Fits X me bytes start) :
    j'.Fits X me bytes start := by
  cases h with
  | main h =>
      rcases hs.place with ⟨p, hmain, hfits, halone⟩ | hplace
      · exact h.fits_handshake hl hj hj' hs.clock hmain hfits halone
      · exact h.fits_room hj hsilent hs.clock hplace
  | reader h => exact h.fits hl hj hs
  | user h =>
      have hsent : j'.events.sent = j.events.sent := by
        cases h with
        | takeEvent => exact Mpsc.sent_pop _
        | _ => rfl
      have hsame : j.Same j' := by
        cases h <;> exact ⟨Nat.le_refl _, rfl, rfl, rfl, rfl, rfl, rfl, rfl, hsent⟩
      exact hsame.fits hs
  | net | finish =>
      refine Joiner.Same.fits ?_ hs
      exact ⟨Nat.le_refl _, rfl, rfl, rfl, rfl, rfl, rfl, rfl, rfl⟩
  | tick =>
      refine Joiner.Same.fits ?_ hs
      exact ⟨Nat.le_add_right _ _, rfl, rfl, rfl, rfl, rfl, rfl, rfl, rfl⟩

theorem Joiner.Peaceful.dialed (bytes : List UInt8) (texts : List String) (start : ℕ)
    (config : JoinConfig) (me : Guest) : (Joiner.dialed start config me).Peaceful bytes texts := by
  refine ⟨⟨List.nil_prefix, ?_⟩, List.nil_prefix, rfl, rfl, rfl, Nat.succ_pos _⟩
  intro e hend
  cases hend

theorem Joiner.fits_of_reachable
    (hreach : Reachable (PeacefulStep X checks bytes texts) (.dialed start config me) j)
    (hsilent : Admits X me bytes → texts = []) :
    j.Peaceful bytes texts ∧ j.Fits X me bytes start := by
  refine hreach.invariant (I := fun j => j.Peaceful bytes texts ∧ j.Fits X me bytes start)
    ⟨.dialed .., .dialed ..⟩ ?_
  rintro l j j' ⟨hj, hs⟩ ⟨⟨hstep, hl⟩, hj'⟩
  exact ⟨hj', hstep.fits hl hj hj' hsilent hs⟩

/-- **A joiner whose user says nothing listens**, and so does one that is refused. -/
theorem JoinerOutcome.listens {o : Mock.Outcome}
    (h : JoinerOutcome X checks config me bytes texts start o)
    (hsilent : Admits X me bytes → texts = []) :
    Listens X me bytes start (wireFormat.heard (incoming X) bytes.tail) o := by
  obtain ⟨j, hreach, hdone, rfl⟩ := h
  obtain ⟨-, -, hplace⟩ := Joiner.fits_of_reachable hreach hsilent
  rcases hplace with ⟨p, hmain, -, -⟩ | hplace
  · rw [hmain] at hdone
    cases p <;> cases hdone
  cases hphase : j.main with
  | ended =>
      rw [hphase] at hplace
      obtain ⟨-, hadmits, hwritten, joinedAt, hle, hsent⟩ := hplace
      rw [Joiner.outcome, hwritten, hsent]
      exact .ran hadmits hle
  | failed =>
      rw [hphase] at hplace
      obtain ⟨-, hrefuses, hwritten, hsent⟩ := hplace
      rw [Joiner.outcome, hwritten, hsent]
      exact .refused hrefuses
  | _ =>
      rw [hphase] at hdone
      cases hdone

end Nullpipe

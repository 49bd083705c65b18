import Nullpipe.Room.Handshake

/-!
# What a stream holds back

A stream may hold back what was written to it until it is flushed, and it drops that with
itself.  A handler flushes the accept byte and a writer every frame, but the reject byte
and the join notice are not flushed.  `ConnStep.unstranded_iff` says for every step of a
connection whether bytes are left behind: at the end of the stream or while a task that
writes waits for what comes next (`Conn.Unstranded`).

The invariant is `Conn.Pushed`: how many bytes were flushed, by the phase of the handler.

* Up to its reply a handler has flushed nothing.
* Behind the flush of the accept byte one byte was flushed, and more only by the writer.

Together with coherence it leaves two places in which bytes can be left behind
(`Conn.unstranded_iff`): at the end of a failed handshake, where the reply was written and
not flushed, and where the writer waits for a message, with a join notice or a frame in the
buffer.  The three steps that lead there are those that `Room.Flushes` excludes: the write of
a reject byte, a flush that fails, and the start of a writer behind a join notice.

`Step.unstranded_iff` takes that to the whole room, and `roomRun_unstranded_iff` to every run,
by the library's rule for runs all of whose steps meet a condition.
-/

namespace Nullpipe

open Channel Framing Room Transition

variable {X : Crates} {cfg : HostConfig} {s t : Room} {c : ConnId} {k : Conn}

/-! ## Bytes that are left behind -/

/-- The handler has sent its reply, and reads on or has dropped the stream. -/
def Handler.Replied : Handler → Prop
  | .idle | .spawned | .readHandshake .. | .lockNonces .. | .rejectReused _ | .writeAccept ..
  | .flushAccept .. => False
  | _ => True

/-- The handler, which has the whole stream, waits for bytes of its client. -/
def Handler.Reads : Handler → Prop
  | .readHandshake .. | .readName .. => True
  | _ => False

/-- No byte of a connection is left behind.  The reply is the first byte of the stream. -/
structure Conn.Unstranded (k : Conn) : Prop where
  reply : k.handler.Replied → k.sock.written ≠ [] → 0 < k.sock.flushed
  handler : k.handler.Reads → k.sock.buffered = []
  writer : k.writer = .recv → k.sock.buffered = []

def Room.Unstranded (s : Room) : Prop := ∀ c, (s.conns c).Unstranded

/-- The step leaves no byte behind: it writes no reject byte, no flush of buffered bytes
fails, and no writer starts behind a join notice. -/
def Room.Flushes (s : Room) : Label → Prop
  | .handler c (.write _) => ∀ rest, (s.conns c).handler ≠ .rejectReused rest
  | .handler _ (.flushFail _) | .handler _ .flushTimeout => False
  | .handler c .subscribe => (s.conns c).sock.written.length = 1
  | .writer c .flushFail => (s.conns c).sock.buffered = []
  | _ => True

/-! ## How much was flushed -/

/-- How many bytes were flushed while the handler was in this phase; a reply that is being
written is still to be written. -/
def Handler.Pushed (flushed : ℕ) : Handler → Prop
  | .idle | .spawned | .readHandshake .. | .lockNonces .. | .flushAccept .. => flushed = 0
  | .rejectReused rest | .writeAccept _ rest _ => flushed = 0 ∧ rest ≠ []
  | .readName .. | .register _ | .emitJoin _ | .notifyJoin .. | .spawnReader _ | .subscribe _ =>
    flushed = 1
  | .serve _ | .abortWriter _ | .deregister _ | .emitLeave _ | .ended _ => 1 ≤ flushed
  | .failed _ => True

def Conn.Pushed (k : Conn) : Prop := k.handler.Pushed k.sock.flushed

theorem pushed_handshakeRead (buf : List UInt8) (deadline : ℕ) :
    (handshakeRead buf deadline).Pushed 0 :=
  handshakeRead_cases (P := fun h => h.Pushed 0) (fun _ _ => rfl) (fun _ _ => rfl) ..

theorem pushed_nameRead (json : SerdeJson) (id : PeerId) (got : List UInt8) (deadline now : ℕ) :
    (nameRead json id got deadline now).Pushed 1 :=
  nameRead_cases (P := fun h => h.Pushed 1) (fun _ _ _ => rfl) (fun _ => trivial) (fun _ => rfl) ..

theorem pushed_afterEmitJoin (json : SerdeJson) (info : PeerInfo) :
    (afterEmitJoin json info).Pushed 1 :=
  afterEmitJoin_cases (P := fun h => h.Pushed 1) (fun _ => rfl) rfl json

theorem HandlerStep.pushed {l : HandlerLabel} (h : HandlerStep X c l s t)
    (hfits : (s.conns c).handler.Fits X (s.conns c).sock.read (s.conns c).sock.written)
    (hs : (s.conns c).Pushed) : (t.conns c).Pushed := by
  unfold Conn.Pushed at hs ⊢
  cases h with
  | start hphase | insertNonce hphase | refuseNonce hphase | register hphase | noticeFail hphase
  | spawnReader hphase | abortWriter hphase | deregister hphase | emitLeave hphase =>
      rw [hphase] at hs
      simp only [conns_setConn_self]
      first
        | exact hs
        | exact ⟨hs, nofun⟩
  | readHandshake hphase =>
      rw [hphase] at hs
      simp only [conns_setConn_self, Socket.flushed_take, show _ = 0 from hs]
      exact pushed_handshakeRead ..
  | readName hphase =>
      rw [hphase] at hs
      simp only [conns_setConn_self, Socket.flushed_take, show _ = 1 from hs]
      exact pushed_nameRead ..
  | emitJoin hphase =>
      rw [hphase] at hs
      simp only [conns_setConn_self, show _ = 1 from hs]
      exact pushed_afterEmitJoin ..
  | handshakeReadFail | handshakeReadTimeout | rejectFail | acceptFail | acceptTimeout | flushFail
  | flushTimeout | nameReadFail | nameReadTimeout =>
      simp only [conns_setConn_self]
      trivial
  | writeReject hphase =>
      rw [hphase] at hs
      simp only [conns_setConn_self, Socket.flushed_write]
      split
      · trivial
      · rename_i hrest
        exact ⟨hs.1, hrest⟩
  | writeAccept hphase =>
      rw [hphase] at hs
      simp only [conns_setConn_self, Socket.flushed_write]
      split
      · exact hs.1
      · rename_i hrest
        exact ⟨hs.1, hrest⟩
  | flushAccept hphase =>
      rw [hphase] at hfits
      simp only [conns_setConn_self, Socket.flushed_flush, hfits.2]
      rfl
  | writeNotice hphase =>
      rw [hphase] at hs
      simp only [conns_setConn_self, Socket.flushed_write]
      split <;> exact hs
  | subscribe hphase | readerDone hphase | shutdown hphase =>
      rw [hphase] at hs
      simp only [conns_setConn_self]
      first
        | exact hs
        | exact Nat.le_of_eq (Eq.symm hs)

/-- Behind the start of its writer a stream has flushed at least the accept byte. -/
theorem Handler.pushed_iff {h : Handler} {reader : Reader} {writer : Writer}
    (hspawned : h.Spawned reader writer) (hwriter : writer ≠ .unspawned) (flushed : ℕ) :
    h.Pushed flushed ↔ 1 ≤ flushed := by
  cases h with
  | serve | abortWriter | deregister | emitLeave | ended => rfl
  | _ => exact absurd hspawned.2 hwriter

/-- Where the writer runs, something was written. -/
theorem Conn.Coherent.written_ne_nil (h : k.Coherent X) (hwriter : k.writer ≠ .unspawned) :
    k.sock.written ≠ [] := by
  obtain ⟨hfits, hspawned, -⟩ := h
  have hhead : k.sock.written.head? = some 0 := by
    generalize k.handler = handler at *
    cases handler with
    | serve | abortWriter | deregister | emitLeave | ended => exact hfits.2
    | _ => exact absurd hspawned.2 hwriter
  intro hnil
  rw [hnil] at hhead
  cases hhead

theorem WriterStep.pushed {l : WriterLabel} (h : WriterStep X c l s t)
    (hcoherent : (s.conns c).Coherent X) (hs : (s.conns c).Pushed) : (t.conns c).Pushed := by
  have hwriter := h.spawned.1
  have hpushed := Handler.pushed_iff hcoherent.spawned hwriter
  unfold Conn.Pushed at hs ⊢
  rw [h.frame.1, hpushed]
  rw [hpushed] at hs
  cases h with
  | flush =>
      rw [conns_setConn_self]
      exact List.length_pos_iff.mpr (hcoherent.written_ne_nil hwriter)
  | _ =>
      simp only [conns_setConn_self]
      exact hs

theorem ConnStep.pushed {l : Label} (h : ConnStep X c l s t) (hcoherent : (s.conns c).Coherent X)
    (hs : (s.conns c).Pushed) : (t.conns c).Pushed := by
  cases h with
  | accept _ _ hidle =>
      unfold Conn.Pushed at hs
      rw [hidle] at hs
      rw [conns_setConn_self]
      exact hs
  | handler h => exact h.pushed hcoherent.fits hs
  | reader h =>
      have hflushed : (t.conns c).sock.flushed = (s.conns c).sock.flushed := by
        cases h <;> simp
      rw [Conn.Pushed, h.frame.1, hflushed]
      exact hs
  | writer h => exact h.pushed hcoherent hs
  | net h =>
      have hflushed : (t.conns c).sock.flushed = (s.conns c).sock.flushed := by
        cases h <;> simp
      rw [Conn.Pushed, h.frame.1, hflushed]
      exact hs

/-- What the tasks of every connection say about its stream. -/
def Room.Accounted (X : Crates) (s : Room) : Prop :=
  ∀ c, (s.conns c).Coherent X ∧ (s.conns c).Pushed

theorem accounted_init (X : Crates) (now : ℕ) : (Room.init now).Accounted X :=
  fun _ => ⟨.fresh X, rfl⟩

theorem Step.accounted {l : Label} (h : Step X cfg l s t) (hs : s.Accounted X) : t.Accounted X := by
  intro c
  refine ⟨h.coherent (fun d => (hs d).1) c, ?_⟩
  by_cases hconn : l.conn = some c
  · exact (h.connStep hconn).pushed (hs c).1 (hs c).2
  · rw [h.conns_of_ne hconn]
    exact (hs c).2

/-! ## One step -/

/-- In a connection whose parts agree, bytes can be left behind in two places: at the end
of a failed handshake, and where the writer waits. -/
theorem Conn.unstranded_iff (hcoherent : k.Coherent X) (hpushed : k.Pushed) :
    k.Unstranded ↔
      ((∃ e, k.handler = .failed e) → k.sock.written ≠ [] → 0 < k.sock.flushed) ∧
        (k.writer = .recv → k.sock.buffered = []) := by
  constructor
  · rintro ⟨hreply, -, hwriter⟩
    exact ⟨fun ⟨e, he⟩ => hreply (he ▸ trivial), hwriter⟩
  · rintro ⟨hfailed, hwriter⟩
    refine ⟨fun hreplied => ?_, fun hreads => ?_, hwriter⟩
    · unfold Conn.Pushed at hpushed
      cases hk : k.handler with
      | failed e => exact hfailed ⟨e, hk⟩
      | readName | register | emitJoin | notifyJoin | spawnReader | subscribe | serve | abortWriter
      | deregister | emitLeave | ended =>
          rw [hk] at hpushed
          intro _
          simp only [Handler.Pushed] at hpushed
          omega
      | _ =>
          rw [hk] at hreplied
          cases hreplied
    · have hfits := hcoherent.fits
      unfold Conn.Pushed at hpushed
      rw [Socket.buffered_eq_nil]
      cases hk : k.handler with
      | readHandshake =>
          rw [hk] at hfits
          rw [hfits.2.2]
          exact Nat.zero_le _
      | readName =>
          rw [hk] at hfits hpushed
          rw [hfits.2.2, show k.sock.flushed = 1 from hpushed]
          rfl
      | _ =>
          rw [hk] at hreads
          cases hreads

/-- A handler leaves a writer that runs alone, and its stream. -/
theorem HandlerStep.writer {l : HandlerLabel} (h : HandlerStep X c l s t) (hl : l ≠ .subscribe)
    (hspawned : (s.conns c).handler.Spawned (s.conns c).reader (s.conns c).writer) :
    (t.conns c).writer = (s.conns c).writer ∧
      ((s.conns c).writer ≠ .unspawned → (t.conns c).sock = (s.conns c).sock) := by
  cases h with
  | subscribe => exact absurd rfl hl
  | readerDone | shutdown | abortWriter | deregister | emitLeave => simp
  | start hphase | readHandshake hphase | handshakeReadFail hphase | handshakeReadTimeout hphase
  | insertNonce hphase | refuseNonce hphase | writeReject hphase | rejectFail hphase
  | writeAccept hphase | acceptFail hphase | acceptTimeout hphase | flushAccept hphase
  | flushFail hphase | flushTimeout hphase | readName hphase | nameReadFail hphase
  | nameReadTimeout hphase | register hphase | emitJoin hphase | writeNotice hphase
  | noticeFail hphase | spawnReader hphase =>
      rw [hphase] at hspawned
      exact ⟨by simp, fun hrunning => absurd hspawned.2 hrunning⟩

theorem HandlerStep.unstranded_iff {l : HandlerLabel} (h : HandlerStep X c l s t)
    (hcoherent : (s.conns c).Coherent X) (hpushed : (s.conns c).Pushed)
    (hs : (s.conns c).Unstranded) : (t.conns c).Unstranded ↔ s.Flushes (.handler c l) := by
  have hfits := hcoherent.fits
  have hspawned := hcoherent.spawned
  have hcoherent' : (t.conns c).Coherent X :=
    ⟨h.fits hfits, h.spawned hspawned, h.aborts hcoherent.aborts⟩
  rw [Conn.unstranded_iff hcoherent' (h.pushed hfits hpushed)]
  -- all but the start of the writer: only a failed handler can leave bytes behind
  have hquiet : l ≠ .subscribe → s.Flushes (.handler c l) →
      ((∃ e, (t.conns c).handler = .failed e) → (t.conns c).sock.written ≠ [] →
        0 < (t.conns c).sock.flushed) →
      ((((∃ e, (t.conns c).handler = .failed e) → (t.conns c).sock.written ≠ [] →
          0 < (t.conns c).sock.flushed) ∧
        ((t.conns c).writer = .recv → (t.conns c).sock.buffered = [])) ↔
          s.Flushes (.handler c l)) := by
    intro hl hflushes hfailed
    refine iff_of_true ⟨hfailed, fun hrecv => ?_⟩ hflushes
    obtain ⟨hsame, hsock⟩ := h.writer hl hspawned
    rw [hsame] at hrecv
    rw [hsock (by rw [hrecv]; nofun)]
    exact hs.writer hrecv
  unfold Conn.Pushed at hpushed
  cases h with
  | start | insertNonce | refuseNonce | flushAccept | register | noticeFail | spawnReader
  | readerDone | shutdown | abortWriter | deregister | emitLeave =>
      refine hquiet nofun trivial ?_
      simp
  | readHandshake =>
      refine hquiet nofun trivial ?_
      simp only [conns_setConn_self]
      exact fun ⟨e, he⟩ => absurd he
        (handshakeRead_cases (P := fun h => h ≠ .failed e) (fun _ _ => nofun)
          (fun _ _ => nofun) _ _)
  | emitJoin =>
      refine hquiet nofun trivial ?_
      simp only [conns_setConn_self]
      exact fun ⟨e, he⟩ => absurd he
        (afterEmitJoin_cases (P := fun h => h ≠ .failed e) (fun _ => nofun) nofun _)
  | handshakeReadFail hphase | handshakeReadTimeout hphase =>
      rw [hphase] at hfits
      refine hquiet nofun trivial fun _ hne => ?_
      rw [conns_setConn_self] at hne
      exact absurd hfits.2.2 hne
  | rejectFail hphase | acceptFail hphase | acceptTimeout hphase =>
      rw [hphase] at hfits hpushed
      refine hquiet nofun trivial fun _ hne => ?_
      simp only [conns_setConn_self] at hne
      -- the reply is one byte, and it is still to be written
      have hlen := congrArg List.length hfits.2
      rw [List.length_append, List.length_singleton] at hlen
      have hrest := List.length_pos_iff.mpr hpushed.2
      have hwritten := List.length_pos_iff.mpr hne
      omega
  | @writeReject _ chunk rest hphase hchunk =>
      rw [hphase] at hfits hpushed
      refine iff_of_false (fun hleft => ?_) (fun hnot => hnot _ hphase)
      have hlen := congrArg List.length hfits.2
      rw [List.length_append, List.length_append, List.length_singleton] at hlen
      have hchunk' := List.length_pos_iff.mpr hchunk
      have hrest : rest = [] := List.length_eq_zero_iff.mp (by omega)
      simp only [conns_setConn_self, hrest, if_true] at hleft
      have hflushed := hleft.1 ⟨_, rfl⟩ (by simp [hchunk])
      rw [Socket.flushed_write, hpushed.1] at hflushed
      cases hflushed
  | writeAccept hphase =>
      refine hquiet nofun (fun rest => by rw [hphase]; nofun) ?_
      rw [conns_setConn_self]
      dsimp only
      split <;> simp
  | writeNotice hphase =>
      refine hquiet nofun (fun rest => by rw [hphase]; nofun) ?_
      rw [conns_setConn_self]
      dsimp only
      split <;> simp
  | flushFail hphase | flushTimeout hphase =>
      rw [hphase] at hfits hpushed
      refine iff_of_false (fun hleft => ?_) id
      rw [conns_setConn_self] at hleft
      have hflushed := hleft.1 ⟨_, rfl⟩ (by rw [hfits.2]; nofun)
      rw [show (s.conns c).sock.flushed = 0 from hpushed] at hflushed
      cases hflushed
  | readName hphase | nameReadFail hphase | nameReadTimeout hphase =>
      rw [hphase] at hpushed
      refine hquiet nofun trivial fun _ _ => ?_
      rw [conns_setConn_self]
      exact Nat.lt_of_lt_of_eq Nat.zero_lt_one (Eq.symm hpushed)
  | subscribe hphase =>
      rw [hphase] at hfits hpushed
      have hflushed : (s.conns c).sock.flushed = 1 := hpushed
      have hwritten : 0 < (s.conns c).sock.written.length := by
        refine List.length_pos_iff.mpr fun hnil => ?_
        rw [hnil] at hfits
        cases hfits.2
      rw [conns_setConn_self]
      dsimp only
      rw [Socket.buffered_eq_nil, hflushed]
      refine ⟨fun ⟨_, hle⟩ => ?_, fun hone => ⟨nofun, fun _ => Nat.le_of_eq hone⟩⟩
      exact Nat.le_antisymm (hle rfl) hwritten

theorem WriterStep.unstranded_iff {l : WriterLabel} (h : WriterStep X c l s t)
    (hcoherent : (s.conns c).Coherent X) (hcoherent' : (t.conns c).Coherent X)
    (hpushed : (t.conns c).Pushed) (hs : (s.conns c).Unstranded) :
    (t.conns c).Unstranded ↔ s.Flushes (.writer c l) := by
  have hserved : ∀ e, (t.conns c).handler ≠ .failed e := by
    intro e he
    have hspawned := hcoherent.spawned
    rw [← h.frame.1, he] at hspawned
    exact h.spawned.1 hspawned.2
  rw [Conn.unstranded_iff hcoherent' hpushed,
    and_iff_right fun ⟨e, he⟩ => absurd he (hserved e)]
  cases h with
  | recv hphase =>
      refine iff_of_true (fun _ => ?_) trivial
      rw [conns_setConn_self]
      exact hs.writer hphase
  | lagged hphase =>
      refine iff_of_true (fun _ => ?_) trivial
      rw [conns_setConn_self]
      exact hs.writer hphase
  | write | closed | writeFail | writeTimeout | flushTimeout | cancel =>
      refine iff_of_true (fun hrecv => absurd hrecv ?_) trivial
      simp only [conns_setConn_self]
      first
        | split <;> nofun
        | nofun
  | flush =>
      refine iff_of_true (fun _ => ?_) trivial
      rw [conns_setConn_self]
      exact Socket.buffered_flush _
  | flushFail =>
      rw [conns_setConn_self]
      exact ⟨fun hleft => hleft rfl, fun hnil _ => hnil⟩

/-- **A step leaves bytes behind exactly when it should have flushed.** -/
theorem ConnStep.unstranded_iff {l : Label} (h : ConnStep X c l s t)
    (hs : (s.conns c).Coherent X ∧ (s.conns c).Pushed)
    (ht : (t.conns c).Coherent X ∧ (t.conns c).Pushed) (hprop : (s.conns c).Unstranded) :
    (t.conns c).Unstranded ↔ s.Flushes l := by
  have hkeep : (t.conns c).handler = (s.conns c).handler →
      (t.conns c).writer = (s.conns c).writer →
      (t.conns c).sock.written = (s.conns c).sock.written →
      (t.conns c).sock.flushed = (s.conns c).sock.flushed → (t.conns c).Unstranded := by
    intro hhandler hwriter hwritten hflushed
    obtain ⟨hreply, hreads, hrecv⟩ := hprop
    unfold Socket.buffered at hreads hrecv
    constructor
    · rw [hhandler, hwritten, hflushed]
      exact hreply
    · rw [hhandler, Socket.buffered, hwritten, hflushed]
      exact hreads
    · rw [hwriter, Socket.buffered, hwritten, hflushed]
      exact hrecv
  cases h with
  | accept _ _ hidle =>
      have hspawned := hs.1.spawned
      rw [hidle] at hspawned
      refine iff_of_true ?_ trivial
      rw [conns_setConn_self]
      refine ⟨False.elim, False.elim, fun hrecv => ?_⟩
      rw [hspawned.2] at hrecv
      cases hrecv
  | handler h => exact h.unstranded_iff hs.1 hs.2 hprop
  | reader h =>
      obtain ⟨hhandler, -, -, hwriter, -, -, hwritten⟩ := h.frame
      exact iff_of_true (hkeep hhandler hwriter hwritten (by cases h <;> simp)) trivial
  | writer h => exact h.unstranded_iff hs.1 ht.1 ht.2 hprop
  | net h =>
      obtain ⟨hhandler, -, -, -, hwriter, -, -, -, hwritten⟩ := h.frame
      exact iff_of_true (hkeep hhandler hwriter hwritten (by cases h <;> simp)) trivial

theorem Step.unstranded_iff {l : Label} (h : Step X cfg l s t) (hs : s.Accounted X)
    (hprop : s.Unstranded) : t.Unstranded ↔ s.Flushes l := by
  have hother : ∀ d, l.conn ≠ some d → (t.conns d).Unstranded := by
    intro d hd
    rw [h.conns_of_ne hd]
    exact hprop d
  cases hconn : l.conn with
  | none =>
      refine iff_of_true (fun d => hother d (by rw [hconn]; nofun)) ?_
      cases l with
      | handler | writer => cases hconn
      | _ => trivial
  | some c =>
      have hown := (h.connStep hconn).unstranded_iff (hs c) (h.accounted hs c) (hprop c)
      refine ⟨fun ht => hown.mp (ht c), fun hflushes d => ?_⟩
      by_cases hd : d = c
      · rw [hd]
        exact hown.mpr hflushes
      · exact hother d (by rw [hconn]; exact fun heq => hd (Option.some.inj heq).symm)

/-- **The runs of a room that leave no byte behind** are those all of whose steps flush. -/
theorem roomRun_unstranded_iff {now : ℕ} {ls : List Label} :
    Run (Within (Step X cfg) Room.Unstranded) (.init now) ls s ↔
      Run (Guarded (Step X cfg) Room.Flushes) (.init now) ls s :=
  Run.within_iff (accounted_init X now) (fun _ => ⟨False.elim, False.elim, nofun⟩)
    (fun hs hstep => hstep.accounted hs) (fun hs hprop hstep => hstep.unstranded_iff hs hprop)

end Nullpipe

import Nullpipe.Hub.Admit

/-!
# Following one message through the hub

One message may reach a peer over two ways, as an event of the broadcast channel and
as a frame of the peer's direct queue.  A `Parcel` remembers for one peer at which
positions the message was sent, and collects the frames of it that the peer's writer
writes in full.  It is a ghost: `ParcelStep` runs the hub with a parcel for every peer, and
every run has its parcels (`exists_parcelRun`).

The steps that send the message are parameters, `E` for the event and `F` for the frame, so
that `Relay.lean` and `Announce.lean` can follow different messages with one invariant.

`Parcel.Tracked`: what was collected, with the frame that is being written, is what the writer
has taken at the positions of the message (`Parcel.taken`).  Two lemmas keep it.

* `Parcel.Tracked.next`: a message that is sent is sent at the end of a log or of a queue, and
  so has not been taken yet.
* `Parcel.Tracked.written`: a writer that has no trouble takes the next entry of a channel, and
  writes what it takes.

Both channels may be cut by trouble, lag or a failed write, and then the invariant is lost; so
it is about the runs that are `Smooth`.  At rest a writer has taken everything, and
`Parcel.Tracked.got` reads off what the peer has got.
-/

namespace Nullpipe.Hub

open Channel Transition Server

variable {X : Crates} {json : SerdeJson} {s t : Server} {c : ConnId} {l : ServerLabel}

/-! ## Events and their frames -/

/-- The frames a writer makes of an event: one, or none. -/
def eventFrames (json : SerdeJson) (event : ChatEvent) : List (List UInt8) :=
  match eventMessage event with
  | some msg => if Encodes json msg then [frameBytes json msg] else []
  | none => []

/-- The frame that is being written. -/
def ConnTask.frame? : ConnTask → Option (List UInt8)
  | .writing rest _ => some rest
  | _ => none

theorem afterEvent_cases (json : SerdeJson) (event : ChatEvent) (now : ℕ) :
    (afterEvent json event now = .select ∧ eventFrames json event = []) ∨
      ∃ frame, afterEvent json event now = .writing frame (now + writeTimeout) ∧
        eventFrames json event = [frame] := by
  unfold afterEvent eventFrames
  cases eventMessage event with
  | none => exact .inl ⟨rfl, rfl⟩
  | some msg =>
      dsimp only
      by_cases hfits : Encodes json msg
      · rw [hfits.encodeMessage, if_pos hfits]
        exact .inr ⟨_, rfl, rfl⟩
      · rw [encodeMessage_of_not_encodes hfits, if_neg hfits]
        exact .inl ⟨rfl, rfl⟩

/-! ## Parcels -/

/-- One message on its way to one peer: its position in the broadcast log and in the
direct queue, once it was sent there, the frame of it that is being written, and the
frames of it that were written. -/
structure Parcel where
  event : Option ℕ
  frame : Option ℕ
  carried : Option (List UInt8)
  got : List (List UInt8)

def Parcel.unsent : Parcel := ⟨none, none, none, []⟩

/-- The parcel after a step of the peer's writer. -/
def Parcel.written (c : ConnId) (l : WriterLabel) (s t : Server) (p : Parcel) : Parcel :=
  match l with
  | .takeFrame frame =>
    { p with carried :=
        if p.frame = some (s.tasks c).direct.received.length then some frame else none }
  | .takeEvent _ =>
    { p with carried :=
        if p.event = some (s.tasks c).cursor then (t.tasks c).conn.frame? else none }
  | .write _ =>
    if (t.tasks c).conn = .select then
      { p with carried := none, got := p.got ++ p.carried.toList }
    else p
  | .lagged => p
  | _ => { p with carried := none }

/-- The parcel after a step of the hub; `E` is the step that sends the message as an event,
`F` the one that sends it to the direct queues. -/
def Parcel.next (E F : ServerLabel → Prop) [DecidablePred E] [DecidablePred F] (c : ConnId)
    (l : ServerLabel) (s t : Server) (p : Parcel) : Parcel :=
  match l with
  | .writer d l => if d = c then p.written c l s t else p
  | l =>
    { p with
      event := if p.event = none ∧ E l then some s.bcast.length else p.event
      frame :=
        if p.frame = none ∧ F l ∧ (s.tasks c).direct.sent ≠ (t.tasks c).direct.sent then
          some (s.tasks c).direct.sent.length
        else p.frame }

/-- The steps of a hub with a parcel for every peer. -/
def ParcelStep (X : Crates) (E F : ServerLabel → Prop) [DecidablePred E] [DecidablePred F]
    (l : ServerLabel) (a b : Server × (ConnId → Parcel)) : Prop :=
  ServerStep X l a.1 b.1 ∧ b.2 = fun c => (a.2 c).next E F c l a.1 b.1

/-- No writer lags behind or fails to write. -/
def ServerLabel.Smooth : ServerLabel → Prop
  | .writer _ .lagged | .writer _ .writeFail | .writer _ .writeTimeout => False
  | _ => True

/-- What the writer has taken of the message. -/
def Parcel.taken (json : SerdeJson) (p : Parcel) (k : Tasks) (log : List ChatEvent) :
    List (List UInt8) :=
  (p.frame.bind (k.direct.received[·]?)).toList ++
    (p.event.bind ((log.take k.cursor)[·]?)).toList.flatMap (eventFrames json)

/-- The writer runs, and what it has taken of the message it has written or is writing. -/
structure Parcel.Tracked (json : SerdeJson) (p : Parcel) (k : Tasks) (log : List ChatEvent) :
    Prop where
  runs : k.conn.Runs
  idle : k.conn = .select → p.carried = none
  ledger : (p.got ++ p.carried.toList).Perm (p.taken json k log)

theorem Parcel.tracked_unsent {k : Tasks} (hruns : k.conn.Runs) (log : List ChatEvent) :
    Parcel.unsent.Tracked json k log :=
  ⟨hruns, fun _ => rfl, .refl _⟩

/-! ## Steps -/

/-- Only its writer moves a running writer. -/
theorem ServerStep.keeps_writer (h : ServerStep X l s t) (hl : ∀ l', l ≠ .writer c l')
    (hruns : (s.tasks c).conn.Runs) :
    (t.tasks c).conn = (s.tasks c).conn ∧ (t.tasks c).cursor = (s.tasks c).cursor ∧
      (t.tasks c).direct.received = (s.tasks c).direct.received := by
  by_cases hof : l.of = some c
  · cases h.own hof with
    | accept _ _ hphase =>
        rw [hphase] at hruns
        cases hruns
    | shake | arrive | finish => exact ⟨rfl, rfl, rfl⟩
    | conn h =>
        cases h with
        | register hphase | announceJoin hphase | spawnReader hphase | subscribe hphase
        | deregister hphase | sendLeft hphase | sendLeftClosed hphase | broadcastLeave hphase =>
            rw [hphase] at hruns
            cases hruns
    | reader h =>
        cases h with
        | pong =>
            rw [tasks_setTasks_self]
            refine ⟨rfl, rfl, ?_⟩
            dsimp only
            split
            · exact received_post ..
            · rfl
        | _ => simp only [tasks_setTasks_self, and_self]
    | writer => exact absurd rfl (hl _)
  · have htold := (h.frame hof).1
    exact ⟨htold.conn, htold.cursor, htold.received⟩

theorem take_of_prefix {α : Type*} {log log' : List α} {n : ℕ} (h : log <+: log')
    (hn : n ≤ log.length) : log'.take n = log.take n := by
  obtain ⟨more, rfl⟩ := h
  exact List.take_append_of_le_length hn

/-- A parcel that is sent off has not been taken yet. -/
theorem Parcel.Tracked.next {E F : ServerLabel → Prop} [DecidablePred E] [DecidablePred F]
    {p : Parcel} (hp : p.Tracked json (s.tasks c) s.bcast) (h : ServerStep X l s t)
    (hl : ∀ l', l ≠ .writer c l') (hs : s.WellFormed) :
    (p.next E F c l s t).Tracked json (t.tasks c) t.bcast := by
  obtain ⟨hconn, hcursor, hreceived⟩ := h.keeps_writer hl hp.runs
  have hbehind := (hs.fits c).cursor
  have hsame : p.taken json (t.tasks c) t.bcast = p.taken json (s.tasks c) s.bcast := by
    rw [taken, taken, hcursor, hreceived, take_of_prefix h.bcast hbehind]
  have hkeep : p.Tracked json (t.tasks c) t.bcast :=
    ⟨hconn ▸ hp.runs, hconn ▸ hp.idle, hsame ▸ hp.ledger⟩
  -- what is sent in this step the writer has not taken
  have hsend : ∀ (e : Prop) (f : Prop) [Decidable e] [Decidable f], Parcel.Tracked json
      { p with
        event := if p.event = none ∧ e then some s.bcast.length else p.event
        frame := if p.frame = none ∧ f then some (s.tasks c).direct.sent.length else p.frame }
      (t.tasks c) t.bcast := by
    intro e f _ _
    refine ⟨hkeep.runs, hkeep.idle, ?_⟩
    have hevent : (if p.event = none ∧ e then some s.bcast.length else p.event).bind
        ((t.bcast.take (t.tasks c).cursor)[·]?) =
        p.event.bind ((t.bcast.take (t.tasks c).cursor)[·]?) := by
      split
      · rename_i hnew
        rw [hnew.1, hcursor]
        exact List.getElem?_eq_none
          ((List.length_take_le _ _).trans hbehind)
      · rfl
    have hframe : (if p.frame = none ∧ f then some (s.tasks c).direct.sent.length
          else p.frame).bind ((t.tasks c).direct.received[·]?) =
        p.frame.bind ((t.tasks c).direct.received[·]?) := by
      split
      · rename_i hnew
        rw [hnew.1, hreceived]
        exact List.getElem?_eq_none (Mpsc.received_prefix_sent _).length_le
      · rfl
    have htaken := hkeep.ledger
    rw [taken] at htaken ⊢
    rw [hevent, hframe]
    exact htaken
  cases l with
  | writer d l =>
      have hne : d ≠ c := fun heq => hl l (by rw [heq])
      rw [Parcel.next, if_neg hne]
      exact hkeep
  | _ => exact hsend _ _

/-- One entry more at the end of a list. -/
theorem bind_getElem?_concat {α : Type*} (i : Option ℕ) (as : List α) (a : α) :
    i.bind ((as ++ [a])[·]?) =
      if i = some as.length then some a else i.bind (as[·]?) := by
  cases i with
  | none => rfl
  | some i =>
      rw [Option.bind_some, Option.bind_some]
      split
      · rename_i heq
        cases heq
        exact List.getElem?_concat_length
      · rename_i hne
        rcases Nat.lt_or_ge i as.length with hlt | hge
        · exact List.getElem?_append_left hlt
        · have hgt : as.length < i := Nat.lt_of_le_of_ne hge fun heq => hne (by rw [heq])
          rw [List.getElem?_eq_none hge, List.getElem?_eq_none]
          rw [List.length_append]
          exact hgt

/-- A writer that has no trouble writes what it takes. -/
theorem Parcel.Tracked.written {p : Parcel} {l : WriterLabel}
    (hp : p.Tracked X.json (s.tasks c) s.bcast) (h : WriterStep X c l s t)
    (hl : ServerLabel.Smooth (.writer c l)) :
    (p.written c l s t).Tracked X.json (t.tasks c) t.bcast := by
  obtain ⟨hruns, hidle, hledger⟩ := hp
  unfold taken at hledger
  cases h with
  | takeFrame hphase hqueue =>
      have hfree := hidle hphase
      simp only [Parcel.written, tasks_setTasks_self]
      refine ⟨trivial, nofun, ?_⟩
      unfold taken
      rw [Mpsc.pop_of_queue hqueue, bind_getElem?_concat]
      simp only [hfree, Option.toList_none, List.append_nil] at hledger
      split
      · -- the frame of the message: it has not been taken before
        rename_i hmine
        rw [hmine, Option.bind_some, List.getElem?_eq_none (Nat.le_refl _)] at hledger
        exact (List.Perm.append_right _ hledger).trans List.perm_append_comm
      · rw [Option.toList_none, List.append_nil]
        exact hledger
  | @takeEvent _ event _ hphase hqueue hrecv =>
      have hfree := hidle hphase
      obtain ⟨hget, rfl⟩ := Broadcast.recv_value hrecv
      simp only [Parcel.written, tasks_setTasks_self]
      have hlt := (List.getElem?_eq_some_iff.mp hget).1
      have htake : s.bcast.take ((s.tasks c).cursor + 1) =
          s.bcast.take (s.tasks c).cursor ++ [_] :=
        List.take_add_one.trans (by rw [hget]; rfl)
      have hlen : (s.bcast.take (s.tasks c).cursor).length = (s.tasks c).cursor := by
        rw [List.length_take]
        omega
      simp only [hfree, Option.toList_none, List.append_nil] at hledger
      have htaken : ∀ next : ConnTask, (p.taken X.json ⟨next, (s.tasks c).reader,
          (s.tasks c).direct, (s.tasks c).cursor + 1⟩ s.bcast) =
          (p.frame.bind ((s.tasks c).direct.received[·]?)).toList ++
            (if p.event = some (s.tasks c).cursor then some event
              else p.event.bind ((s.bcast.take (s.tasks c).cursor)[·]?)).toList.flatMap
                (eventFrames X.json) := fun next => by
        unfold taken
        dsimp only
        rw [htake, bind_getElem?_concat, hlen]
      refine ⟨?_, fun hselect => ?_, ?_⟩
      · rcases afterEvent_cases X.json event s.now with ⟨hafter, -⟩ | ⟨frame, hafter, -⟩ <;>
          · rw [hafter]
            trivial
      · dsimp only at hselect ⊢
        rw [hselect]
        split <;> rfl
      · refine List.Perm.trans ?_ (.of_eq (htaken _).symm)
        split
        · -- the event of the message: it has not been taken before
          rename_i hmine
          rw [hmine, Option.bind_some, List.getElem?_eq_none (Nat.le_of_eq hlen)] at hledger
          simp only [Option.toList_none, List.flatMap_nil, List.append_nil] at hledger
          rw [Option.toList_some, List.flatMap_singleton]
          refine (List.Perm.append_right _ hledger).trans (.of_eq (congrArg _ ?_))
          rcases afterEvent_cases X.json event s.now with ⟨hafter, hframes⟩ |
            ⟨frame, hafter, hframes⟩ <;>
            · rw [hafter, hframes]
              rfl
        · rw [Option.toList_none, List.append_nil]
          exact hledger
  | rxClosed hphase hqueue hclosed => exact absurd (senders_held hruns).1 hclosed
  | broadcastClosed hphase hqueue hrecv hclosed => exact absurd (senders_held hruns).2 hclosed
  | @write _ chunk rest _ hphase =>
      simp only [Parcel.written, tasks_setTasks_self]
      by_cases hrest : rest = []
      · simp only [if_pos hrest, if_true]
        refine ⟨trivial, fun _ => rfl, ?_⟩
        rw [Option.toList_none, List.append_nil]
        exact hledger
      · simp only [if_neg hrest, reduceCtorEq, if_false]
        exact ⟨trivial, nofun, hledger⟩
  | lagged | writeFail | writeTimeout => cases hl

/-! ## Runs -/

/-- **Step.**  A parcel is tracked as long as no writer has trouble. -/
theorem ParcelStep.tracked {E F : ServerLabel → Prop} [DecidablePred E] [DecidablePred F]
    {a b : Server × (ConnId → Parcel)} (h : ParcelStep X E F l a b) (hl : l.Smooth)
    (hs : a.1.WellFormed) (hp : (a.2 c).Tracked X.json (a.1.tasks c) a.1.bcast) :
    (b.2 c).Tracked X.json (b.1.tasks c) b.1.bcast := by
  obtain ⟨hstep, hnext⟩ := h
  rw [hnext]
  by_cases hwriter : ∃ l', l = .writer c l'
  · obtain ⟨l', rfl⟩ := hwriter
    cases hstep with
    | writer h =>
        dsimp only [Parcel.next]
        rw [if_pos rfl]
        exact hp.written h hl
  · push Not at hwriter
    exact hp.next hstep hwriter hs

/-- The runs on which no writer has trouble. -/
abbrev ParcelRun (X : Crates) (E F : ServerLabel → Prop) [DecidablePred E] [DecidablePred F] :
    Server × (ConnId → Parcel) → List ServerLabel → Server × (ConnId → Parcel) → Prop :=
  Run (Guarded (ParcelStep X E F) fun _ l => l.Smooth)

/-- The parcels of a run. -/
theorem exists_parcelRun (E F : ServerLabel → Prop) [DecidablePred E] [DecidablePred F]
    {ls : List ServerLabel} (hrun : ServerRun X s ls t) (hsmooth : ∀ l ∈ ls, l.Smooth)
    (p : ConnId → Parcel) : ∃ q, ParcelRun X E F (s, p) ls (t, q) := by
  induction hrun with
  | nil => exact ⟨p, .nil⟩
  | @snoc t u ls l _ hstep ih =>
      obtain ⟨q, hq⟩ := ih fun l hl => hsmooth l (List.mem_append_left _ hl)
      have hlast := hsmooth l (List.mem_append_right _ (List.mem_singleton_self _))
      exact ⟨fun c => (q c).next E F c l t u, hq.snoc ⟨⟨hstep, rfl⟩, hlast⟩⟩

/-- **Run.**  Every parcel for a peer whose writer ran at the start is tracked. -/
theorem ParcelRun.tracked {E F : ServerLabel → Prop} [DecidablePred E] [DecidablePred F]
    {p : ConnId → Parcel} {ls : List ServerLabel}
    (hrun : ParcelRun X E F (s, fun _ => .unsent) ls (t, p)) (hs : s.WellFormed)
    (hruns : (s.tasks c).conn.Runs) :
    t.WellFormed ∧ (p c).Tracked X.json (t.tasks c) t.bcast := by
  refine hrun.invariant (I := fun a => a.1.WellFormed ∧
    (a.2 c).Tracked X.json (a.1.tasks c) a.1.bcast) ⟨hs, Parcel.tracked_unsent hruns _⟩ ?_
  rintro l a b ⟨hwell, htracked⟩ ⟨hstep, hsmooth⟩
  exact ⟨hstep.1.wellFormed hwell, hstep.tracked hsmooth hwell htracked⟩

/-- At rest the writer has written all that was sent of the message. -/
theorem Parcel.Tracked.got {p : Parcel} (hp : p.Tracked X.json (s.tasks c) s.bcast)
    (hs : s.WellFormed) (hrest : s.Quiescent X) :
    p.got.Perm ((p.frame.bind ((s.tasks c).direct.sent[·]?)).toList ++
      (p.event.bind (s.bcast[·]?)).toList.flatMap (eventFrames X.json)) := by
  obtain ⟨hselect, hqueue, hcursor⟩ := hrest.writer hp.runs (hs.fits c).cursor
  have hledger := hp.ledger
  unfold Parcel.taken at hledger
  rw [hp.idle hselect, hcursor, List.take_length, Option.toList_none, List.append_nil] at hledger
  rw [Mpsc.sent, hqueue, List.append_nil]
  exact hledger

end Nullpipe.Hub

import Nullpipe.Lib.Framing
import Nullpipe.Lib.Transition

/-!
# Readers that hand events on

A reader of framed bytes makes something of each frame: it hands an event on, passes the frame
over, or stops.  `Format.heard` is what it hands on of a whole stream, in one pass over its
frames.  It only grows with the stream (`heard_prefix`), and of whole frames that are all handed
on it is their events (`heard_flatMap`).

A `Listener` is such a reader in the middle of its work, fed in chunks of any size.  It may
stand within a frame, hold an event that it has not handed on yet, or have stopped (`Ear`).
`Listener.total` is what it has handed on together with what it will still hand on of its
unread bytes.

* No step changes it (`ListenStep.total`): a step moves events from ahead to behind.
* A listener that has not stopped can go on (`exists_listenStep`), every step lowers its rank,
  and so it can finish (`exists_run_listen`).  It has then handed on all that was ahead.

`exists_reachable_listen` carries this into a system that can take the steps of a listener,
whatever else that system does.
-/

namespace Framing

open Transition

variable {ε ω : Type*}

/-! ## Whole streams -/

/-- What a reader makes of a frame. -/
inductive Verdict (ω : Type*)
  | stop
  | skip
  | hand (event : ω)
  deriving DecidableEq

namespace Verdict

/-- What is handed on from a frame on, when `later` comes of the frames behind it. -/
def followed : Verdict ω → List ω → List ω
  | .stop, _ => []
  | .skip, later => later
  | .hand event, later => event :: later

/-- What is handed on under a list of verdicts, up to the first `stop`. -/
def handed (verdicts : List (Verdict ω)) : List ω := verdicts.foldr followed []

@[simp] theorem handed_nil : handed ([] : List (Verdict ω)) = [] := rfl

@[simp] theorem handed_cons (v : Verdict ω) (rest : List (Verdict ω)) :
    handed (v :: rest) = v.followed (handed rest) := rfl

/-- More frames only add to what is handed on. -/
theorem handed_prefix {front whole : List (Verdict ω)} (h : front <+: whole) :
    handed front <+: handed whole := by
  obtain ⟨rest, rfl⟩ := h
  induction front with
  | nil => exact List.nil_prefix
  | cons v front ih =>
      rw [List.cons_append, handed_cons, handed_cons]
      cases v with
      | stop => exact List.nil_prefix
      | skip => exact ih
      | hand event => exact (List.prefix_cons_inj event).mpr ih

end Verdict

namespace Format

variable (F : Format ε) (verdict : List UInt8 → Verdict ω)

/-- The frames of a stream, up to the first one that is malformed or unfinished. -/
def frames (bytes : List UInt8) : List (List UInt8) := F.messages some bytes

/-- What a reader hands on of a whole stream. -/
def heard (bytes : List UInt8) : List ω := Verdict.handed ((F.frames bytes).map verdict)

variable {F verdict} {got chunk bytes f : List UInt8} {e : ε} {k : ℕ}

theorem heard_of_needs (hneeds : F.progress bytes = .needs k) : F.heard verdict bytes = [] := by
  rw [heard, frames, messages_of_needs hneeds]
  rfl

theorem heard_of_failed (hfailed : F.progress bytes = .failed e) :
    F.heard verdict bytes = [] := by
  rw [heard, frames, messages_of_failed hfailed]
  rfl

theorem heard_of_frame (hframe : F.progress bytes = .frame f) :
    F.heard verdict bytes = (verdict f).followed (F.heard verdict (bytes.drop f.length)) := by
  rw [heard, frames, messages_of_frame hframe rfl]
  rfl

/-- The frame a read has completed is the first of what it was reading. -/
theorem heard_of_read (hneeds : F.progress got = .needs k) (hfit : chunk.length ≤ k)
    (hframe : F.progress (got ++ chunk) = .frame f) (rest : List UInt8) :
    F.heard verdict (got ++ (chunk ++ rest)) = (verdict f).followed (F.heard verdict rest) := by
  have hexact : f = got ++ chunk := progress_exact hneeds hfit hframe
  rw [← List.append_assoc, heard_of_frame (progress_append_frame hframe rest), hexact,
    List.drop_left]

/-- A longer stream is heard further. -/
theorem heard_prefix {front : List UInt8} (h : front <+: bytes) :
    F.heard verdict front <+: F.heard verdict bytes := by
  obtain ⟨more, rfl⟩ := h
  exact Verdict.handed_prefix ((messages_prefix_append front more).map verdict)

/-- What is heard of whole frames that are all handed on. -/
theorem heard_flatMap {μ : Type*} {encode : μ → List UInt8} {event : μ → ω} {ms : List μ}
    (hencode : ∀ m ∈ ms, F.progress (encode m) = .frame (encode m) ∧
      verdict (encode m) = .hand (event m)) :
    F.heard verdict (ms.flatMap encode) = ms.map event := by
  induction ms with
  | nil => exact heard_of_needs progress_nil
  | cons m rest ih =>
      obtain ⟨hframe, hverdict⟩ := hencode m (List.mem_cons_self ..)
      rw [List.flatMap_cons, heard_of_frame (progress_append_frame hframe _), hverdict,
        List.drop_left, ih fun m' hm' => hencode m' (List.mem_cons_of_mem m hm')]
      rfl

end Format

/-! ## Readers at work -/

/-- Where a reader stands: it reads a frame, it holds an event to hand on, or it has
stopped. -/
inductive Ear (ω : Type*)
  | reading (got : List UInt8)
  | holding (event : ω)
  | finished
  deriving DecidableEq

/-- Where a verdict takes the reader. -/
def Verdict.ear : Verdict ω → Ear ω
  | .stop => .finished
  | .skip => .reading []
  | .hand event => .holding event

/-- A reader, what it has not read of its stream, and what it has handed on. -/
structure Listener (ω : Type*) where
  ear : Ear ω
  unread : List UInt8
  handed : List ω

section

variable (F : Format ε) (verdict : List UInt8 → Verdict ω)

inductive ListenLabel
  | read (chunk : List UInt8)
  | frame (chunk : List UInt8)
  | malformed (chunk : List UInt8)
  | finish
  | hand
  deriving DecidableEq

/-- The steps of a listener whose stream ends with what is unread. -/
inductive ListenStep : ListenLabel → Listener ω → Listener ω → Prop
  | read {got chunk rest : List UInt8} {out : List ω} {k k' : ℕ} (hchunk : chunk ≠ [])
      (hneeds : F.progress got = .needs k) (hfit : chunk.length ≤ k)
      (hmore : F.progress (got ++ chunk) = .needs k') :
      ListenStep (.read chunk) ⟨.reading got, chunk ++ rest, out⟩
        ⟨.reading (got ++ chunk), rest, out⟩
  | frame {got chunk rest f : List UInt8} {out : List ω} {k : ℕ} (hchunk : chunk ≠ [])
      (hneeds : F.progress got = .needs k) (hfit : chunk.length ≤ k)
      (hframe : F.progress (got ++ chunk) = .frame f) :
      ListenStep (.frame chunk) ⟨.reading got, chunk ++ rest, out⟩ ⟨(verdict f).ear, rest, out⟩
  | malformed {got chunk rest : List UInt8} {out : List ω} {e : ε} {k : ℕ} (hchunk : chunk ≠ [])
      (hneeds : F.progress got = .needs k) (hfit : chunk.length ≤ k)
      (hfailed : F.progress (got ++ chunk) = .failed e) :
      ListenStep (.malformed chunk) ⟨.reading got, chunk ++ rest, out⟩ ⟨.finished, rest, out⟩
  | finish {got : List UInt8} {out : List ω} {k : ℕ} (hneeds : F.progress got = .needs k) :
      ListenStep .finish ⟨.reading got, [], out⟩ ⟨.finished, [], out⟩
  | hand {event : ω} {rest : List UInt8} {out : List ω} :
      ListenStep .hand ⟨.holding event, rest, out⟩ ⟨.reading [], rest, out ++ [event]⟩

/-- What a reader that stands here will hand on. -/
def Ear.ahead : Ear ω → List UInt8 → List ω
  | .reading got, unread => F.heard verdict (got ++ unread)
  | .holding event, unread => event :: F.heard verdict unread
  | .finished, _ => []

/-- What the listener has handed on when it has finished. -/
def Listener.total (l : Listener ω) : List ω := l.handed ++ l.ear.ahead F verdict l.unread

/-- A reader that reads a frame has not got the whole of it. -/
def Ear.Waits : Ear ω → Prop
  | .reading got => ∃ k, F.progress got = .needs k
  | _ => True

variable {F verdict} {l : ListenLabel} {s t : Listener ω}

theorem waits_nil : (Ear.reading [] : Ear ω).Waits F := ⟨_, Format.progress_nil⟩

theorem Verdict.waits_ear (v : Verdict ω) : v.ear.Waits F := by
  cases v with
  | skip => exact waits_nil
  | stop | hand => trivial

theorem Verdict.ahead_ear (v : Verdict ω) (rest : List UInt8) :
    v.ear.ahead F verdict rest = v.followed (F.heard verdict rest) := by
  cases v <;> rfl

theorem ListenStep.waits (h : ListenStep F verdict l s t) : t.ear.Waits F := by
  cases h with
  | read _ _ _ hmore => exact ⟨_, hmore⟩
  | frame => exact Verdict.waits_ear _
  | malformed | finish => trivial
  | hand => exact waits_nil

/-- **A step moves events and loses none:** what was handed on and what is ahead stay
the same list. -/
theorem ListenStep.total (h : ListenStep F verdict l s t) :
    t.total F verdict = s.total F verdict := by
  unfold Listener.total
  cases h with
  | read => rw [Ear.ahead, Ear.ahead, List.append_assoc]
  | frame _ hneeds hfit hframe =>
      rw [Verdict.ahead_ear, Ear.ahead, Format.heard_of_read hneeds hfit hframe]
  | @malformed got chunk rest _ _ _ _ _ _ hfailed =>
      rw [Ear.ahead, Ear.ahead, ← List.append_assoc,
        Format.heard_of_failed (Format.progress_append_failed hfailed rest)]
  | @finish got _ _ hneeds =>
      dsimp only
      rw [Ear.ahead, Ear.ahead, List.append_nil got, Format.heard_of_needs hneeds]
  | hand =>
      rw [Ear.ahead, Ear.ahead, List.append_assoc, List.nil_append]
      rfl

/-- How much a listener has still to do. -/
def Listener.rank (l : Listener ω) : ℕ :=
  2 * l.unread.length + match l.ear with
    | .reading _ => 1
    | .holding _ => 2
    | .finished => 0

theorem ListenStep.rank_lt (h : ListenStep F verdict l s t) : t.rank < s.rank := by
  unfold Listener.rank
  cases h with
  | read hchunk | malformed hchunk =>
      have hpos := List.length_pos_of_ne_nil hchunk
      rw [List.length_append]
      dsimp only
      omega
  | @frame _ _ _ f _ _ hchunk =>
      have hpos := List.length_pos_of_ne_nil hchunk
      rw [List.length_append]
      cases verdict f <;> simp only [Verdict.ear] <;> omega
  | finish | hand =>
      dsimp only
      omega

/-- A listener that has not finished can go on, one byte at a time. -/
theorem exists_listenStep (hwaits : s.ear.Waits F) (hlive : s.ear ≠ .finished) :
    ∃ l t, ListenStep F verdict l s t := by
  obtain ⟨ear, unread, out⟩ := s
  cases ear with
  | finished => exact absurd rfl hlive
  | holding event => exact ⟨_, _, .hand⟩
  | reading got =>
      obtain ⟨k, hneeds⟩ := hwaits
      cases unread with
      | nil => exact ⟨_, _, .finish hneeds⟩
      | cons byte rest =>
          have hchunk : [byte] ≠ [] := List.cons_ne_nil _ _
          have hfit : [byte].length ≤ k := Format.progress_needs_pos hneeds
          change ∃ l t, ListenStep F verdict l ⟨.reading got, [byte] ++ rest, out⟩ t
          cases hprogress : F.progress (got ++ [byte]) with
          | needs k' => exact ⟨_, _, .read hchunk hneeds hfit hprogress⟩
          | frame f => exact ⟨_, _, .frame hchunk hneeds hfit hprogress⟩
          | failed e => exact ⟨_, _, .malformed hchunk hneeds hfit hprogress⟩

/-- **A listener can finish, and has then handed on all that was ahead of it.** -/
theorem exists_run_listen (hwaits : s.ear.Waits F) :
    ∃ ls t, Run (ListenStep F verdict) s ls t ∧ t.ear = .finished ∧
      t.handed = s.total F verdict := by
  obtain ⟨ls, t, hrun, hterminal⟩ : ∃ ls t, Run (ListenStep F verdict) s ls t ∧
      Terminal (ListenStep F verdict) t :=
    exists_terminal Listener.rank (fun _ _ _ => ListenStep.rank_lt) s
  obtain ⟨hwaits', htotal⟩ : t.ear.Waits F ∧ t.total F verdict = s.total F verdict :=
    hrun.invariant (I := fun t => t.ear.Waits F ∧ t.total F verdict = s.total F verdict)
      ⟨hwaits, rfl⟩ fun ht h => ⟨h.waits, h.total.trans ht.2⟩
  have hfinished : t.ear = .finished := by
    by_contra hlive
    obtain ⟨l, u, hstep⟩ : ∃ l u, ListenStep F verdict l t u := exists_listenStep hwaits' hlive
    exact hterminal l u hstep
  refine ⟨ls, t, hrun, hfinished, ?_⟩
  rw [← htotal, Listener.total, hfinished, Ear.ahead, List.append_nil]

/-- **A system that can take the steps of a listener** can take it to its end.  The states
are given by the listener and by what it has read. -/
theorem exists_reachable_listen {σ ι : Type*} {step : ι → σ → σ → Prop}
    {stand : List UInt8 → Listener ω → σ} {bytes got : List UInt8}
    (hstep : ∀ k s t got, ListenStep F verdict k s t → got ++ s.unread = bytes →
      ∃ got', got' ++ t.unread = bytes ∧ Reachable step (stand got s) (stand got' t))
    (hwaits : s.ear.Waits F) (hall : got ++ s.unread = bytes) :
    ∃ got' rest, got' ++ rest = bytes ∧
      Reachable step (stand got s) (stand got' ⟨.finished, rest, s.total F verdict⟩) := by
  obtain ⟨ls, ⟨ear, rest, out⟩, hrun, hear, hout⟩ :
      ∃ ls t, Run (ListenStep F verdict) s ls t ∧ t.ear = .finished ∧
        t.handed = s.total F verdict := exists_run_listen hwaits
  have hreach : ∃ got', got' ++ rest = bytes ∧
      Reachable step (stand got s) (stand got' ⟨ear, rest, out⟩) := by
    refine Run.invariant (I := fun t => ∃ got', got' ++ t.unread = bytes ∧
      Reachable step (stand got s) (stand got' t)) hrun ⟨got, hall, .refl _⟩ ?_
    rintro l u v ⟨got', hall', hreach⟩ hmove
    obtain ⟨got'', hall'', ls, hmore⟩ := hstep _ _ _ _ hmove hall'
    exact ⟨got'', hall'', hreach.run hmore⟩
  cases hear
  cases hout
  obtain ⟨got', hall', hreach⟩ := hreach
  exact ⟨got', rest, hall', hreach⟩

end

end Framing

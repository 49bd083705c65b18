import Nullpipe.Hub.Relay

/-!
# Announcements

`broadcast_hub` sends its text over both ways a writer listens to: as an event of the
broadcast channel and as a frame for every direct queue.  `announcement_once_iff` says
when a peer receives it once.

A call is two steps, and other steps may come between them: `ServerLabel.EventOf` sends the
event, `ServerLabel.FramesOf` the frames.  `Announcing` says where the two halves of a call are
once the event has been sent, and `ParcelStep.announcing` keeps it.  A peer that is registered
and served all the time is followed with the parcel of `Parcel.lean`.

* `sent_broadcastMessage`: the frames go once to every registered peer, since no two entries of
  the registry hold the sender of one connection (`Server.WellFormed.distinct`).
* `ParcelRun.announced`: at rest the peer has the frame of its own and, if the event makes a
  frame, that one too.

So what decides is the event alone.  A writer makes a chat message of it, under the name
`[system]`, and the announcement comes once exactly if that message does not fit a frame
although the notice of the direct queue does.  A short announcement comes twice.
-/

namespace Nullpipe.Hub

open Channel Transition Server

variable {X : Crates} {s t : Server} {c : ConnId} {l : ServerLabel} {text : String}
  {p : ConnId → Parcel} {ls : List ServerLabel}

/-! ## Frames for all -/

/-- The loop of `broadcast_to_all` over some entries with distinct senders. -/
theorem direct_foldl_sendDirect (frame : List UInt8) (entries : List (PeerId × PeerEntry))
    (hdistinct : (entries.map fun e => e.2.tx).Nodup) (s : Server) (c : ConnId) :
    ((entries.foldl (fun t e => t.sendDirect e.2.tx frame) s).tasks c).direct =
      if c ∈ entries.map fun e => e.2.tx then (s.tasks c).direct.post frame
      else (s.tasks c).direct := by
  induction entries generalizing s with
  | nil => rfl
  | cons e entries ih =>
      rw [List.map_cons, List.nodup_cons] at hdistinct
      rw [List.foldl_cons, ih hdistinct.2, List.map_cons]
      by_cases hc : c = e.2.tx
      · subst hc
        rw [if_neg hdistinct.1, if_pos (List.mem_cons_self ..), sendDirect, tasks_setTasks_self]
      · rw [sendDirect, tasks_setTasks_of_ne _ _ _ hc]
        simp only [List.mem_cons, hc, false_or]

/-- No two entries hold the sender of one connection. -/
theorem Server.WellFormed.distinct (hs : s.WellFormed) :
    (s.peers.inner.map fun e => e.2.tx).Nodup := by
  refine List.Nodup.map_on (fun e he e' he' htx => ?_) (.of_map _ s.peers.keys)
  have hown := (hs.entries e he).1
  have hown' := (hs.entries e' he').1
  rw [htx] at hown
  exact List.inj_on_of_nodup_map s.peers.keys he he' (hown.unique hown').1

/-- `broadcast_to_all` sends its frame once to every registered peer whose receiver lives, and
to nobody else. -/
theorem sent_broadcastMessage {msg : WireMessage} (hs : s.WellFormed) (hmsg : Encodes X.json msg)
    (hruns : (s.tasks c).conn.Runs) :
    ((s.broadcastMessage X.json msg).tasks c).direct.sent =
      if s.peers.Holds c then (s.tasks c).direct.sent ++ [frameBytes X.json msg]
      else (s.tasks c).direct.sent := by
  have hopen : (s.tasks c).direct.isOpen = true :=
    (hs.fits c).rx.mpr (Nat.le_of_eq hruns.stage)
  have hmem : (c ∈ s.peers.inner.map fun e => e.2.tx) ↔ s.peers.Holds c := List.mem_map
  rw [broadcastMessage, hmsg.encodeMessage]
  dsimp only
  rw [broadcastToAll, direct_foldl_sendDirect _ _ hs.distinct]
  by_cases hholds : s.peers.Holds c
  · rw [if_pos hholds, if_pos (hmem.mpr hholds), Mpsc.post, if_pos hopen, Mpsc.sent_push]
  · rw [if_neg hholds, if_neg (hholds ∘ hmem.mp)]

/-! ## One call -/

/-- A call of `broadcast_hub` sends its event. -/
def ServerLabel.EventOf (text : String) (l : ServerLabel) : Prop :=
  l = .owner (.broadcastHub text)

/-- A call of `broadcast_hub` sends its frames, and returns. -/
def ServerLabel.FramesOf (text : String) (l : ServerLabel) : Prop :=
  l = .owner (.broadcastFrames text)

instance (text : String) : DecidablePred (ServerLabel.EventOf text) :=
  fun l => inferInstanceAs (Decidable (l = _))

instance (text : String) : DecidablePred (ServerLabel.FramesOf text) :=
  fun l => inferInstanceAs (Decidable (l = _))

/-- Where the two halves of a call are, once its event has been sent: the event is in the
log, and after `ls` the frame is in the direct queue of a peer that is still registered. -/
structure Announcing (json : SerdeJson) (text : String) (c : ConnId) (ls : List ServerLabel)
    (s : Server) (p : Parcel) : Prop where
  event : ∃ i, p.event = some i ∧ s.bcast[i]? = some (announcement text)
  frame : ∀ j, p.frame = some j →
    (s.tasks c).direct.sent[j]? = some (frameBytes json (.system text))
  sent : .owner (.broadcastFrames text) ∈ ls → s.peers.Holds c → p.frame ≠ none

theorem Parcel.event_next {E F : ServerLabel → Prop} [DecidablePred E] [DecidablePred F]
    {p : Parcel} {i : ℕ} (hp : p.event = some i) : (p.next E F c l s t).event = some i := by
  cases l with
  | writer d l =>
      dsimp only [Parcel.next]
      split
      · cases l <;> first | exact hp | (dsimp only [Parcel.written]; split; all_goals exact hp)
      · exact hp
  | _ => exact (if_neg fun hnew => by rw [hp] at hnew; cases hnew.1).trans hp

theorem Parcel.frame_next {E F : ServerLabel → Prop} [DecidablePred E] [DecidablePred F]
    (p : Parcel) (hF : ∀ d l', ¬ F (.writer d l')) : (p.next E F c l s t).frame =
      if p.frame = none ∧ F l ∧ (s.tasks c).direct.sent ≠ (t.tasks c).direct.sent then
        some (s.tasks c).direct.sent.length
      else p.frame := by
  cases l with
  | writer d l =>
      rw [if_neg fun hnew => hF d l hnew.2.1]
      dsimp only [Parcel.next]
      split
      · cases l <;> first | rfl | (dsimp only [Parcel.written]; split; all_goals rfl)
      · rfl
  | _ => rfl

theorem ParcelStep.announcing {x y : Server × (ConnId → Parcel)}
    (h : ParcelStep X (ServerLabel.EventOf text) (ServerLabel.FramesOf text) l x y)
    (hs : x.1.WellFormed) (hruns : (x.1.tasks c).conn.Runs) (hmsg : Encodes X.json (.system text))
    (hx : Announcing X.json text c ls x.1 (x.2 c)) :
    Announcing X.json text c (ls ++ [l]) y.1 (y.2 c) := by
  obtain ⟨hstep, hnext⟩ := h
  obtain ⟨u, p⟩ := x
  obtain ⟨v, q⟩ := y
  dsimp only at hstep hnext hs hruns hx ⊢
  subst hnext
  obtain ⟨⟨i, hi, hget⟩, hframe, hsent⟩ := hx
  -- the frame of this call is the first that `broadcast_hub` adds after the event
  have hlater := (p c).frame_next (E := ServerLabel.EventOf text) (F := ServerLabel.FramesOf text)
    (c := c) (l := l) (s := u) (t := v) (fun _ _ h => by cases h)
  have hposted : ServerLabel.FramesOf text l → (v.tasks c).direct.sent =
      if u.peers.Holds c then (u.tasks c).direct.sent ++ [frameBytes X.json (.system text)]
      else (u.tasks c).direct.sent := by
    rintro rfl
    cases hstep with
    | owner hstep =>
        cases hstep with
        | broadcastFrames => exact sent_broadcastMessage hs hmsg hruns
  refine ⟨⟨i, Parcel.event_next hi, getElem?_mono hstep.bcast hget⟩, fun j hj => ?_,
    fun hcall hholds => ?_⟩
  · rw [hlater] at hj
    split at hj
    · rename_i hnew
      obtain ⟨-, hF, hmore⟩ := hnew
      have hsent' := hposted hF
      split at hsent'
      · cases hj
        rw [hsent']
        exact List.getElem?_concat_length
      · exact absurd hsent'.symm hmore
    · exact getElem?_mono hstep.sent_prefix (hframe j hj)
  · have hbefore : u.peers.Holds c := hstep.holds_of (by rw [hruns.stage]; decide) hholds
    rw [hlater]
    by_cases hnone : (p c).frame = none
    · have hF : ServerLabel.FramesOf text l := by
        rcases List.mem_append.mp hcall with hcall | hcall
        · exact absurd hnone (hsent hcall hbefore)
        · exact (List.mem_singleton.mp hcall).symm
      -- the call is made now, and the peer is registered
      have hsent' := hposted hF
      rw [if_pos hbefore] at hsent'
      have hmore : (u.tasks c).direct.sent ≠ (v.tasks c).direct.sent := by
        intro hsame
        have hlen := congrArg List.length (hsame.trans hsent')
        rw [List.length_append, List.length_singleton] at hlen
        omega
      rw [if_pos ⟨hnone, hF, hmore⟩]
      exact Option.some_ne_none _
    · rw [if_neg fun hnew => hnone hnew.1]
      exact hnone

/-- **An announcement reaches a registered peer as a frame of its own and, if the chat
message the writers make of its event fits, a second time.** -/
theorem ParcelRun.announced (hs : ServerReachable X s) (hmsg : Encodes X.json (.system text))
    (hserves : s.Serves c)
    (hrun : ParcelRun X (ServerLabel.EventOf text) (ServerLabel.FramesOf text)
      (s, fun _ => .unsent) (.owner (.broadcastHub text) :: ls) (t, p))
    (hcall : .owner (.broadcastFrames text) ∈ ls) (hrest : t.Quiescent X)
    (hholds : t.peers.Holds c) :
    (p c).got.Perm (frameBytes X.json (.system text) ::
      eventFrames X.json (announcement text)) := by
  have hwell := hs.wellFormed
  obtain ⟨htrack', htracked⟩ := hrun.tracked (c := c) hwell hserves.2
  have hgot := htracked.got htrack' hrest
  -- after the first step the event is in the log
  obtain ⟨⟨u, q⟩, ⟨⟨hfirst, hnext⟩, hsmooth⟩, hrun⟩ := hrun.uncons
  dsimp only at hfirst hnext
  subst hnext
  have hstart : Announcing X.json text c [] u
      (Parcel.unsent.next (ServerLabel.EventOf text) (ServerLabel.FramesOf text) c
        (.owner (.broadcastHub text)) s u) := by
    cases hfirst with
    | owner hfirst =>
        cases hfirst with
        | broadcastHub =>
            refine ⟨⟨s.bcast.length, if_pos ⟨rfl, rfl⟩, List.getElem?_concat_length⟩,
              fun j hj => ?_, nofun⟩
            rw [Parcel.frame_next _ fun _ _ h => by cases h] at hj
            split at hj
            · rename_i hnew
              cases hnew.2.1
            · cases hj
  have htracking : Announcing X.json text c ls t (p c) := by
    refine (hrun.history (I := fun ls x => x.1.WellFormed ∧
      (x.2 c).Tracked X.json (x.1.tasks c) x.1.bcast ∧ Announcing X.json text c ls x.1 (x.2 c))
      ⟨hfirst.wellFormed hwell, ?_, hstart⟩ ?_).2.2
    · exact ParcelStep.tracked (a := (s, fun _ => .unsent)) (b := (u, _))
        ⟨hfirst, rfl⟩ hsmooth hwell
        (Parcel.tracked_unsent hserves.2 _)
    · rintro ls l x y ⟨hwell, htracked, hx⟩ ⟨hstep, hsmooth⟩
      exact ⟨hstep.1.wellFormed hwell, hstep.tracked hsmooth hwell htracked,
        hstep.announcing hwell htracked.runs hmsg hx⟩
  obtain ⟨⟨i, hi, hget⟩, hframe, hsent⟩ := htracking
  cases hj : (p c).frame with
  | none => exact absurd hj (hsent hcall hholds)
  | some j =>
      rw [hj, hi, Option.bind_some, Option.bind_some, hframe j hj, hget] at hgot
      simpa only [Option.toList_some, List.flatMap_singleton, List.singleton_append] using hgot

/-- The frame holds a message with this text. -/
def Carries (json : SerdeJson) (text : String) (frame : List UInt8) : Prop :=
  ∃ msg, decoded json frame = some msg ∧ msg.text = text

/-- **An announcement is received once exactly when its event is of no use to the writers:**
the chat message they make of it does not fit a frame. -/
theorem announcement_once_iff (hs : ServerReachable X s) (hmsg : Encodes X.json (.system text))
    (hserves : s.Serves c)
    (hrun : ParcelRun X (ServerLabel.EventOf text) (ServerLabel.FramesOf text)
      (s, fun _ => .unsent) (.owner (.broadcastHub text) :: ls) (t, p))
    (hcall : .owner (.broadcastFrames text) ∈ ls) (hrest : t.Quiescent X)
    (hholds : t.peers.Holds c) :
    (∃ frame, (p c).got = [frame] ∧ Carries X.json text frame) ↔
      ¬ Encodes X.json (.chat "[system]" text) := by
  have hgot := hrun.announced hs hmsg hserves hcall hrest hholds
  rw [announcement, eventFrames_message] at hgot
  constructor
  · rintro ⟨frame, honce, -⟩ hfits
    rw [if_pos hfits, honce] at hgot
    have hlen := hgot.length_eq
    simp at hlen
  · intro hnot
    rw [if_neg hnot] at hgot
    exact ⟨_, List.perm_singleton.mp hgot, _, decoded_encodeMessage hmsg.encodeMessage, rfl⟩

/-! ### An announcement that comes twice -/

/-- The hub with one peer, whose `run` was dropped. -/
def Server.paused : Server := { Server.attended with owner := .free }

theorem run_pause : ServerRun .standard (.init 0) (attendLabels ++ [.owner .cancelRun])
    Server.paused :=
  run_attend.snoc (.owner (.cancelRun rfl))

/-- Both halves of an announcement are sent. -/
def Server.announcing : Server :=
  Server.setTasks { Server.paused with bcast := Server.paused.bcast ++ [announcement "hi"] } 0
    { Server.paused.tasks 0 with
      direct := ⟨[], [frameBytes SerdeJson.standard (.system "hi")], true⟩ }

/-- The peer has the frame of its own. -/
def Server.told : Server :=
  (Server.announcing.setSock 0
    ((Server.announcing.sock 0).write (frameBytes SerdeJson.standard (.system "hi")))).setTasks 0
    { Server.paused.tasks 0 with
      direct := ⟨[frameBytes SerdeJson.standard (.system "hi")], [], true⟩ }

/-- The peer has both frames. -/
def Server.toldTwice : Server :=
  Server.told.wrote SerdeJson.standard 0 (.chat "[system]" "hi")

/-- The steps after the first of the call. -/
def announceLabels : List ServerLabel :=
  [.owner (.broadcastFrames "hi"),
    .writer 0 (.takeFrame (frameBytes SerdeJson.standard (.system "hi"))),
    .writer 0 (.write (frameBytes SerdeJson.standard (.system "hi")))] ++
  writeLabels SerdeJson.standard 0 (announcement "hi") (.chat "[system]" "hi")

theorem encodes_hi : Encodes SerdeJson.standard (.system "hi") := by decide

theorem run_tellTwice : ServerRun .standard Server.paused
    (.owner (.broadcastHub "hi") :: announceLabels) Server.toldTwice := by
  let frame := frameBytes SerdeJson.standard (.system "hi")
  have hrun : ServerRun .standard Server.paused [] Server.paused := .nil
  have hrun := hrun.snoc (.owner (.broadcastHub rfl : OwnerStep .standard (.broadcastHub "hi") _ _))
  have hframes : encodeMessage Crates.standard.json (.system "hi") = .ok frame :=
    encodes_hi.encodeMessage
  have hrun := hrun.extend (v := Server.announcing)
    (.owner (.broadcastFrames (List.mem_singleton_self "hi")))
    (by rw [broadcastMessage, hframes]; rfl)
  have hrun := hrun.extend
    (v := Server.announcing.setTasks 0
      { Server.paused.tasks 0 with
        direct := ⟨[frame], [], true⟩
        conn := .writing (frame ++ []) (0 + writeTimeout) })
    (.writer (c := 0) (l := .takeFrame frame) (.takeFrame rfl rfl))
    (by
      rw [Server.announcing, tasks_setTasks_self, setTasks_setTasks, setTasks_setTasks,
        List.append_nil]
      rfl)
  have hrun := hrun.extend (v := Server.told)
    (.writer (c := 0) (l := .write frame)
      (.write (by rw [tasks_setTasks_self]) (frameBytes_ne_nil encodes_hi)))
    (by
      simp only [tasks_setTasks_self, setSock_setTasks, setTasks_setTasks, sock_setTasks, if_true]
      rfl)
  exact hrun.append (run_write (X := .standard) rfl rfl rfl (by decide) rfl (by decide))

theorem quiescent_toldTwice : Server.toldTwice.Quiescent .standard := by
  refine quiescent_of_waits fun c => ?_
  by_cases hc : c = 0
  · subst hc
    exact .inr ⟨rfl, rfl, rfl, .inr ⟨_, _, rfl, by decide, rfl, rfl⟩⟩
  · left
    simp [Server.toldTwice, wrote, told, announcing, paused, attended, served, setTasks, hc, opened,
      Server.init]

theorem exists_tellTwice :
    ∃ p, ParcelRun .standard (ServerLabel.EventOf "hi") (ServerLabel.FramesOf "hi")
      (Server.paused, fun _ => .unsent) (.owner (.broadcastHub "hi") :: announceLabels)
      (Server.toldTwice, p) :=
  exists_parcelRun _ _ run_tellTwice (by simp [announceLabels, writeLabels, ServerLabel.Smooth]) _

theorem reachable_paused : ServerReachable .standard Server.paused := ⟨0, run_pause.reachable⟩

theorem serves_paused : Server.paused.Serves 0 := ⟨⟨_, List.mem_cons_self .., rfl⟩, trivial⟩

theorem holds_toldTwice : Server.toldTwice.peers.Holds 0 := ⟨_, List.mem_cons_self .., rfl⟩

/-- A short announcement is received twice. -/
theorem announcement_comes_twice :
    ∃ p, ParcelRun .standard (ServerLabel.EventOf "hi") (ServerLabel.FramesOf "hi")
        (Server.paused, fun _ => .unsent) (.owner (.broadcastHub "hi") :: announceLabels)
        (Server.toldTwice, p) ∧
      ServerReachable .standard Server.paused ∧ Server.paused.Serves 0 ∧
      .owner (.broadcastFrames "hi") ∈ announceLabels ∧ Server.toldTwice.Quiescent .standard ∧
      (p 0).got.Perm [frameBytes SerdeJson.standard (.system "hi"),
        frameBytes SerdeJson.standard (.chat "[system]" "hi")] := by
  obtain ⟨p, hrun⟩ := exists_tellTwice
  have hcall : ServerLabel.owner (.broadcastFrames "hi") ∈ announceLabels := List.mem_cons_self ..
  have hgot := hrun.announced reachable_paused encodes_hi serves_paused hcall quiescent_toldTwice
    holds_toldTwice
  have hevent : eventFrames SerdeJson.standard (announcement "hi") =
      [frameBytes SerdeJson.standard (.chat "[system]" "hi")] :=
    (eventFrames_message ..).trans (if_pos (by decide))
  refine ⟨p, hrun, reachable_paused, serves_paused, hcall, quiescent_toldTwice, ?_⟩
  rw [show Crates.standard.json = SerdeJson.standard from rfl, hevent] at hgot
  exact hgot

theorem announcement_once_iff_twice :
    ∃ p, ParcelRun .standard (ServerLabel.EventOf "hi") (ServerLabel.FramesOf "hi")
        (Server.paused, fun _ => .unsent) (.owner (.broadcastHub "hi") :: announceLabels)
        (Server.toldTwice, p) ∧
      ¬ ∃ frame, (p 0).got = [frame] ∧ Carries SerdeJson.standard "hi" frame := by
  obtain ⟨p, hrun⟩ := exists_tellTwice
  refine ⟨p, hrun, fun honce => ?_⟩
  exact (announcement_once_iff reachable_paused encodes_hi serves_paused hrun
    (List.mem_cons_self ..) quiescent_toldTwice holds_toldTwice).mp honce (by decide)

end Nullpipe.Hub

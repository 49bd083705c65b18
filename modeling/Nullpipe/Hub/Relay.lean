import Nullpipe.Hub.Parcel

/-!
# Relaying a chat message

A chat message of one peer goes to the others as an event of the broadcast channel, to
which the writer of the sender listens as well.  `relay_to_others_iff` is about a message
that the reader of a registered peer has just decoded, and about the hub at rest after
any run in which no writer has trouble.

`Relaying` says where the message is: with its reader, or an event of the log at a position
that the parcels know.  A reader holds the message until it relays it
(`ServerStep.keeps_relaying`), and at rest it has relayed it, or waits for the message channel.
`ParcelRun.relayed` is the run lemma: every peer that is served gets the frame of the event
once, its sender among them, if the event makes a frame.

So the law that the others get it and the sender does not holds in one case only: the event
makes no frame under the registered name, and there is nobody else to get it.  The other side
is `sender_hears_itself`, where the hub has one peer and that peer says something.
-/

namespace Nullpipe.Hub

open Channel Transition Server

variable {X : Crates} {s t : Server} {a c : ConnId} {l : ServerLabel} {id : PeerId}
  {name text : String} {msg : WireMessage} {p q : ConnId → Parcel} {ls : List ServerLabel}

/-- A registered peer whose writer runs. -/
def Server.Serves (s : Server) (c : ConnId) : Prop := s.peers.Holds c ∧ (s.tasks c).conn.Runs

/-- The reader of `a` relays a chat message. -/
def ServerLabel.RelayOf (a : ConnId) (l : ServerLabel) : Prop := l = .reader a .relay

instance (a : ConnId) : DecidablePred (ServerLabel.RelayOf a) :=
  fun l => inferInstanceAs (Decidable (l = _))

/-- A relayed message is sent to no direct queue. -/
def ServerLabel.Never (_ : ServerLabel) : Prop := False

instance : DecidablePred ServerLabel.Never := fun _ => inferInstanceAs (Decidable False)

/-! ## The message on its way -/

/-- The message is with its reader, or an event of the log. -/
def Relaying (a : ConnId) (id : PeerId) (name : String) (msg : WireMessage) (s : Server)
    (p : Parcel) : Prop :=
  (p.event = none ∧
    ((s.tasks a).reader = .sending msg ∨ (s.tasks a).reader = .relaying msg.text)) ∨
  ∃ i, p.event = some i ∧ s.bcast[i]? = some (.message id name msg.text)

theorem getElem?_mono {α : Type*} {as bs : List α} {i : ℕ} {x : α} (h : as <+: bs)
    (hget : as[i]? = some x) : bs[i]? = some x := by
  obtain ⟨hi, hentry⟩ := List.getElem?_eq_some_iff.mp hget
  rw [List.prefix_iff_getElem?.mp h i hi, hentry]

/-- Until it relays the message the reader holds it. -/
theorem ServerStep.keeps_relaying (h : ServerStep X l s t) (hl : l ≠ .reader a .relay)
    (hs : s.WellFormed) (hkind : msg.kind = .chat)
    (hholds : (s.tasks a).reader = .sending msg ∨ (s.tasks a).reader = .relaying msg.text) :
    (t.tasks a).reader = .sending msg ∨ (t.tasks a).reader = .relaying msg.text := by
  have hsent : afterSend msg s.now = .relaying msg.text := if_pos hkind
  by_cases hof : l.of = some a
  · cases h.own hof with
    | accept =>
        rw [tasks_setTasks_self]
        exact hholds
    | shake | arrive | finish => exact hholds
    | conn h =>
        cases h with
        | spawnReader hconn =>
            rw [(hs.fits a).reader.mpr (by rw [hconn]; decide)] at hholds
            rcases hholds with hholds | hholds <;> cases hholds
        | _ =>
            simp only [tasks_setTasks_self]
            exact hholds
    | reader h =>
        cases h with
        | send hphase | sendClosed hphase =>
            rw [hphase] at hholds
            rcases hholds with hholds | hholds <;> cases hholds
            simp only [tasks_setTasks_self]
            exact .inr hsent
        | relay => exact absurd rfl hl
        | start hphase | read hphase | message hphase | ping hphase | badFrame hphase
        | badMessage hphase | readFail hphase | readTimeout hphase | pong hphase =>
            rw [hphase] at hholds
            rcases hholds with hholds | hholds <;> cases hholds
    | writer h => cases h <;> simp only [tasks_setTasks_self] <;> exact hholds
  · rw [(h.frame hof).1.reader]
    exact hholds

theorem ParcelStep.relaying {x y : Server × (ConnId → Parcel)}
    (h : ParcelStep X (ServerLabel.RelayOf a) ServerLabel.Never l x y) (hs : x.1.WellFormed)
    (hadm : x.1.Admitted a id name) (hkind : msg.kind = .chat)
    (hx : Relaying a id name msg x.1 (x.2 c)) : Relaying a id name msg y.1 (y.2 c) := by
  obtain ⟨hstep, hnext⟩ := h
  obtain ⟨u, p⟩ := x
  obtain ⟨v, q⟩ := y
  dsimp only at hstep hnext hs hadm hx ⊢
  subst hnext
  -- a step that is not the relay leaves the event of the parcel as it was
  have hevent : ((p c).next (ServerLabel.RelayOf a) ServerLabel.Never c l u v).event =
      if (p c).event = none ∧ ServerLabel.RelayOf a l then some u.bcast.length
      else (p c).event := by
    cases l with
    | writer d l =>
        rw [if_neg (fun hrelay => by cases hrelay.2)]
        dsimp only [Parcel.next]
        split
        · cases l <;> first | rfl | (dsimp only [Parcel.written]; split; all_goals rfl)
        · rfl
    | _ => rfl
  rw [Relaying, hevent]
  rcases hx with ⟨hunsent, hholds⟩ | ⟨i, hsent, hget⟩
  · by_cases hrelay : ServerLabel.RelayOf a l
    · -- the relay: its event is the last of the log
      rw [if_pos ⟨hunsent, hrelay⟩]
      cases hrelay
      cases hstep with
      | reader hstep =>
          cases hstep with
          | relay hphase hadm' =>
              cases hadm.symm.trans hadm'
              rw [hphase] at hholds
              rcases hholds with hholds | hholds <;> cases hholds
              exact .inr ⟨_, rfl, List.getElem?_concat_length⟩
    · rw [if_neg (fun hboth => hrelay hboth.2)]
      exact .inl ⟨hunsent, hstep.keeps_relaying hrelay hs hkind hholds⟩
  · rw [if_neg (fun hboth => by rw [hsent] at hboth; cases hboth.1)]
    exact .inr ⟨i, hsent, getElem?_mono hstep.bcast hget⟩

theorem Parcel.frame_next_never {E : ServerLabel → Prop} [DecidablePred E] {p : Parcel}
    (hp : p.frame = none) : (p.next E ServerLabel.Never c l s t).frame = none := by
  cases l with
  | writer d l =>
      dsimp only [Parcel.next]
      split
      · cases l <;> dsimp only [Parcel.written] <;> first | exact hp | (split <;> exact hp)
      · exact hp
  | _ => exact (if_neg fun hnever => hnever.2.1).trans hp

/-- **A relayed message is written once to every peer served, its sender among them,** if
its frame fits. -/
theorem ParcelRun.relayed (hs : ServerReachable X s) (hadm : s.Admitted a id name)
    (hphase : (s.tasks a).reader = .sending msg) (hkind : msg.kind = .chat)
    (hrun : ParcelRun X (ServerLabel.RelayOf a) ServerLabel.Never (s, fun _ => .unsent) ls (t, p))
    (hrest : t.Quiescent X) (hroom : t.msgs.HasRoom msgChanCap) (hruns : (s.tasks c).conn.Runs) :
    (p c).got = eventFrames X.json (.message id name msg.text) := by
  have hwell := hs.wellFormed
  have hstage : 2 ≤ (s.tasks a).conn.stage := by
    by_contra hlow
    have hnone := (hwell.fits a).reader.mpr (by omega)
    rw [hphase] at hnone
    cases hnone
  obtain ⟨-, hadm', -, hframe, hrelaying⟩ : t.WellFormed ∧ t.Admitted a id name ∧
      2 ≤ (t.tasks a).conn.stage ∧ (p c).frame = none ∧ Relaying a id name msg t (p c) := by
    refine hrun.invariant (I := fun x => x.1.WellFormed ∧ x.1.Admitted a id name ∧
      2 ≤ (x.1.tasks a).conn.stage ∧ (x.2 c).frame = none ∧ Relaying a id name msg x.1 (x.2 c))
      ⟨hwell, hadm, hstage, rfl, .inl ⟨rfl, .inl hphase⟩⟩ ?_
    rintro l x y ⟨hwell, hadm, hstage, hframe, hrelaying⟩ ⟨hstep, hsmooth⟩
    refine ⟨hstep.1.wellFormed hwell, hstep.1.admitted hadm hstage, ?_, ?_,
      hstep.relaying hwell hadm hkind hrelaying⟩
    · rcases hstep.1.stage (c := a) with hsame | hnext <;> omega
    · rw [hstep.2]
      exact Parcel.frame_next_never hframe
  obtain ⟨hwell', htracked⟩ := hrun.tracked hwell hruns
  have hgot := htracked.got hwell' hrest
  rcases hrelaying with ⟨-, hholds⟩ | ⟨i, hsent, hget⟩
  · -- a reader at rest holds nothing while the channel has room
    rcases hholds with hholds | hholds
    · cases hrest _ _ (.reader (.send hholds hadm' hroom))
    · cases hrest _ _ (.reader (.relay hholds hadm'))
  · rw [hframe, hsent, Option.bind_some, hget] at hgot
    simp only [Option.bind_none, Option.toList_none, Option.toList_some, List.nil_append,
      List.flatMap_singleton] at hgot
    unfold eventFrames at hgot ⊢
    dsimp only [eventMessage] at hgot ⊢
    split at hgot
    · rename_i hfits
      rw [if_pos hfits]
      exact List.perm_singleton.mp hgot
    · rename_i hfits
      rw [if_neg hfits]
      exact List.perm_nil.mp hgot

theorem eventFrames_message (json : SerdeJson) (id : PeerId) (name text : String) :
    eventFrames json (.message id name text) =
      if Encodes json (.chat name text) then [frameBytes json (.chat name text)] else [] := rfl

/-! ## Who gets it -/

/-- **A chat message reaches the other peers and not its sender exactly when it reaches
nobody:** its frame does not fit under the registered name, and there is no other peer. -/
theorem relay_to_others_iff {joinedAt : ℕ} (hs : ServerReachable X s)
    (hentry : (id, ⟨name, joinedAt, a⟩) ∈ s.peers.inner) (ha : (s.tasks a).conn.Runs)
    (hphase : (s.tasks a).reader = .sending msg) (hkind : msg.kind = .chat)
    (hrun : ParcelRun X (ServerLabel.RelayOf a) ServerLabel.Never (s, fun _ => .unsent) ls (t, p))
    (hrest : t.Quiescent X) (hroom : t.msgs.HasRoom msgChanCap) :
    (∀ c, s.Serves c → (p c).got =
      if c = a then [] else [frameBytes X.json (.chat name msg.text)]) ↔
      ¬ Encodes X.json (.chat name msg.text) ∧ ∀ c, s.Serves c → c = a := by
  have hadm : s.Admitted a id name := (hs.wellFormed.entries _ hentry).1
  have hserves : s.Serves a := ⟨⟨_, hentry, rfl⟩, ha⟩
  have hgot : ∀ c, s.Serves c →
      (p c).got = eventFrames X.json (.message id name msg.text) := fun c hc =>
    hrun.relayed hs hadm hphase hkind hrest hroom hc.2
  have hframes := eventFrames_message X.json id name msg.text
  constructor
  · intro hothers
    have hnot : ¬ Encodes X.json (.chat name msg.text) := by
      intro hfits
      have hback := (hgot a hserves).symm.trans (hothers a hserves)
      rw [hframes, if_pos hfits, if_pos rfl] at hback
      cases hback
    refine ⟨hnot, fun c hc => ?_⟩
    by_contra hne
    have hsame := (hgot c hc).symm.trans (hothers c hc)
    rw [hframes, if_neg hnot, if_neg hne] at hsame
    cases hsame
  · rintro ⟨hnot, honly⟩ c hc
    rw [hgot c hc, hframes, if_neg hnot, if_pos (honly c hc)]

/-! ### A message that comes back -/

/-- The only peer has said something, and the hub has it. -/
def Server.greeted : Server := Server.attended.heard .standard 0 (.chat "ann" "hi")

theorem run_greet : ServerRun .standard (.init 0) (attendLabels ++ hearLabels .standard 0
    (.chat "ann" "hi")) Server.greeted :=
  run_attend.append (run_hear rfl rfl rfl (by decide) nofun)

theorem reachable_greeted : ServerReachable .standard Server.greeted := ⟨0, run_greet.reachable⟩

/-- The message has come back to the peer. -/
def Server.echoed : Server :=
  (Server.attended.relayed .standard 0 (peerId .standard (.fill 7)) (peerName .standard (.fill 7))
    (.chat "ann" "hi")).wrote SerdeJson.standard 0 (.chat (peerName .standard (.fill 7)) "hi")

def echoLabels : List ServerLabel :=
  [.reader 0 .send, .reader 0 .relay] ++
    writeLabels SerdeJson.standard 0
      (.message (peerId .standard (.fill 7)) (peerName .standard (.fill 7)) "hi")
      (.chat (peerName .standard (.fill 7)) "hi")

theorem encodes_echo : Encodes SerdeJson.standard (.chat (peerName .standard (.fill 7)) "hi") := by
  decide

theorem run_echo : ServerRun .standard Server.greeted echoLabels Server.echoed := by
  have hadm : Server.attended.Admitted 0 (peerId .standard (.fill 7))
      (peerName .standard (.fill 7)) := rfl
  have hpass : ServerRun .standard Server.greeted _ (Server.attended.relayed .standard 0
      (peerId .standard (.fill 7)) (peerName .standard (.fill 7)) (.chat "ann" "hi")) :=
    run_pass hadm rfl ⟨rfl, by decide⟩
  exact hpass.append (run_write (X := .standard) rfl rfl rfl (by decide) rfl encodes_echo)

theorem quiescent_echoed : Server.echoed.Quiescent .standard := by
  refine quiescent_of_waits fun c => ?_
  by_cases hc : c = 0
  · subst hc
    exact .inr ⟨rfl, rfl, rfl, .inr ⟨_, _, rfl, by decide, rfl, rfl⟩⟩
  · left
    simp [Server.echoed, wrote, relayed, heard, attended, served, setTasks, hc, opened, Server.init]

theorem exists_echo :
    ∃ p, ParcelRun .standard (ServerLabel.RelayOf 0) ServerLabel.Never
      (Server.greeted, fun _ => .unsent) echoLabels (Server.echoed, p) :=
  exists_parcelRun _ _ run_echo (by simp [echoLabels, writeLabels, ServerLabel.Smooth]) _

/-- The sender of a chat message gets it back. -/
theorem sender_hears_itself :
    ∃ p, ParcelRun .standard (ServerLabel.RelayOf 0) ServerLabel.Never
        (Server.greeted, fun _ => .unsent) echoLabels (Server.echoed, p) ∧
      ServerReachable .standard Server.greeted ∧ Server.greeted.Serves 0 ∧
      (Server.greeted.tasks 0).reader = .sending (.chat "ann" "hi") ∧
      Server.echoed.Quiescent .standard ∧ Server.echoed.msgs.HasRoom msgChanCap ∧
      (p 0).got = [frameBytes SerdeJson.standard (.chat (peerName .standard (.fill 7)) "hi")] := by
  obtain ⟨p, hrun⟩ := exists_echo
  have hadm : Server.greeted.Admitted 0 (peerId .standard (.fill 7))
      (peerName .standard (.fill 7)) := rfl
  have hroom : Server.echoed.msgs.HasRoom msgChanCap := ⟨rfl, by decide⟩
  have hgot := hrun.relayed (c := 0) reachable_greeted hadm rfl rfl quiescent_echoed hroom trivial
  refine ⟨p, hrun, reachable_greeted, ⟨⟨_, List.mem_cons_self .., rfl⟩, trivial⟩, rfl,
    quiescent_echoed, hroom, hgot.trans ?_⟩
  exact (eventFrames_message ..).trans (if_pos encodes_echo)

theorem relay_to_others_iff_echo :
    ∃ p, ParcelRun .standard (ServerLabel.RelayOf 0) ServerLabel.Never
        (Server.greeted, fun _ => .unsent) echoLabels (Server.echoed, p) ∧
      ¬ ∀ c, Server.greeted.Serves c → (p c).got = if c = 0 then [] else
        [frameBytes SerdeJson.standard (.chat (peerName .standard (.fill 7)) "hi")] := by
  obtain ⟨p, hrun⟩ := exists_echo
  refine ⟨p, hrun, fun hothers => ?_⟩
  exact ((relay_to_others_iff reachable_greeted (List.mem_cons_self ..) trivial rfl rfl hrun
    quiescent_echoed ⟨rfl, by decide⟩).mp hothers).1 encodes_echo

end Nullpipe.Hub

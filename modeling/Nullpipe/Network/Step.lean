import Nullpipe.Session.Step

/-!
# A room and all who join it

A hosted room and any number of joiners.  The connections in `guests` are the streams
of joiners that run this program; on the others anybody may be, and send what they
like.  The transport between the room and each guest is that of a session, and all
share one clock.

What one guest and the room do is a run of their session, whatever the others do
(`NetworkRun.session`), so what holds of every session holds in the whole network.
-/

namespace Nullpipe

open Channel Room Transition

/-- A hosted room and the joiners of the connections. -/
structure Network where
  room : Room
  joiners : ConnId → Joiner

inductive NetworkLabel
  | room (l : Label)
  | joiner (c : ConnId) (l : JoinerLabel)
  | toHub (c : ConnId) (chunk : List UInt8)
  | toJoiner (c : ConnId) (chunk : List UInt8)
  /-- joiner `c` has hung up -/
  | hubEnd (c : ConnId) (e : ReadEnd)
  /-- the hub has hung up on joiner `c` -/
  | joinerEnd (c : ConnId) (e : ReadEnd)
  | tick (d : ℕ)
  deriving DecidableEq

namespace Network

/-- The room and the joiners as `host` and `join` leave them. -/
def init (now : ℕ) (configs : ConnId → JoinConfig) : Network :=
  ⟨Room.init now, fun c => Joiner.init now (configs c)⟩

/-- Replace one joiner. -/
def setJoiner (n : Network) (c : ConnId) (j : Joiner) : Network :=
  { n with joiners := Function.update n.joiners c j }

/-- The room and one of the joiners. -/
def session (n : Network) (c : ConnId) : Session := ⟨n.room, n.joiners c⟩

@[simp] theorem room_session (n : Network) (c : ConnId) : (n.session c).room = n.room := rfl

@[simp] theorem joiner_session (n : Network) (c : ConnId) :
    (n.session c).joiner = n.joiners c := rfl

@[simp] theorem session_setJoiner_self (n : Network) (c : ConnId) (j : Joiner) :
    (n.setJoiner c j).session c = ⟨n.room, j⟩ := by
  simp [session, setJoiner]

theorem session_setJoiner_of_ne (n : Network) {c d : ConnId} (j : Joiner) (hne : d ≠ c) :
    (n.setJoiner c j).session d = n.session d := by
  simp [session, setJoiner, hne]

end Network

/-- The steps of a room that are neither the transport of a guest nor the clock. -/
def Label.AtHost (guests : Set ConnId) : Label → Prop
  | .net d _ => d ∉ guests
  | .tick _ => False
  | _ => True

theorem Label.AtHost.atHub {guests : Set ConnId} {l : Label} (hl : l.AtHost guests) {c : ConnId}
    (hc : c ∈ guests) : l.AtHub c := by
  cases l with
  | net d =>
      rintro rfl
      exact hl hc
  | tick => exact hl
  | _ => trivial

section

variable (X : Crates) (cfg : HostConfig) (checks : Bool) (guests : Set ConnId)

/-- The steps of a network. -/
inductive NetworkStep : NetworkLabel → Network → Network → Prop
  | room {l : Label} {n : Network} {r : Room} (h : Step X cfg l n.room r) (hl : l.AtHost guests) :
      NetworkStep (.room l) n { n with room := r }
  | joiner {c : ConnId} {l : JoinerLabel} {n : Network} {j : Joiner} (hc : c ∈ guests)
      (h : JoinerStep X checks l (n.joiners c) j) (hl : l.AtJoiner) :
      NetworkStep (.joiner c l) n (n.setJoiner c j)
  | toHub {c : ConnId} {chunk : List UInt8} {n : Network} {r : Room} (hc : c ∈ guests)
      (hchunk : chunk ≠ [])
      (hnext : (n.room.conns c).sock.arrived ++ chunk <+: (n.joiners c).sock.written)
      (h : NetStep c (.arrive chunk) n.room r) :
      NetworkStep (.toHub c chunk) n { n with room := r }
  | toJoiner {c : ConnId} {chunk : List UInt8} {n : Network} {j : Joiner} (hc : c ∈ guests)
      (hchunk : chunk ≠ [])
      (hnext : (n.joiners c).sock.arrived ++ chunk <+: (n.room.conns c).sock.written)
      (h : JoinerStep X checks (.net chunk) (n.joiners c) j) :
      NetworkStep (.toJoiner c chunk) n (n.setJoiner c j)
  | hubEnd {c : ConnId} {e : ReadEnd} {n : Network} {r : Room} (hc : c ∈ guests)
      (hdropped : (n.joiners c).main.Dropped)
      (hall : (n.room.conns c).sock.arrived = (n.joiners c).sock.written)
      (h : NetStep c (.finish e) n.room r) :
      NetworkStep (.hubEnd c e) n { n with room := r }
  | joinerEnd {c : ConnId} {e : ReadEnd} {n : Network} {j : Joiner} (hc : c ∈ guests)
      (hdropped : (n.room.conns c).Dropped)
      (hall : (n.joiners c).sock.arrived = (n.room.conns c).sock.written)
      (h : JoinerStep X checks (.finish e) (n.joiners c) j) :
      NetworkStep (.joinerEnd c e) n (n.setJoiner c j)
  | tick {n : Network} {d : ℕ} :
      NetworkStep (.tick d) n
        { room := { n.room with now := n.room.now + d }
          joiners := fun c => { n.joiners c with now := (n.joiners c).now + d } }

end

variable {X : Crates} {cfg : HostConfig} {checks : Bool} {guests : Set ConnId}
  {m n : Network} {c : ConnId}

/-! ## One guest at a time -/

/-- **A step of the network is a step of the session of each guest**, or that session does
not see it. -/
theorem NetworkStep.session {l : NetworkLabel} (h : NetworkStep X cfg checks guests l m n)
    (hc : c ∈ guests) : n.session c = m.session c ∨
      ∃ l', SessionStep X cfg checks c l' (m.session c) (n.session c) := by
  cases h with
  | room h hl => exact .inr ⟨_, .room h (hl.atHub hc)⟩
  | @joiner d _ _ j _ h hl =>
      by_cases hd : c = d
      · subst hd
        rw [Network.session_setJoiner_self]
        exact .inr ⟨_, .joiner h hl⟩
      · exact .inl (Network.session_setJoiner_of_ne _ _ hd)
  | @toHub d _ _ r _ hchunk hnext h =>
      by_cases hd : c = d
      · subst hd
        exact .inr ⟨_, .toHub hchunk hnext h⟩
      · -- the transport of another guest is a step of the room
        exact .inr ⟨_, .room (.net h) (Ne.symm hd)⟩
  | @toJoiner d _ _ j _ hchunk hnext h =>
      by_cases hd : c = d
      · subst hd
        rw [Network.session_setJoiner_self]
        exact .inr ⟨_, .toJoiner hchunk hnext h⟩
      · exact .inl (Network.session_setJoiner_of_ne _ _ hd)
  | @hubEnd d _ _ r _ hdropped hall h =>
      by_cases hd : c = d
      · subst hd
        exact .inr ⟨_, .hubEnd hdropped hall h⟩
      · exact .inr ⟨_, .room (.net h) (Ne.symm hd)⟩
  | @joinerEnd d _ _ j _ hdropped hall h =>
      by_cases hd : c = d
      · subst hd
        rw [Network.session_setJoiner_self]
        exact .inr ⟨_, .joinerEnd hdropped hall h⟩
      · exact .inl (Network.session_setJoiner_of_ne _ _ hd)
  | tick => exact .inr ⟨_, .tick⟩

/-- **The session of a guest in a run of the network.** -/
theorem NetworkRun.session {ls : List NetworkLabel}
    (hrun : Run (NetworkStep X cfg checks guests) m ls n) (hc : c ∈ guests) :
    ∃ ks, Run (SessionStep X cfg checks c) (m.session c) ks (n.session c) :=
  hrun.project (Network.session · c) fun h => h.session hc

/-- The room of a network takes the steps of a room. -/
theorem NetworkRun.room {ls : List NetworkLabel}
    (hrun : Run (NetworkStep X cfg checks guests) m ls n) :
    ∃ ks, RoomRun X cfg m.room ks n.room := by
  refine hrun.project Network.room fun {l s t} h => ?_
  cases h with
  | room h => exact .inr ⟨_, h⟩
  | joiner | toJoiner | joinerEnd => exact .inl rfl
  | toHub _ _ _ h => exact .inr ⟨_, .net h⟩
  | hubEnd _ _ _ h => exact .inr ⟨_, .net h⟩
  | tick => exact .inr ⟨_, .tick⟩

/-! ## A session alone -/

/-- The step of the network that is this step of the session of guest `c`. -/
def SessionLabel.toNetwork (c : ConnId) : SessionLabel → NetworkLabel
  | .room l => .room l
  | .joiner l => .joiner c l
  | .toHub chunk => .toHub c chunk
  | .toJoiner chunk => .toJoiner c chunk
  | .hubEnd e => .hubEnd c e
  | .joinerEnd e => .joinerEnd c e
  | .tick d => .tick d

/-- A network with one guest takes the steps of its session. -/
theorem SessionStep.network {l : SessionLabel} {t : Session}
    (h : SessionStep X cfg checks c l (n.session c) t) :
    ∃ n', NetworkStep X cfg checks {c} (l.toNetwork c) n n' ∧ n'.session c = t := by
  have hc : c ∈ ({c} : Set ConnId) := rfl
  cases h with
  | @room l _ r h hl =>
      refine ⟨_, .room h ?_, rfl⟩
      cases l <;> exact hl
  | joiner h hl => exact ⟨_, .joiner hc h hl, n.session_setJoiner_self ..⟩
  | toHub hchunk hnext h => exact ⟨_, .toHub hc hchunk hnext h, rfl⟩
  | toJoiner hchunk hnext h =>
      exact ⟨_, .toJoiner hc hchunk hnext h, n.session_setJoiner_self ..⟩
  | hubEnd hdropped hall h => exact ⟨_, .hubEnd hc hdropped hall h, rfl⟩
  | joinerEnd hdropped hall h =>
      exact ⟨_, .joinerEnd hc hdropped hall h, n.session_setJoiner_self ..⟩
  | tick => exact ⟨_, .tick, rfl⟩

theorem SessionRun.network {ls : List SessionLabel} {s t : Session}
    (hrun : Run (SessionStep X cfg checks c) s ls t) (hs : n.session c = s) :
    ∃ n', Run (NetworkStep X cfg checks {c}) n (ls.map (SessionLabel.toNetwork c)) n' ∧
      n'.session c = t := by
  refine hrun.relabel (R := fun s (n : Network) => n.session c = s) _
    (fun _ _ => trivial : ∀ l ∈ ls, True) hs ?_
  rintro l s t n - rfl hstep
  exact hstep.network

end Nullpipe

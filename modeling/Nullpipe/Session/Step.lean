import Nullpipe.Room.Frame
import Nullpipe.Joiner.Step

/-!
# A joiner in a room

A hosted room and one joiner whose stream is the room's connection `c`.  The room
may have any other clients.  The transport carries what either side writes to the
other one in chunks of any size, loses nothing, and ends a stream only after the
other side has dropped its end and everything it wrote has arrived.  Both sides
read one clock.
-/

namespace Nullpipe

open Channel Room Transition

/-- A hosted room and a joiner. -/
structure Session where
  room : Room
  joiner : Joiner

inductive SessionLabel
  | room (l : Label)
  | joiner (l : JoinerLabel)
  | toHub (chunk : List UInt8)
  | toJoiner (chunk : List UInt8)
  /-- the joiner has hung up -/
  | hubEnd (e : ReadEnd)
  /-- the hub has hung up -/
  | joinerEnd (e : ReadEnd)
  | tick (d : ℕ)
  deriving DecidableEq

/-- The hub has dropped its end of the stream: the handshake failed, or both halves
are gone. -/
def Conn.Dropped (k : Conn) : Prop :=
  (∃ e, k.handler = .failed e) ∨ (∃ reason, k.reader = .ended reason) ∧ k.writer = .ended

/-- The joiner has dropped its end of the stream. -/
def JoinMain.Dropped : JoinMain → Prop
  | .sendError _ | .failed _ | .emitError _ | .emitClosed | .ended => True
  | _ => False

/-- The steps of a room that are not the transport of connection `c` or the clock. -/
def Label.AtHub (c : ConnId) : Label → Prop
  | .net d _ => d ≠ c
  | .tick _ => False
  | _ => True

/-- The steps of a joiner that are not its transport or the clock. -/
def JoinerLabel.AtJoiner : JoinerLabel → Prop
  | .net _ | .finish _ | .tick _ => False
  | _ => True

section

variable (X : Crates) (cfg : HostConfig) (checks : Bool) (c : ConnId)

/-- The steps of a session. -/
inductive SessionStep : SessionLabel → Session → Session → Prop
  | room {l : Label} {s : Session} {r : Room} (h : Step X cfg l s.room r) (hl : l.AtHub c) :
      SessionStep (.room l) s { s with room := r }
  | joiner {l : JoinerLabel} {s : Session} {j : Joiner} (h : JoinerStep X checks l s.joiner j)
      (hl : l.AtJoiner) : SessionStep (.joiner l) s { s with joiner := j }
  | toHub {chunk : List UInt8} {s : Session} {r : Room} (hchunk : chunk ≠ [])
      (hnext : (s.room.conns c).sock.arrived ++ chunk <+: s.joiner.sock.written)
      (h : NetStep c (.arrive chunk) s.room r) :
      SessionStep (.toHub chunk) s { s with room := r }
  | toJoiner {chunk : List UInt8} {s : Session} {j : Joiner} (hchunk : chunk ≠ [])
      (hnext : s.joiner.sock.arrived ++ chunk <+: (s.room.conns c).sock.written)
      (h : JoinerStep X checks (.net chunk) s.joiner j) :
      SessionStep (.toJoiner chunk) s { s with joiner := j }
  | hubEnd {e : ReadEnd} {s : Session} {r : Room} (hdropped : s.joiner.main.Dropped)
      (hall : (s.room.conns c).sock.arrived = s.joiner.sock.written)
      (h : NetStep c (.finish e) s.room r) :
      SessionStep (.hubEnd e) s { s with room := r }
  | joinerEnd {e : ReadEnd} {s : Session} {j : Joiner} (hdropped : (s.room.conns c).Dropped)
      (hall : s.joiner.sock.arrived = (s.room.conns c).sock.written)
      (h : JoinerStep X checks (.finish e) s.joiner j) :
      SessionStep (.joinerEnd e) s { s with joiner := j }
  | tick {s : Session} {d : ℕ} :
      SessionStep (.tick d) s
        { room := { s.room with now := s.room.now + d }
          joiner := { s.joiner with now := s.joiner.now + d } }

end

/-- The room of a session takes the steps of a room. -/
theorem SessionStep.room_step {X : Crates} {cfg : HostConfig} {checks : Bool} {c : ConnId}
    {l : SessionLabel} {s t : Session} (h : SessionStep X cfg checks c l s t) :
    t.room = s.room ∨ ∃ l', Step X cfg l' s.room t.room := by
  cases h with
  | room h => exact .inr ⟨_, h⟩
  | joiner | toJoiner | joinerEnd => exact .inl rfl
  | toHub _ _ h => exact .inr ⟨_, .net h⟩
  | hubEnd _ _ h => exact .inr ⟨_, .net h⟩
  | tick => exact .inr ⟨_, .tick⟩

/-- The room of a session stays reachable. -/
theorem SessionStep.reachable {X : Crates} {cfg : HostConfig} {checks : Bool} {c : ConnId}
    {l : SessionLabel} {s t : Session} (h : SessionStep X cfg checks c l s t)
    (hs : RoomReachable X cfg s.room) : RoomReachable X cfg t.room := by
  rcases h.room_step with hsame | ⟨l', hstep⟩
  · rwa [hsame]
  · exact hs.run (.single hstep)

end Nullpipe

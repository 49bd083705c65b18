import Nullpipe.Room.Admit
import Nullpipe.Room.Messages
import Nullpipe.Core.Standard

/-!
# What reaches the other peers

The outgoing stream of every served peer is fed by the broadcast log.  Over a
part of a run that starts and ends with empty queues, the relay law asks that
the log of a peer grow by the texts of the host and the chats read from all other
peers; `relayLaw_iff` says when it does.

The hub's own reader puts what a peer says on the message channel, and the host loop makes an
event of it for its user; nothing takes it to the broadcast log.  So the law splits in two.

* The log grows by what the host loop takes of its user: `broadcasts_eq_hostTexts`, with
  `HostLoop.pending` for the text that has been taken and not broadcast yet.  A drained room
  holds none.
* The law then holds exactly if there is nothing else to grow by, which is to say that no
  chat is read from a peer while another one is connected.

`Room.couple` is the smallest room in which there is: ann and bob, and ann says something.
-/

namespace Nullpipe

open Channel Room Transition

variable {X : Crates} {cfg : HostConfig} {s t : Room} {c : ConnId} {ls : List Label}

/-! ## The texts of the host -/

/-- The text the host loop takes in a step, as it goes on the wire. -/
def Label.hostText (cfg : HostConfig) : Label → List WireMessage
  | .host (.takeText text) => [.chat cfg.name text]
  | _ => []

/-- The texts the host loop takes in a run. -/
def hostTexts (cfg : HostConfig) (ls : List Label) : List WireMessage :=
  ls.flatMap (Label.hostText cfg)

/-- The host loop once the accept loop runs. -/
def HostLoop.Running : HostLoop → Prop
  | .select | .echo _ | .broadcast _ | .deliver .. | .closing | .abortAccept | .joinAccept
  | .ended => True
  | _ => False

/-- The text the host loop has taken and not broadcast yet. -/
def HostLoop.pending (cfg : HostConfig) : HostLoop → List WireMessage
  | .echo text | .broadcast text => [.chat cfg.name text]
  | _ => []

/-- A step of the running host loop broadcasts what it has taken. -/
theorem HostStep.pending {l : HostLabel} (h : HostStep cfg l s t) (hs : s.host.Running) :
    t.host.Running ∧ (Label.host l).broadcasts ++ t.host.pending cfg =
      s.host.pending cfg ++ (Label.host l).hostText cfg := by
  cases h with
  | created hphase | createFailed hphase | sendReady hphase | sendReadyClosed hphase
  | publishInvite hphase | spawnAccept hphase | sendError hphase | sendErrorClosed hphase
  | failedShutdown hphase | failedTakeText hphase | failedSendClosed hphase
  | failedClose hphase =>
      rw [hphase] at hs
      cases hs
  | shutdown hphase | takeText hphase | sendClosed hphase | echo hphase | broadcast hphase
  | takeMessage hphase | deliver hphase | close hphase | abortAccept hphase
  | joinAccept hphase =>
      rw [hphase]
      exact ⟨trivial, rfl⟩

/-- What was broadcast, and what is about to be, is what the host loop took. -/
theorem broadcasts_eq_hostTexts (hrun : RoomRun X cfg s ls t) (hs : s.host = .select) :
    t.host.Running ∧ broadcasts ls ++ t.host.pending cfg = hostTexts cfg ls := by
  refine Transition.Run.history (I := fun ls t => t.host.Running ∧
    broadcasts ls ++ t.host.pending cfg = hostTexts cfg ls) hrun ?_ ?_
  · rw [hs]
    exact ⟨trivial, rfl⟩
  · rintro ls l t u ⟨hrunning, hsent⟩ hstep
    by_cases hl : ∃ l', l = .host l'
    · obtain ⟨l', rfl⟩ := hl
      cases hstep with
      | host h =>
          obtain ⟨hrunning', hpending⟩ := h.pending hrunning
          refine ⟨hrunning', ?_⟩
          rw [broadcasts_append, broadcasts_singleton, List.append_assoc, hpending,
            ← List.append_assoc, hsent, hostTexts, hostTexts, List.flatMap_append,
            List.flatMap_singleton]
    -- another task neither broadcasts nor takes a text
    · push Not at hl
      have hbroadcasts : l.broadcasts = [] := by
        unfold Label.broadcasts
        split
        · exact absurd rfl (hl _)
        · rfl
      have htext : l.hostText cfg = [] := by
        unfold Label.hostText
        split
        · exact absurd rfl (hl _)
        · rfl
      rw [hstep.host_eq hl]
      refine ⟨hrunning, ?_⟩
      rw [broadcasts_append, broadcasts_singleton, hbroadcasts, List.append_nil, hsent,
        hostTexts, hostTexts, List.flatMap_append, List.flatMap_singleton, htext, List.append_nil]

/-! ## The relay law -/

/-- The chat message the hub reads in a step, if it comes from a peer other than
`c`. -/
def Label.chatOfOther (c : ConnId) : Label → List WireMessage
  | .reader d (.message _ msg) => if d ≠ c ∧ msg.kind = .chat then [msg] else []
  | _ => []

/-- The chat messages the hub reads in a run from the peers other than `c`. -/
def chatsOfOthers (c : ConnId) (ls : List Label) : List WireMessage :=
  ls.flatMap (Label.chatOfOther c)

/-- The peer is registered and has its place on the broadcast channel. -/
def Connected (s : Room) (c : ConnId) : Prop := ∃ info, (s.conns c).handler = .serve info

/-- What is queued between two states to the outgoing stream of every peer that
stays connected: they all read one log, each from a position of its own. -/
def queuedBetween (s t : Room) : List WireMessage := t.bcast.drop s.bcast.length

/-- The relay law for a part of a run: besides the texts of the host, each chat
message the hub reads is queued once to every other connected peer, and it is not
queued to its sender. -/
def RelayLaw (cfg : HostConfig) (s : Room) (ls : List Label) (t : Room) : Prop :=
  ∀ c, Connected s c → Connected t c →
    (queuedBetween s t).Perm (hostTexts cfg ls ++ chatsOfOthers c ls)

/-- **The relay law holds exactly of the runs in which no chat message is read
from a peer while another one is connected.** -/
theorem relayLaw_iff (hrun : RoomRun X cfg s ls t) (hs : Drained s) (ht : Drained t) :
    RelayLaw cfg s ls t ↔ ∀ c, Connected s c → Connected t c → chatsOfOthers c ls = [] := by
  have hqueued : queuedBetween s t = hostTexts cfg ls := by
    have htexts := (broadcasts_eq_hostTexts hrun hs.host).2
    rw [ht.host] at htexts
    rw [queuedBetween, hrun.bcast, List.drop_left, ← htexts]
    exact (List.append_nil _).symm
  constructor
  · intro hlaw c hsc htc
    have hperm := (hlaw c hsc htc).length_eq
    rw [hqueued, List.length_append] at hperm
    exact List.length_eq_zero_iff.mp (by omega)
  · intro hnone c hsc htc
    rw [hqueued, hnone c hsc htc, List.append_nil]

/-! ### Two peers -/

/-- A room with two served peers, ann and bob. -/
def Room.couple : Room :=
  ((Room.opened ⟨"host", 300⟩ 0 "room.onion").admitted .standard 0 (.fill 0)
    (.fill 7) "ann").admitted
    .standard 1 (.fill 1) (.fill 8) "bob"

theorem reachable_couple : RoomReachable .standard ⟨"host", 300⟩ Room.couple :=
  ((reachable_opened ..).admitted rfl (by decide) rfl rfl (by decide) (by decide)
    (by decide)).admitted rfl (by decide) rfl rfl (by decide) (by decide) (by decide)

/-- Ann's reader gets a chat message, and the host loop delivers it. -/
def coupleLabels : List Label :=
  .reader 0 .start :: deliverLabels .standard 0 (peerId .standard (.fill 7)) (.chat "ann" "hi")

/-- The room after ann's message. -/
def Room.coupleAfter : Room :=
  (Room.couple.setConn 0 { Room.couple.conns 0 with
    reader := .reading (peerId .standard (.fill 7)) [] readTimeout }).delivered .standard 0
      (peerId .standard (.fill 7)) (.chat "ann" "hi")

theorem run_couple :
    RoomRun .standard ⟨"host", 300⟩ Room.couple coupleLabels Room.coupleAfter := by
  have hstart : RoomRun .standard ⟨"host", 300⟩ Room.couple [.reader 0 .start] _ :=
    Run.single (.reader (.start rfl))
  exact hstart.append ((run_take rfl rfl rfl (by decide) (by decide) rfl (by decide) rfl rfl
    rfl rfl).snoc (step_deliver ..))

/-- Every connection of the couple but the two is fresh. -/
theorem conns_couple (h0 : c ≠ 0) (h1 : c ≠ 1) : Room.couple.conns c = Conn.fresh := by
  rw [Room.couple, conns_admitted_of_ne h1, conns_admitted_of_ne h0]
  rfl

theorem drained_couple : Drained Room.couple := by
  refine ⟨rfl, rfl, fun c id msg hsending => ?_⟩
  by_cases h1 : c = 1
  · subst h1
    cases hsending
  by_cases h0 : c = 0
  · subst h0
    cases hsending
  · rw [conns_couple h0 h1] at hsending
    cases hsending

theorem drained_coupleAfter : Drained Room.coupleAfter := by
  refine ⟨rfl, rfl, fun c id msg hsending => ?_⟩
  by_cases h1 : c = 1
  · subst h1
    cases hsending
  by_cases h0 : c = 0
  · subst h0
    cases hsending
  · have hconn : Room.coupleAfter.conns c = Room.couple.conns c :=
      (conns_setConn_of_ne _ _ _ _ h0).trans (conns_setConn_of_ne _ _ _ _ h0)
    rw [hconn, conns_couple h0 h1] at hsending
    cases hsending

/-- Ann's message is not queued to bob. -/
theorem relayLaw_fails :
    ¬ ∀ s ls t, RoomReachable .standard ⟨"host", 300⟩ s →
      RoomRun .standard ⟨"host", 300⟩ s ls t → Drained s → Drained t →
        RelayLaw ⟨"host", 300⟩ s ls t := by
  intro hlaw
  have hperm := hlaw _ _ _ reachable_couple run_couple drained_couple drained_coupleAfter 1
    ⟨_, rfl⟩ ⟨_, rfl⟩
  cases hperm.length_eq

theorem relayLaw_iff_couple :
    ¬ RelayLaw ⟨"host", 300⟩ Room.couple coupleLabels Room.coupleAfter := by
  rw [relayLaw_iff run_couple drained_couple drained_coupleAfter]
  intro hnone
  cases hnone 1 ⟨_, rfl⟩ ⟨_, rfl⟩

end Nullpipe

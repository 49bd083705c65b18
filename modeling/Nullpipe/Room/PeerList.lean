import Nullpipe.Cli.App
import Nullpipe.Room.Service

/-!
# The list of peers on the screen

The user interface of a host keeps its own list of peers, made of the join and leave
events it is handed; the room keeps the peers map.  The events are put on a bounded
channel by a send that does not wait, so the two agree as long as no join or leave
event finds the channel full (`Announces`).

The list and the map are not compared with each other but both with the handlers.

* `Handler.listed` is the peer of a handler between its join and its leave event.  In a run
  that announces, the list that the application makes of the events sent so far has the ids
  of the listed handlers, each once: `Mirrored`, by `Step.listed_cases` and one lemma for
  either event (`Mirrors.peerJoin`, `Mirrors.peerLeave`).  Both need distinct ids, or a leave
  event takes a second peer off the list.
* `Handler.registered` is the peer of a handler between its entry in the map and its
  removal.  With distinct ids no two registrations clash, and the map tells the truth about
  them (`truthful_of_distinct`, from `Room/Peers.lean`).

A handler is registered before it is listed and deregistered before it is taken off the list.
`peer_list_converges` is about the states in which no handler is between the two
(`AllAnnounced`).  At the end `peer_list_diverges` shows the condition to matter: ann's join
event finds the channel full.
-/

namespace Nullpipe

open Channel Room Transition

variable {X : Crates} {cfg : HostConfig} {s t : Room} {c : ConnId} {l : Label}

/-! ## Listed peers -/

/-- The peer of a handler that has emitted its join event but not its leave event. -/
def Handler.listed : Handler → Option PeerInfo
  | .notifyJoin info _ | .spawnReader info | .subscribe info | .serve info | .abortWriter info
  | .deregister info | .emitLeave info => some info
  | _ => none

theorem Handler.listed_eq (h : Handler) :
    h.listed = match h.standing with
      | .announced info | .removed info => some info
      | _ => none := by
  cases h <;> rfl

theorem joined_of_listed {h : Handler} {info : PeerInfo} (hlisted : h.listed = some info) :
    h.joined = some info := by
  cases h with
  | notifyJoin | spawnReader | subscribe | serve | abortWriter | deregister | emitLeave =>
      exact hlisted
  | idle | spawned | readHandshake | lockNonces | rejectReused | writeAccept | flushAccept
  | readName | register | emitJoin | ended | failed => cases hlisted

/-- A handler is listed from its join event to its leave event. -/
theorem HandlerStep.listed {l : HandlerLabel} (h : HandlerStep X c l s t) :
    (l = .emitJoin ∧ ∃ info, (s.conns c).handler = .emitJoin info ∧
      (t.conns c).handler.listed = some info ∧
      t.events = s.events.trySend eventChanCap (.peerJoin info)) ∨
    (l = .emitLeave ∧ ∃ info, (s.conns c).handler = .emitLeave info ∧
      (t.conns c).handler.listed = none ∧
      t.events = s.events.trySend eventChanCap (.peerLeave info.id)) ∨
    ((t.conns c).handler.listed = (s.conns c).handler.listed ∧ t.events = s.events) := by
  cases h.standing with
  | emitJoin hphase hafter _ hevents =>
      refine .inl ⟨rfl, _, hphase, ?_, hevents⟩
      rw [Handler.listed_eq, hafter]
  | emitLeave hphase hafter _ hevents =>
      refine .inr (.inl ⟨rfl, _, hphase, ?_, hevents⟩)
      rw [hafter]
      rfl
  | register hphase hafter _ hevents | deregister hphase hafter _ hevents =>
      refine .inr (.inr ⟨?_, hevents⟩)
      rw [hafter, hphase]
      rfl
  | keep _ hsame _ hevents =>
      refine .inr (.inr ⟨?_, hevents⟩)
      rw [Handler.listed_eq, Handler.listed_eq, hsame]

/-! ## Membership events -/

/-- The events that change the list of peers. -/
def ChatEvent.membership : ChatEvent → Bool
  | .peerJoin _ | .peerLeave _ => true
  | _ => false

/-- The join and leave events of a log. -/
def memberships (events : List ChatEvent) : List ChatEvent := events.filter ChatEvent.membership

@[simp] theorem memberships_nil : memberships [] = [] := rfl

@[simp] theorem memberships_append (events more : List ChatEvent) :
    memberships (events ++ more) = memberships events ++ memberships more :=
  List.filter_append ..

theorem memberships_peerJoin (info : PeerInfo) :
    memberships [.peerJoin info] = [.peerJoin info] := rfl

theorem memberships_peerLeave (id : PeerId) : memberships [.peerLeave id] = [.peerLeave id] := rfl

/-- A join or leave event finds room on the event channel. -/
def Announces (s : Room) : Label → Prop
  | .handler _ .emitJoin | .handler _ .emitLeave => s.events.HasRoom eventChanCap
  | _ => True

/-- Only handlers emit join and leave events. -/
theorem Step.memberships_eq (h : Step X cfg l s t) (hl : ∀ c l', l ≠ .handler c l') :
    memberships t.events.sent = memberships s.events.sent := by
  rcases h.events with hsame | ⟨ev, hemit, -, hsent⟩
  · rw [hsame]
  · rw [hsent, memberships_append]
    cases hemit with
    | join | leave => exact absurd rfl (hl _ _)
    | echo | deliver | roomReady | roomClosed | error => exact List.append_nil _

/-- What a step does to the listed handlers and to the join and leave events, if those
find room. -/
theorem Step.listed_cases (h : Step X cfg l s t) (hok : Announces s l) :
    (∃ c info, (s.conns c).handler = .emitJoin info ∧ (t.conns c).handler.listed = some info ∧
      (∀ d ≠ c, t.conns d = s.conns d) ∧
      memberships t.events.sent = memberships s.events.sent ++ [.peerJoin info]) ∨
    (∃ c info, (s.conns c).handler = .emitLeave info ∧ (t.conns c).handler.listed = none ∧
      (∀ d ≠ c, t.conns d = s.conns d) ∧
      memberships t.events.sent = memberships s.events.sent ++ [.peerLeave info.id]) ∨
    ((∀ c, (t.conns c).handler.listed = (s.conns c).handler.listed) ∧
      memberships t.events.sent = memberships s.events.sent) := by
  by_cases hl : ∃ c l', l = .handler c l'
  · obtain ⟨c, l', rfl⟩ := hl
    cases h with
    | handler h =>
        rcases h.listed with ⟨rfl, info, hphase, hafter, hevents⟩ |
          ⟨rfl, info, hphase, hafter, hevents⟩ | ⟨hsame, hevents⟩
        -- there is room, so the event is sent
        · refine .inl ⟨c, info, hphase, hafter, fun d hd => h.conns_of_ne hd, ?_⟩
          rw [hevents, Mpsc.trySend_of_hasRoom hok, Mpsc.sent_push, memberships_append,
            memberships_peerJoin]
        · refine .inr (.inl ⟨c, info, hphase, hafter, fun d hd => h.conns_of_ne hd, ?_⟩)
          rw [hevents, Mpsc.trySend_of_hasRoom hok, Mpsc.sent_push, memberships_append,
            memberships_peerLeave]
        · refine .inr (.inr ⟨fun d => ?_, by rw [hevents]⟩)
          by_cases hd : d = c
          · rw [hd, hsame]
          · rw [h.conns_of_ne hd]
  · push Not at hl
    exact .inr (.inr ⟨fun c => h.observe Handler.listed rfl (hl c), h.memberships_eq hl⟩)

/-! ## The mirror -/

/-- A list of ids has the ids of the listed handlers, each once. -/
structure Mirrors (s : Room) (ids : List PeerId) : Prop where
  nodup : ids.Nodup
  mem : ∀ p, p ∈ ids ↔ ∃ c info, (s.conns c).handler.listed = some info ∧ info.id = p

/-- However the application handles the join and leave events sent so far, its list
has the ids of the listed handlers. -/
def Mirrored (s : Room) : Prop :=
  ∀ timestamps log, log.map Prod.snd = memberships s.events.sent →
    ∃ app, (App.new timestamps).replay log = some app ∧ Mirrors s app.ids

theorem mirrored_init (now : ℕ) : Mirrored (Room.init now) := by
  intro timestamps log hlog
  cases log with
  | nil =>
      refine ⟨_, rfl, List.nodup_nil, fun p => ⟨fun hp => (by cases hp), ?_⟩⟩
      rintro ⟨c, info, hlisted, -⟩
      cases hlisted
  | cons entry rest => cases hlog

/-- The application after one more event. -/
theorem App.replay_snoc {app app' : App} {log : List (ℕ × ChatEvent)} (now : ℕ) (ev : ChatEvent)
    (h : app.replay log = some app') :
    app.replay (log ++ [(now, ev)]) = app'.handleEvent now ev := by
  unfold App.replay at h ⊢
  rw [List.foldlM_append, h]
  simp

/-- A log with one more event is a log of the events before it and that event. -/
theorem Mirrored.replay_front (hs : Mirrored s) (timestamps : Bool) {log : List (ℕ × ChatEvent)}
    {ev : ChatEvent} (hlog : log.map Prod.snd = memberships s.events.sent ++ [ev]) :
    ∃ front now app, log = front ++ [(now, ev)] ∧ (App.new timestamps).replay front = some app ∧
      Mirrors s app.ids := by
  rw [List.map_eq_append_iff] at hlog
  obtain ⟨front, last, rfl, hfront, hlast⟩ := hlog
  obtain ⟨⟨now, ev⟩, rfl, rfl⟩ := List.map_eq_singleton_iff.mp hlast
  obtain ⟨app, hreplay, hmirror⟩ := hs timestamps front hfront
  exact ⟨front, now, app, rfl, hreplay, hmirror⟩

/-- A join event adds the id of the handler that gets listed. -/
theorem Mirrors.peerJoin {app app' : App} {now : ℕ} {info : PeerInfo} (hs : Mirrors s app.ids)
    (hevent : app.handleEvent now (.peerJoin info) = some app')
    (hlist : app'.ids = if info.id ∈ app.ids then app.ids else app.ids ++ [info.id])
    (hphase : (s.conns c).handler = .emitJoin info)
    (hafter : (t.conns c).handler.listed = some info) (hothers : ∀ d ≠ c, t.conns d = s.conns d) :
    Mirrors t app'.ids := by
  refine ⟨?_, fun p => ?_⟩
  -- the list takes an id once
  · rw [hlist]
    split
    · exact hs.nodup
    · rename_i hnew
      exact hs.nodup.append (List.nodup_singleton _) (by simpa using hnew)
  · rw [App.mem_ids_peerJoin hevent, hs.mem]
    constructor
    · rintro (⟨d, info', hd, hid⟩ | rfl)
      · -- the handler that joins was not listed before
        have hdc : d ≠ c := by
          rintro rfl
          rw [hphase] at hd
          cases hd
        exact ⟨d, info', by rw [hothers d hdc]; exact hd, hid⟩
      · exact ⟨c, info, hafter, rfl⟩
    · rintro ⟨d, info', hd, rfl⟩
      by_cases hdc : d = c
      · rw [hdc, hafter] at hd
        cases hd
        exact .inr rfl
      · rw [hothers d hdc] at hd
        exact .inl ⟨d, info', hd, rfl⟩

/-- A leave event removes the id of the handler that was listed. -/
theorem Mirrors.peerLeave {app app' : App} {now : ℕ} {info : PeerInfo} (hs : Mirrors s app.ids)
    (hevent : app.handleEvent now (.peerLeave info.id) = some app')
    (hlist : app'.ids = app.ids.filter (· ≠ info.id)) (hids : DistinctIds s)
    (hphase : (s.conns c).handler = .emitLeave info)
    (hafter : (t.conns c).handler.listed = none) (hothers : ∀ d ≠ c, t.conns d = s.conns d) :
    Mirrors t app'.ids := by
  refine ⟨?_, fun p => ?_⟩
  · rw [hlist]
    exact hs.nodup.filter _
  · rw [App.mem_ids_peerLeave hevent, hs.mem]
    constructor
    · rintro ⟨⟨d, info', hd, rfl⟩, hne⟩
      have hdc : d ≠ c := by
        rintro rfl
        rw [hphase] at hd
        cases hd
        exact hne rfl
      exact ⟨d, info', by rw [hothers d hdc]; exact hd, rfl⟩
    · rintro ⟨d, info', hd, rfl⟩
      have hdc : d ≠ c := by
        rintro rfl
        rw [hafter] at hd
        cases hd
      rw [hothers d hdc] at hd
      -- no other connection has the id of the peer that leaves
      refine ⟨⟨d, info', hd, rfl⟩, fun heq => hdc ?_⟩
      exact hids d c info' info (joined_of_listed hd) (by rw [hphase]; rfl) heq

/-- One step, all of whose announcements find room, keeps the mirror. -/
theorem Step.mirrored (h : Step X cfg l s t) (hok : Announces s l) (hids : DistinctIds s)
    (hs : Mirrored s) : Mirrored t := by
  intro timestamps log hlog
  rcases h.listed_cases hok with ⟨c, info, hphase, hafter, hothers, hsent⟩ |
    ⟨c, info, hphase, hafter, hothers, hsent⟩ | ⟨hsame, hsent⟩
  · rw [hsent] at hlog
    obtain ⟨front, now, app, rfl, hreplay, hmirror⟩ := hs.replay_front timestamps hlog
    obtain ⟨app', hevent, hlist⟩ := app.handleEvent_peerJoin now info
    exact ⟨app', (App.replay_snoc now _ hreplay).trans hevent,
      hmirror.peerJoin hevent hlist hphase hafter hothers⟩
  · rw [hsent] at hlog
    obtain ⟨front, now, app, rfl, hreplay, hmirror⟩ := hs.replay_front timestamps hlog
    obtain ⟨app', hevent, hlist⟩ := app.handleEvent_peerLeave now info.id
    exact ⟨app', (App.replay_snoc now _ hreplay).trans hevent,
      hmirror.peerLeave hevent hlist hids hphase hafter hothers⟩
  · rw [hsent] at hlog
    obtain ⟨app, hreplay, hmirror⟩ := hs timestamps log hlog
    exact ⟨app, hreplay, hmirror.nodup, fun p => by simp only [hmirror.mem, hsame]⟩

/-- The run lemma: the list mirrors the listed handlers at the end of every run. -/
theorem mirrored_of_announces {now : ℕ} {ls : List Label}
    (hrun : Run (Guarded (Step X cfg) Announces) (Room.init now) ls t) (hids : DistinctIds t) :
    Mirrored t := by
  induction hrun with
  | nil => exact mirrored_init now
  | snoc _ hstep ih =>
      have hids' := hstep.1.distinctIds hids
      exact hstep.1.mirrored hstep.2 hids' (ih hids')

/-! ## The peers map -/

/-- The peer of a handler that has put it in the peers map at some time. -/
def Handler.entered : Handler → Option PeerInfo
  | .emitJoin info => some info
  | h => h.joined

theorem entered_of_registered {h : Handler} {info : PeerInfo}
    (hregistered : h.registered = some info) : h.entered = some info := by
  cases h <;> first | exact hregistered | cases hregistered

theorem Handler.entered_eq (h : Handler) :
    h.entered = match h.standing with
      | .entered info | .announced info | .removed info | .left info => some info
      | .outside => none := by
  cases h <;> rfl

theorem HandlerStep.entered {l : HandlerLabel} (h : HandlerStep X c l s t) {info : PeerInfo}
    (hs : (s.conns c).handler.entered = some info) :
    (t.conns c).handler.entered = some info := by
  cases h.standing with
  | register hphase =>
      rw [hphase] at hs
      cases hs
  | emitJoin hphase hafter =>
      rw [hphase] at hs
      cases hs
      rw [Handler.entered_eq, hafter]
  | deregister hphase hafter | emitLeave hphase hafter =>
      rw [hphase] at hs
      cases hs
      rw [hafter]
      rfl
  | keep _ hsame =>
      rw [Handler.entered_eq] at hs ⊢
      rw [hsame, hs]

/-- A peer that has entered the map keeps its name and id. -/
theorem Step.entered (h : Step X cfg l s t) {info : PeerInfo}
    (hs : (s.conns c).handler.entered = some info) : (t.conns c).handler.entered = some info := by
  by_cases hl : ∃ l', l = .handler c l'
  · obtain ⟨l', rfl⟩ := hl
    cases h with
    | handler h => exact h.entered hs
  · push Not at hl
    rw [h.observe Handler.entered rfl hl, hs]

/-- No two connections have entered the map under the same id. -/
def DistinctEntries (s : Room) : Prop :=
  ∀ c d info info', (s.conns c).handler.entered = some info →
    (s.conns d).handler.entered = some info' → info.id = info'.id → c = d

theorem Step.distinctEntries (h : Step X cfg l s t) (ht : DistinctEntries t) : DistinctEntries s :=
  fun c d info info' hc hd hid => ht c d info info' (h.entered hc) (h.entered hd) hid

/-- Peers with distinct ids do not clash. -/
theorem Step.noClash_of_distinct (h : Step X cfg l s t) (ht : DistinctEntries t) :
    NoClash s l := by
  rcases h.registered_cases with ⟨c, info, rfl, hphase, hafter, -, hothers⟩ |
    ⟨c, info, rfl, hphase, -, -, -⟩ | ⟨hreg, hdereg, -⟩
  · intro info₁ hphase₁ d info' hdc hd hid
    rw [hphase] at hphase₁
    cases hphase₁
    have hentered : (t.conns c).handler.entered = some info := by rw [hafter]; rfl
    exact absurd (ht d c info' info (h.entered (entered_of_registered hd)) hentered hid) hdc
  · intro info₁ hphase₁ d info' hdc hd hid
    have hentered := h.entered (entered_of_registered (by rw [hphase₁]; rfl) :
      (s.conns c).handler.entered = some info₁)
    exact hdc (ht d c info' info₁ (h.entered (entered_of_registered hd)) hentered hid)
  · unfold NoClash
    split
    · exact absurd rfl (hreg _)
    · exact absurd rfl (hdereg _)
    · trivial

theorem truthful_of_distinct {now : ℕ} {ls : List Label} (hrun : RoomRun X cfg (Room.init now) ls t)
    (hids : DistinctEntries t) : Truthful t := by
  induction hrun with
  | nil => exact truthful_init now
  | snoc _ hstep ih =>
      have hids' := hstep.distinctEntries hids
      exact (hstep.truthful (hstep.noClash_of_distinct hids) (ih hids')).1

/-! ## Convergence -/

/-- No handler is between its change of the peers map and its event. -/
def AllAnnounced (s : Room) : Prop :=
  ∀ c info, (s.conns c).handler ≠ .emitJoin info ∧ (s.conns c).handler ≠ .emitLeave info

theorem listed_eq_registered {h : Handler} (hjoin : ∀ info, h ≠ .emitJoin info)
    (hleave : ∀ info, h ≠ .emitLeave info) : h.listed = h.registered := by
  cases h with
  | emitJoin info => exact absurd rfl (hjoin info)
  | emitLeave info => exact absurd rfl (hleave info)
  | _ => rfl

/-- **If no join or leave event is lost, the list of peers that the application makes of
the delivered events has the ids of the peers map, each once**, whenever the events
have been taken and the handlers have emitted theirs. -/
theorem peer_list_converges (now : ℕ) (ls : List Label)
    (hrun : Run (Guarded (Step X cfg) Announces) (Room.init now) ls s) (hids : DistinctIds s)
    (hdrained : s.events.queue = []) (hannounced : AllAnnounced s) (timestamps : Bool)
    (log : List (ℕ × ChatEvent)) (hlog : log.map Prod.snd = memberships s.events.received) :
    ∃ app, (App.new timestamps).replay log = some app ∧ app.ids.Nodup ∧
      ∀ p, p ∈ app.ids ↔ ∃ q info, s.peers q = some info ∧ info.id = p := by
  have hsent : s.events.sent = s.events.received := by
    rw [Mpsc.sent, hdrained, List.append_nil]
  -- with every join announced, who has entered the map has joined
  have hentries : DistinctEntries s := fun c d info info' hc hd hid => by
    have hjoined : ∀ c info, (s.conns c).handler.entered = some info →
        (s.conns c).handler.joined = some info := fun c info hc => by
      cases hphase : (s.conns c).handler with
      | emitJoin info => exact absurd hphase (hannounced c info).1
      | _ => rwa [hphase] at hc
    exact hids c d info info' (hjoined c info hc) (hjoined d info' hd) hid
  have htruth := truthful_of_distinct hrun.unguard hentries
  have hbacked : Backed s := RoomReachable.backed ⟨now, hrun.unguard.reachable⟩
  rw [← hsent] at hlog
  obtain ⟨app, hreplay, hmirror⟩ := mirrored_of_announces hrun hids timestamps log hlog
  refine ⟨app, hreplay, hmirror.nodup, fun p => ?_⟩
  have hlisted : ∀ c, (s.conns c).handler.listed = (s.conns c).handler.registered := fun c =>
    listed_eq_registered (fun info => (hannounced c info).1) fun info => (hannounced c info).2
  rw [hmirror.mem]
  constructor
  · rintro ⟨c, info, hc, rfl⟩
    rw [hlisted] at hc
    obtain ⟨entry, hentry, hid, -⟩ := htruth c info hc
    exact ⟨info.id, entry, hentry, hid⟩
  · rintro ⟨q, info, hentry, rfl⟩
    obtain ⟨-, c, hc⟩ := hbacked q info hentry
    exact ⟨c, info, by rw [hlisted, hc], rfl⟩

/-! ### A consumer that keeps up -/

/-- The consumer has taken what was queued. -/
def Room.consumed (s : Room) : Room :=
  { s with events := ⟨s.events.received ++ s.events.queue, [], s.events.isOpen⟩ }

theorem run_consume (X : Crates) (cfg : HostConfig) (s : Room) :
    ∃ n, RoomRun X cfg s (List.replicate n (.user .takeEvent)) s.consumed := by
  generalize hqueue : s.events.queue = queue
  induction queue generalizing s with
  | nil =>
      refine ⟨0, ?_⟩
      have hsame : s.consumed = s := by
        rw [Room.consumed, hqueue, List.append_nil, ← hqueue]
      rw [hsame]
      exact .nil
  | cons event rest ih =>
      obtain ⟨n, hrun⟩ := ih { s with events := s.events.pop } (by
        rw [Mpsc.pop_of_queue hqueue])
      refine ⟨n + 1, ?_⟩
      have hsame : Room.consumed { s with events := s.events.pop } = s.consumed := by
        simp [Room.consumed, Mpsc.pop_of_queue hqueue, hqueue]
      rw [List.replicate_succ, ← hsame]
      exact Run.cons (.user (.takeEvent hqueue)) hrun

theorem consumed_conns (s : Room) : s.consumed.conns = s.conns := rfl

/-- Ann's visit, with her join event taken. -/
theorem peer_list_converges_visited :
    ∃ app, (App.new false).replay [(0, .peerJoin ann)] = some app ∧ app.ids.Nodup ∧
      ∀ p, p ∈ app.ids ↔ ∃ q info, Room.visited.consumed.peers q = some info ∧ info.id = p := by
  obtain ⟨n, hconsume⟩ := run_consume .standard ⟨"host", 300⟩ Room.visited
  have harrive : Run (Guarded (Step .standard ⟨"host", 300⟩) Announces) _ _ _ :=
    run_arrive.guard (by
      simp [arriveLabels, openLabels, handshakeLabels, Announces])
  have hroom : Room.arriving.events.HasRoom eventChanCap := by decide
  have hjoin := harrive.snoc ⟨step_arrive, hroom⟩
  have hvisit := hjoin.append (run_visit.guard (by
    simp [visitLabels, serveLabels, Announces]))
  have hrun := hvisit.append (hconsume.guard (by
    intro l hl _
    rw [List.eq_of_mem_replicate hl]
    trivial))
  refine peer_list_converges 0 _ hrun (distinctIds_of_visited fun _ _ => rfl) rfl ?_ false _ rfl
  intro c info
  rw [consumed_conns]
  by_cases hc : c = 0
  · subst hc
    exact ⟨Handler.noConfusion, Handler.noConfusion⟩
  · rw [conns_visited hc]
    exact ⟨Handler.noConfusion, Handler.noConfusion⟩

/-! ### A consumer that is slow -/

/-- A room whose host has written `n` texts and whose consumer has taken no event. -/
def Room.chatted (n : ℕ) : Room :=
  { Room.opened ⟨"host", 300⟩ 0 "room.onion" with
    sendQ := ⟨List.replicate n "hi", [], true⟩
    events := ⟨[], .roomReady "room.onion" roomPort ::
      List.replicate n (.message hubId "host" "hi"), true⟩
    bcast := List.replicate n (.chat "host" "hi") }

theorem length_chatted (n : ℕ) : (Room.chatted n).events.queue.length = n + 1 := by
  simp [Room.chatted]

theorem reachable_chatted {n : ℕ} (hn : n < eventChanCap) :
    RoomReachable .standard ⟨"host", 300⟩ (Room.chatted n) := by
  induction n with
  | zero => exact reachable_opened ..
  | succ n ih =>
      have hroom : (Room.chatted n).events.HasRoom eventChanCap :=
        ⟨rfl, by rwa [length_chatted]⟩
      have hready : ¬ (Room.chatted n).ShutdownReady (Room.chatted n).hostSeen := by
        rintro (hversion | hclosed)
        · exact hversion rfl
        · cases hclosed
      have htold : Room.told ⟨"host", 300⟩ (Room.chatted n) "hi" = Room.chatted (n + 1) := by
        rw [Room.told, Mpsc.trySend_of_hasRoom hroom]
        simp [Room.chatted, Mpsc.push, List.replicate_succ']
      rw [← htold]
      exact (ih (by omega)).run (run_text rfl hready rfl rfl rfl)

/-- Ann comes to the room. -/
def Room.crowded (n : ℕ) : Room := (Room.chatted n).admitted .standard 0 (.fill 0) (.fill 7) "ann"

theorem reachable_crowded {n : ℕ} (hn : n < eventChanCap) :
    RoomReachable .standard ⟨"host", 300⟩ (Room.crowded n) := by
  have hready : ¬ (Room.chatted n).ShutdownReady (Room.chatted n).acceptSeen := by
    rintro (hversion | hclosed)
    · exact hversion rfl
    · cases hclosed
  exact (reachable_chatted hn).admitted rfl hready rfl rfl (Finset.notMem_empty _) (by decide)
    (by decide)

/-- Her join event does not find room. -/
theorem events_crowded {n : ℕ} (hfull : eventChanCap ≤ n + 1) :
    (Room.crowded n).events = (Room.chatted n).events := by
  have hnone : ¬ (Room.chatted n).events.HasRoom eventChanCap := fun hroom => by
    have hlen := hroom.2
    rw [length_chatted] at hlen
    omega
  exact Mpsc.trySend_of_not_hasRoom hnone _

theorem memberships_chatted (n : ℕ) : memberships (Room.chatted n).events.queue = [] := by
  simp [memberships, Room.chatted, ChatEvent.membership]

theorem conns_crowded (n : ℕ) {c : ConnId} (hc : c ≠ 0) :
    (Room.crowded n).conns c = Conn.fresh := by
  rw [Room.crowded, conns_admitted_of_ne hc]
  rfl

theorem peers_crowded (n : ℕ) : (Room.crowded n).peers ann.id = some ann := by
  simp [Room.crowded, Room.admitted, Room.settled, Room.served, Room.announced, Room.registered]
  rfl

/-- The join event of ann finds the channel full: she is in the room and not on the
list. -/
theorem peer_list_diverges :
    ¬ ∀ s, RoomReachable .standard ⟨"host", 300⟩ s → DistinctIds s → s.events.queue = [] →
      AllAnnounced s → ∀ timestamps log, log.map Prod.snd = memberships s.events.received →
        ∃ app, (App.new timestamps).replay log = some app ∧ app.ids.Nodup ∧
          ∀ p, p ∈ app.ids ↔ ∃ q info, s.peers q = some info ∧ info.id = p := by
  intro hconverges
  obtain ⟨n, hconsume⟩ := run_consume .standard ⟨"host", 300⟩ (Room.crowded 255)
  have hids : DistinctIds (Room.crowded 255).consumed := by
    have hzero : ∀ c info, ((Room.crowded 255).conns c).handler.joined = some info → c = 0 :=
      fun c info hc => by
        by_contra hne
        rw [conns_crowded _ hne] at hc
        cases hc
    intro c d info info' hc hd _
    rw [hzero c info hc, hzero d info' hd]
  have hannounced : AllAnnounced (Room.crowded 255).consumed := fun c info => by
    rw [consumed_conns]
    by_cases hc : c = 0
    · subst hc
      exact ⟨Handler.noConfusion, Handler.noConfusion⟩
    · rw [conns_crowded _ hc]
      exact ⟨Handler.noConfusion, Handler.noConfusion⟩
  have hnone : memberships (Room.crowded 255).consumed.events.received = [] := by
    rw [Room.consumed, events_crowded (by decide)]
    exact memberships_chatted 255
  obtain ⟨app, hreplay, -, hmem⟩ := hconverges _ ((reachable_crowded (by decide)).run hconsume)
    hids rfl hannounced false [] hnone.symm
  cases hreplay
  -- the list is empty, and ann is in the map
  have hann := (hmem ann.id).mpr ⟨ann.id, ann, peers_crowded 255, rfl⟩
  cases hann

end Nullpipe

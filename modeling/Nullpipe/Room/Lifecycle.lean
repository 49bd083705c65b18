import Nullpipe.Room.Quit

/-!
# The life of a room, as its users are told it

The events of a hosted room come in one order only.  The first one says that the room is
ready or why it could not be created.  A room that is ready then tells of its peers and
their messages; it says at most once that it is closed, and what comes behind that is about
connections that still come and go, never a message.  `Story` is that language, with
`ToldOpen`, `ToldClosed` and `ToldRefused` for its parts.

That the whole event stream is a story follows from where the host loop stands: `Chapter`
says for each of its phases what has been told by then.  Three obstacles.

* **Handlers emit events, too.**  A join or leave event must not come before `RoomReady`.
  There are no connections before the accept loop is spawned (`AcceptsInTime`), and a phase in
  which there are any allows for events of connections (`Chapter.conn`).
* **Events may be dropped.**  Every event but `RoomReady` and the error is sent without
  waiting, so a chapter must allow for its absence (`exists_told_trySend`).
* **The users may stop listening.**  Once the stream is closed nothing is added to it.  The
  invariant `Narrated` has that as its other case; only while the stream is open does the
  chapter of the host loop say what was told (`RoomReachable.chapter`).

The bootstrap of the Tor client puts events on the same channel before the room begins.
`Narrated` is about what is sent behind them, and `host_events_story` about any such
beginning.
-/

namespace Nullpipe

open Channel Room Transition

variable {X : Crates} {cfg : HostConfig} {s t : Room} {c : ConnId} {l : Label}

/-! ## The accept loop -/

/-- The host loop has not spawned the accept loop. -/
def HostLoop.Unlistening : HostLoop → Prop
  | .creating | .sendReady _ | .publishInvite _ | .spawnAccept | .sendError _ | .failedSelect
  | .failedClosing => True
  | _ => False

/-- The host loop has spawned the accept loop and waits for it before it returns. -/
def HostLoop.Listening : HostLoop → Prop
  | .select | .echo _ | .broadcast _ | .deliver .. | .closing | .abortAccept | .joinAccept => True
  | _ => False

/-- The accept loop is there when the host loop has spawned it, and there are no
connections before. -/
structure AcceptsInTime (s : Room) : Prop where
  before : s.host.Unlistening → s.accept = .unspawned
  after : s.host.Listening → s.accept ≠ .unspawned
  idle : s.accept = .unspawned → ∀ c, (s.conns c).handler = .idle

/-- Only the host loop spawns the accept loop, and nothing takes it back. -/
theorem Step.accept_unspawned (h : Step X cfg l s t) (ht : t.accept = .unspawned) :
    s.accept = .unspawned := by
  cases h with
  | user h => cases h <;> exact ht
  | host h =>
      cases h with
      | spawnAccept => cases ht
      | _ => exact ht
  | accept h =>
      cases h with
      | accept => exact ht
      | shutdown | sourceEnded | cancel => cases ht
  | handler h => cases h <;> exact ht
  | reader h => cases h <;> exact ht
  | writer h => cases h <;> exact ht
  | net h => cases h <;> exact ht
  | tick => exact ht

theorem Step.accept_iff (h : Step X cfg l s t) (hl : ∀ l', l ≠ .host l') :
    t.accept = .unspawned ↔ s.accept = .unspawned := by
  refine ⟨h.accept_unspawned, fun hs => ?_⟩
  cases h with
  | host => exact absurd rfl (hl _)
  | accept h =>
      cases h with
      | accept hphase | shutdown hphase | sourceEnded hphase | cancel hphase =>
          rw [hphase] at hs
          cases hs
  | user h => cases h <;> exact hs
  | handler h => cases h <;> exact hs
  | reader h => cases h <;> exact hs
  | writer h => cases h <;> exact hs
  | net h => cases h <;> exact hs
  | tick => exact hs

theorem HostStep.acceptsInTime {l : HostLabel} (h : HostStep cfg l s t) (hs : AcceptsInTime s) :
    (t.host.Unlistening → t.accept = .unspawned) ∧
      (t.host.Listening → t.accept ≠ .unspawned) := by
  cases h with
  | created hphase | createFailed hphase | sendReady hphase | sendReadyClosed hphase
  | publishInvite hphase | sendError hphase | sendErrorClosed hphase | failedShutdown hphase =>
      exact ⟨fun _ => hs.before (by rw [hphase]; trivial), False.elim⟩
  | failedTakeText hphase => exact ⟨hs.before, hs.after⟩
  | spawnAccept => exact ⟨False.elim, fun _ => AcceptLoop.noConfusion⟩
  | shutdown hphase | takeText hphase | sendClosed hphase | echo hphase | broadcast hphase
  | takeMessage hphase | deliver hphase | close hphase | abortAccept hphase =>
      exact ⟨False.elim, fun _ => hs.after (by rw [hphase]; trivial)⟩
  | joinAccept | failedSendClosed | failedClose => exact ⟨False.elim, False.elim⟩

theorem Step.idle (h : Step X cfg l s t) (hidle : (s.conns c).handler = .idle)
    (haccept : s.accept = .unspawned) : (t.conns c).handler = .idle := by
  by_cases hconn : l.conn = some c
  · cases h.connStep hconn with
    | accept hrunning =>
        rw [hrunning] at haccept
        cases haccept
    | handler h => exact absurd (show (s.conns c).handler.Over by rw [hidle]; trivial) h.not_over
    | reader h => rw [h.frame.1, hidle]
    | writer h => rw [h.frame.1, hidle]
    | net h => rw [h.frame.1, hidle]
  · rw [h.conns_of_ne hconn, hidle]

theorem Step.acceptsInTime (h : Step X cfg l s t) (hs : AcceptsInTime s) : AcceptsInTime t := by
  have hidle : t.accept = .unspawned → ∀ c, (t.conns c).handler = .idle := fun haccept c =>
    h.idle (hs.idle (h.accept_unspawned haccept) c) (h.accept_unspawned haccept)
  by_cases hl : ∃ l', l = .host l'
  · obtain ⟨l', rfl⟩ := hl
    cases h with
    | host h => exact ⟨(h.acceptsInTime hs).1, (h.acceptsInTime hs).2, hidle⟩
  · push Not at hl
    refine ⟨fun hhost => ?_, fun hhost haccept => ?_, hidle⟩
    · rw [h.host_eq hl] at hhost
      exact (h.accept_iff hl).mpr (hs.before hhost)
    · rw [h.host_eq hl] at hhost
      exact hs.after hhost (h.accept_unspawned haccept)

theorem RoomReachable.acceptsInTime (hs : RoomReachable X cfg s) : AcceptsInTime s := by
  obtain ⟨now, hreach⟩ := hs
  exact hreach.invariant (I := AcceptsInTime) ⟨fun _ => rfl, False.elim, fun _ _ => rfl⟩
    fun hs hstep => hstep.acceptsInTime hs

/-! ## The story -/

/-- An event of a room that is open. -/
def ChatEvent.Live : ChatEvent → Prop
  | .peerJoin _ | .peerLeave _ | .message .. => True
  | _ => False

/-- An event of a connection that comes or goes. -/
def ChatEvent.OfConn : ChatEvent → Prop
  | .peerJoin _ | .peerLeave _ => True
  | _ => False

theorem ChatEvent.OfConn.live {ev : ChatEvent} (h : ev.OfConn) : ev.Live := by
  cases ev with
  | peerJoin | peerLeave => trivial
  | _ => cases h

/-- The room is ready, and has told of its peers and their messages since. -/
inductive ToldOpen : List ChatEvent → Prop
  | intro (addr : String) {live : List ChatEvent} (hlive : ∀ ev ∈ live, ev.Live) :
      ToldOpen (.roomReady addr roomPort :: live)

/-- The room has said that it is closed. -/
inductive ToldClosed : List ChatEvent → Prop
  | intro {before late : List ChatEvent} (hopen : ToldOpen before)
      (hlate : ∀ ev ∈ late, ev.OfConn) :
      ToldClosed (before ++ .roomClosed :: late)

/-- The room has said why there is none. -/
inductive ToldRefused : List ChatEvent → Prop
  | error (e : ChatError) : ToldRefused [.error e]
  | closed (e : ChatError) : ToldRefused [.error e, .roomClosed]

/-- The event streams of a hosted room. -/
inductive Story (sent : List ChatEvent) : Prop
  | silent (h : sent = [])
  | refused (h : ToldRefused sent)
  | opened (h : ToldOpen sent)
  | closed (h : ToldClosed sent)

theorem ToldOpen.snoc {sent : List ChatEvent} (h : ToldOpen sent) {ev : ChatEvent}
    (hev : ev.Live) : ToldOpen (sent ++ [ev]) := by
  cases h with
  | intro addr hlive =>
      rw [List.cons_append]
      exact .intro addr (by simpa [or_imp, forall_and] using ⟨hlive, hev⟩)

theorem ToldOpen.close {sent : List ChatEvent} (h : ToldOpen sent) :
    ToldClosed (sent ++ [.roomClosed]) :=
  .intro h (by simp)

theorem ToldClosed.snoc {sent : List ChatEvent} (h : ToldClosed sent) {ev : ChatEvent}
    (hev : ev.OfConn) : ToldClosed (sent ++ [ev]) := by
  cases h with
  | intro hopen hlate =>
      rw [List.append_assoc, List.cons_append]
      exact .intro hopen (by simpa [or_imp, forall_and] using ⟨hlate, hev⟩)

/-- The room is ready, according to what was told. -/
def ToldReady (sent : List ChatEvent) : Prop := ∃ addr port, .roomReady addr port ∈ sent

/-- What comes next in a story: it begins with the news that the room is ready or with the
reason why not; it can be the end; and what is live comes behind the beginning. -/
theorem Story.next {before rest : List ChatEvent} {ev : ChatEvent}
    (h : Story (before ++ ev :: rest)) :
    (before = [] ∧ ((∃ e, ev = .error e) ∨ ∃ addr port, ev = .roomReady addr port)) ∨
      ev = .roomClosed ∨ (ev.Live ∧ ToldReady before) := by
  -- the stories that begin with `RoomReady`, open or closed
  have hopened : ∀ {addr : String} {told : List ChatEvent},
      before ++ ev :: rest = .roomReady addr roomPort :: told →
      (∀ ev ∈ told, ev = .roomClosed ∨ ev.Live) →
      (before = [] ∧ ((∃ e, ev = .error e) ∨ ∃ addr port, ev = .roomReady addr port)) ∨
        ev = .roomClosed ∨ (ev.Live ∧ ToldReady before) := by
    intro addr told heq htold
    cases before with
    | nil =>
        cases heq
        exact .inl ⟨rfl, .inr ⟨addr, roomPort, rfl⟩⟩
    | cons first before =>
        cases heq
        exact .inr ((htold ev (by simp)).imp id fun hlive =>
          ⟨hlive, addr, roomPort, List.mem_cons_self⟩)
  generalize hsent : before ++ ev :: rest = sent at h
  cases h with
  | silent h => simp [h] at hsent
  | opened h =>
      obtain ⟨addr, hlive⟩ := h
      exact hopened hsent fun ev hev => .inr (hlive ev hev)
  | closed h =>
      obtain ⟨⟨addr, hlive⟩, hlate⟩ := h
      refine hopened hsent fun ev hev => ?_
      rcases List.mem_append.mp hev with hev | hev
      · exact .inr (hlive ev hev)
      · exact (List.mem_cons.mp hev).imp id fun hev => (hlate ev hev).live
  | refused h =>
      -- an error comes first, and only the end can follow it
      cases before with
      | nil =>
          cases h <;> cases hsent <;> exact .inl ⟨rfl, .inl ⟨_, rfl⟩⟩
      | cons first before =>
          refine .inr (.inl ?_)
          cases h with
          | error e => simp at hsent
          | closed e =>
              have hlast : before ++ ev :: rest = [.roomClosed] := (List.cons.inj hsent).2
              exact List.mem_singleton.mp (hlast ▸ (by simp))

theorem ToldClosed.ne_nil {sent : List ChatEvent} (h : ToldClosed sent) : sent ≠ [] := by
  cases h with
  | intro => simp

/-! ## The chapters -/

/-- What has been told when the host loop stands where it does; nobody has closed the
event stream before. -/
def Chapter (accept : AcceptLoop) (told : List ChatEvent) : HostLoop → Prop
  | .creating | .sendReady _ | .sendError _ => told = []
  | .failedSelect | .failedClosing => ∃ e, told = [.error e]
  | .publishInvite _ | .spawnAccept | .select | .echo _ | .broadcast _ | .deliver .. | .closing =>
    ToldOpen told
  | .abortAccept | .joinAccept => ToldOpen told ∨ ToldClosed told
  | .ended =>
    (accept = .unspawned ∧ ToldRefused told) ∨
      (accept ≠ .unspawned ∧ (ToldOpen told ∨ ToldClosed told))

/-- Behind what the bootstrap has sent, `boot`, the users have been told what the chapter
says, or nothing, because they have closed the event stream before. -/
def Narrated (boot : List ChatEvent) (s : Room) : Prop :=
  ∃ told, s.events.sent = boot ++ told ∧
    ((s.events.isOpen = false ∧ told = []) ∨ Chapter s.accept told s.host)

theorem Chapter.story {accept : AcceptLoop} {sent : List ChatEvent} {host : HostLoop}
    (h : Chapter accept sent host) : Story sent := by
  cases host with
  | creating | sendReady | sendError => exact .silent h
  | failedSelect | failedClosing =>
      obtain ⟨e, rfl⟩ := h
      exact .refused (.error e)
  | publishInvite | spawnAccept | select | echo | broadcast | deliver | closing => exact .opened h
  | abortAccept | joinAccept => exact h.elim .opened .closed
  | ended => exact h.elim (fun h => .refused h.2) fun h => h.2.elim .opened .closed

theorem Chapter.congr {accept accept' : AcceptLoop} {sent : List ChatEvent} {host : HostLoop}
    (h : Chapter accept sent host) (haccept : accept' = .unspawned ↔ accept = .unspawned) :
    Chapter accept' sent host := by
  cases host with
  | ended =>
      exact h.imp (fun h => ⟨haccept.mpr h.1, h.2⟩) fun h => ⟨fun h' => h.1 (haccept.mp h'), h.2⟩
  | _ => exact h

/-- A connection that comes or goes fits into every chapter there are connections in. -/
theorem Chapter.conn {accept : AcceptLoop} {sent : List ChatEvent} {host : HostLoop}
    (h : Chapter accept sent host) (hspawned : accept ≠ .unspawned)
    (hbefore : host.Unlistening → accept = .unspawned) {ev : ChatEvent} (hev : ev.OfConn) :
    Chapter accept (sent ++ [ev]) host := by
  cases host with
  | creating | sendReady | publishInvite | spawnAccept | sendError | failedSelect
  | failedClosing => exact absurd (hbefore trivial) hspawned
  | select | echo | broadcast | deliver | closing => exact ToldOpen.snoc h hev.live
  | abortAccept | joinAccept => exact h.imp (·.snoc hev.live) (·.snoc hev)
  | ended =>
      rcases h with ⟨hnone, -⟩ | ⟨hlisten, h⟩
      · exact absurd hnone hspawned
      · exact .inr ⟨hlisten, h.imp (·.snoc hev.live) (·.snoc hev)⟩

/-- An event that is sent without waiting may be dropped. -/
theorem exists_told_trySend {P : List ChatEvent → Prop} {q : Mpsc ChatEvent} {ev : ChatEvent}
    {boot told : List ChatEvent} (hsent : q.sent = boot ++ told) (hdropped : P told)
    (hkept : P (told ++ [ev])) :
    ∃ told', (q.trySend eventChanCap ev).sent = boot ++ told' ∧ P told' := by
  rcases Mpsc.trySend_cases eventChanCap q ev with h | h
  · refine ⟨told ++ [ev], ?_, hkept⟩
    rw [h, Mpsc.sent_push, hsent, List.append_assoc]
  · rw [h]
    exact ⟨told, hsent, hdropped⟩

variable {boot told : List ChatEvent}

/-- The host loop goes from chapter to chapter. -/
theorem HostStep.narrated {l : HostLabel} (h : HostStep cfg l s t) (hlisten : AcceptsInTime s)
    (hsent : s.events.sent = boot ++ told) (hs : Chapter s.accept told s.host) :
    Narrated boot t := by
  -- most steps send nothing, and some send one event without waiting
  have hquiet {r : Room} (hr : r.events = s.events) (hchapter : Chapter r.accept told r.host) :
      Narrated boot r := ⟨told, hr ▸ hsent, .inr hchapter⟩
  have htries {r : Room} {ev : ChatEvent} (hr : r.events = s.events.trySend eventChanCap ev)
      (hdropped : Chapter r.accept told r.host)
      (hkept : Chapter r.accept (told ++ [ev]) r.host) : Narrated boot r := by
    obtain ⟨told', hsent', htold'⟩ :=
      exists_told_trySend (P := fun told => Chapter r.accept told r.host) hsent hdropped hkept
    exact ⟨told', hr ▸ hsent', .inr htold'⟩
  cases h with
  | failedTakeText => exact hquiet rfl hs
  | created hphase | createFailed hphase | publishInvite hphase | spawnAccept hphase
  | shutdown hphase | takeText hphase | broadcast hphase | takeMessage hphase
  | abortAccept hphase | failedShutdown hphase =>
      rw [hphase] at hs
      exact hquiet rfl hs
  | @sendReady _ addr hphase =>
      rw [hphase, show Chapter s.accept told (.sendReady addr) ↔ told = [] from Iff.rfl] at hs
      refine ⟨[.roomReady addr roomPort], ?_, .inr (ToldOpen.intro addr (by simp))⟩
      rw [Mpsc.sent_push, hsent, hs, List.append_nil]
  | sendReadyClosed hphase hclosed | sendErrorClosed hphase hclosed =>
      rw [hphase] at hs
      exact ⟨told, hsent, .inl ⟨hclosed, hs⟩⟩
  | sendClosed hphase =>
      rw [hphase] at hs
      exact hquiet rfl (Or.inl hs)
  | echo hphase =>
      rw [hphase] at hs
      exact htries rfl hs (ToldOpen.snoc hs trivial)
  | @deliver _ id msg hphase =>
      rw [hphase] at hs
      by_cases hchat : msg.kind = .chat
      · exact htries (if_pos hchat) hs (ToldOpen.snoc hs trivial)
      · exact hquiet (if_neg hchat) hs
  | close hphase =>
      rw [hphase] at hs
      exact htries rfl (Or.inl hs) (Or.inr (ToldOpen.close hs))
  | joinAccept hphase =>
      have hspawned := hlisten.after (by rw [hphase]; trivial)
      rw [hphase] at hs
      exact hquiet rfl (Or.inr ⟨hspawned, hs⟩)
  | @sendError _ e hphase =>
      rw [hphase, show Chapter s.accept told (.sendError e) ↔ told = [] from Iff.rfl] at hs
      refine ⟨[.error e], ?_, .inr ⟨e, rfl⟩⟩
      rw [Mpsc.sent_push, hsent, hs, List.append_nil]
  | failedSendClosed hphase =>
      have hnone := hlisten.before (by rw [hphase]; trivial)
      rw [hphase] at hs
      obtain ⟨e, rfl⟩ := hs
      exact hquiet rfl (Or.inl ⟨hnone, .error e⟩)
  | failedClose hphase =>
      have hnone := hlisten.before (by rw [hphase]; trivial)
      rw [hphase] at hs
      obtain ⟨e, rfl⟩ := hs
      exact htries rfl (Or.inl ⟨hnone, .error e⟩) (Or.inl ⟨hnone, .closed e⟩)

theorem Step.narrated (h : Step X cfg l s t) (hlisten : AcceptsInTime s) (hs : Narrated boot s) :
    Narrated boot t := by
  obtain ⟨told, hsent, ⟨hclosed, rfl⟩ | hs⟩ := hs
  · -- nothing is sent on a stream that is closed
    refine ⟨[], ?_, .inl ⟨?_, rfl⟩⟩
    · rcases h.events with hsame | ⟨_, -, hroom, -⟩
      · rw [hsame, hsent]
      · rw [hroom.1] at hclosed
        cases hclosed
    · by_contra hopen
      rw [h.events_open (Bool.not_eq_false _ ▸ hopen)] at hclosed
      cases hclosed
  by_cases hl : ∃ l', l = .host l'
  · obtain ⟨l', rfl⟩ := hl
    cases h with
    | host h => exact h.narrated hlisten hsent hs
  · push Not at hl
    have hchapter {told : List ChatEvent} (htold : Chapter s.accept told s.host) :
        Chapter t.accept told t.host := by
      rw [h.host_eq hl]
      exact htold.congr (h.accept_iff hl)
    -- a connection that is in use comes behind the spawn of the accept loop
    have hconn : ∀ {c : ConnId} {ev : ChatEvent}, (s.conns c).handler ≠ .idle → ev.OfConn →
        Chapter s.accept (told ++ [ev]) s.host := fun hbusy hev =>
      hs.conn (fun hnone => hbusy (hlisten.idle hnone _)) hlisten.before hev
    rcases h.events with hsame | ⟨ev, hemits, -, hsent'⟩
    · exact ⟨told, hsame ▸ hsent, .inr (hchapter hs)⟩
    · refine ⟨told ++ [ev], ?_, .inr (hchapter ?_)⟩
      · rw [hsent', hsent, List.append_assoc]
      · cases hemits with
        | join hphase | leave hphase =>
            exact hconn (by rw [hphase]; exact Handler.noConfusion) trivial
        | echo | deliver | roomReady | roomClosed | error => exact absurd rfl (hl _)

theorem narrated_of_run {q : Mpsc ChatEvent} {now : ℕ} {ls : List Label}
    (hrun : RoomRun X cfg (Room.behind q now) ls s) : Narrated q.sent s := by
  have hboth := hrun.invariant (I := fun s => AcceptsInTime s ∧ Narrated q.sent s)
    ⟨⟨fun _ => rfl, False.elim, fun _ _ => rfl⟩, [], (List.append_nil _).symm, .inr rfl⟩
    fun hs hstep => ⟨hstep.acceptsInTime hs.1, hstep.narrated hs.1 hs.2⟩
  exact hboth.2

/-- Nothing is in front of the story of a room whose users have taken what the bootstrap
sent. -/
theorem RoomReachable.narrated (hs : RoomReachable X cfg s) : Narrated [] s := by
  obtain ⟨now, ls, hrun⟩ := hs
  exact narrated_of_run (q := .empty) hrun

/-- What users that listen have been told. -/
theorem RoomReachable.chapter (hs : RoomReachable X cfg s) (hopen : s.events.isOpen = true) :
    Chapter s.accept s.events.sent s.host := by
  obtain ⟨told, hsent, ⟨hclosed, -⟩ | h⟩ := hs.narrated
  · rw [hopen] at hclosed
    cases hclosed
  · rw [hsent]
    exact h

/-- **The users of a room are told one story**, behind what the bootstrap has told them. -/
theorem host_events_story (X : Crates) (cfg : HostConfig) (boot : Mpsc ChatEvent) (now : ℕ)
    (ls : List Label) (s : Room) (hrun : RoomRun X cfg (Room.behind boot now) ls s) :
    ∃ told, s.events.sent = boot.sent ++ told ∧ Story told := by
  obtain ⟨told, hsent, ⟨-, hsilent⟩ | h⟩ := narrated_of_run hrun
  · exact ⟨told, hsent, .silent hsilent⟩
  · exact ⟨told, hsent, h.story⟩

/-- Ann has come into the room and left it when it closed; and a room that is ready before its
users have looked at the progress of the bootstrap. -/
theorem host_events_story_vacated :
    Story Room.vacated.events.sent ∧
      ∃ s, RoomRun .standard ⟨"host", 300⟩ (Room.behind
          ⟨[.bootstrapProgress 0], [.bootstrapProgress 100], true⟩ 0)
          [.host (.created "room.onion"), .host .sendReady] s ∧
        ∃ told, s.events.sent = [.bootstrapProgress 0, .bootstrapProgress 100] ++ told ∧
          told ≠ [] ∧ Story told := by
  constructor
  · obtain ⟨told, hsent, hstory⟩ := host_events_story .standard ⟨"host", 300⟩ .empty 0 _
      Room.vacated ((run_arrive.append (.single step_arrive)).append (run_visit.append run_vacate))
    rw [hsent]
    exact hstory
  · have hrun : RoomRun .standard ⟨"host", 300⟩ (Room.behind
        ⟨[.bootstrapProgress 0], [.bootstrapProgress 100], true⟩ 0) [] _ := .nil
    have hrun := (hrun.snoc (.host (l := .created "room.onion") (.created rfl))).snoc
      (.host (.sendReady rfl ⟨rfl, by decide⟩))
    obtain ⟨told, hsent, hstory⟩ := host_events_story .standard ⟨"host", 300⟩ _ 0 _ _ hrun
    refine ⟨_, hrun, told, hsent, ?_, hstory⟩
    rintro rfl
    cases hsent

end Nullpipe

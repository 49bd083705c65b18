import Nullpipe.Room.Delivery
import Nullpipe.Room.Relay

/-!
# The texts of the host

The host loop takes the texts that its users send one at a time.  Each goes to the
host's own event stream, if that has room, and to the broadcast log, and nothing else
goes there: the log is the texts taken, in order.  Only a room whose onion service
could not be created takes texts and drops them.

`Account` says what has become of the texts taken, by the state of the room.

* `opening`: nothing was taken.
* `opened`: what was taken is what was broadcast, and behind it the one text that the host loop
  has taken and not broadcast (`HostLoop.untold`).
* `refused`: nothing was broadcast, whatever was taken.

`Shows` is the same for the host's own event stream: there an echo may be dropped, so the
texts shown are a part of those taken.  `HostLoop.unshown` is the text that is still to be
shown; the loop shows a text before it broadcasts it, so the two differ for one step.

The host's own messages bear the id `hubId`, which no peer has; that is what lets
`Step.hub_events` tell them from the others.
-/

namespace Nullpipe

open Channel Room Transition

variable {X : Crates} {cfg : HostConfig} {s t : Room} {l : Label} {told shown : List String}

/-! ## The account -/

/-- The text the host loop has taken and not broadcast. -/
def HostLoop.untold : HostLoop → List String
  | .echo text | .broadcast text => [text]
  | _ => []

/-- The text the host loop has taken and not shown. -/
def HostLoop.unshown : HostLoop → List String
  | .echo text => [text]
  | _ => []

/-- The room is being created. -/
def HostLoop.Opening : HostLoop → Prop
  | .creating | .sendReady _ | .publishInvite _ => True
  | _ => False

/-- The room was created. -/
def HostLoop.Opened : HostLoop → Prop
  | .spawnAccept => True
  | host => host.Running

/-- The room could not be created. -/
def HostLoop.Refused : HostLoop → Prop
  | .sendError _ | .failedSelect | .failedClosing | .ended => True
  | _ => False

/-- What has become of the texts the host loop has taken, of which `told` were broadcast. -/
inductive Account (told : List String) (s : Room) : Prop
  | opening (hphase : s.host.Opening) (hinvite : s.invite = none) (htold : told = [])
      (htaken : s.sendQ.received = [])
  | opened (hphase : s.host.Opened) (hinvite : s.invite ≠ none)
      (htaken : told ++ s.host.untold = s.sendQ.received)
  | refused (hphase : s.host.Refused) (hinvite : s.invite = none) (htold : told = [])

/-- The account after one more step of the host loop. -/
theorem HostStep.account {l : HostLabel} (h : HostStep cfg l s t)
    (hlog : s.bcast = told.map (.chat cfg.name)) (hs : Account told s) :
    ∃ told', t.bcast = told'.map (.chat cfg.name) ∧ Account told' t := by
  cases hs with
  | opening hphase hinvite htold htaken =>
      cases h with
      | created | sendReady | sendReadyClosed =>
          exact ⟨told, hlog, .opening trivial hinvite htold htaken⟩
      | createFailed => exact ⟨told, hlog, .refused trivial hinvite htold⟩
      | publishInvite =>
          refine ⟨told, hlog, .opened trivial nofun ?_⟩
          rw [htold, htaken]
          rfl
      | _ hphase' =>
          rw [hphase'] at hphase
          exact absurd hphase id
  | opened hphase hinvite htaken =>
      cases h with
      | spawnAccept hphase' | shutdown hphase' | sendClosed hphase' | takeMessage hphase'
      | deliver hphase' | close hphase' | abortAccept hphase' | joinAccept hphase' =>
          rw [hphase'] at htaken
          exact ⟨told, hlog, .opened trivial hinvite htaken⟩
      | takeText hphase' _ hqueue =>
          -- what was in nobody's hands is now in those of the loop
          rw [hphase'] at htaken
          have hall : told = s.sendQ.received := (List.append_nil _).symm.trans htaken
          refine ⟨told, hlog, .opened trivial hinvite ?_⟩
          dsimp only
          rw [Mpsc.pop_of_queue hqueue, hall]
          rfl
      | echo hphase' =>
          rw [hphase'] at htaken
          exact ⟨told, hlog, .opened trivial hinvite htaken⟩
      | @broadcast _ text hphase' =>
          -- and from there it goes to the log
          rw [hphase'] at htaken
          refine ⟨told ++ [text], ?_, .opened trivial hinvite ?_⟩
          · dsimp only
            rw [hlog, List.map_append]
            rfl
          · rw [← htaken]
            exact List.append_nil _
      | _ hphase' =>
          rw [hphase'] at hphase
          exact absurd hphase id
  | refused hphase hinvite htold =>
      cases h with
      | sendError | sendErrorClosed | failedShutdown | failedSendClosed | failedClose =>
          exact ⟨told, hlog, .refused trivial hinvite htold⟩
      | failedTakeText => exact ⟨told, hlog, .refused hphase hinvite htold⟩
      | _ hphase' =>
          rw [hphase'] at hphase
          exact absurd hphase id

/-- Nobody else touches what the account is about. -/
theorem Step.texts_frame (h : Step X cfg l s t) (hl : ∀ l', l ≠ .host l') :
    t.host = s.host ∧ t.invite = s.invite ∧ t.sendQ.received = s.sendQ.received ∧
      t.bcast = s.bcast := by
  cases h with
  | host => exact absurd rfl (hl _)
  | user h => cases h <;> exact ⟨rfl, rfl, rfl, rfl⟩
  | accept h => cases h <;> exact ⟨rfl, rfl, rfl, rfl⟩
  | handler h => cases h <;> exact ⟨rfl, rfl, rfl, rfl⟩
  | reader h => cases h <;> exact ⟨rfl, rfl, rfl, rfl⟩
  | writer h => cases h <;> exact ⟨rfl, rfl, rfl, rfl⟩
  | net h => cases h <;> exact ⟨rfl, rfl, rfl, rfl⟩
  | tick => exact ⟨rfl, rfl, rfl, rfl⟩

theorem Step.account (h : Step X cfg l s t) (hlog : s.bcast = told.map (.chat cfg.name))
    (hs : Account told s) : ∃ told', t.bcast = told'.map (.chat cfg.name) ∧ Account told' t := by
  by_cases hhost : ∃ l', l = .host l'
  · obtain ⟨l', rfl⟩ := hhost
    cases h with
    | host h => exact h.account hlog hs
  · push Not at hhost
    obtain ⟨hsame, hinvite, htaken, hbcast⟩ := h.texts_frame hhost
    refine ⟨told, hbcast.trans hlog, ?_⟩
    cases hs with
    | opening hphase hnone htold hnothing =>
        exact .opening (hsame ▸ hphase) (hinvite.trans hnone) htold (htaken.trans hnothing)
    | opened hphase hsome hall =>
        refine .opened (hsame ▸ hphase) (hinvite ▸ hsome) ?_
        rw [hsame, htaken]
        exact hall
    | refused hphase hnone htold => exact .refused (hsame ▸ hphase) (hinvite.trans hnone) htold

/-! ## What the host is shown of itself -/

/-- The host's own messages on the event stream: texts it has taken, in order. -/
def Shows (cfg : HostConfig) (shown : List String) (s : Room) : Prop :=
  messagesFrom hubId s.events.sent = shown.map (.chat cfg.name) ∧
    (shown ++ s.host.unshown).Sublist s.sendQ.received

/-- The events of a step that shows no text of the host. -/
theorem Step.hub_events (h : Step X cfg l s t) (hs : RoomReachable X cfg s)
    (hl : l ≠ .host .echo) :
    messagesFrom hubId t.events.sent = messagesFrom hubId s.events.sent := by
  rcases h.events with hsame | ⟨ev, hemit, -, hsent⟩
  · rw [hsame]
  · rw [hsent, messagesFrom_append]
    cases hemit with
    | echo => exact absurd rfl hl
    | @deliver id msg hphase =>
        -- a peer does not have the id of the host
        obtain ⟨c, info, hjoined, hid⟩ := hs.owned.deliver _ _ hphase
        have hne : id ≠ hubId := hid ▸ hs.joined_ne_hubId hjoined
        have hnone : messagesFrom hubId [.message id msg.name msg.text] = [] :=
          List.filterMap_cons_none (if_neg hne)
        rw [hnone, List.append_nil]
    | join | leave | roomReady | roomClosed | error => exact List.append_nil _

/-- What a step of the loop other than `takeText` and `echo` does to its texts. -/
theorem HostStep.unshown {l : HostLabel} (h : HostStep cfg l s t) (hecho : l ≠ .echo)
    (htake : ∀ text, l ≠ .takeText text) :
    t.host.unshown = [] ∧ t.sendQ.received = s.sendQ.received := by
  cases h with
  | echo => exact absurd rfl hecho
  | takeText | failedTakeText => exact absurd rfl (htake _)
  | _ => exact ⟨rfl, rfl⟩

theorem Step.shows (h : Step X cfg l s t) (hs : RoomReachable X cfg s)
    (hshows : Shows cfg shown s) : ∃ shown', Shows cfg shown' t := by
  obtain ⟨hevents, hshown⟩ := hshows
  by_cases hhost : ∃ l', l = .host l'
  · obtain ⟨l', rfl⟩ := hhost
    by_cases hecho : l' = .echo
    · subst hecho
      cases h with
      | host h =>
          cases h with
          | @echo _ text hphase =>
              rw [hphase] at hshown
              -- the echo is shown, or dropped for lack of room
              rcases Mpsc.trySend_cases eventChanCap s.events (.message hubId cfg.name text) with
                hpush | hfull
              · refine ⟨shown ++ [text], ?_, (List.append_nil _).symm ▸ hshown⟩
                dsimp only
                rw [hpush, Mpsc.sent_push, messagesFrom_append, hevents, List.map_append]
                rfl
              · refine ⟨shown, ?_, ?_⟩
                · dsimp only
                  rw [hfull, hevents]
                · exact (List.append_nil _).symm ▸ (List.sublist_append_left _ _).trans hshown
    · have hsame := h.hub_events hs (by simpa using hecho)
      cases h with
      | host h =>
          by_cases htake : ∃ text, l' = .takeText text
          · obtain ⟨text, rfl⟩ := htake
            cases h with
            | takeText hphase _ hqueue =>
                rw [hphase] at hshown
                have hall : shown.Sublist s.sendQ.received := (List.append_nil shown) ▸ hshown
                refine ⟨shown, hsame.trans hevents, ?_⟩
                dsimp only
                rw [Mpsc.pop_of_queue hqueue]
                exact hall.append (.refl _)
            | failedTakeText hphase _ hqueue =>
                -- a room that could not be created takes a text and shows nothing
                refine ⟨shown, hsame.trans hevents, ?_⟩
                dsimp only
                rw [Mpsc.pop_of_queue hqueue]
                exact hshown.trans (List.sublist_append_left _ _)
          · push Not at htake
            obtain ⟨hnone, htaken⟩ := h.unshown hecho htake
            refine ⟨shown, hsame.trans hevents, ?_⟩
            rw [hnone, htaken, List.append_nil]
            exact (List.sublist_append_left _ _).trans hshown
  · push Not at hhost
    obtain ⟨hsame, -, htaken, -⟩ := h.texts_frame hhost
    refine ⟨shown, (h.hub_events hs (hhost _)).trans hevents, ?_⟩
    rw [hsame, htaken]
    exact hshown

/-! ## Every room -/

theorem RoomReachable.account (hs : RoomReachable X cfg s) :
    ∃ told, s.bcast = told.map (.chat cfg.name) ∧ Account told s := by
  obtain ⟨now, hreach⟩ := hs
  refine hreach.invariant
    (I := fun s => ∃ told, s.bcast = told.map (.chat cfg.name) ∧ Account told s)
    ⟨[], rfl, .opening trivial rfl rfl rfl⟩ ?_
  rintro l s t ⟨told, hlog, haccount⟩ hstep
  exact hstep.account hlog haccount

theorem RoomReachable.shows (hs : RoomReachable X cfg s) : ∃ shown, Shows cfg shown s := by
  obtain ⟨now, ls, hrun⟩ := hs
  have hall : RoomReachable X cfg s ∧ ∃ shown, Shows cfg shown s := by
    refine hrun.invariant (I := fun s => RoomReachable X cfg s ∧ ∃ shown, Shows cfg shown s)
      ⟨⟨now, .refl _⟩, [], rfl, .slnil⟩ ?_
    rintro l s t ⟨hs, shown, hshows⟩ hstep
    exact ⟨hs.run (.single hstep), hstep.shows hs hshows⟩
  exact hall.2

/-- What was broadcast are texts of the users, in the order in which they were taken. -/
theorem Account.prefix (h : Account told s) : told <+: s.sendQ.received := by
  cases h with
  | opening _ _ htold | refused _ _ htold =>
      rw [htold]
      exact List.nil_prefix
  | opened _ _ htaken =>
      rw [← htaken]
      exact List.prefix_append ..

/-- **The texts of the host are accounted for.**  In every state the broadcast log is a
front part of the texts taken, each once and in order; in a room that was opened the only
text taken and not in the log is the one in the hands of the host loop.  The messages the
host is shown as its own are texts it has taken, in their order. -/
theorem host_texts_accounted (X : Crates) (cfg : HostConfig) (s : Room)
    (hs : RoomReachable X cfg s) :
    (∃ told, s.bcast = told.map (.chat cfg.name) ∧ told <+: s.sendQ.received ∧
      (s.invite ≠ none → told ++ s.host.untold = s.sendQ.received)) ∧
    ∃ shown : List String, messagesFrom hubId s.events.sent = shown.map (.chat cfg.name) ∧
      shown.Sublist s.sendQ.received := by
  obtain ⟨told, hlog, haccount⟩ := hs.account
  obtain ⟨shown, hevents, hshown⟩ := hs.shows
  refine ⟨⟨told, hlog, haccount.prefix, fun hopened => ?_⟩, shown, hevents,
    (List.sublist_append_left _ _).trans hshown⟩
  cases haccount with
  | opening _ hinvite | refused _ hinvite => exact absurd hinvite hopened
  | opened _ _ htaken => exact htaken

theorem host_texts_accounted_told :
    ∃ told shown : List String,
      ((Room.opened ⟨"host", 300⟩ 0 "room.onion").told ⟨"host", 300⟩ "hi").bcast =
          told.map (WireMessage.chat "host") ∧
        told <+: ["hi"] ∧ shown.Sublist ["hi"] := by
  have hreach : RoomReachable .standard ⟨"host", 300⟩
      ((Room.opened ⟨"host", 300⟩ 0 "room.onion").told ⟨"host", 300⟩ "hi") :=
    (reachable_opened .standard ⟨"host", 300⟩ 0 "room.onion").run
      (run_text rfl (by simp [Room.ShutdownReady, Room.opened, Room.init]) rfl rfl rfl)
  obtain ⟨⟨told, hlog, hfront, -⟩, shown, -, hshown⟩ :=
    host_texts_accounted .standard ⟨"host", 300⟩ _ hreach
  exact ⟨told, shown, hlog, hfront, hshown⟩

end Nullpipe

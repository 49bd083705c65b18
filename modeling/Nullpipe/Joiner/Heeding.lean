import Nullpipe.Joiner.Listening

/-!
# What the reader of a joiner hands on

A reader may be stopped at any time: by a timeout, by the end of the write loop, by a
stream that breaks off.  Whatever stops it, what it has handed on is a front part of
what is heard of the stream behind the reply of the hub, and of that stream however it
goes on.

`Joiner.Heeds` is the invariant, in the terms of `Lib/Listener.lean`: while the reader works
it has the rest of the stream ahead of it, so that what it has handed on and what is heard of
that rest make up what is heard of the whole; once it has ended, a front part is all that is
left of the statement.  Before it is spawned it has handed on nothing, and the main task has
read the reply and no more (`JoinMain.Taken`).

The companion of this module is `Listening.lean`, which asks for a run without timeouts and
gets an equality there.
-/

namespace Nullpipe

open Channel Framing Transition

variable {X : Crates} {checks : Bool} {j j' : Joiner} {handed : List ChatEvent}

/-- The reader has handed on `handed`, in the order of the stream: while it works it has
the rest of the stream ahead of it, and when it has stopped nothing of it is out of
place. -/
structure Joiner.Heeds (X : Crates) (j : Joiner) (handed : List ChatEvent) : Prop where
  minds : j.main.Minds j.reader
  taken : j.reader = .unspawned → handed = [] ∧ j.main.Taken j.sock.read
  behind : j.reader ≠ .unspawned → j.sock.read ≠ []
  listens : j.reader ≠ .unspawned → j.reader.ear ≠ .finished →
    j.reader.ear.Waits wireFormat ∧ ∀ later, (j.sock.readEnd.isSome → later = []) →
      j.heardOf X handed later = wireFormat.heard (incoming X) (j.sock.arrived.tail ++ later)
  front : j.reader ≠ .unspawned →
    handed <+: wireFormat.heard (incoming X) j.sock.arrived.tail

theorem Joiner.Heeds.init (X : Crates) (now : ℕ) (config : JoinConfig) :
    (Joiner.init now config).Heeds X [] :=
  ⟨rfl, fun _ => ⟨rfl, rfl⟩, fun hspawned => absurd rfl hspawned,
    fun hspawned => absurd rfl hspawned, fun hspawned => absurd rfl hspawned⟩

/-- What is handed on is part of what is heard. -/
theorem handed_prefix_heardOf (X : Crates) (j : Joiner) (handed : List ChatEvent)
    (later : List UInt8) : handed <+: j.heardOf X handed later :=
  List.prefix_append ..

/-- What was handed on before the reader was spawned: nothing. -/
theorem Joiner.Heeds.prefix_heard (hs : j.Heeds X handed) :
    handed <+: wireFormat.heard (incoming X) j.sock.arrived.tail := by
  by_cases hspawned : j.reader = .unspawned
  · rw [(hs.taken hspawned).1]
    exact List.nil_prefix
  · exact hs.front hspawned

/-! ## The two tasks -/

theorem JoinMainStep.heeds {l : JoinMainLabel} (h : JoinMainStep X checks l j j')
    (hs : j.Heeds X handed) : j'.Heeds X handed := by
  by_cases hspawn : l = .spawnReader
  · subst hspawn
    have hminds := h.minds hs.minds
    cases h with
    | spawnReader hphase =>
        have hnone := hs.minds
        rw [hphase] at hnone
        have htaken := hs.taken hnone
        rw [hphase] at htaken
        obtain ⟨rfl, hread⟩ := htaken
        refine ⟨hminds, JoinReader.noConfusion, fun _ => ?_,
          fun _ _ => ⟨waits_nil, fun later _ => ?_⟩, fun _ => List.nil_prefix⟩
        · exact List.ne_nil_of_length_eq_add_one hread
        · exact heardOf_of_reply hread rfl
  · obtain ⟨hreader, -, hsock⟩ := h.leaves hspawn
    have hend := h.frame.2.2.2.2.1
    by_cases hnone : j.reader = .unspawned
    · have hnone' : j'.reader = .unspawned := hreader.trans hnone
      exact ⟨h.minds hs.minds,
        fun _ => ⟨(hs.taken hnone).1, h.taken (hs.taken hnone).2 hspawn⟩,
        fun hspawned => absurd hnone' hspawned, fun hspawned => absurd hnone' hspawned,
        fun hspawned => absurd hnone' hspawned⟩
    · -- the reply has been read, so the main task leaves the stream alone
      obtain ⟨hread, hinbox⟩ : j'.sock.read = j.sock.read ∧ j'.sock.inbox = j.sock.inbox := by
        rcases hsock with ⟨byte, rfl⟩ | hsame
        · exact absurd (h.reply_minds hs.minds) hnone
        · exact hsame
      have harrived : j'.sock.arrived = j.sock.arrived := by
        rw [Socket.arrived, hread, hinbox, Socket.arrived]
      refine ⟨h.minds hs.minds, fun hnone' => absurd (hreader.symm.trans hnone') hnone,
        fun _ => hread ▸ hs.behind hnone, fun _ hlive => ?_, fun _ => harrived ▸ hs.front hnone⟩
      rw [hreader] at hlive
      obtain ⟨hwaits, hall⟩ := hs.listens hnone hlive
      refine ⟨hreader ▸ hwaits, fun later hlater => ?_⟩
      rw [hend] at hlater
      rw [Joiner.heardOf, hreader, hinbox, harrived]
      exact hall later hlater

theorem JoinReaderStep.heeds {l : JoinReaderLabel} (h : JoinReaderStep X l j j')
    (hs : j.Heeds X handed) : j'.Heeds X (handed ++ l.hands j.reader) := by
  have hbusy := h.busy
  have hspawned : j'.reader ≠ .unspawned := by
    cases h <;> simp
  obtain ⟨harrived, hend, hread⟩ := h.arrived
  have hminds : j'.main.Minds j'.reader := by
    rw [h.frame.1]
    exact (hs.minds.of_busy hbusy).2 _
  -- a reader that has finished hands nothing on
  have hstopped : l.hands j.reader = [] → j'.reader.ear = .finished →
      j'.Heeds X (handed ++ l.hands j.reader) := by
    intro hnothing hfinished
    rw [hnothing, List.append_nil]
    exact ⟨hminds, fun hnone => absurd hnone hspawned, fun _ => hread (hs.behind hbusy.1),
      fun _ hlive => absurd hfinished hlive, fun _ => harrived ▸ hs.front hbusy.1⟩
  by_cases hquits : l = .readTimeout ∨ l = .cancel ∨ l = .done
  · refine hstopped (hands_of_ne ?_) ?_
    · rintro rfl
      simp at hquits
    · cases h with
      | readTimeout | cancel | done => rfl
      | _ => simp at hquits
  · push Not at hquits
    obtain ⟨htimeout, hcancel, hdone⟩ := hquits
    have hlive : j.reader.ear ≠ .finished := by
      cases h with
      | done => exact absurd rfl hdone
      | cancel => exact absurd rfl hcancel
      | _ hphase =>
          rw [hphase]
          exact nofun
    obtain ⟨hwaits, hall⟩ := hs.listens hbusy.1 hlive
    have hlistens : ∀ later, (j'.sock.readEnd.isSome → later = []) →
        j'.heardOf X (handed ++ l.hands j.reader) later =
          wireFormat.heard (incoming X) (j'.sock.arrived.tail ++ later) := by
      intro later hlater
      rw [hend] at hlater
      rw [h.total hwaits htimeout hcancel hlater, hall later hlater, harrived]
    refine ⟨hminds, fun hnone => absurd hnone hspawned, fun _ => hread (hs.behind hbusy.1),
      fun _ _ => ⟨h.waits, hlistens⟩, fun _ => ?_⟩
    have hnow := hlistens [] fun _ => rfl
    rw [List.append_nil] at hnow
    exact hnow ▸ handed_prefix_heardOf ..

/-! ## Every run -/

/-- **Every step of a joiner.** -/
theorem JoinerStep.heeds {l : JoinerLabel} (h : JoinerStep X checks l j j')
    (hs : j.Heeds X handed) : j'.Heeds X (handed ++ l.hands j) := by
  have hnothing : l.hands j = [] → j'.Heeds X handed → j'.Heeds X (handed ++ l.hands j) := by
    intro hnil hs'
    rwa [hnil, List.append_nil]
  cases h with
  | main h => exact hnothing rfl (h.heeds hs)
  | reader h => exact h.heeds hs
  | user h =>
      refine hnothing rfl ?_
      cases h <;> exact { hs with }
  | @net _ chunk hopen =>
      refine hnothing rfl
        ⟨hs.minds, hs.taken, hs.behind, fun hspawned hlive => ?_, fun hspawned => ?_⟩
      · obtain ⟨hwaits, hall⟩ := hs.listens hspawned hlive
        refine ⟨hwaits, fun later hlater => ?_⟩
        have hmore := hall (chunk ++ later) fun hend => by
          rw [hopen] at hend
          cases hend
        rw [Socket.tail_arrived_arrive (hs.behind hspawned), List.append_assoc, ← hmore]
        exact heardOf_arrive
      · rw [Socket.tail_arrived_arrive (hs.behind hspawned)]
        exact (hs.front hspawned).trans (Format.heard_prefix (List.prefix_append ..))
  | finish hopen =>
      refine hnothing rfl ⟨hs.minds, hs.taken, hs.behind, fun hspawned hlive => ?_, hs.front⟩
      obtain ⟨hwaits, hall⟩ := hs.listens hspawned hlive
      refine ⟨hwaits, fun later _ => hall later fun hend => ?_⟩
      rw [hopen] at hend
      cases hend
  | tick => exact hnothing rfl { hs with }

end Nullpipe

import Nullpipe.Room.Oversized
import Nullpipe.Joiner.Connect
import Nullpipe.Joiner.Staying

/-!
# Texts that do not fit a frame, on both sides

The two sides fail in opposite ways.  The host shows such a text to its user and then
does not send it, and goes on; the joiner does not show it, and ends the session.  Each
has what the other misses, and `oversized_refused_iff` states the two conditions side by
side.

* The host: `host_refuses_iff` of `Room/Oversized.lean`, over whole runs.
* The joiner: `JoinerStep.runsOn_iff`, for one text that its write loop takes.  A session
  survives it if something may still be written afterwards (`Joiner.RunsOn`); behind the write
  loop nothing is, ever (`JoinMain.Over.not_runsOn`).  A text that is drained at the end is
  shown and not written, whatever its length.

The text of the examples has twenty thousand characters, and its frame would have more bytes
than `MAX_FRAME_LEN` allows.
-/

namespace Nullpipe

open Channel Room Transition

variable {X : Crates} {checks : Bool} {cfg : HostConfig} {me : Guest} {j j' : Joiner}

/-! ## The joiner -/

/-- The session still runs: something more may be written. -/
def Joiner.RunsOn (X : Crates) (checks : Bool) (j : Joiner) : Prop :=
  ∃ ls k, Run (JoinerStep X checks) j ls k ∧ k.sock.written ≠ j.sock.written

theorem JoinMain.Over.not_runsOn (hover : j.main.Over) : ¬ j.RunsOn X checks := by
  rintro ⟨ls, k, hrun, hmore⟩
  let I : Joiner → Prop := fun k => k.main.Over ∧ k.sock.written = j.sock.written
  have hfinal : I k := hrun.invariant (I := I) ⟨hover, rfl⟩ fun hk hstep =>
    ⟨(hstep.over hk.1).1, (hstep.over hk.1).2.trans hk.2⟩
  exact hmore hfinal.2

/-- **The session of a joiner survives a text it takes if and only if the text fits a
frame.** -/
theorem JoinerStep.runsOn_iff {text : String} (hphase : j.main = .select me)
    (h : JoinerStep X checks (.main (.takeText text)) j j') :
    j'.RunsOn X checks ↔ Encodes X.json (.chat me.name text) := by
  cases h with
  | main h =>
      cases h with
      | takeText hphase' =>
          rw [hphase] at hphase'
          cases hphase'
          constructor
          · intro hruns
            by_contra hfits
            obtain ⟨e, hmain⟩ : ∃ e, afterText X.json me text j.now = .abortReader (some e) :=
              ⟨_, by rw [afterText, encodeMessage_of_not_encodes hfits]⟩
            exact JoinMain.Over.not_runsOn (by rw [hmain]; trivial) hruns
          · intro hfits
            have hmain : afterText X.json me text j.now = .writing me (.text text)
                (frameBytes X.json (.chat me.name text)) (j.now + writeTimeout) := by
              rw [afterText, hfits.encodeMessage]
            have hne := frameBytes_ne_nil hfits
            refine ⟨_, _, .single (step_write hmain hne), ?_⟩
            simpa using hne

/-- A text that is drained is shown to the user, and the session is over. -/
theorem JoinerStep.not_runsOn_of_drain {text : String}
    (h : JoinerStep X checks (.main (.drainText text)) j j') : ¬ j'.RunsOn X checks := by
  apply JoinMain.Over.not_runsOn
  cases h with
  | main h =>
      cases h with
      | drainText hphase =>
          simp only [main_tryEmit, hphase]
          trivial

/-! ## Both sides -/

/-- **What does not fit a frame is refused cleanly by the host exactly when its event
channel has no room for the echo, and by the joiner never.** -/
theorem oversized_refused_iff (X : Crates) (checks : Bool) (cfg : HostConfig) :
    (∀ (s : Room) c info base got front rest, RoomReachable X cfg s → s.Serves c info →
      Feeds X base got front rest s.bcast (s.conns c) → ∀ ls t,
        (Run (fun l u v => (Step X cfg l u v ∧ l.Harmless c) ∧
            HostRefuses X c info base front s v) s ls t ↔
          Run (Guarded (fun l u v => Step X cfg l u v ∧ l.Harmless c) (EchoHidden X cfg)) s ls t)) ∧
    (∀ (j j' : Joiner) me text, j.main = .select me →
      JoinerStep X checks (.main (.takeText text)) j j' →
        (j'.RunsOn X checks ↔ Encodes X.json (.chat me.name text))) ∧
    ∀ (j j' : Joiner) text, JoinerStep X checks (.main (.drainText text)) j j' →
      ¬ j'.RunsOn X checks :=
  ⟨fun _ _ _ _ _ _ _ hs hserves hfeeds ls t => host_refuses_iff hs hserves hfeeds ls t,
    fun _ _ _ _ hphase hstep => hstep.runsOn_iff hphase,
    fun _ _ _ hstep => hstep.not_runsOn_of_drain⟩

/-! ### A text of twenty thousand characters -/

theorem not_encodes_longName (who : String) :
    ¬ Encodes SerdeJson.standard (.chat who longName) := by
  apply not_encodes_of_length
  have hlong : maxPayloadBytes < 20000 := by decide
  have hlen : longName.toList.length = 20000 := length_textOfLength 20000
  exact hlong.trans_eq hlen.symm

theorem reachable_visited : RoomReachable .standard ⟨"host", 300⟩ Room.visited :=
  ⟨0, run_visited.reachable⟩

theorem serves_visited : Room.visited.Serves 0 ann :=
  ⟨by decide, rfl, trivial, rfl, fun _ => Reader.noConfusion⟩

theorem feeds_visited : Feeds .standard [] [] (Room.visited.conns 0).sock.written []
    Room.visited.bcast (Room.visited.conns 0) :=
  ⟨Nat.le_refl _, rfl, rfl, by simp⟩

/-- A joiner that has taken a text from its user. -/
def Joiner.taken (X : Crates) (j : Joiner) (me : Guest) (text : String) : Joiner :=
  { j with
    messages := ⟨j.messages.received ++ [text], [], true⟩
    main := afterText X.json me text j.now }

theorem step_takeText {text : String} (hphase : j.main = .select me)
    (hshutdown : j.shutdown = false)
    (hdone : j.readerDone = false) :
    JoinerStep X checks (.main (.takeText text))
      { j with messages := ⟨j.messages.received, [text], true⟩ } (j.taken X me text) :=
  .main (.takeText hphase hshutdown hdone rfl)

theorem harmless_text (cfg : HostConfig) (c : ConnId) (text : String) :
    ∀ l ∈ textLabels cfg text, l.Harmless c := by
  intro l hl
  simp only [textLabels, List.mem_cons, List.not_mem_nil, or_false] at hl
  rcases hl with rfl | rfl | rfl | rfl
  · exact id
  · trivial
  · trivial
  · trivial

theorem run_told (text : String) :
    Run (fun l u v => Step .standard ⟨"host", 300⟩ l u v ∧ l.Harmless 0) Room.visited
      (textLabels ⟨"host", 300⟩ text) (Room.visited.told ⟨"host", 300⟩ text) :=
  (run_text rfl (by decide) rfl rfl rfl).guard fun l hl _ => harmless_text _ _ text l hl

theorem shown_told : (Room.visited.told ⟨"host", 300⟩ longName).shownOversized .standard =
    Room.visited.shownOversized .standard ++ [.message hubId "host" longName] :=
  shownOversized_trySend (by decide) rfl ⟨rfl, not_encodes_longName "host"⟩

theorem not_hostRefuses_told (base : List WireMessage) (front : List UInt8) :
    ¬ HostRefuses .standard 0 ann base front Room.visited
      (Room.visited.told ⟨"host", 300⟩ longName) := by
  intro hrefuses
  have hsame := hrefuses.hidden
  rw [shown_told] at hsame
  exact List.cons_ne_nil _ _ (List.append_right_eq_self.mp hsame)

/-- The echo of a long text is the step that goes wrong on the host; a joiner goes on
after a short text and not after a long one. -/
theorem oversized_refused_iff_visited :
    ¬ Run (Guarded (fun l u v => Step .standard ⟨"host", 300⟩ l u v ∧ l.Harmless 0)
        (EchoHidden .standard ⟨"host", 300⟩)) Room.visited
      (textLabels ⟨"host", 300⟩ longName) (Room.visited.told ⟨"host", 300⟩ longName) ∧
    ((Joiner.entered .standard 0 ⟨"", ""⟩ annGuest).taken .standard annGuest "hi").RunsOn
      .standard true ∧
    ¬ ((Joiner.entered .standard 0 ⟨"", ""⟩ annGuest).taken .standard annGuest longName).RunsOn
      .standard true := by
  obtain ⟨hhost, hjoiner, -⟩ := oversized_refused_iff .standard true ⟨"host", 300⟩
  refine ⟨fun hrun => ?_, ?_, ?_⟩
  · have hrefused :=
      (hhost _ 0 ann [] [] _ [] reachable_visited serves_visited feeds_visited _ _).mpr
      hrun
    have hend := hrefused.invariant ⟨serves_visited, ⟨[], [], feeds_visited⟩, rfl⟩ fun _ h => h.2
    exact not_hostRefuses_told _ _ hend
  · have hfits : Encodes SerdeJson.standard (.chat annGuest.name "hi") := by decide
    exact (hjoiner _ _ _ _ rfl (step_takeText rfl rfl rfl)).mpr hfits
  · intro hruns
    exact not_encodes_longName _ ((hjoiner _ _ _ _ rfl (step_takeText rfl rfl rfl)).mp hruns)

/-- Both sides are given the text: the host shows it, and the session of the joiner is
over. -/
theorem oversized_not_refused :
    (∀ who, ¬ Encodes SerdeJson.standard (.chat who longName)) ∧
    (∃ ls t, Run (fun l u v => Step .standard ⟨"host", 300⟩ l u v ∧ l.Harmless 0)
        Room.visited ls t ∧
      .message hubId "host" longName ∈ t.events.sent ∧
      ¬ HostRefuses .standard 0 ann [] (Room.visited.conns 0).sock.written Room.visited t) ∧
    ∃ token ls j, Run (JoinerStep .standard true) (Joiner.init 0 ⟨"", token⟩) ls j ∧
      j.messages.received = [longName] ∧ ¬ j.RunsOn .standard true := by
  refine ⟨not_encodes_longName, ⟨_, _, run_told longName, ?_, not_hostRefuses_told _ _⟩, ?_⟩
  · have hshown : ChatEvent.message hubId "host" longName ∈
        (Room.visited.told ⟨"host", 300⟩ longName).shownOversized .standard := by
      rw [shown_told]
      exact List.mem_append_right _ (List.mem_singleton_self _)
    exact List.mem_of_mem_filter hshown
  · obtain ⟨token, hencode⟩ := exists_annToken .standard
    have hdecode : JoinerStep .standard true (.main .decode) (Joiner.init 0 ⟨"", token⟩) _ :=
      step_decode (decodeInvite_annInvite hencode)
    have hentered := Run.cons hdecode (run_ann _ rfl)
    have hsent := hentered.snoc
      (.user (l := .send longName) (.send rfl ⟨rfl, show 0 < sendChanCap by decide⟩))
    let entered := Joiner.entered .standard 0 ⟨"", token⟩ annGuest
    have htaken : JoinerStep .standard true (.main (.takeText longName))
        { entered with messages := ⟨entered.messages.received, [longName], true⟩ }
        (entered.taken .standard annGuest longName) := step_takeText rfl rfl rfl
    refine ⟨token, _, _, hsent.snoc htaken, rfl, fun hruns => ?_⟩
    exact not_encodes_longName _ ((htaken.runsOn_iff rfl).mp hruns)

end Nullpipe

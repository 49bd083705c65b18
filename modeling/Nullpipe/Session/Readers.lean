import Nullpipe.Joiner.Echo
import Nullpipe.Joiner.Listening
import Nullpipe.Room.Delivery
import Nullpipe.Room.Forwarding

/-!
# Both readers on arbitrary bytes

The reader of the hub and that of a joiner read the same frames and part at the first one
whose payload is no message: the hub's stops there, the joiner's goes on behind it.

What a reader hands on cannot be read off its channel, which it shares with others, so it is
watched: a run carries a log of it.  The log is no second account of what happens.  It grows
by what the steps of this reader put on the channel, and in no other step (`Records`), for both
readers (`records_forwardStep`, `records_hearStep`).

`readers_read_any_stream` puts together what the two sides have proved of their readers.

* The hub's: `HubReads` of `Room/Forwarding.lean`, for any bytes behind a handshake.
* The joiner's: `JoinerReads` of `Joiner/Listening.lean`, for any bytes behind the reply, in
  runs in which no read times out.

Both say what is handed on, that the reader comes to its end within a number of steps, and
that nothing but a full channel can stop it before.
-/

namespace Nullpipe

open Channel Room Transition

variable {X : Crates} {cfg : HostConfig} {checks : Bool} {c : ConnId}

/-! ## The log -/

/-- The log beside a state grows in the steps of `Own` by what they put on the channel, and in
no other step. -/
def Records {σ α L : Type} (Own : L → Prop) (channel : σ → List α)
    (step : L → σ × List α → σ × List α → Prop) : Prop :=
  ∀ l s t, step l s t →
    (Own l → ∃ more, channel t.1 = channel s.1 ++ more ∧ t.2 = s.2 ++ more) ∧
      (¬ Own l → t.2 = s.2)

/-- The log of a connection has what its reader sends on the message channel. -/
theorem records_forwardStep (X : Crates) (cfg : HostConfig) (c : ConnId) :
    Records (fun l => ∃ k, l = .reader c k) (fun s => s.msgs.sent) (ForwardStep X cfg c) := by
  rintro l s t ⟨hstep, hlog⟩
  refine ⟨?_, fun hother => ?_⟩
  · rintro ⟨k, rfl⟩
    cases hstep with
    | reader h => exact ⟨_, h.sent, hlog⟩
  · have hne : l ≠ .reader c .send := fun heq => hother ⟨_, heq⟩
    rw [hlog, forwardedBy_of_ne hne, List.append_nil]

/-- The log of a joiner has what its reader puts on the event stream. -/
theorem records_hearStep (X : Crates) (checks : Bool) :
    Records (fun l => ∃ k, l = .reader k) (fun j => j.events.sent) (HearStep X checks) := by
  rintro l s t ⟨hstep, hlog⟩
  refine ⟨?_, fun hother => ?_⟩
  · rintro ⟨k, rfl⟩
    cases hstep with
    | reader h => exact ⟨_, h.sent, hlog⟩
  · have hnothing : l.emits s.1 = [] := by
      cases l with
      | reader k => exact absurd ⟨k, rfl⟩ hother
      | _ => exact ite_self _
    rw [hlog, hnothing, List.append_nil]

/-! ## Any bytes -/

/-- **Whatever a peer sends,** in whatever chunks and however it ends, the hub's reader
forwards the messages before the first bad frame, without the pings and under the id of the
peer, and the joiner's reader emits every message before the first malformed frame; both
come to their end.  What a reader is said to hand on is what its steps put on its channel. -/
theorem readers_read_any_stream (X : Crates) (cfg : HostConfig) (checks : Bool) (now : ℕ)
    (config : JoinConfig) :
    (∀ c info ls t, Run (ForwardStep X cfg c) (Room.init now, []) ls t →
      (t.1.conns c).handler.joined = some info → (t.1.conns c).readerAborted = false →
        HubReads X cfg c info t) ∧
    (∀ ls t, Run (Guarded (HearStep X checks) fun _ l => l ≠ .reader .readTimeout)
        (Joiner.init now config, []) ls t →
      t.1.reader ≠ .unspawned → t.1.readerAborted = false → JoinerReads X checks t) ∧
    (∀ c, Records (fun l => ∃ k, l = .reader c k) (fun s => s.msgs.sent) (ForwardStep X cfg c)) ∧
    Records (fun l => ∃ k, l = .reader k) (fun j => j.events.sent) (HearStep X checks) :=
  ⟨fun _ _ _ _ hrun hjoined habort => hubReads_of_run hrun hjoined habort,
    fun _ _ hrun hspawned habort => joinerReads_of_run hrun hspawned habort,
    records_forwardStep X cfg, records_hearStep X checks⟩

/-- Ann says something to the host, and as a joiner she hears her greeting. -/
theorem readers_read_any_stream_ann :
    (∃ t, (t.1.conns 0).handler.joined = some ann ∧
      (ann.id, .chat "ann" "hi") ∈ t.1.msgs.sent ∧ HubReads .standard ⟨"host", 300⟩ 0 ann t) ∧
    ∃ t, .message ⟨""⟩ "" "ann joined" ∈ t.1.events.sent ∧ JoinerReads .standard true t := by
  constructor
  · have hheard := run_visited.append (run_heard rfl rfl (by decide) rfl rfl rfl rfl)
    obtain ⟨out, hrun⟩ := hheard.watch (forwardedBy 0) []
    have hjoined : ((Room.visited.taken .standard 0 ann.id (.chat "ann" "hi")).conns
        0).handler.joined = some ann := rfl
    exact ⟨(_, out), hjoined, List.mem_cons_self ..,
      (readers_read_any_stream .standard _ true 0 ⟨"", ""⟩).1 0 ann _ _ hrun hjoined rfl⟩
  · obtain ⟨token, hencode⟩ := exists_annToken .standard
    have hdecode : JoinerStep .standard true (.main .decode) (Joiner.init 0 ⟨"", token⟩) _ :=
      step_decode (decodeInvite_annInvite hencode)
    let entered := Joiner.entered .standard 0 ⟨"", token⟩ annGuest
    have hroom : entered.events.HasRoom eventChanCap := ⟨rfl, show 1 < eventChanCap by decide⟩
    have hheard : Run (JoinerStep .standard true) entered _ _ :=
      run_heard_message rfl rfl rfl hroom
        (show Encodes SerdeJson.standard (.system "ann joined") by decide)
    obtain ⟨out, hrun⟩ := ((Run.cons hdecode (run_ann _ rfl)).append hheard).watch
      (fun j l => l.emits j) []
    have htimely : Run (Guarded (HearStep .standard true) fun _ l => l ≠ .reader .readTimeout)
        _ _ _ := hrun.guard (by
      simp [annLabels, answeredLabels, hailLabels, replyLabels, enteredLabels, heardLabels])
    exact ⟨(_, out), List.mem_cons_of_mem _ (List.mem_cons_self ..),
      (readers_read_any_stream .standard ⟨"host", 300⟩ true 0 ⟨"", token⟩).2.1 _ _ htimely
        JoinReader.noConfusion rfl⟩

end Nullpipe

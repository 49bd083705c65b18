import Nullpipe.Joiner.Enter

/-!
# Where an invite leads

`Joiner::connect` on the code of an invite: it calls the connector once, with the
address of the invite, writes the nonce of the invite first, and then introduces
itself by the name it was given or the one the invite suggests.  A name whose frame
is larger than the wire allows is not sent at all: `connect` fails after the hub has
accepted the nonce.

`DialStep` runs a joiner together with the calls of the connector it has made; every run has
its calls (`exists_dialRun`).  `Connects` is the invariant of a joiner whose code decodes to
one payload: no call was made yet, or the one call for that payload; and what the joiner has
written is a front part of the script of the guest that this payload makes of it.

* Nothing leads back to the decoding (`JoinMainStep.not_dialing`), so there is one call.
* Where `connect` has returned the introduction is complete (`JoinMain.Spoken.introduced`), and
  so the name has been written, in a frame.

An invite that a room has issued decodes to what was encoded, within the window of 300 s that
the joiner grants and on a clock that fits an `i64` (`decodeInvite_of_inWindow`), and not
behind it (`decodeInvite_of_expired`).  This needs the text inside the code to be one that the
decoder of `base58` reads, which is a bound on the length of the suggested name.
`invite_leads_to_its_room` puts these together, and `long_name_not_sent` is the guest whose
name does not fit a frame.
-/

namespace Nullpipe

open Channel Framing Transition

variable {X : Crates} {checks : Bool} {me : Guest} {j j' : Joiner} {ls : List JoinerLabel}
  {config : JoinConfig} {payload : InvitePayload} {log : List (String × UInt16)}

/-- The port the joiner dials, a literal in the source. -/
def joinPort : UInt16 := 80

/-! ## Calls of the connector -/

/-- The call of the connector that follows the decoding. -/
def JoinMain.dials : JoinMain → List (String × UInt16)
  | .connecting payload => [(payload.onionAddress, joinPort)]
  | _ => []

/-- The steps of a joiner, with the calls of `tor.connect` so far. -/
def DialStep (X : Crates) (checks : Bool) (l : JoinerLabel)
    (s t : Joiner × List (String × UInt16)) : Prop :=
  JoinerStep X checks l s.1 t.1 ∧
    t.2 = s.2 ++ if l = .main .decode then t.1.main.dials else []

/-- Every run of a joiner has its calls. -/
theorem exists_dialRun (hrun : Run (JoinerStep X checks) j ls j') :
    ∃ log', Run (DialStep X checks) (j, log) ls (j', log') := by
  induction hrun with
  | nil => exact ⟨log, .nil⟩
  | @snoc _ u _ l _ hstep ih =>
      obtain ⟨log', hrun⟩ := ih
      exact ⟨log' ++ if l = .main .decode then u.main.dials else [], hrun.snoc ⟨hstep, rfl⟩⟩

/-! ## One invite -/

/-- The clock a step decodes at accepts the code, as this payload. -/
def Accepts (X : Crates) (checks : Bool) (payload : InvitePayload)
    (s : Joiner × List (String × UInt16)) (l : JoinerLabel) : Prop :=
  l = .main .decode →
    decodeInvite X checks s.1.config.inviteCode (some joinTtl) s.1.timestamp = some (.ok payload)

/-- `Joiner::connect` has returned `Ok`. -/
def JoinMain.Joined : JoinMain → Prop
  | .emitJoin _ | .spawnReader _ | .select _ | .echo .. | .drain _ | .flushPending
  | .abortReader _ | .awaitReader _ | .emitError _ | .emitClosed | .ended => True
  | .writing _ what _ _ | .flushing _ what _ => ∃ text, what = .text text
  | _ => False

/-- Until the first text the script is the handshake. -/
theorem Guest.script_nil (X : Crates) (me : Guest) :
    me.script X [] = helloBytes X me.nonce me.discriminator me.name := by
  simp [script, helloBytes, hello]

/-- The place says whether the introduction is complete. -/
theorem JoinMain.Spoken.introduced {main : JoinMain} {texts : List String} {written : List UInt8}
    (h : main.Spoken X me texts written) :
    (main.Joined → Encodes X.json (.system me.name) ∧
        helloBytes X me.nonce me.discriminator me.name <+: written) ∧
      (¬ main.Joined → written <+: helloBytes X me.nonce me.discriminator me.name) := by
  rw [← Guest.script_nil]
  cases main with
  | connect | connecting | panicked => exact ⟨False.elim, fun _ => h.2 ▸ List.nil_prefix⟩
  | writing who what rest =>
      obtain ⟨-, hbegun, hfront, hwritten⟩ := h
      have hpart : written <+: me.upTo X texts what := hwritten ▸ List.prefix_append ..
      cases what with
      | hello => exact ⟨nofun, fun _ => hpart.trans (Guest.hello_prefix_script ..)⟩
      | name => exact ⟨nofun, fun _ => hpart⟩
      | text text => exact ⟨fun _ => ⟨hbegun.2.1, hfront⟩, fun hout => absurd ⟨text, rfl⟩ hout⟩
  | flushing who what =>
      obtain ⟨-, hbegun, rfl⟩ := h
      cases what with
      | hello => exact ⟨nofun, fun _ => Guest.hello_prefix_script ..⟩
      | name => exact ⟨nofun, fun _ => List.prefix_refl _⟩
      | text text =>
          exact ⟨fun _ => ⟨hbegun.2.1, Guest.script_prefix List.nil_prefix⟩,
            fun hout => absurd ⟨text, rfl⟩ hout⟩
  | readReply => exact ⟨False.elim, fun _ => h.2.2 ▸ Guest.hello_prefix_script ..⟩
  | emitJoin | spawnReader =>
      exact ⟨fun _ => ⟨h.2.2.1, h.2.2.2 ▸ List.prefix_refl _⟩, fun hout => absurd trivial hout⟩
  | select | echo =>
      exact ⟨fun _ => ⟨h.2.1, h.2.2 ▸ Guest.script_prefix List.nil_prefix⟩,
        fun hout => absurd trivial hout⟩
  | drain => exact ⟨fun _ => ⟨h.2.name, h.2.low⟩, fun hout => absurd trivial hout⟩
  | flushPending | abortReader | awaitReader | emitError | emitClosed | ended =>
      exact ⟨fun _ => ⟨h.name, h.low⟩, fun hout => absurd trivial hout⟩
  | sendError | failed => exact ⟨False.elim, fun _ => h.2⟩

/-! ## The steps on the way -/

/-- `tor.connect(..)` has not returned, or never will after a panic. -/
def JoinMain.Dialing : JoinMain → Prop
  | .connect | .connecting _ | .panicked => True
  | _ => False

theorem not_dialing_afterReply {json : SerdeJson} {byte : UInt8} {now : ℕ} :
    ¬ (afterReply json me byte now).Dialing := by
  unfold afterReply
  split
  · exact id
  · split <;> exact id

theorem not_dialing_afterText {json : SerdeJson} {text : String} {now : ℕ} :
    ¬ (afterText json me text now).Dialing := by
  unfold afterText
  split <;> exact id

/-- Nothing but the decoding calls the connector, and nothing leads back to it. -/
theorem JoinMainStep.not_dialing {l : JoinMainLabel} (h : JoinMainStep X checks l j j')
    (hl : l ≠ .decode) : j.main ≠ .connect ∧ ¬ j'.main.Dialing := by
  cases h with
  | decode => exact absurd rfl hl
  | write hphase =>
      refine ⟨hphase ▸ nofun, ?_⟩
      dsimp only
      split <;> exact id
  | @writeFail _ _ what _ _ _ hphase | @writeTimeout _ _ what _ _ hphase
  | @flush _ _ what _ hphase | @flushFail _ _ what _ _ hphase
  | @flushTimeout _ _ what _ hphase =>
      refine ⟨hphase ▸ nofun, ?_⟩
      cases what <;> exact id
  | reply hphase => exact ⟨hphase ▸ nofun, not_dialing_afterReply⟩
  | takeText hphase => exact ⟨hphase ▸ nofun, not_dialing_afterText⟩
  | drainText hphase => exact ⟨hphase ▸ nofun, by simp only [main_tryEmit, hphase]; exact id⟩
  | flushEvent hphase => exact ⟨hphase ▸ nofun, by simp only [hphase]; exact id⟩
  | @awaitReader _ result hphase =>
      refine ⟨hphase ▸ nofun, ?_⟩
      cases result <;> exact id
  | _ hphase => exact ⟨hphase ▸ nofun, id⟩

/-! ## One invite -/

/-- A joiner on its way through an invite that decodes to `payload`. -/
structure Connects (X : Crates) (config : JoinConfig) (payload : InvitePayload)
    (s : Joiner × List (String × UInt16)) : Prop where
  configured : s.1.config = config
  calls : s.2 = if s.1.main = .connect then [] else [(payload.onionAddress, joinPort)]
  target : ∀ payload', s.1.main = .connecting payload' → payload' = payload
  spoken : ∃ d, s.1.Spoken X ⟨effectiveName config payload, payload.nonce, d⟩

theorem Connects.init (X : Crates) (config : JoinConfig) (payload : InvitePayload) (now : ℕ) :
    Connects X config payload (Joiner.init now config, []) :=
  ⟨rfl, rfl, nofun, ⟨List.replicate 16 0, rfl⟩, .init ..⟩

theorem DialStep.connects {l : JoinerLabel} {s t : Joiner × List (String × UInt16)}
    (h : DialStep X checks l s t) (haccepts : Accepts X checks payload s l)
    (hs : Connects X config payload s) : Connects X config payload t := by
  obtain ⟨hstep, hlog⟩ := h
  obtain ⟨hconfig, hcalls, htarget, d, hspoken⟩ := hs
  have hconfig' := hstep.config.trans hconfig
  by_cases hdecode : l = .main .decode
  · -- the code is accepted, so the connector is called with its address
    subst hdecode
    rw [if_pos rfl] at hlog
    have hspoken' := hstep.spoken nofun hspoken
    have hphases : s.1.main = .connect ∧ t.1.main = .connecting payload := by
      cases hstep with
      | main h =>
          generalize ht : t.1 = j' at h
          cases h with
          | decode hphase => exact ⟨hphase, by rw [haccepts rfl]; rfl⟩
    rw [hphases.1, if_pos rfl] at hcalls
    refine ⟨hconfig', ?_, fun payload' hphase => ?_, d, hspoken'⟩
    · rw [hlog, hcalls, hphases.2]
      rfl
    · rw [hphases.2] at hphase
      exact (JoinMain.connecting.inj hphase).symm
  rw [if_neg hdecode, List.append_nil] at hlog
  by_cases hmain : ∃ l', l = .main l'
  · obtain ⟨l', rfl⟩ := hmain
    have hne : l' ≠ .decode := fun heq => hdecode (heq ▸ rfl)
    obtain ⟨hbefore, hafter⟩ : s.1.main ≠ .connect ∧ ¬ t.1.main.Dialing := by
      cases hstep with
      | main h => exact h.not_dialing hne
    have hspoken' : ∃ d, t.1.Spoken X ⟨effectiveName config payload, payload.nonce, d⟩ := by
      by_cases hconnected : ∃ d', l' = .connected d'
      · obtain ⟨d', rfl⟩ := hconnected
        cases hstep with
        | main h =>
            obtain ⟨payload', hphase, hspoken'⟩ := h.spoken_connected hspoken
            rw [htarget payload' hphase, hconfig] at hspoken'
            exact ⟨d', hspoken'⟩
      · push Not at hconnected
        exact ⟨d, hstep.spoken (fun d' heq => hconnected d' (JoinerLabel.main.inj heq)) hspoken⟩
    rw [if_neg hbefore] at hcalls
    refine ⟨hconfig', ?_, fun payload' hphase => ?_, hspoken'⟩
    · rw [hlog, hcalls, if_neg]
      intro hphase
      rw [hphase] at hafter
      exact hafter trivial
    · rw [hphase] at hafter
      exact absurd trivial hafter
  · push Not at hmain
    obtain ⟨hphase, -, -⟩ := hstep.main_frame hmain
    refine ⟨hconfig', ?_, ?_, d, hstep.spoken (fun d' => hmain _) hspoken⟩
    · rw [hlog, hcalls, hphase]
    · rw [hphase]
      exact htarget

/-- A code that is not accepted. -/
def Rejects (X : Crates) (checks : Bool) (s : Joiner × List (String × UInt16)) (l : JoinerLabel) :
    Prop :=
  l = .main .decode → ∀ payload,
    decodeInvite X checks s.1.config.inviteCode (some joinTtl) s.1.timestamp ≠ some (.ok payload)

theorem DialStep.calls_of_rejects {l : JoinerLabel} {s t : Joiner × List (String × UInt16)}
    (h : DialStep X checks l s t) (hrejects : Rejects X checks s l) (hs : s.2 = []) : t.2 = [] := by
  obtain ⟨hstep, hlog⟩ := h
  rw [hlog, hs, List.nil_append]
  by_cases hdecode : l = .main .decode
  · subst hdecode
    rw [if_pos rfl]
    cases hstep with
    | main h =>
        generalize ht : t.1 = j' at h
        cases h with
        | decode =>
            rcases hresult : decodeInvite X checks s.1.config.inviteCode (some joinTtl)
              s.1.timestamp with _ | _ | payload
            · rfl
            · rfl
            · exact absurd hresult (hrejects rfl payload)
  · exact if_neg hdecode

/-- The seconds of the clock fit the `i64` they are read from. -/
def ClockFits (j : Joiner) (l : JoinerLabel) : Prop := l = .main .decode → j.now / 1000 < 2 ^ 63

theorem decodeInvite_ne_none {token : String} (hbase : X.base58.fromBase58 token ≠ none)
    (hclock : j.now / 1000 < 2 ^ 63) :
    decodeInvite X checks token (some joinTtl) j.timestamp ≠ none := by
  have hnow : j.timestamp.toNat < 2 ^ 63 := by
    rw [Joiner.timestamp, UInt64.toNat_ofNat', Nat.mod_eq_of_lt (by omega)]
    exact hclock
  intro hpanic
  exact hbase ((decodeInvite_eq_none_iff checks hnow).mp hpanic).2

/-- Nothing but the decoding can panic. -/
theorem JoinerStep.ne_panicked {l : JoinerLabel} (h : JoinerStep X checks l j j')
    (hclock : ClockFits j l) (hbase : X.base58.fromBase58 j.config.inviteCode ≠ none)
    (hs : j.main ≠ .panicked) : j'.main ≠ .panicked := by
  by_cases hmain : ∃ l', l = .main l'
  · obtain ⟨l', rfl⟩ := hmain
    cases h with
    | main h =>
        by_cases hdecode : l' = .decode
        · subst hdecode
          cases h with
          | decode =>
              have hsome : decodeInvite X checks j.config.inviteCode (some joinTtl)
                j.timestamp ≠ none := decodeInvite_ne_none hbase (hclock rfl)
              dsimp only
              rcases hresult : decodeInvite X checks j.config.inviteCode (some joinTtl)
                j.timestamp with _ | _ | _
              · exact absurd hresult hsome
              · exact nofun
              · exact nofun
        · intro hpanic
          have hafter := (h.not_dialing hdecode).2
          rw [hpanic] at hafter
          exact hafter trivial
  · push Not at hmain
    rw [(h.main_frame hmain).1]
    exact hs

/-- No build panics, whatever the code, unless the decoder of `base58` does. -/
theorem joiner_never_panics {now : ℕ} (hbase : X.base58.fromBase58 config.inviteCode ≠ none)
    (hrun : Run (Guarded (JoinerStep X checks) ClockFits) (Joiner.init now config) ls j) :
    j.main ≠ .panicked := by
  have hboth : j.config = config ∧ j.main ≠ .panicked := by
    refine hrun.invariant (I := fun j => j.config = config ∧ j.main ≠ .panicked) ⟨rfl, nofun⟩
      fun {l s t} hs hstep => ?_
    obtain ⟨hstep, hclock⟩ := hstep
    obtain ⟨hconfig, hnot⟩ := hs
    rw [← hconfig] at hbase
    exact ⟨hstep.config.trans hconfig, hstep.ne_panicked hclock hbase hnot⟩
  exact hboth.2

/-! ## The invite of a room -/

/-- The name a joiner is to introduce itself by. -/
def chosenName (name : String) (suggested : Option String) : String :=
  if name ≠ "" then name
  else
    match suggested with
    | none => "anonymous"
    | some suggestion => if suggestion ≠ "" then suggestion else "anonymous"

theorem effectiveName_normalized (config : JoinConfig) (payload : InvitePayload) :
    effectiveName config payload.normalized = chosenName config.name payload.suggestedName := by
  unfold effectiveName chosenName
  by_cases hname : config.name = ""
  · rw [if_pos hname, if_neg (not_not_intro hname), InvitePayload.normalized]
    cases payload.suggestedName with
    | none => rfl
    | some suggestion => by_cases hempty : suggestion = "" <;> simp [hempty, Option.filter]
  · rw [if_neg hname, if_pos hname]

/-- The joiner decodes within 300 s of the issue, on a clock whose seconds fit the
`i64` they are read from. -/
def InWindow (issued : UInt64) (s : Joiner × List (String × UInt16)) (l : JoinerLabel) : Prop :=
  l = .main .decode → s.1.now / 1000 < 2 ^ 63 ∧
    issued.toNat ≤ s.1.now / 1000 + 300 ∧ s.1.now / 1000 ≤ issued.toNat + 300

theorem encodeInvite_of_onionV3 (hvalid : IsOnionV3 payload.onionAddress) :
    ∃ token, encodeInvite X payload = .ok token := by
  rw [encodeInvite, hvalid.validateAddress]
  exact ⟨_, rfl⟩

/-- Within the window the code of an invite decodes to the invite. -/
theorem decodeInvite_of_inWindow {token : String} (hvalid : IsOnionV3 payload.onionAddress)
    (hreads : X.base58.Reads (utf8Bytes (joinFields X payload)))
    (hencode : encodeInvite X payload = .ok token) (hclock : j.now / 1000 < 2 ^ 63)
    (hearly : payload.timestamp.toNat ≤ j.now / 1000 + 300)
    (hlate : j.now / 1000 ≤ payload.timestamp.toNat + 300) :
    decodeInvite X checks token (some joinTtl) j.timestamp = some (.ok payload.normalized) := by
  have hnow : j.timestamp.toNat = j.now / 1000 := by
    rw [Joiner.timestamp, UInt64.toNat_ofNat', Nat.mod_eq_of_lt (by omega)]
  have hwindow : checkWindow checks (some 300) j.timestamp payload.timestamp = some (.ok ()) :=
    checkWindow_eq_ok checks (by omega) (by omega) (by omega)
  rw [decodeInvite, parseInvite_encodeInvite hvalid.colon_notMem hreads hencode]
  simp only [InvitePayload.normalized, joinTtl, hwindow]

/-- Behind the window it does not decode. -/
theorem decodeInvite_of_expired {token : String} (hvalid : IsOnionV3 payload.onionAddress)
    (hreads : X.base58.Reads (utf8Bytes (joinFields X payload)))
    (hencode : encodeInvite X payload = .ok token) (hclock : j.now / 1000 < 2 ^ 63)
    (hlate : payload.timestamp.toNat + 300 < j.now / 1000) :
    decodeInvite X checks token (some joinTtl) j.timestamp =
      some (.error (.inviteExpired payload.timestamp)) := by
  have hnow : j.timestamp.toNat = j.now / 1000 := by
    rw [Joiner.timestamp, UInt64.toNat_ofNat', Nat.mod_eq_of_lt (by omega)]
  have hwindow : checkWindow checks (some 300) j.timestamp payload.timestamp =
      some (.error (.inviteExpired payload.timestamp)) :=
    checkWindow_expired checks (by omega) (by omega)
  rw [decodeInvite, parseInvite_encodeInvite hvalid.colon_notMem hreads hencode]
  simp only [InvitePayload.normalized, joinTtl, hwindow]

/-- **An invite leads the joiner to its room and its nonce**, under the name it was
given, else the suggested one, else "anonymous"; and a code that is not accepted
leads nowhere. -/
theorem invite_leads_to_its_room (X : Crates) (checks : Bool) (addr : String)
    (haddr : IsOnionV3 addr) (nonce : Bytes16) (issued : UInt64) (suggested : Option String)
    (name : String) :
    (∃ token, encodeInvite X ⟨addr, nonce, issued, suggested⟩ = .ok token ∧
      (X.base58.Reads (utf8Bytes (joinFields X ⟨addr, nonce, issued, suggested⟩)) →
      ∀ now ls j log, Run (Guarded (DialStep X checks) (InWindow issued))
          (Joiner.init now ⟨name, token⟩, []) ls (j, log) →
        log = (if j.main = .connect then [] else [(addr, joinPort)]) ∧
        ∃ discriminator : Bytes16,
          (¬ j.main.Joined →
            j.sock.written <+: helloBytes X nonce discriminator (chosenName name suggested)) ∧
          (j.main.Joined →
            Encodes X.json (.system (chosenName name suggested)) ∧
            helloBytes X nonce discriminator (chosenName name suggested) <+: j.sock.written))) ∧
    ∀ token now ls j log, Run (Guarded (DialStep X checks) (Rejects X checks))
        (Joiner.init now ⟨name, token⟩, []) ls (j, log) → log = [] := by
  constructor
  · let payload : InvitePayload := ⟨addr, nonce, issued, suggested⟩
    have hvalid : IsOnionV3 payload.onionAddress := haddr
    obtain ⟨token, hencode⟩ := encodeInvite_of_onionV3 (X := X) hvalid
    refine ⟨token, hencode, fun hreads now ls j log hrun => ?_⟩
    -- the invariant is about the payload that decoding returns
    have hconnects : Connects X ⟨name, token⟩ payload.normalized (j, log) := by
      refine hrun.invariant (.init ..) fun {l s t} hs hstep => ?_
      refine hstep.1.connects (fun hl => ?_) hs
      obtain ⟨hclock, hearly, hlate⟩ := hstep.2 hl
      rw [hs.configured]
      exact decodeInvite_of_inWindow hvalid hreads hencode hclock hearly hlate
    obtain ⟨d, hspoken⟩ := hconnects.spoken
    have hintro := hspoken.introduced
    rw [effectiveName_normalized] at hintro
    exact ⟨hconnects.calls, d, hintro.2, hintro.1⟩
  · intro token now ls j log hrun
    exact hrun.invariant (I := fun s => s.2 = []) rfl fun hs hstep =>
      hstep.1.calls_of_rejects hstep.2 hs

/-! ## Two joiners -/

/-- The address of a room. -/
def onionA : String := String.ofList (List.replicate 56 'a' ++ ".onion".toList)

theorem isOnionV3_onionA : IsOnionV3 onionA :=
  ⟨List.replicate 56 'a', List.length_replicate,
    fun c hc => .inl (by rw [List.eq_of_mem_replicate hc]; rfl), String.toList_ofList⟩

/-- A joiner that decodes an invite at the moment of its issue. -/
theorem decodeInvite_at_issue {token name : String} (hvalid : IsOnionV3 payload.onionAddress)
    (hreads : X.base58.Reads (utf8Bytes (joinFields X payload)))
    (hencode : encodeInvite X payload = .ok token) (hissued : payload.timestamp = 0) :
    decodeInvite X checks token (some joinTtl) (Joiner.init 0 ⟨name, token⟩).timestamp =
      some (.ok payload.normalized) := by
  have hnow : (Joiner.init 0 ⟨name, token⟩).now = 0 := rfl
  have htimestamp : payload.timestamp.toNat = 0 := by rw [hissued]; rfl
  exact decodeInvite_of_inWindow hvalid hreads hencode (by omega) (by omega) (by omega)

/-- A run behind the decoding is one of a joiner that has decoded an invite at the
moment of its issue. -/
theorem exists_inWindow_run {token name : String} (hvalid : IsOnionV3 payload.onionAddress)
    (hreads : X.base58.Reads (utf8Bytes (joinFields X payload)))
    (hencode : encodeInvite X payload = .ok token) (hissued : payload.timestamp = 0)
    (hrun : Run (JoinerStep X checks)
      (.greeting 0 ⟨name, token⟩ (.connecting payload.normalized) .fresh) ls j)
    (hls : .main .decode ∉ ls) :
    ∃ log, Run (Guarded (DialStep X checks) (InWindow 0)) (Joiner.init 0 ⟨name, token⟩, [])
      (.main .decode :: ls) (j, log) := by
  -- the call of the connector is on the log from the first step on
  let s : Joiner := .greeting 0 ⟨name, token⟩ (.connecting payload.normalized) .fresh
  have hfirst : DialStep X checks (.main .decode) (Joiner.init 0 ⟨name, token⟩, [])
      (s, [] ++ s.main.dials) :=
    ⟨step_decode (decodeInvite_at_issue hvalid hreads hencode hissued), (if_pos rfl).symm ▸ rfl⟩
  obtain ⟨log, hrest⟩ : ∃ log, Run (DialStep X checks) (s, [] ++ s.main.dials) ls (j, log) :=
    exists_dialRun hrun
  have hguarded : Run (Guarded (DialStep X checks) (InWindow 0)) (s, [] ++ s.main.dials)
      ls (j, log) :=
    hrest.guard fun l hl _ heq => absurd (heq ▸ hl) hls
  refine ⟨log, Run.cons ⟨hfirst, fun _ => ?_⟩ hguarded⟩
  exact ⟨by simp [Joiner.init], by simp, by simp [Joiner.init]⟩

/-- The invite of room `onionA` for a guest who is to be called ann. -/
def annInvite : InvitePayload := ⟨onionA, .fill 1, 0, some "ann"⟩

/-- A joiner that was let in with it. -/
def annGuest : Guest := ⟨"ann", .fill 1, .fill 7⟩

theorem isOnionV3_annInvite : IsOnionV3 annInvite.onionAddress := isOnionV3_onionA

theorem reads_annInvite (X : Crates) : X.base58.Reads (utf8Bytes (joinFields X annInvite)) := by
  apply Base58.reads_of_length_le
  rw [isOnionV3_annInvite.fits_iff X]
  decide +kernel

theorem exists_annToken (X : Crates) : ∃ token, encodeInvite X annInvite = .ok token :=
  encodeInvite_of_onionV3 isOnionV3_annInvite

/-- It is good when it is issued. -/
theorem decodeInvite_annInvite {token name : String}
    (hencode : encodeInvite X annInvite = .ok token) :
    decodeInvite X checks token (some joinTtl) (Joiner.init 0 ⟨name, token⟩).timestamp =
      some (.ok annInvite.normalized) :=
  decodeInvite_at_issue isOnionV3_annInvite (reads_annInvite X) hencode rfl

/-- What ann does behind the decoding. -/
def annLabels : List JoinerLabel :=
  answeredLabels annGuest ++ enteredLabels .standard annGuest

theorem run_ann (config : JoinConfig) (hname : config.name = "") :
    Run (JoinerStep .standard checks) (.greeting 0 config (.connecting annInvite.normalized) .fresh)
      annLabels (Joiner.entered .standard 0 config annGuest) := by
  have hfits : Encodes Crates.standard.json (.system "ann") := by decide
  have heffective : annGuest.name = effectiveName config annInvite.normalized := by
    rw [effectiveName, if_pos hname]
    rfl
  exact (run_answered heffective rfl).append (run_entered hfits)

/-- A guest that gives no name is ann. -/
theorem invite_leads_to_its_room_ann :
    ∃ token ls j log, encodeInvite .standard annInvite = .ok token ∧
      Run (Guarded (DialStep .standard true) (InWindow 0)) (Joiner.init 0 ⟨"", token⟩, []) ls
        (j, log) ∧
      log = [(onionA, joinPort)] ∧
      ∃ discriminator, helloBytes .standard (.fill 1) discriminator "ann" <+: j.sock.written := by
  obtain ⟨⟨token, hencode, hruns⟩, -⟩ :=
    invite_leads_to_its_room .standard true onionA isOnionV3_onionA (.fill 1) 0 (some "ann") ""
  obtain ⟨log, hrun⟩ := exists_inWindow_run isOnionV3_annInvite (reads_annInvite _) hencode rfl
    (run_ann _ rfl)
    (by simp [annLabels, answeredLabels, hailLabels, replyLabels, enteredLabels])
  obtain ⟨hlog, d, -, hjoined⟩ := hruns (reads_annInvite _) 0 _ _ log hrun
  exact ⟨token, _, _, log, hencode, hrun, hlog, d, (hjoined trivial).2⟩

/-- A guest whose name does not fit a frame: the nonce is accepted, and then
`connect` fails. -/
theorem exists_run_unsendable {name : String} (hname : name ≠ "")
    (hfits : ¬ Encodes X.json (.system name)) :
    ∃ token ls j log size, encodeInvite X annInvite = .ok token ∧
      Run (Guarded (DialStep X checks) (InWindow 0)) (Joiner.init 0 ⟨name, token⟩, []) ls
        (j, log) ∧
      j.sock.read = [0] ∧ j.main = .failed (.oversizedMessage size maxPayloadBytes) ∧
      j.sock.written = annInvite.nonce.val ++ (Bytes16.fill 7).val := by
  obtain ⟨token, hencode⟩ := exists_annToken X
  let config : JoinConfig := ⟨name, token⟩
  let me : Guest := ⟨name, .fill 1, .fill 7⟩
  let size := (X.json.toVec (.system name)).length
  have hme : me.name = effectiveName config annInvite.normalized := (if_neg hname).symm
  have hreply : (Joiner.answered X 0 config me).main =
      .sendError (.oversizedMessage size maxPayloadBytes) := by
    rw [Joiner.answered, Joiner.greeting, afterReply, if_neg (not_not_intro rfl),
      encodeMessage_of_not_encodes hfits]
  have hrun : Run (JoinerStep X checks)
      (.greeting 0 config (.connecting annInvite.normalized) .fresh) _ _ :=
    (run_answered hme rfl).snoc (.main (.sendError hreply ⟨rfl, show 0 < eventChanCap by decide⟩))
  obtain ⟨log, hrun⟩ := exists_inWindow_run isOnionV3_annInvite (reads_annInvite _) hencode rfl hrun
    (by simp [answeredLabels, hailLabels, replyLabels])
  exact ⟨token, _, _, log, size, hencode, hrun, rfl, rfl, rfl⟩

/-- A text of `n` characters. -/
def textOfLength (n : ℕ) : String := String.ofList (List.replicate n 'a')

theorem length_textOfLength (n : ℕ) : (textOfLength n).toList.length = n := by
  rw [textOfLength, String.toList_ofList, List.length_replicate]

/-- A name of twenty thousand characters. -/
def longName : String := textOfLength 20000

/-- The guest that gives this name never sends it. -/
theorem long_name_not_sent :
    longName ≠ "" ∧ ∃ token ls j log size, encodeInvite .standard annInvite = .ok token ∧
      Run (Guarded (DialStep .standard true) (InWindow 0)) (Joiner.init 0 ⟨longName, token⟩, []) ls
        (j, log) ∧
      j.sock.read = [0] ∧ j.main = .failed (.oversizedMessage size maxPayloadBytes) ∧
      j.sock.written = annInvite.nonce.val ++ (Bytes16.fill 7).val := by
  have hlen : longName.toList.length = 20000 := length_textOfLength 20000
  have hname : longName ≠ "" := by
    intro hempty
    rw [hempty] at hlen
    cases hlen
  have hfits : ¬ Encodes Crates.standard.json (.system longName) := by
    apply not_encodes_of_length
    have hlong : maxPayloadBytes < 20000 := by decide
    exact hlong.trans_eq hlen.symm
  exact ⟨hname, exists_run_unsendable hname hfits⟩

end Nullpipe

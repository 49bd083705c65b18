import Nullpipe.Session.Script

/-!
# The handshake of the mock joiner

`joiner_handshake` of `room.rs`, which "mirrors `Joiner::handshake`".  It is a machine of its own
here, over its place and the stream.  Between `tor.connect` and the `PeerJoin` event
`joiner_task` takes the same steps, and only those, so that what a handshake makes of the bytes
of the hub is proved once for both.

* `HandshakeStep.main`: `joiner_task` does what the handshake of the mock does.
* `handshakeStep_of_main`: until the handshake has returned it does nothing else there.

What a handshake comes to is said of the bytes of the hub alone: either they let the joiner in
(`Admits`), or the handshake fails with an error (`Refuses`).  `Handshake.Fits` says for each
place what has been read and written there, and a step that nothing disturbs keeps it
(`HandshakeStep.fits`).  Both outcomes can be had (`exists_run_entered`, `exists_run_refused`):
the whole stream is there from the start, and the handshake takes it in one read after the
other.
-/

namespace Nullpipe.Mock

open Channel Framing Transition

/-! ## Places and steps -/

/-- What a handshake writes. -/
inductive Part
  | hello
  | name
  deriving DecidableEq

/-- The same among what `Joiner` writes. -/
def Part.what : Part → JoinWrite
  | .hello => .hello
  | .name => .name

/-- Where `joiner_handshake` stands. -/
inductive Handshake
  | writing (part : Part) (rest : List UInt8) (deadline : ℕ)
  | flushing (part : Part) (deadline : ℕ)
  | readReply (deadline : ℕ)
  /-- returned `Ok` -/
  | entered
  /-- returned `Err` -/
  | failed (e : ChatError)
  deriving DecidableEq

inductive HandshakeLabel
  | write (chunk : List UInt8)
  | writeFail (reason : String)
  | writeTimeout
  | flush
  | flushFail (reason : String)
  | flushTimeout
  | reply (byte : UInt8)
  | replyFail (reason : String)
  | replyTimeout
  deriving DecidableEq

namespace Handshake

/-- The handshake from its first write on. -/
def start (me : Guest) (now : ℕ) : Handshake := .writing .hello me.hello (now + writeTimeout)

def afterFlush (now : ℕ) : Part → Handshake
  | .hello => .readReply (now + readTimeout)
  | .name => .entered

def afterReply (json : SerdeJson) (me : Guest) (byte : UInt8) (now : ℕ) : Handshake :=
  if byte ≠ 0 then
    .failed (.connection "handshake rejected by hub")
  else
    match encodeMessage json (.system me.name) with
    | .error e => .failed e
    | .ok frame => .writing .name frame (now + writeTimeout)

end Handshake

section

variable (X : Crates) (me : Guest) (now : ℕ)

/-- `joiner_handshake`, at one time of the clock. -/
inductive HandshakeStep : HandshakeLabel → Socket × Handshake → Socket × Handshake → Prop
  | write {k : Socket} {part : Part} {chunk rest : List UInt8} {deadline : ℕ}
    (hchunk : chunk ≠ []) :
      HandshakeStep (.write chunk) (k, .writing part (chunk ++ rest) deadline)
        (k.write chunk,
          if rest = [] then .flushing part (now + writeTimeout) else .writing part rest deadline)
  | writeFail {k : Socket} {part : Part} {rest : List UInt8} {deadline : ℕ} {reason : String} :
      HandshakeStep (.writeFail reason) (k, .writing part rest deadline)
        (k, .failed (writeFailed reason part.what))
  | writeTimeout {k : Socket} {part : Part} {rest : List UInt8} {deadline : ℕ}
      (hdue : deadline ≤ now) :
      HandshakeStep .writeTimeout (k, .writing part rest deadline)
        (k, .failed (writeTimedOut part.what))
  | flush {k : Socket} {part : Part} {deadline : ℕ} :
      HandshakeStep .flush (k, .flushing part deadline) (k.flush, .afterFlush now part)
  | flushFail {k : Socket} {part : Part} {deadline : ℕ} {reason : String} :
      HandshakeStep (.flushFail reason) (k, .flushing part deadline)
        (k, .failed (flushFailed reason part.what))
  | flushTimeout {k : Socket} {part : Part} {deadline : ℕ} (hdue : deadline ≤ now) :
      HandshakeStep .flushTimeout (k, .flushing part deadline)
        (k, .failed (flushTimedOut part.what))
  /-- `stream.read_exact(&mut response)`, one byte -/
  | reply {k : Socket} {deadline : ℕ} {byte : UInt8} (htake : k.CanTake [byte]) :
      HandshakeStep (.reply byte) (k, .readReply deadline)
        (k.take [byte], .afterReply X.json me byte now)
  | replyFail {k : Socket} {deadline : ℕ} {reason : String} (hend : k.AtEnd) :
      HandshakeStep (.replyFail reason) (k, .readReply deadline)
        (k, .failed (.connection ("handshake read: " ++ reason)))
  | replyTimeout {k : Socket} {deadline : ℕ} (hdue : deadline ≤ now) :
      HandshakeStep .replyTimeout (k, .readReply deadline)
        (k, .failed (.connection "handshake read timed out"))

end

/-- No write and no flush fails, and nothing times out. -/
def HandshakeLabel.Quiet : HandshakeLabel → Prop
  | .write _ | .flush | .reply _ | .replyFail _ => True
  | _ => False

variable {X : Crates} {checks : Bool} {me : Guest} {now : ℕ} {l : HandshakeLabel}
  {k : Socket} {p : Handshake} {s t : Socket × Handshake} {bytes : List UInt8} {j j' : Joiner}

/-! ## `Joiner::handshake` -/

/-- The place of `joiner_task`. -/
def Handshake.main (me : Guest) : Handshake → JoinMain
  | .writing part rest deadline => .writing me part.what rest deadline
  | .flushing part deadline => .flushing me part.what deadline
  | .readReply deadline => .readReply me deadline
  | .entered => .emitJoin me
  | .failed e => .sendError e

def HandshakeLabel.main : HandshakeLabel → JoinMainLabel
  | .write chunk => .write chunk
  | .writeFail reason => .writeFail reason
  | .writeTimeout => .writeTimeout
  | .flush => .flush
  | .flushFail reason => .flushFail reason
  | .flushTimeout => .flushTimeout
  | .reply byte => .reply byte
  | .replyFail reason => .replyFail reason
  | .replyTimeout => .replyTimeout

theorem main_afterFlush (part : Part) :
    (Handshake.afterFlush now part).main me = afterFlush me now part.what := by
  cases part <;> rfl

theorem main_afterReply (json : SerdeJson) (byte : UInt8) :
    (Handshake.afterReply json me byte now).main me = afterReply json me byte now := by
  unfold Handshake.afterReply afterReply
  split
  · rfl
  · cases encodeMessage json (.system me.name) <;> rfl

theorem afterFailure_what (e : ChatError) (part : Part) :
    afterFailure e part.what = .sendError e := by
  cases part <;> rfl

/-- `joiner_task` at a place of the handshake. -/
def atHandshake (me : Guest) (j : Joiner) (s : Socket × Handshake) : Joiner :=
  { j with sock := s.1, main := s.2.main me }

/-- **`joiner_task` does what the handshake of the mock does.** -/
theorem HandshakeStep.main (h : HandshakeStep X me j.now l s t) :
    JoinMainStep X checks l.main (atHandshake me j s) (atHandshake me j t) := by
  have hfail : ∀ (k : Socket) (e : ChatError) (part : Part),
      atHandshake me j (k, .failed e) = { j with sock := k, main := afterFailure e part.what } := by
    intro k e part
    rw [afterFailure_what]
    rfl
  -- one step for one step; the two state types differ in how a failure is kept
  cases h with
  | write hchunk =>
      unfold atHandshake
      dsimp only
      rw [apply_ite (Handshake.main me)]
      exact .write rfl hchunk
  | @writeFail _ part =>
      rw [hfail _ _ part]
      exact .writeFail rfl
  | @writeTimeout _ part _ _ hdue =>
      rw [hfail _ _ part]
      exact .writeTimeout rfl hdue
  | flush =>
      rw [atHandshake, atHandshake, main_afterFlush]
      exact .flush rfl
  | @flushFail _ part =>
      rw [hfail _ _ part]
      exact .flushFail rfl
  | @flushTimeout _ part _ hdue =>
      rw [hfail _ _ part]
      exact .flushTimeout rfl hdue
  | reply htake =>
      rw [atHandshake, atHandshake, main_afterReply]
      exact .reply rfl htake
  | replyFail hend => exact .replyFail rfl hend
  | replyTimeout hdue => exact .replyTimeout rfl hdue

/-- **`joiner_task` does nothing else there**, until the handshake has returned. -/
theorem handshakeStep_of_main {l : JoinMainLabel} (h : JoinMainStep X checks l j j')
    (hmain : j.main = p.main me) (hentered : p ≠ .entered) (hfailed : ∀ e, p ≠ .failed e) :
    ∃ l' t, l = l'.main ∧ HandshakeStep X me j.now l' (j.sock, p) t ∧ j' = atHandshake me j t := by
  have hfail : ∀ (e : ChatError) (part : Part),
      { j with main := afterFailure e part.what } = atHandshake me j (j.sock, .failed e) := by
    intro e part
    rw [afterFailure_what]
    rfl
  -- the place of the handshake says which steps `joiner_task` can take
  cases p with
  | entered => exact absurd rfl hentered
  | failed e => exact absurd rfl (hfailed e)
  | writing part rest deadline =>
      rw [Handshake.main] at hmain
      cases h with
      | write hphase hchunk =>
          rw [hmain] at hphase
          cases hphase
          refine ⟨.write _, _, rfl, .write hchunk, ?_⟩
          unfold atHandshake
          dsimp only
          rw [apply_ite (Handshake.main me)]
          rfl
      | writeFail hphase =>
          rw [hmain] at hphase
          cases hphase
          exact ⟨.writeFail _, _, rfl, .writeFail, hfail _ part⟩
      | writeTimeout hphase hdue =>
          rw [hmain] at hphase
          cases hphase
          exact ⟨.writeTimeout, _, rfl, .writeTimeout hdue, hfail _ part⟩
      | _ hphase =>
          rw [hmain] at hphase
          cases hphase
  | flushing part deadline =>
      rw [Handshake.main] at hmain
      cases h with
      | flush hphase =>
          rw [hmain] at hphase
          cases hphase
          refine ⟨.flush, _, rfl, .flush, ?_⟩
          rw [atHandshake, main_afterFlush]
      | flushFail hphase =>
          rw [hmain] at hphase
          cases hphase
          exact ⟨.flushFail _, _, rfl, .flushFail, hfail _ part⟩
      | flushTimeout hphase hdue =>
          rw [hmain] at hphase
          cases hphase
          exact ⟨.flushTimeout, _, rfl, .flushTimeout hdue, hfail _ part⟩
      | _ hphase =>
          rw [hmain] at hphase
          cases hphase
  | readReply deadline =>
      rw [Handshake.main] at hmain
      cases h with
      | reply hphase htake =>
          rw [hmain] at hphase
          cases hphase
          refine ⟨.reply _, _, rfl, .reply htake, ?_⟩
          rw [atHandshake, main_afterReply]
      | replyFail hphase hend =>
          rw [hmain] at hphase
          cases hphase
          exact ⟨.replyFail _, _, rfl, .replyFail hend, rfl⟩
      | replyTimeout hphase hdue =>
          rw [hmain] at hphase
          cases hphase
          exact ⟨.replyTimeout, _, rfl, .replyTimeout hdue, rfl⟩
      | _ hphase =>
          rw [hmain] at hphase
          cases hphase

/-! ## The bytes of the hub -/

/-- A hub with these bytes lets the joiner in: it accepts, and the joiner can say its
name. -/
def Admits (X : Crates) (me : Guest) (bytes : List UInt8) : Prop :=
  bytes.head? = some 0 ∧ Encodes X.json (.system me.name)

theorem Admits.zero_tail (h : Admits X me bytes) : [0] ++ bytes.tail = bytes := by
  cases bytes with
  | nil => cases h.1
  | cons byte rest =>
      cases h.1
      rfl

/-- What the handshake with such a hub fails with. -/
inductive Refuses (X : Crates) (me : Guest) : List UInt8 → ChatError → Prop
  | silent {reason : String} : Refuses X me [] (.connection ("handshake read: " ++ reason))
  | rejected {byte : UInt8} {rest : List UInt8} (hbyte : byte ≠ 0) :
      Refuses X me (byte :: rest) (.connection "handshake rejected by hub")
  | unsendable {rest : List UInt8} {e : ChatError}
      (hname : encodeMessage X.json (.system me.name) = .error e) : Refuses X me (0 :: rest) e

theorem Refuses.not_admits {e : ChatError} (h : Refuses X me bytes e) : ¬ Admits X me bytes := by
  rintro ⟨hhead, hfits⟩
  cases h with
  | silent => cases hhead
  | rejected hbyte => exact hbyte (Option.some.inj hhead)
  | unsendable hname =>
      rw [hfits.encodeMessage] at hname
      cases hname

/-- What was read and written agrees with the place of the handshake. -/
def Handshake.Fits (X : Crates) (me : Guest) (bytes : List UInt8) (k : Socket) : Handshake → Prop
  | .writing .hello rest _ => k.read = [] ∧ k.written ++ rest = me.hello
  | .flushing .hello _ | .readReply _ => k.read = [] ∧ k.written = me.hello
  | .writing .name rest _ =>
    k.read = [0] ∧ Encodes X.json (.system me.name) ∧ k.written ++ rest = me.script X []
  | .flushing .name _ | .entered =>
    k.read = [0] ∧ Encodes X.json (.system me.name) ∧ k.written = me.script X []
  | .failed e => Refuses X me bytes e ∧ k.written = me.hello

/-- A stream of which `got` was read starts with it. -/
theorem bytes_of_read {got : List UInt8} (hk : k.Delivers bytes) (hread : k.read = got) :
    got <+: bytes := by
  have harrived := hk.arrived
  rw [Socket.arrived, hread] at harrived
  exact (List.prefix_append ..).trans harrived

theorem admits_of_entered (hk : k.Delivers bytes) (h : Handshake.entered.Fits X me bytes k) :
    Admits X me bytes := by
  obtain ⟨more, hmore⟩ := bytes_of_read hk h.1
  exact ⟨by rw [← hmore]; rfl, h.2.1⟩

/-- **A quiet step keeps the handshake to its script.** -/
theorem HandshakeStep.fits (h : HandshakeStep X me now l s t) (hl : l.Quiet)
    (hk : t.1.Delivers bytes) (hs : s.2.Fits X me bytes s.1) : t.2.Fits X me bytes t.1 := by
  cases h with
  | @write k part chunk rest deadline =>
      have hwritten : ∀ all : List UInt8, k.written ++ (chunk ++ rest) = all →
          (k.write chunk).written ++ rest = all := by
        intro all hall
        rw [Socket.written_write, List.append_assoc]
        exact hall
      -- the write that takes the last bytes goes on to the flush
      by_cases hrest : rest = []
      · subst hrest
        rw [if_pos rfl]
        cases part with
        | hello =>
            have hall := hwritten _ hs.2
            rw [List.append_nil] at hall
            exact ⟨hs.1, hall⟩
        | name =>
            have hall := hwritten _ hs.2.2
            rw [List.append_nil] at hall
            exact ⟨hs.1, hs.2.1, hall⟩
      · rw [if_neg hrest]
        cases part with
        | hello => exact ⟨hs.1, hwritten _ hs.2⟩
        | name => exact ⟨hs.1, hs.2.1, hwritten _ hs.2.2⟩
  | @flush _ part =>
      cases part with
      | hello => exact hs
      | name => exact hs
  | @reply k _ byte htake =>
      obtain ⟨hread, hwritten⟩ := hs
      have hone : (k.take [byte]).read = [byte] := by rw [Socket.read_take, hread, List.nil_append]
      -- the byte is the first of those the hub sends
      obtain ⟨more, hmore⟩ := bytes_of_read hk hone
      unfold Handshake.afterReply
      split
      · rename_i hbyte
        rw [← hmore]
        exact ⟨.rejected hbyte, hwritten⟩
      · rename_i hbyte
        have hzero : byte = 0 := not_not.mp hbyte
        subst hzero
        cases hname : encodeMessage X.json (.system me.name) with
        | error e =>
            rw [← hmore]
            exact ⟨.unsendable hname, hwritten⟩
        | ok frame =>
            obtain ⟨hfits, hframe⟩ := encodes_of_encodeMessage hname
            refine ⟨hone, hfits, ?_⟩
            rw [Socket.written_take, hwritten, Guest.script_split, hframe, List.flatMap_nil,
              List.append_nil]
  | @replyFail k _ _ hend =>
      obtain ⟨hread, hwritten⟩ := hs
      -- the stream has ended and nothing was read of it
      have hbytes := (hk.unread_of_atEnd hend).1
      rw [hread] at hbytes
      subst hbytes
      exact ⟨.silent, hwritten⟩
  | writeFail | writeTimeout | flushFail | flushTimeout | replyTimeout => exact absurd hl id

/-- A handshake only reads and writes its stream. -/
theorem HandshakeStep.frame (h : HandshakeStep X me now l s t) :
    t.1.arrived = s.1.arrived ∧ t.1.readEnd = s.1.readEnd := by
  cases h with
  | reply htake => exact ⟨Socket.arrived_take htake, rfl⟩
  | _ => exact ⟨rfl, rfl⟩

/-! ### Both ways through it -/

/-- The stream of a hub that has sent all its bytes and closed it. -/
def hubStream (bytes : List UInt8) : Socket := ⟨[], bytes, some .eof, [], 0⟩

theorem delivers_hubStream (bytes : List UInt8) : (hubStream bytes).Delivers bytes :=
  Socket.delivers_of_split (k := hubStream bytes) rfl rfl

/-- The runs of a handshake that nothing disturbs. -/
def QuietRun (X : Crates) (me : Guest) (now : ℕ) :
    Socket × Handshake → List HandshakeLabel → Socket × Handshake → Prop :=
  Run (Guarded (HandshakeStep X me now) fun _ l => l.Quiet)

theorem QuietRun.writes {ls : List HandshakeLabel} {part : Part} {text : List UInt8} {deadline : ℕ}
    (hrun : QuietRun X me now s ls (k, .writing part text deadline)) (htext : text ≠ []) :
    QuietRun X me now s (ls ++ [.write text] ++ [.flush])
      ((k.write text).flush, .afterFlush now part) := by
  have hwrite : HandshakeStep X me now (.write text) (k, .writing part (text ++ []) deadline)
      (k.write text, .flushing part (now + writeTimeout)) := .write htext
  rw [List.append_nil] at hwrite
  exact (hrun.snoc ⟨hwrite, trivial⟩).snoc ⟨.flush, trivial⟩

theorem run_hello (X : Crates) (me : Guest) (now : ℕ) (bytes : List UInt8) :
    QuietRun X me now (hubStream bytes, .start me now) [.write me.hello, .flush]
      (⟨[], bytes, some .eof, me.hello, me.hello.length⟩, .readReply (now + readTimeout)) := by
  have hhello : me.hello ≠ [] := by
    intro hnil
    have hlen := me.length_hello
    rw [hnil] at hlen
    cases hlen
  have hstart : QuietRun X me now (hubStream bytes, .start me now) []
      (hubStream bytes, .writing .hello me.hello (now + writeTimeout)) := .nil
  exact hstart.writes hhello

/-- With a hub that lets the joiner in the handshake can come to its end. -/
theorem exists_run_entered (hadmits : Admits X me bytes) (now : ℕ) :
    ∃ ls, QuietRun X me now (hubStream bytes, .start me now) ls
      (⟨[0], bytes.tail, some .eof, me.script X [], (me.script X []).length⟩, .entered) := by
  obtain ⟨hhead, hfits⟩ := hadmits
  cases bytes with
  | nil => cases hhead
  | cons byte rest =>
      cases hhead
      have hname := hfits.encodeMessage
      have hrun := (run_hello X me now (0 :: rest)).snoc
        ⟨.reply ⟨List.cons_ne_nil _ _, List.prefix_append [0] rest⟩, trivial⟩
      rw [Handshake.afterReply, if_neg (not_not.mpr rfl), hname] at hrun
      have hscript : me.script X [] = me.hello ++ frameBytes X.json (.system me.name) := by
        rw [Guest.script_split, List.flatMap_nil, List.append_nil]
      rw [hscript]
      exact ⟨_, QuietRun.writes hrun (frameBytes_ne_nil hfits)⟩

/-- With a hub that does not, it can fail with each of the errors. -/
theorem exists_run_refused {e : ChatError} (h : Refuses X me bytes e) (now : ℕ) :
    ∃ ls k, QuietRun X me now (hubStream bytes, .start me now) ls (k, .failed e) := by
  have hrun := run_hello X me now bytes
  cases h with
  | silent => exact ⟨_, _, hrun.snoc ⟨.replyFail ⟨rfl, rfl⟩, trivial⟩⟩
  | @rejected byte rest hbyte =>
      have hrun := hrun.snoc
        ⟨.reply ⟨List.cons_ne_nil _ _, List.prefix_append [byte] rest⟩, trivial⟩
      rw [Handshake.afterReply, if_pos hbyte] at hrun
      exact ⟨_, _, hrun⟩
  | @unsendable rest _ hname =>
      have hrun := hrun.snoc
        ⟨.reply ⟨List.cons_ne_nil _ _, List.prefix_append [0] rest⟩, trivial⟩
      rw [Handshake.afterReply, if_neg (not_not.mpr rfl), hname] at hrun
      exact ⟨_, _, hrun⟩

end Nullpipe.Mock

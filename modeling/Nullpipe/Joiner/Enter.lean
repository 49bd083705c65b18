import Nullpipe.Joiner.Writing
import Nullpipe.Room.Admit
import Nullpipe.Core.Standard

/-!
# Runs of a joiner that is let in

`run_hailed` leads from the stream to the first bytes on it, `run_replied` to the reply
of the hub, and `run_entered` from there to the write loop of a joiner whose name fits
a frame.  `run_heard` is one message that comes in.
-/

namespace Nullpipe

open Channel Framing Transition

variable {X : Crates} {checks : Bool} {now : ℕ} {config : JoinConfig} {me : Guest} {j : Joiner}

/-- A joiner in the course of its handshake. -/
def Joiner.greeting (now : ℕ) (config : JoinConfig) (main : JoinMain) (sock : Socket) : Joiner :=
  { Joiner.init now config with main := main, sock := sock }

/-- A joiner that has written nonce and discriminator. -/
def Joiner.hailed (now : ℕ) (config : JoinConfig) (me : Guest) : Joiner :=
  .greeting now config (.readReply me (now + readTimeout)) ⟨[], [], none, me.hello, me.hello.length⟩

/-- A joiner that has read the accept byte. -/
def Joiner.answered (X : Crates) (now : ℕ) (config : JoinConfig) (me : Guest) : Joiner :=
  .greeting now config (afterReply X.json me 0 now) ⟨[0], [], none, me.hello, me.hello.length⟩

/-- A joiner in its write loop, with a reader that waits for the first frame. -/
def Joiner.entered (X : Crates) (now : ℕ) (config : JoinConfig) (me : Guest) : Joiner :=
  { Joiner.init now config with
    main := .select me
    reader := .reading [] (now + readTimeout)
    sock := ⟨[0], [], none, me.script X [], (me.script X []).length⟩
    events := Mpsc.empty.push (.peerJoin ⟨peerId X me.discriminator, me.name, now⟩) }

def hailLabels (me : Guest) : List JoinerLabel :=
  [.main (.connected me.discriminator), .main (.write me.hello), .main .flush]

def replyLabels : List JoinerLabel := [.net [0], .main (.reply 0)]

def answeredLabels (me : Guest) : List JoinerLabel := hailLabels me ++ replyLabels

def enteredLabels (X : Crates) (me : Guest) : List JoinerLabel :=
  [.main (.write (frameBytes X.json (.system me.name))), .main .flush, .main .emitJoin,
    .main .spawnReader, .reader .start]

theorem step_decode {payload : InvitePayload}
    (haccepts : decodeInvite X checks config.inviteCode (some joinTtl)
      (Joiner.init now config).timestamp = some (.ok payload)) :
    JoinerStep X checks (.main .decode) (Joiner.init now config)
      (.greeting now config (.connecting payload) .fresh) := by
  have hphase : (Joiner.init now config).main = .connect := rfl
  have hmain : afterDecode (decodeInvite X checks (Joiner.init now config).config.inviteCode
      (some joinTtl) (Joiner.init now config).timestamp) = .connecting payload := by
    rw [show (Joiner.init now config).config = config from rfl, haccepts]
    rfl
  rw [Joiner.greeting, ← hmain]
  exact .main (.decode hphase)

/-- The stream takes everything at once. -/
theorem step_write {what : JoinWrite} {bytes : List UInt8} {deadline : ℕ}
    (hphase : j.main = .writing me what bytes deadline) (hne : bytes ≠ []) :
    JoinerStep X checks (.main (.write bytes)) j
      { j with sock := j.sock.write bytes, main := .flushing me what (j.now + writeTimeout) } := by
  have hall : j.main = .writing me what (bytes ++ []) deadline := by rwa [List.append_nil]
  exact .main (.write hall hne)

theorem run_hailed {payload : InvitePayload} (hname : me.name = effectiveName config payload)
    (hnonce : me.nonce = payload.nonce) :
    Run (JoinerStep X checks) (.greeting now config (.connecting payload) .fresh)
      (hailLabels me) (Joiner.hailed now config me) := by
  have hne : me.hello ≠ [] := List.ne_nil_of_length_pos (by rw [Guest.length_hello]; decide)
  let writing : JoinMain := .writing me .hello me.hello (now + writeTimeout)
  let flushing : JoinMain := .flushing me .hello (now + writeTimeout)
  have hconnected : JoinerStep X checks (.main (.connected me.discriminator))
      (.greeting now config (.connecting payload) .fresh)
      (.greeting now config writing .fresh) := by
    obtain ⟨name, nonce, discriminator⟩ := me
    subst hname hnonce
    have hphase : (Joiner.greeting now config (.connecting payload) .fresh).main =
      .connecting payload := rfl
    exact .main (.connected hphase)
  have hwrite : JoinerStep X checks (.main (.write me.hello)) (.greeting now config writing .fresh)
      (.greeting now config flushing (Socket.fresh.write me.hello)) := step_write rfl hne
  have hphase : (Joiner.greeting now config flushing (Socket.fresh.write me.hello)).main =
    .flushing me .hello (now + writeTimeout) := rfl
  have hflush : JoinerStep X checks (.main .flush)
      (.greeting now config flushing (Socket.fresh.write me.hello))
      (Joiner.hailed now config me) := .main (.flush hphase)
  exact ((Run.single hconnected).snoc hwrite).snoc hflush

theorem run_replied : Run (JoinerStep X checks) (Joiner.hailed now config me) replyLabels
    (Joiner.answered X now config me) := by
  have hnet : JoinerStep X checks (.net [0]) (Joiner.hailed now config me)
      (.greeting now config (.readReply me (now + readTimeout))
        ⟨[], [0], none, me.hello, me.hello.length⟩) := .net rfl
  have hreply : JoinerStep X checks (.main (.reply 0))
      (.greeting now config (.readReply me (now + readTimeout))
        ⟨[], [0], none, me.hello, me.hello.length⟩) (Joiner.answered X now config me) :=
    .main (.reply rfl ⟨nofun, List.prefix_refl _⟩)
  exact (Run.single hnet).snoc hreply

theorem run_answered {payload : InvitePayload} (hname : me.name = effectiveName config payload)
    (hnonce : me.nonce = payload.nonce) :
    Run (JoinerStep X checks) (.greeting now config (.connecting payload) .fresh)
      (answeredLabels me) (Joiner.answered X now config me) :=
  (run_hailed hname hnonce).append run_replied

theorem afterReply_of_encodes (hfits : Encodes X.json (.system me.name)) :
    afterReply X.json me 0 now =
      .writing me .name (frameBytes X.json (.system me.name)) (now + writeTimeout) := by
  rw [afterReply, if_neg (not_not_intro rfl), hfits.encodeMessage]

theorem run_entered (hfits : Encodes X.json (.system me.name)) :
    Run (JoinerStep X checks) (Joiner.answered X now config me) (enteredLabels X me)
      (Joiner.entered X now config me) := by
  have hscript : me.script X [] = me.hello ++ frameBytes X.json (.system me.name) := by
    simp [Guest.script]
  let sock : Socket := ⟨[0], [], none, me.hello, me.hello.length⟩
  have hanswered : (Joiner.answered X now config me).main = .writing me .name
      (frameBytes X.json (.system me.name)) (now + writeTimeout) := afterReply_of_encodes hfits
  -- the name is written and flushed, the joiner announces itself, the reader starts
  have hwrite : JoinerStep X checks (.main (.write (frameBytes X.json (.system me.name)))) _ _ :=
    step_write hanswered (frameBytes_ne_nil hfits)
  have hphase : (Joiner.greeting now config (.flushing me .name (now + writeTimeout))
    (sock.write (frameBytes X.json (.system me.name)))).main =
      .flushing me .name (now + writeTimeout) := rfl
  have hflush : JoinerStep X checks (.main .flush)
      (.greeting now config (.flushing me .name (now + writeTimeout))
        (sock.write (frameBytes X.json (.system me.name))))
      (.greeting now config (.emitJoin me)
        ⟨[0], [], none, me.script X [], (me.script X []).length⟩) := by
    rw [hscript]
    exact .main (.flush hphase)
  have hemit : JoinerStep X checks (.main .emitJoin)
      (.greeting now config (.emitJoin me)
        ⟨[0], [], none, me.script X [], (me.script X []).length⟩)
      { Joiner.entered X now config me with main := .spawnReader me, reader := .unspawned } :=
    .main (.emitJoin rfl)
  have hspawn : JoinerStep X checks (.main .spawnReader)
      { Joiner.entered X now config me with main := .spawnReader me, reader := .unspawned }
      { Joiner.entered X now config me with reader := .spawned } :=
    .main (.spawnReader rfl)
  have hstart : JoinerStep X checks (.reader .start)
      { Joiner.entered X now config me with reader := .spawned }
      (Joiner.entered X now config me) :=
    .reader (.start rfl)
  exact ((((Run.single hwrite).snoc hflush).snoc hemit).snoc hspawn).snoc hstart

/-! ## One message -/

/-- The steps by which a message of the hub is read and shown, with its frame read in
two pieces. -/
def heardLabels (X : Crates) (msg : WireMessage) : List JoinerLabel :=
  [.net (frameBytes X.json msg), .reader (.read (toBeBytes (X.json.toVec msg).length)),
    .reader (.message (X.json.toVec msg)), .reader .emit]

/-- A joiner that has read and shown a message of the hub. -/
def Joiner.heard (X : Crates) (j : Joiner) (msg : WireMessage) : Joiner :=
  { j with
    sock := { j.sock with read := j.sock.read ++ frameBytes X.json msg }
    reader := .reading [] (j.now + readTimeout)
    events := j.events.push (incomingEvent msg) }

theorem run_heard_message {msg : WireMessage} {deadline : ℕ}
    (hphase : j.reader = .reading [] deadline) (hinbox : j.sock.inbox = [])
    (hopen : j.sock.readEnd = none) (hroom : j.events.HasRoom eventChanCap)
    (hmsg : Encodes X.json msg) :
    Run (JoinerStep X checks) j (heardLabels X msg) (j.heard X msg) := by
  obtain ⟨hsplit, hheaderNil, hpayloadNil, hheader, hheaderLen, ⟨k, hpayload, hfit⟩, hframe,
    hdecode⟩ := hmsg.pieces
  rw [heardLabels, Joiner.heard, hsplit]
  generalize toBeBytes (X.json.toVec msg).length = header at *
  generalize X.json.toVec msg = payload at *
  -- the joiner with this much of the frame read, and the rest ahead
  let reading (got ahead : List UInt8) : Joiner :=
    { j with
      sock := { j.sock with read := j.sock.read ++ got, inbox := ahead }
      reader := .reading got deadline }
  have hnet : JoinerStep X checks (.net (header ++ payload)) j
      (reading [] (header ++ payload)) := by
    have hstart : reading [] (header ++ payload) =
        { j with sock := j.sock.arrive (header ++ payload) } := by
      simp [reading, Socket.arrive, hinbox, hphase]
    rw [hstart]
    exact .net hopen
  have hread : JoinerStep X checks (.reader (.read header)) (reading [] (header ++ payload))
      (reading header payload) := by
    have htake : reading header payload = { reading [] (header ++ payload) with
        sock := (reading [] (header ++ payload)).sock.take header
        reader := .reading ([] ++ header) deadline } := by
      simp [reading, Socket.take]
    rw [htake]
    exact .reader (.read rfl ⟨hheaderNil, List.prefix_append ..⟩ hheader hheaderLen hpayload)
  have hmessage : JoinerStep X checks (.reader (.message payload)) (reading header payload)
      { reading (header ++ payload) [] with reader := .emitting (incomingEvent msg) } := by
    have htake : { reading (header ++ payload) [] with reader := .emitting (incomingEvent msg) } =
        { reading header payload with
          sock := (reading header payload).sock.take payload
          reader := .emitting (incomingEvent msg) } := by
      simp [reading, Socket.take]
    rw [htake]
    exact .reader (.message rfl ⟨hpayloadNil, List.prefix_refl _⟩ hpayload hfit hframe hdecode)
  have hemit : JoinerStep X checks (.reader .emit)
      { reading (header ++ payload) [] with reader := .emitting (incomingEvent msg) }
      { j with
        sock := { j.sock with read := j.sock.read ++ (header ++ payload) }
        reader := .reading [] (j.now + readTimeout)
        events := j.events.push (incomingEvent msg) } := by
    have hend : j.sock = { j.sock with inbox := [] } := by rw [← hinbox]
    rw [hend]
    exact .reader (.emit rfl hroom)
  exact (((Run.single hnet).snoc hread).snoc hmessage).snoc hemit

end Nullpipe

import Nullpipe.Cli.GuestApp
import Nullpipe.Cli.HostApp
import Nullpipe.Cli.Shown
import Nullpipe.Network.Order
import Nullpipe.Room.Origin

/-!
# Everybody at a terminal

The whole of it: the host and the guests at their terminals, the room, the joiners and the
streams between them, in any interleaving.  What somebody reads on a screen has come a long
way, through a task, a channel, a frame, a stream and the loop of another program; in the end
it was typed, under the name it is shown with, and it is not shown more often than that.

An `Assembly` is a network with an application beside the room and beside each joiner.  It is
not analysed again: `AssemblyStep.host_step`, `AssemblyStep.guest_step` and
`AssemblyStep.network_step` say that each step of the whole is one step of every part, or none,
so that a run of the whole gives a run of the host's application, of each guest's, and of the
network.

* `host_screen_accounted`: what is on the host's screen was said on its event stream, which is
  made of its own texts and of a log of the connections (`Room/Origin.lean`).  The part of the
  log that is a guest's is made of its texts (`AssemblyRun.logged_typed`), and these were typed.
* `guest_screen_accounted`: what is on a guest's screen was heard or is its own.  What is heard
  is the greeting and a part of the log (`Network/Order.lean`), which the host has typed.

Lines are compared as multisets, since an application shows what it takes from one stream, in
which the texts of several people are mixed.
-/

namespace Nullpipe

open Channel Framing Room Transition

/-! ## The parts -/

/-- A host and guests at their terminals, and the network between them. -/
structure Assembly where
  network : Network
  host : Desk
  guests : ConnId → Desk
  quitFlags : ConnId → Bool

namespace Assembly

/-- The terminal of the host, with the room. -/
def hostStation (a : Assembly) : Station Room := ⟨a.host, a.network.room⟩

/-- The terminal of a guest, with its joiner. -/
def guestStation (a : Assembly) (c : ConnId) : Station JoinRoom :=
  ⟨a.guests c, a.network.joiners c, a.quitFlags c⟩

def setHost (a : Assembly) (s : Station Room) : Assembly :=
  { a with host := s.toDesk, network := { a.network with room := s.room } }

def setGuest (a : Assembly) (c : ConnId) (s : Station JoinRoom) : Assembly where
  network := a.network.setJoiner c s.room.joiner
  host := a.host
  guests := Function.update a.guests c s.toDesk
  quitFlags := Function.update a.quitFlags c s.room.quitFlag

/-- Everybody has started the program, and the Tor clients are up. -/
def start (now : ℕ) (configs : ConnId → JoinConfig) (timestamps : Bool) (progress : UInt8)
    (msg : String) : Assembly where
  network := .init now configs
  host := .start timestamps progress msg
  guests _ := .start timestamps progress msg
  quitFlags _ := false

@[simp] theorem hostStation_setHost (a : Assembly) (s : Station Room) :
    (a.setHost s).hostStation = s := rfl

@[simp] theorem hostStation_setGuest (a : Assembly) (c : ConnId) (s : Station JoinRoom) :
    (a.setGuest c s).hostStation = a.hostStation := rfl

@[simp] theorem guestStation_setHost (a : Assembly) (c : ConnId) (s : Station Room) :
    (a.setHost s).guestStation c = a.guestStation c := rfl

@[simp] theorem guestStation_setGuest_self (a : Assembly) (c : ConnId) (s : Station JoinRoom) :
    (a.setGuest c s).guestStation c = s := by
  simp [guestStation, setGuest, Network.setJoiner]

theorem guestStation_setGuest_of_ne (a : Assembly) {c d : ConnId} (s : Station JoinRoom)
    (hne : d ≠ c) : (a.setGuest c s).guestStation d = a.guestStation d := by
  simp [guestStation, setGuest, Network.setJoiner, hne]

end Assembly

inductive AssemblyLabel
  | host (l : StationLabel Label)
  | guest (c : ConnId) (l : StationLabel JoinerLabel)
  | network (l : NetworkLabel)

/-- A step of the network that nobody takes at a terminal. -/
def NetworkLabel.Unattended : NetworkLabel → Prop
  | .room (.user _) | .joiner _ (.user _) => False
  | _ => True

section

variable (X : Crates) (cfg : HostConfig) (checks : Bool) (guests : Set ConnId)

/-- The steps of the whole: those of the terminals, and those of the network that are not
taken at one. -/
inductive AssemblyStep : AssemblyLabel → Assembly → Assembly → Prop
  | host {l : StationLabel Label} {a : Assembly} {s : Station Room}
      (h : HostAppStep X cfg checks l a.hostStation s) (hl : l.AtTerminal) :
      AssemblyStep (.host l) a (a.setHost s)
  | guest {c : ConnId} {l : StationLabel JoinerLabel} {a : Assembly} {s : Station JoinRoom}
      (hc : c ∈ guests) (h : GuestAppStep X checks l (a.guestStation c) s)
      (hl : l.AtTerminal) : AssemblyStep (.guest c l) a (a.setGuest c s)
  | network {l : NetworkLabel} {a : Assembly} {n : Network}
      (h : NetworkStep X cfg checks guests l a.network n) (hl : l.Unattended) :
      AssemblyStep (.network l) a { a with network := n }

end

variable {X : Crates} {cfg : HostConfig} {checks : Bool} {guests : Set ConnId} {c : ConnId}
  {a b : Assembly} {l : AssemblyLabel} {ls : List AssemblyLabel} {n : Network}

/-! ## One party at a time -/

/-- **The application of the host** takes a step, or none. -/
theorem AssemblyStep.host_step (h : AssemblyStep X cfg checks guests l a b) :
    b.hostStation = a.hostStation ∨
      ∃ k, HostAppStep X cfg checks k a.hostStation b.hostStation := by
  cases h with
  | host h => exact .inr ⟨_, h⟩
  | guest => exact .inl rfl
  | network h hl =>
      cases h with
      | @room l _ _ h => exact .inr ⟨.own l, .own ⟨h, by rintro l' rfl; exact hl⟩⟩
      | joiner | toJoiner | joinerEnd => exact .inl rfl
      | toHub _ _ _ h => exact .inr ⟨_, .own ⟨.net h, nofun⟩⟩
      | hubEnd _ _ _ h => exact .inr ⟨_, .own ⟨.net h, nofun⟩⟩
      | @tick _ d => exact .inr ⟨_, .own ⟨.tick (d := d), nofun⟩⟩

/-- **The application of a guest** takes a step, or none. -/
theorem AssemblyStep.guest_step (h : AssemblyStep X cfg checks guests l a b) (c : ConnId) :
    b.guestStation c = a.guestStation c ∨
      ∃ k, GuestAppStep X checks k (a.guestStation c) (b.guestStation c) := by
  cases h with
  | host => exact .inl rfl
  | @guest d _ _ s _ h _ =>
      -- only a step at the terminal or at the joiner of this guest is one of its application
      by_cases hd : d = c
      · subst hd
        rw [Assembly.guestStation_setGuest_self]
        exact .inr ⟨_, h⟩
      · exact .inl (a.guestStation_setGuest_of_ne s (Ne.symm hd))
  | @network l _ n h hl =>
      have hother : ∀ {d : ConnId} {j : Joiner}, d ≠ c →
          { a with network := a.network.setJoiner d j }.guestStation c = a.guestStation c :=
        fun hd => by simp [Assembly.guestStation, Network.setJoiner, Ne.symm hd]
      have hself : ∀ {j : Joiner}, { a with network := a.network.setJoiner c j }.guestStation c =
          ⟨a.guests c, j, a.quitFlags c⟩ := by
        simp [Assembly.guestStation, Network.setJoiner]
      cases h with
      | room | toHub | hubEnd => exact .inl rfl
      | @joiner d k _ j _ h =>
          by_cases hd : d = c
          · subst hd
            rw [hself]
            exact .inr ⟨_, .own ⟨h, by rintro l' rfl; exact hl, rfl⟩⟩
          · exact .inl (hother hd)
      | @toJoiner d _ _ j _ _ _ h | @joinerEnd d _ _ j _ _ _ h =>
          by_cases hd : d = c
          · subst hd
            rw [hself]
            exact .inr ⟨_, .own ⟨h, fun _ => JoinerLabel.noConfusion, rfl⟩⟩
          · exact .inl (hother hd)
      | @tick _ d =>
          exact .inr ⟨_, .own ⟨.tick (d := d), fun _ => JoinerLabel.noConfusion, rfl⟩⟩

/-- No write of the hub to guest `c` fails. -/
def AssemblyLabel.Unbroken (c : ConnId) : AssemblyLabel → Prop
  | .network l => l.Unbroken c
  | _ => True

/-- **The network** takes a step, or none; what is done at a terminal breaks no write. -/
theorem AssemblyStep.network_step (h : AssemblyStep X cfg checks guests l a b) :
    b.network = a.network ∨ ∃ k, NetworkStep X cfg checks guests k a.network b.network ∧
      ∀ c, l.Unbroken c → k.Unbroken c := by
  cases h with
  | @host _ _ s h hterminal =>
      rcases h.user_step hterminal with hsame | ⟨k, huser⟩
      · refine .inl ?_
        rw [Assembly.setHost, hsame]
        rfl
      · exact .inr ⟨.room (.user k), .room (.user huser) trivial, fun _ _ => ⟨nofun, nofun⟩⟩
  | @guest d _ _ s hd h hterminal =>
      rcases h.user_step hterminal with hsame | ⟨k, huser⟩
      · refine .inl ?_
        rw [Assembly.setGuest, hsame]
        exact congrArg (Network.mk _) (Function.update_eq_self d a.network.joiners)
      · exact .inr ⟨.joiner d (.user k), .joiner hd (.user huser) trivial, fun _ _ => trivial⟩
  | network h => exact .inr ⟨_, h, fun _ => id⟩

/-! ## Whole runs -/

variable {now : ℕ} {configs : ConnId → JoinConfig} {timestamps : Bool} {progress : UInt8}
  {msg : String}

theorem AssemblyRun.host
    (hrun : Run (AssemblyStep X cfg checks guests) (.start now configs timestamps progress msg)
      ls a) :
    ∃ ks, Run (HostAppStep X cfg checks) (HostApp.start timestamps progress msg now) ks
      a.hostStation :=
  hrun.project Assembly.hostStation fun h => h.host_step

theorem AssemblyRun.guest
    (hrun : Run (AssemblyStep X cfg checks guests) (.start now configs timestamps progress msg)
      ls a) (c : ConnId) :
    ∃ ks, Run (GuestAppStep X checks) (GuestApp.start timestamps progress msg now (configs c)) ks
      (a.guestStation c) :=
  hrun.project (Assembly.guestStation · c) fun h => h.guest_step c

theorem AssemblyRun.network
    (hrun : Run (AssemblyStep X cfg checks guests) (.start now configs timestamps progress msg)
      ls a) :
    ∃ ks, Run (NetworkStep X cfg checks guests) (.init now configs) ks a.network :=
  hrun.project Assembly.network fun h => h.network_step.imp_right fun ⟨k, hk, _⟩ => ⟨k, hk⟩

/-- The network of a run whose writes to guest `c` do not fail. -/
theorem AssemblyRun.unbroken
    (hrun : Run (AssemblyStep X cfg checks guests) (.start now configs timestamps progress msg)
      ls a) (hl : ∀ l ∈ ls, l.Unbroken c) :
    ∃ ks, Run (NetworkStep X cfg checks guests) (.init now configs) ks a.network ∧
      ∀ k ∈ ks, k.Unbroken c := by
  have hguarded : Run (Guarded (AssemblyStep X cfg checks guests) fun _ l => l.Unbroken c)
      (.start now configs timestamps progress msg) ls a := hrun.guard fun l hmem _ => hl l hmem
  obtain ⟨ks, hnetwork⟩ : ∃ ks,
      Run (Guarded (NetworkStep X cfg checks guests) fun _ l => l.Unbroken c)
        (.init now configs) ks a.network :=
    hguarded.project Assembly.network fun h =>
      h.1.network_step.imp_right fun ⟨k, hk, hunbroken⟩ => ⟨k, hk, hunbroken c h.2⟩
  exact ⟨ks, hnetwork.unguard, hnetwork.of_guarded⟩

/-! ## Ann talks to her host -/

/-- A network with nobody at the terminals. -/
theorem NetworkRun.assembly {ks : List NetworkLabel}
    (hrun : Run (NetworkStep X cfg checks guests) a.network ks n)
    (hks : ∀ k ∈ ks, k.Unattended) :
    Run (AssemblyStep X cfg checks guests) a (ks.map .network) { a with network := n } := by
  apply hrun.relabel_map (fun n => ({ a with network := n } : Assembly)) _ hks
  intro l m n hl hstep
  exact .network hstep hl

/-- A guest alone at its terminal. -/
theorem GuestAppRun.assembly {ks : List (StationLabel JoinerLabel)} {s t : Station JoinRoom}
    (hrun : Run (GuestAppStep X checks) s ks t) (hks : ∀ k ∈ ks, k.AtTerminal)
    (hc : c ∈ guests) (hs : a.guestStation c = s) :
    ∃ b, Run (AssemblyStep X cfg checks guests) a (ks.map (.guest c)) b ∧
      b.guestStation c = t ∧ b.hostStation = a.hostStation := by
  refine hrun.relabel (R := fun s (b : Assembly) => b.guestStation c = s ∧
    b.hostStation = a.hostStation) _ hks ⟨hs, rfl⟩ ?_
  rintro l s t b hl ⟨rfl, hhost⟩ hstep
  exact ⟨b.setGuest c t, .guest hc hstep hl, b.guestStation_setGuest_self c t, hhost⟩

/-- The host alone at its terminal. -/
theorem HostAppRun.assembly {ks : List (StationLabel Label)} {s t : Station Room}
    (hrun : Run (HostAppStep X cfg checks) s ks t) (hks : ∀ k ∈ ks, k.AtTerminal)
    (hs : a.hostStation = s) :
    Run (AssemblyStep X cfg checks guests) a (ks.map .host) (a.setHost t) := by
  subst hs
  apply hrun.relabel_map a.setHost _ hks
  intro l s t hl hstep
  exact .host hstep hl

/-- The room of the host in which ann has joined. -/
def Room.annWelcomed : Room :=
  (Room.opened ⟨"host", 300⟩ 0 onionA).welcomed .standard 0 annGuest

/-- The joiner of ann when she has looked at her greeting. -/
def Joiner.annGreeted (token : String) : Joiner :=
  let j := (Joiner.entered .standard 0 ⟨"", token⟩ annGuest).heard .standard (.system "ann joined")
  { j with events := j.events.pop.pop }

/-- Ann has met her host. -/
theorem exists_annMet : ∃ token ls n, Run (NetworkStep .standard ⟨"host", 300⟩ true {0})
      (.init 0 fun _ => ⟨"", token⟩) ls n ∧ (∀ l ∈ ls, l.Unattended ∧ l.Unbroken 0) ∧
      n.session 0 =
        Session.met .standard (Room.opened ⟨"host", 300⟩ 0 onionA) 0 0 ⟨"", token⟩ annGuest := by
  obtain ⟨token, hencode⟩ := exists_annToken .standard
  let config : JoinConfig := ⟨"", token⟩
  let opened := Room.opened ⟨"host", 300⟩ 0 onionA
  have hopened : Run (SessionStep .standard ⟨"host", 300⟩ true 0)
      ⟨Room.init 0, Joiner.init 0 config⟩ ((openLabels onionA).map (Label.lift 0))
      ⟨opened, Joiner.init 0 config⟩ := by
    refine run_room (run_open .standard ⟨"host", 300⟩ 0 onionA) ?_ List.nil_prefix
    simp [openLabels, Label.Lifts, Label.AtHub]
  have hdecode : JoinerStep .standard true (.main .decode) (Joiner.init 0 config)
      (.greeting 0 config (.connecting annInvite.normalized) .fresh) :=
    step_decode (decodeInvite_annInvite hencode)
  have hmet : Run (SessionStep .standard ⟨"host", 300⟩ true 0)
      ⟨opened, .greeting 0 config (.connecting annInvite.normalized) .fresh⟩
      (meetLabels .standard 0 annGuest ann) (Session.met .standard opened 0 0 config annGuest) := by
    refine run_meet rfl rfl rfl ?_ rfl rfl ?_ ?_ ?_
    · simp [opened, Room.ShutdownReady, Room.opened, Room.init]
    · exact Finset.notMem_empty _
    · decide
    · decide
  obtain ⟨n, hrun, hsession⟩ := SessionRun.network (n := .init 0 fun _ => config)
    ((hopened.snoc (.joiner hdecode trivial)).append hmet) rfl
  refine ⟨token, _, n, hrun, ?_, hsession⟩
  simp [openLabels, meetLabels, hailLabels, acceptLabels, replyLabels, enteredLabels,
    welcomeLabels, heardLabels, nameLabels, joinLabels, serveLabels, Label.lift,
    JoinerLabel.lift, SessionLabel.toNetwork, NetworkLabel.Unattended, NetworkLabel.Unbroken,
    Label.Unbroken]

/-- Ann looks at the screen, and types `yo`. -/
theorem exists_annTyped (token : String) :
    ∃ ks desk, Run (GuestAppStep .standard true)
      ⟨.start false 100 "tor is up", (Joiner.entered .standard 0 ⟨"", token⟩ annGuest).heard
        .standard (.system "ann joined"), false⟩ ks
      ⟨desk, (Joiner.annGreeted token).told "yo", false⟩ ∧ (∀ k ∈ ks, k.AtTerminal) ∧
      desk.tui.conversation = [("", "ann joined")] ∧ desk.lines = ["yo"] := by
  have hrun : Run (GuestAppStep .standard true)
    ⟨.start false 100 "tor is up", (Joiner.entered .standard 0 ⟨"", token⟩ annGuest).heard
      .standard (.system "ann joined"), false⟩ [] _ := .nil
  -- the first event unlocks the line, the second one is the greeting
  have hrun := hrun.snoc (l := .event)
    (.event rfl rfl (JoinCall.takeEvent (.takeEvent rfl)) (.event rfl))
  have hrun := hrun.snoc (l := .event)
    (.event rfl rfl (JoinCall.takeEvent (.takeEvent rfl)) (.event rfl))
  have hrun := hrun.snoc (l := .key (.plain (.char 'y'))) (.key rfl (.key rfl))
  have hrun := hrun.snoc (l := .key (.plain (.char 'o'))) (.key rfl (.key rfl))
  have hrun := hrun.snoc (l := .key (.plain .enter)) (.key rfl (.key rfl))
  have hrun := hrun.snoc (l := .send "yo")
    (@StationStep.send _ _ _ _ _ _ [] [] _ rfl
      (JoinCall.send (.send rfl ⟨rfl, show ([] : List String).length < sendChanCap by decide⟩)))
  exact ⟨_, _, hrun, by simp [StationLabel.AtTerminal], rfl, rfl⟩

/-- Nothing else is under way then. -/
theorem idle_annGreeted (token : String) :
    Session.Idle ⟨Room.annWelcomed, Joiner.annGreeted token⟩ 0 (peerId .standard (.fill 7))
      annGuest := by
  have hmet : (Session.met .standard (Room.opened ⟨"host", 300⟩ 0 onionA) 0 0 ⟨"", token⟩
      annGuest).Idle 0 (peerId .standard (.fill 7)) annGuest :=
    idle_met rfl (show ¬ (Room.opened ⟨"host", 300⟩ 0 onionA).ShutdownReady 0 by decide)
      rfl rfl rfl
  exact ⟨hmet.room, { hmet.joiner with }, hmet.heard, hmet.said⟩

/-- The room when `yo` has come. -/
def Room.annHeard : Room :=
  Room.annWelcomed.delivered .standard 0 (peerId .standard (.fill 7)) (.chat "ann" "yo")

/-- The host looks at the screen. -/
theorem exists_hostLooked : ∃ ks s, Run (HostAppStep .standard ⟨"host", 300⟩ true)
      ⟨.start false 100 "tor is up", Room.annHeard⟩ ks s ∧ (∀ k ∈ ks, k.AtTerminal) ∧
      s.tui.conversation = [("ann", "yo")] := by
  have hrun : Run (HostAppStep .standard ⟨"host", 300⟩ true)
    ⟨.start false 100 "tor is up", Room.annHeard⟩ [] _ := .nil
  -- the room is ready, ann has joined, and she says something
  have hrun := hrun.snoc (l := .event)
    (.event rfl rfl (UserStep.takeEvent rfl) (.event rfl))
  have hrun := hrun.snoc (l := .event)
    (.event rfl rfl (UserStep.takeEvent rfl) (.event rfl))
  have hrun := hrun.snoc (l := .event)
    (.event rfl rfl (UserStep.takeEvent rfl) (.event rfl))
  exact ⟨_, _, hrun, by simp [StationLabel.AtTerminal], rfl⟩

/-- Ann meets her host, reads her greeting and types `yo`; the host reads it. -/
theorem exists_annAssembly : ∃ token ls a,
    Run (AssemblyStep .standard ⟨"host", 300⟩ true {0})
      (.start 0 (fun _ => ⟨"", token⟩) false 100 "tor is up") ls a ∧
      (∀ l ∈ ls, l.Unbroken 0) ∧ (a.guests 0).tui.conversation = [("", "ann joined")] ∧
      (a.guests 0).lines = ["yo"] ∧ a.host.tui.conversation = [("ann", "yo")] := by
  obtain ⟨token, ls, n, hnetwork, hls, hmet⟩ := exists_annMet
  let a := Assembly.start 0 (fun _ => ⟨"", token⟩) false 100 "tor is up"
  have hmeet : Run (AssemblyStep .standard ⟨"host", 300⟩ true {0}) a _ { a with network := n } :=
    NetworkRun.assembly hnetwork fun l hl => (hls l hl).1
  have hstation : { a with network := n }.guestStation 0 = ⟨.start false 100 "tor is up",
      (Joiner.entered .standard 0 ⟨"", token⟩ annGuest).heard .standard (.system "ann joined"),
      false⟩ := by
    rw [Assembly.guestStation, ← Network.joiner_session, hmet]
    rfl
  obtain ⟨ks, desk, happ, hks, hshown, hlines⟩ := exists_annTyped token
  obtain ⟨b, hread, htyped, hhost⟩ : ∃ b, Run (AssemblyStep .standard ⟨"host", 300⟩ true {0})
      { a with network := n } _ b ∧ b.guestStation 0 = _ ∧ b.hostStation = _ :=
    GuestAppRun.assembly happ hks rfl hstation
  -- the text is in the queue of the joiner, and goes to the host from there
  have hsession : b.network.session 0 =
      ⟨Room.annWelcomed, (Joiner.annGreeted token).told "yo"⟩ := by
    have hroom : b.network.room = n.room := congrArg Station.room hhost
    have hjoiner : b.network.joiners 0 = (Joiner.annGreeted token).told "yo" :=
      congrArg (fun s => (Station.room s).joiner) htyped
    rw [Network.session, hroom, hjoiner, ← Network.room_session n 0, hmet]
    rfl
  have hanswered : Run (SessionStep .standard ⟨"host", 300⟩ true 0)
      ⟨Room.annWelcomed, (Joiner.annGreeted token).told "yo"⟩
      (answerLabels .standard 0 (peerId .standard (.fill 7)) annGuest "yo") _ :=
    run_answer (idle_annGreeted token) (by decide)
  obtain ⟨m, hnetwork', hsession'⟩ := SessionRun.network hanswered hsession
  have hls' : ∀ k ∈ (answerLabels .standard 0 (peerId .standard (.fill 7)) annGuest "yo").map
      (SessionLabel.toNetwork 0), k.Unattended ∧ k.Unbroken 0 := by
    simp [answerLabels, sentLabels, deliverLabels, takeLabels, messageLabels, Label.lift,
      JoinerLabel.lift, SessionLabel.toNetwork, NetworkLabel.Unattended, NetworkLabel.Unbroken,
      Label.Unbroken]
  have hanswer : Run (AssemblyStep .standard ⟨"host", 300⟩ true {0}) b _
      { b with network := m } := NetworkRun.assembly hnetwork' fun k hk => (hls' k hk).1
  have hheard : { b with network := m }.hostStation =
      ⟨.start false 100 "tor is up", Room.annHeard⟩ := by
    have hdesk : b.host = .start false 100 "tor is up" := congrArg Station.toDesk hhost
    rw [Assembly.hostStation, ← Network.room_session m 0, hsession', hdesk]
    rfl
  obtain ⟨ks', s, happ', hks', hseen⟩ := exists_hostLooked
  have hlook : Run (AssemblyStep .standard ⟨"host", 300⟩ true {0}) { b with network := m } _ _ :=
    HostAppRun.assembly happ' hks' hheard
  refine ⟨token, _, _, ((hmeet.append hread).append hanswer).append hlook, ?_, ?_, ?_, hseen⟩
  · simp only [List.forall_mem_append, List.forall_mem_map]
    exact ⟨⟨⟨fun k hk => (hls k hk).2, fun _ _ => trivial⟩, fun l hl =>
      (hls' _ (List.mem_map_of_mem hl)).2⟩, fun _ _ => trivial⟩
  · exact (congrArg (fun s => (Station.toDesk s).tui.conversation) htyped).trans hshown
  · exact (congrArg (fun s => (Station.toDesk s).lines) htyped).trans hlines

/-! ## What was typed -/

theorem linesOf_subperm (name : String) {texts more : List String} (h : texts.Subperm more) :
    (linesOf name texts).Subperm (linesOf name more) := by
  obtain ⟨part, hperm, hsub⟩ := h
  exact ⟨linesOf name part, hperm.map _, hsub.map _⟩

/-- What the host loop has taken was typed at the terminal of the host. -/
theorem AssemblyRun.host_taken
    (hrun : Run (AssemblyStep X cfg checks guests) (.start now configs timestamps progress msg)
      ls a) : a.network.room.sendQ.received.Subperm a.host.lines := by
  obtain ⟨ks, hhost⟩ := AssemblyRun.host hrun
  have hledger : (hostSide X cfg).Ledger a.hostStation := RoomSide.ledger_of_run hhost rfl
  exact hledger.taken (List.prefix_append _ _)

/-- What a joiner has taken was typed at its terminal. -/
theorem AssemblyRun.guest_taken
    (hrun : Run (AssemblyStep X cfg checks guests) (.start now configs timestamps progress msg)
      ls a) (c : ConnId) :
    (a.network.joiners c).messages.received.Subperm (a.guests c).lines := by
  obtain ⟨ks, hguest⟩ := AssemblyRun.guest hrun c
  have hledger : (guestSide X checks).Ledger (a.guestStation c) :=
    RoomSide.ledger_of_run hguest rfl
  exact hledger.taken (List.prefix_append _ _)

theorem AssemblyRun.config
    (hrun : Run (AssemblyStep X cfg checks guests) (.start now configs timestamps progress msg)
      ls a) (c : ConnId) : (a.network.joiners c).config = configs c := by
  obtain ⟨ks, hguest⟩ := AssemblyRun.guest hrun c
  obtain ⟨-, -, -, hconfig⟩ := guestApp_credits hguest
  exact hconfig

/-! ## The screen of the host -/

/-- What a guest has said to the host was typed at its terminal. -/
theorem AssemblyRun.logged_typed
    (hrun : Run (AssemblyStep X cfg checks guests) (.start now configs timestamps progress msg)
      ls a) {log : List (ConnId × WireMessage)} (hlog : Sourced X a.network.room log)
    (hc : c ∈ guests) :
    loggedBy c log = [] ∨ ∃ me : Guest, me.Invited X (configs c) ∧
      (spoken (loggedBy c log)).Subperm (linesOf me.name (a.guests c).lines) := by
  have hlogged := hlog.conns c
  rcases hlogged with ⟨-, hnothing⟩ | ⟨⟨info, hjoined⟩, -⟩
  · exact .inl hnothing
  · obtain ⟨ks, hnetwork⟩ := AssemblyRun.network hrun
    have hwired := wired_of_run hnetwork hc
    obtain ⟨me, hspeaks⟩ := hwired.speaks
    have hknows := knows_of_joined hjoined
    have hinvited := hwired.invited hspeaks hknows
    rw [Network.joiner_session, AssemblyRun.config hrun c] at hinvited
    refine .inr ⟨me, hinvited, ?_⟩
    have hsaid : (spoken (loggedBy c log)).Sublist
        (linesOf me.name (a.network.joiners c).messages.received) := by
      rw [← spoken_chat]
      exact ((hlog.conns c).sublist_framed.trans
        (hwired.framed_sublist hspeaks hknows)).filterMap _
    exact hsaid.subperm.trans (linesOf_subperm me.name (AssemblyRun.guest_taken hrun c))

/-- **The screen of the host is accounted for.**  Every line on it was typed by the host, or
is on a log of what the connections that have joined have said.  What the log has of a
connection, guest or not, is part of the messages that the connection has framed behind its
introduction, in their order; and what a guest has said there was typed at the terminal of
that guest, and bears the name its invite gives it.  No line is on the screen more often than
it was framed, or typed. -/
theorem host_screen_accounted (X : Crates) (cfg : HostConfig) (checks : Bool)
    (guests : Set ConnId) (now : ℕ) (configs : ConnId → JoinConfig) (timestamps : Bool)
    (progress : UInt8) (msg : String) (ls : List AssemblyLabel) (a : Assembly)
    (hrun : Run (AssemblyStep X cfg checks guests) (.start now configs timestamps progress msg)
      ls a) :
    ∃ log : List (ConnId × WireMessage),
      a.host.tui.conversation.Subperm
        (linesOf cfg.name a.host.lines ++ spoken (log.map Prod.snd)) ∧
      (∀ entry ∈ log, ∃ info, (a.network.room.conns entry.1).handler.joined = some info) ∧
      (∀ c, (loggedBy c log).Sublist (framed X (a.network.room.conns c))) ∧
      ∀ c ∈ guests, loggedBy c log = [] ∨ ∃ me : Guest, me.Invited X (configs c) ∧
        (spoken (loggedBy c log)).Subperm (linesOf me.name (a.guests c).lines) := by
  obtain ⟨ks, hhost⟩ := AssemblyRun.host hrun
  have hmirrors : (hostSide X cfg).Mirrors a.hostStation := RoomSide.mirrors_of_run hhost rfl
  obtain ⟨log, hlog, hsaid⟩ := (hostApp_reachable hhost).said_subperm
  refine ⟨log, ?_, fun entry hentry => hlog.joined hentry,
    fun c => (hlog.conns c).sublist_framed, fun c hc => AssemblyRun.logged_typed hrun hlog hc⟩
  have htold : (a.host.tui.conversation).Sublist (said a.network.room.events.sent) := by
    rw [show a.host.tui.conversation = _ from hmirrors]
    exact (Mpsc.received_prefix_sent _).sublist.filterMap _
  exact htold.subperm.trans (hsaid.trans
    ((linesOf_subperm cfg.name (AssemblyRun.host_taken hrun)).append (List.Subperm.refl _)))

theorem host_screen_accounted_ann :
    ∃ (a : Assembly) (token : String) (log : List (ConnId × WireMessage)),
      a.host.tui.conversation = [("ann", "yo")] ∧ (a.guests 0).lines = ["yo"] ∧
        a.host.tui.conversation.Subperm
          (linesOf "host" a.host.lines ++ spoken (log.map Prod.snd)) ∧
        (∀ c, (loggedBy c log).Sublist (framed .standard (a.network.room.conns c))) ∧
        (loggedBy 0 log = [] ∨ ∃ me : Guest, me.Invited .standard ⟨"", token⟩ ∧
          (spoken (loggedBy 0 log)).Subperm (linesOf me.name (a.guests 0).lines)) := by
  obtain ⟨token, ls, a, hrun, -, -, htyped, hshown⟩ := exists_annAssembly
  obtain ⟨log, hconversation, -, hframed, hguests⟩ :=
    host_screen_accounted .standard ⟨"host", 300⟩ true {0} 0 _ false 100 "tor is up" ls a hrun
  exact ⟨a, token, log, hshown, htyped, hconversation, hframed, hguests 0 rfl⟩

/-! ## The screen of a guest -/

/-- What a guest hears says what the messages say. -/
theorem said_heardEvents (X : Crates) (msgs : List WireMessage) :
    (said (heardEvents X msgs)).Sublist (msgs.map fun msg => (msg.name, msg.text)) := by
  have hsaid : ∀ msgs : List WireMessage, said (msgs.map incomingEvent) =
      msgs.map fun msg => (msg.name, msg.text) := by
    intro msgs
    induction msgs with
    | nil => rfl
    | cons msg msgs ih => exact congrArg (List.cons (msg.name, msg.text)) ih
  rw [heardEvents, hsaid]
  exact List.filter_sublist.map _

/-- What a guest has heard is its greeting and texts of the host. -/
theorem said_heard {heard : List ChatEvent} {name : String} {told : List String} {info : PeerInfo}
    {got : List WireMessage} (hname : info.name = name)
    (hgot : got.Sublist (told.map (.chat cfg.name)))
    (hheard : heard <+: heardEvents X (joinNotice info :: got)) :
    (said heard).Sublist (("", name ++ " joined") :: linesOf cfg.name told) := by
  have hlines : (got.map fun msg => (msg.name, msg.text)).Sublist (linesOf cfg.name told) := by
    have hmap := hgot.map fun msg => (msg.name, msg.text)
    rwa [List.map_map] at hmap
  have hgreeting : ((joinNotice info :: got).map fun msg => (msg.name, msg.text)) =
      ("", name ++ " joined") :: got.map fun msg => (msg.name, msg.text) := by
    rw [← hname]
    rfl
  refine ((hheard.sublist.filterMap _).trans (said_heardEvents X _)).trans ?_
  rw [hgreeting]
  exact hlines.cons_cons _

/-- **The screen of a guest is accounted for.**  Unless a write of the hub to it fails, every
line on the screen of a guest is the notice that greets it, or was typed by the host, or by
the guest itself, each under its own name; none is there more often than it was typed, and
none comes from another guest. -/
theorem guest_screen_accounted (X : Crates) (cfg : HostConfig) (checks : Bool)
    (guests : Set ConnId) (now : ℕ) (configs : ConnId → JoinConfig) (timestamps : Bool)
    (progress : UInt8) (msg : String) (ls : List AssemblyLabel) (a : Assembly)
    (hrun : Run (AssemblyStep X cfg checks guests) (.start now configs timestamps progress msg)
      ls a) {c : ConnId} (hc : c ∈ guests) (hl : ∀ l ∈ ls, l.Unbroken c) :
    (a.guests c).tui.conversation = [] ∨ ∃ me : Guest, me.Invited X (configs c) ∧
      (a.guests c).tui.conversation.Subperm (("", me.name ++ " joined") ::
        (linesOf cfg.name a.host.lines ++ linesOf me.name (a.guests c).lines)) := by
  obtain ⟨ks, hguest⟩ := AssemblyRun.guest hrun c
  have hmirrors : (guestSide X checks).Mirrors (a.guestStation c) :=
    RoomSide.mirrors_of_run hguest rfl
  -- what is on the screen was emitted by the joiner
  have htold : ((a.guests c).tui.conversation).Sublist
      (said (a.network.joiners c).events.sent) := by
    rw [show (a.guests c).tui.conversation = _ from hmirrors]
    exact (Mpsc.received_prefix_sent _).sublist.filterMap _
  obtain ⟨ks, hnetwork, hks⟩ := AssemblyRun.unbroken hrun hl
  obtain ⟨heard, hwatched⟩ := NetworkRun.watch hnetwork fun _ => []
  obtain ⟨me, hcredits⟩ := credits_of_watch hwatched c
  by_cases hjoined : (a.network.joiners c).main.Joined
  · have hinvited := hcredits.speaks.guest hjoined
    rw [show _ = configs c from AssemblyRun.config hrun c] at hinvited
    refine .inr ⟨me, hinvited, ?_⟩
    -- what it heard is its own notice and lines of the host
    have hheard : (said (heard c)).Subperm
        (("", me.name ++ " joined") :: linesOf cfg.name a.host.lines) := by
      rcases (seesInOrder_of_run hwatched hc hks).shows with
        hnothing | ⟨info, got, hadmitted, hgot, hshown⟩
      · rw [show heard c = [] from hnothing]
        exact List.nil_subperm
      · obtain ⟨ks, hroom⟩ := NetworkRun.room hnetwork
        obtain ⟨told, hlog, haccount⟩ := RoomReachable.account ⟨now, ks, hroom⟩
        obtain ⟨-, -, hname⟩ :=
          (wired_of_run hnetwork hc).known hcredits.speaks (knows_of_joined hadmitted)
        rw [hlog] at hgot
        have htexts : told.Subperm a.host.lines :=
          haccount.prefix.sublist.subperm.trans (AssemblyRun.host_taken hrun)
        exact (said_heard hname hgot hshown).subperm.trans
          ((List.subperm_cons _).mpr (linesOf_subperm cfg.name htexts))
    have hown : (linesOf me.name (a.network.joiners c).messages.received).Subperm
        (linesOf me.name (a.guests c).lines) :=
      linesOf_subperm me.name (AssemblyRun.guest_taken hrun c)
    exact htold.subperm.trans (hcredits.subperm.trans (hheard.append hown))
  · -- nothing is said to a guest that has not joined
    left
    rw [(hcredits.quiet hjoined).1] at htold
    exact List.sublist_nil.mp htold

theorem guest_screen_accounted_ann : ∃ (a : Assembly) (token : String),
    (a.guests 0).tui.conversation = [("", "ann joined")] ∧
      ((a.guests 0).tui.conversation = [] ∨ ∃ me : Guest,
        me.Invited .standard ⟨"", token⟩ ∧
        (a.guests 0).tui.conversation.Subperm (("", me.name ++ " joined") ::
          (linesOf "host" a.host.lines ++ linesOf me.name (a.guests 0).lines))) := by
  obtain ⟨token, ls, a, hrun, hl, hshown, -⟩ := exists_annAssembly
  exact ⟨a, token, hshown,
    guest_screen_accounted .standard ⟨"host", 300⟩ true {0} 0 _ false 100 "tor is up" ls a hrun
      rfl hl⟩

end Nullpipe

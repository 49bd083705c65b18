import Nullpipe.Network.Admission
import Nullpipe.Joiner.Credit
import Nullpipe.Joiner.Heeding
import Nullpipe.Room.Outflow
import Nullpipe.Room.Texts
import Nullpipe.Session.Talk

/-!
# One order for all

The texts of the host go to every guest through one log.  A guest may join late, lag, be
cut off or stop reading; what its reader has put on its event stream is always a front
part of the join notice and some of the texts, in the order of the log.  So no two
guests see two texts of the host in different orders, nobody sees one twice, and nobody
sees one that was not sent.

The proof goes along the way of a text, and each stretch has its module.

* From the user to the log: the log is a front part of the texts taken (`Room/Texts.lean`).
* From the log to the stream: behind the accept byte the hub has written a front part of the
  frames of the join notice and a part of the log (`Outflow.written`), unless a write to the
  guest fails (`NetworkLabel.Unbroken`).
* From the stream to the reader: what the reader has handed on is a front part of what is heard
  of the bytes behind the reply (`Joiner.Heeds`).
* From the reader to the user: the messages on the event stream are those of the reader, and
  the guest's own (`credits_of_watch`).

`SeesInOrder` is the invariant that has the middle two together, for one guest, over runs that
are watched (`WatchStep`); `SeesInOrder.shows` reads the result off it, and `shows_all` gives
equality where the reader waits and everything is read.  The other direction, from the guests
to the host, is `guest_heard_in_order`, by `delivery` and `Session.Wired`.
-/

namespace Nullpipe

open Channel Room Framing Transition

variable {X : Crates} {cfg : HostConfig} {checks : Bool} {guests : Set ConnId} {c : ConnId}
  {m n : Network} {l : NetworkLabel}

/-! ## Watching the guests -/

/-- What a step puts on the event stream of joiner `c` from its reader. -/
def NetworkLabel.emits (c : ConnId) (n : Network) : NetworkLabel → List ChatEvent
  | .joiner d l => if d = c then l.emits (n.joiners c) else []
  | _ => []

/-- The steps of a network, with what the reader of each guest has shown so far. -/
def WatchStep (X : Crates) (cfg : HostConfig) (checks : Bool) (guests : Set ConnId)
    (l : NetworkLabel) (s t : Network × (ConnId → List ChatEvent)) : Prop :=
  NetworkStep X cfg checks guests l s.1 t.1 ∧ ∀ c, t.2 c = s.2 c ++ l.emits c s.1

/-- A watched run is a run. -/
theorem WatchRun.network {ls : List NetworkLabel} {s t : Network × (ConnId → List ChatEvent)}
    (hrun : Run (WatchStep X cfg checks guests) s ls t) :
    Run (NetworkStep X cfg checks guests) s.1 ls t.1 :=
  hrun.map Prod.fst fun h => h.1

/-- Every run can be watched. -/
theorem NetworkRun.watch {ls : List NetworkLabel}
    (hrun : Run (NetworkStep X cfg checks guests) m ls n) (heard : ConnId → List ChatEvent) :
    ∃ heard', Run (WatchStep X cfg checks guests) (m, heard) ls (n, heard') := by
  induction hrun with
  | nil => exact ⟨heard, .nil⟩
  | @snoc u _ _ l _ hstep ih =>
      obtain ⟨heard', hrun⟩ := ih
      exact ⟨fun c => heard' c ++ l.emits c u, hrun.snoc ⟨hstep, fun _ => rfl⟩⟩

/-- No write of the hub to guest `c` fails. -/
def NetworkLabel.Unbroken (c : ConnId) : NetworkLabel → Prop
  | .room l => l.Unbroken c
  | _ => True

/-- What a step does to the joiner of a connection. -/
theorem NetworkStep.joiner_step (h : NetworkStep X cfg checks guests l m n) (c : ConnId) :
    n.joiners c = m.joiners c ∧ l.emits c m = [] ∨
      ∃ l', JoinerStep X checks l' (m.joiners c) (n.joiners c) ∧
        l.emits c m = l'.emits (m.joiners c) := by
  have hsame : ∀ {d : ConnId} {j : Joiner}, d ≠ c → (m.setJoiner d j).joiners c = m.joiners c :=
    fun hd => Function.update_of_ne hd.symm ..
  have hself : ∀ {j : Joiner}, (m.setJoiner c j).joiners c = j := Function.update_self ..
  have hsilent : ∀ l' : JoinerLabel, l'.hands (m.joiners c) = [] →
      l'.emits (m.joiners c) = [] := by
    intro l' hnil
    rw [JoinerLabel.emits, hnil, ite_self]
  cases h with
  | room | toHub | hubEnd => exact .inl ⟨rfl, rfl⟩
  | @joiner d l' _ j _ h hl =>
      by_cases hd : d = c
      · subst hd
        refine .inr ⟨l', hself.symm ▸ h, if_pos rfl⟩
      · exact .inl ⟨hsame hd, if_neg hd⟩
  | @toJoiner d chunk _ j _ _ _ h =>
      by_cases hd : d = c
      · subst hd
        exact .inr ⟨.net chunk, hself.symm ▸ h, (hsilent _ rfl).symm⟩
      · exact .inl ⟨hsame hd, rfl⟩
  | @joinerEnd d e _ j _ _ _ h =>
      by_cases hd : d = c
      · subst hd
        exact .inr ⟨.finish e, hself.symm ▸ h, (hsilent _ rfl).symm⟩
      · exact .inl ⟨hsame hd, rfl⟩
  | @tick _ d => exact .inr ⟨.tick d, .tick, (hsilent _ rfl).symm⟩

/-- What a step does to the room. -/
theorem NetworkStep.room_step (h : NetworkStep X cfg checks guests l m n) (c : ConnId)
    (hl : l.Unbroken c) :
    n.room = m.room ∨ ∃ l', Step X cfg l' m.room n.room ∧ l'.Unbroken c := by
  cases h with
  | room h => exact .inr ⟨_, h, hl⟩
  | joiner | toJoiner | joinerEnd => exact .inl rfl
  | toHub _ _ _ h => exact .inr ⟨_, .net h, nofun, nofun⟩
  | hubEnd _ _ _ h => exact .inr ⟨_, .net h, nofun, nofun⟩
  | tick => exact .inr ⟨_, .tick, nofun, nofun⟩

/-! ## The invariant -/

/-- The reader of guest `c` has shown part of what it has handed on, all of it while
somebody looks, and the hub has sent the guest part of the log. -/
structure SeesInOrder (X : Crates) (cfg : HostConfig) (c : ConnId)
    (s : Network × (ConnId → List ChatEvent)) : Prop where
  wired : (s.1.session c).Wired X cfg c
  outflow : Outflow X s.1.room.bcast (s.1.room.conns c)
  shown : ∃ handed, (s.1.joiners c).Heeds X handed ∧ s.2 c <+: handed ∧
    ((s.1.joiners c).events.isOpen = true → s.2 c = handed)

theorem SeesInOrder.init (X : Crates) (cfg : HostConfig) (c : ConnId) (now : ℕ)
    (configs : ConnId → JoinConfig) : SeesInOrder X cfg c (.init now configs, fun _ => []) :=
  ⟨.init X cfg c now (configs c), .fresh X, [], .init X now (configs c), List.prefix_rfl,
    fun _ => rfl⟩

theorem WatchStep.seesInOrder {s t : Network × (ConnId → List ChatEvent)}
    (h : WatchStep X cfg checks guests l s t) (hc : c ∈ guests) (hl : l.Unbroken c)
    (hs : SeesInOrder X cfg c s) : SeesInOrder X cfg c t := by
  obtain ⟨hstep, hshown⟩ := h
  obtain ⟨hwired, houtflow, handed, hheeds, hfront, hall⟩ := hs
  refine ⟨?_, ?_, ?_⟩
  · rcases hstep.session hc with hsame | ⟨l', hsession⟩
    · rwa [hsame]
    · exact hsession.wired hwired
  · rcases hstep.room_step c hl with hsame | ⟨l', hroom, hl'⟩
    · rwa [hsame]
    · exact hroom.outflow hl' hwired.reach houtflow
  · rcases hstep.joiner_step c with ⟨hsame, hnothing⟩ | ⟨l', hjoiner, hemits⟩
    · rw [hsame, hshown c, hnothing, List.append_nil]
      exact ⟨handed, hheeds, hfront, hall⟩
    · refine ⟨handed ++ l'.hands (s.1.joiners c), hjoiner.heeds hheeds, ?_, fun hopen => ?_⟩
      -- what is handed on with the stream of events open is emitted
      · rw [hshown c, hemits, JoinerLabel.emits]
        split
        · rename_i hopen
          rw [hall hopen]
        · rw [List.append_nil]
          exact hfront.trans (List.prefix_append ..)
      · have hopen' := hjoiner.events_isOpen hopen
        rw [hshown c, hemits, JoinerLabel.emits, if_pos hopen', hall hopen']

theorem seesInOrder_of_run {now : ℕ} {configs : ConnId → JoinConfig} {ls : List NetworkLabel}
    {t : Network × (ConnId → List ChatEvent)}
    (hrun : Run (WatchStep X cfg checks guests) (.init now configs, fun _ => []) ls t)
    (hc : c ∈ guests) (hl : ∀ l ∈ ls, l.Unbroken c) : SeesInOrder X cfg c t := by
  have hguarded : Run (Guarded (WatchStep X cfg checks guests) fun _ l => l.Unbroken c)
      (.init now configs, fun _ => []) ls t := hrun.guard fun l hmem _ => hl l hmem
  exact hguarded.invariant (I := SeesInOrder X cfg c) (.init X cfg c now configs)
    fun hs hstep => hstep.1.seesInOrder hc hstep.2 hs

/-! ## What a guest sees -/

/-- The messages a guest is shown are heard, or its own. -/
theorem credits_of_watch {now : ℕ} {configs : ConnId → JoinConfig} {ls : List NetworkLabel}
    {t : Network × (ConnId → List ChatEvent)}
    (hrun : Run (WatchStep X cfg checks guests) (.init now configs, fun _ => []) ls t)
    (c : ConnId) : ∃ me, (t.1.joiners c).Credits X me (t.2 c) := by
  refine hrun.invariant (I := fun s => ∃ me, (s.1.joiners c).Credits X me (s.2 c))
    ⟨⟨"", .fill 0, .fill 0⟩, .init ..⟩ fun {l s t} hs h => ?_
  obtain ⟨me, hcredits⟩ := hs
  rcases h.1.joiner_step c with ⟨hsame, hnothing⟩ | ⟨l', hjoiner, hemits⟩
  · refine ⟨me, ?_⟩
    rwa [hsame, h.2 c, hnothing, List.append_nil]
  · rw [h.2 c, hemits]
    exact hjoiner.credits hcredits

/-- The events a joiner makes of messages that come to it in frames. -/
def heardEvents (X : Crates) (msgs : List WireMessage) : List ChatEvent :=
  (msgs.filter fun msg => Encodes X.json msg).map incomingEvent

/-- What does not fit a frame is not on the stream. -/
theorem flatMap_frameBytes_filter (X : Crates) (msgs : List WireMessage) :
    (msgs.filter fun msg => Encodes X.json msg).flatMap (frameBytes X.json) =
      msgs.flatMap (frameBytes X.json) := by
  induction msgs with
  | nil => rfl
  | cons msg rest ih =>
      by_cases hfits : Encodes X.json msg
      · rw [List.filter_cons, if_pos (decide_eq_true hfits), List.flatMap_cons, List.flatMap_cons,
          ih]
      · have hnothing : frameBytes X.json msg = [] := by
          rw [frameBytes, encodeMessage_of_not_encodes hfits]
        rw [List.filter_cons, if_neg (by simpa using hfits), List.flatMap_cons, hnothing,
          List.nil_append, ih]

/-- A reader hears the messages of a stream of frames. -/
theorem heard_frames (X : Crates) (msgs : List WireMessage) :
    wireFormat.heard (incoming X) (msgs.flatMap (frameBytes X.json)) = heardEvents X msgs := by
  rw [← flatMap_frameBytes_filter]
  refine Format.heard_flatMap fun msg hmsg => ?_
  have hfits : Encodes X.json msg := of_decide_eq_true (List.mem_filter.mp hmsg).2
  refine ⟨readFrame_encodeMessage hfits.encodeMessage, ?_⟩
  rw [incoming, readAll, decoded_encodeMessage hfits.encodeMessage]

/-- **What a guest has been shown.** -/
theorem SeesInOrder.shows {s : Network × (ConnId → List ChatEvent)}
    (hs : SeesInOrder X cfg c s) :
    s.2 c = [] ∨ ∃ info got, (s.1.room.conns c).handler.joined = some info ∧
      got.Sublist s.1.room.bcast ∧ s.2 c <+: heardEvents X (joinNotice info :: got) := by
  obtain ⟨hwired, houtflow, handed, hheeds, hfront, -⟩ := hs
  have harrived : (s.1.joiners c).sock.arrived.tail <+: (s.1.room.conns c).sock.written.tail :=
    List.drop_one (l := (s.1.joiners c).sock.arrived) ▸ List.drop_one ▸ hwired.toJoiner.drop 1
  have hheard : s.2 c <+: wireFormat.heard (incoming X) (s.1.room.conns c).sock.written.tail :=
    (hfront.trans hheeds.prefix_heard).trans (Format.heard_prefix harrived)
  rcases houtflow.written (hwired.reach.coherent c) with
    hnothing | ⟨info, got, hjoined, hgot, hsent⟩
  · rw [hnothing, Format.heard_of_needs Format.progress_nil, List.prefix_nil] at hheard
    exact .inl hheard
  · refine .inr ⟨info, got, hjoined, hgot, ?_⟩
    rw [← heard_frames]
    exact hheard.trans (Format.heard_prefix hsent)

/-- A guest whose reader waits, with everything read, has been shown all that came. -/
theorem SeesInOrder.shows_all {s : Network × (ConnId → List ChatEvent)} {deadline : ℕ}
    {msgs : List WireMessage} (hs : SeesInOrder X cfg c s)
    (hreader : (s.1.joiners c).reader = .reading [] deadline)
    (hinbox : (s.1.joiners c).sock.inbox = [])
    (hopen : (s.1.joiners c).events.isOpen = true)
    (hread : (s.1.joiners c).sock.read.tail = msgs.flatMap (frameBytes X.json)) :
    s.2 c = heardEvents X msgs := by
  obtain ⟨-, -, handed, hheeds, -, hall⟩ := hs
  obtain ⟨-, hlistens⟩ := hheeds.listens (by rw [hreader]; exact nofun)
    (by rw [hreader]; exact nofun)
  have hnothing : wireFormat.heard (incoming X) [] = [] :=
    Format.heard_of_needs Format.progress_nil
  -- everything was handed on, and nothing of the stream is ahead of the reader
  calc s.2 c
      = handed := hall hopen
    _ = (s.1.joiners c).heardOf X handed [] := by
        rw [Joiner.heardOf, hreader, hinbox]
        exact ((congrArg (handed ++ ·) hnothing).trans (List.append_nil _)).symm
    _ = wireFormat.heard (incoming X) ((s.1.joiners c).sock.arrived.tail ++ []) :=
        hlistens [] fun _ => rfl
    _ = wireFormat.heard (incoming X) (msgs.flatMap (frameBytes X.json)) := by
        rw [List.append_nil, Socket.arrived, hinbox, List.append_nil, hread]
    _ = heardEvents X msgs := heard_frames X msgs

/-- **All guests see the texts of the host in one order.**  There is one list of texts,
taken from the host's users in their order, such that every guest to whom no write has
failed has been shown nothing, or a front part of its join notice and a selection of that
list, in its order. -/
theorem texts_in_one_order (X : Crates) (cfg : HostConfig) (checks : Bool) (guests : Set ConnId)
    (now : ℕ) (configs : ConnId → JoinConfig) (ls : List NetworkLabel)
    (t : Network × (ConnId → List ChatEvent))
    (hrun : Run (WatchStep X cfg checks guests) (.init now configs, fun _ => []) ls t) :
    ∃ told, told <+: t.1.room.sendQ.received ∧ ∀ c ∈ guests, (∀ l ∈ ls, l.Unbroken c) →
      t.2 c = [] ∨ ∃ info, ∃ got : List String, (t.1.room.conns c).handler.joined = some info ∧
        got.Sublist told ∧
        t.2 c <+: heardEvents X (joinNotice info :: got.map (.chat cfg.name)) := by
  have hreach : RoomReachable X cfg t.1.room := by
    obtain ⟨ks, hroom⟩ := NetworkRun.room (WatchRun.network hrun)
    exact ⟨now, ks, hroom⟩
  obtain ⟨told, hlog, haccount⟩ := hreach.account
  refine ⟨told, haccount.prefix, fun c hc hl => ?_⟩
  rcases (seesInOrder_of_run hrun hc hl).shows with
    hnothing | ⟨info, got, hjoined, hgot, hshown⟩
  · exact .inl hnothing
  · rw [hlog] at hgot
    obtain ⟨texts, htexts, rfl⟩ := List.sublist_map_iff.mp hgot
    exact .inr ⟨info, texts, hjoined, htexts, hshown⟩

/-- Ann and her host talk, in a network of their own. -/
theorem exists_annTalk : ∃ token ls n, Run (NetworkStep .standard ⟨"host", 300⟩ true {0})
      (.init 0 fun _ => ⟨"", token⟩) ls n ∧ (∀ l ∈ ls, l.Unbroken 0) ∧
      n.session 0 = Session.annTalked token := by
  obtain ⟨token, hencode⟩ := exists_annToken .standard
  obtain ⟨n, hrun, hsession⟩ := SessionRun.network (n := .init 0 fun _ => ⟨"", token⟩)
    ((run_annSession hencode).append (run_annTalk token)) rfl
  refine ⟨token, _, n, hrun, ?_, hsession⟩
  simp [hostingLabels, openLabels, annMeetLabels, meetLabels, hailLabels, acceptLabels,
    replyLabels, enteredLabels, welcomeLabels, nameLabels, joinLabels, serveLabels, heardLabels,
    annTalkLabels, tellLabels, textLabels, writeLabels, sayLabels, answerLabels, sentLabels,
    deliverLabels, takeLabels, messageLabels, Label.lift, JoinerLabel.lift, SessionLabel.toNetwork,
    NetworkLabel.Unbroken, Label.Unbroken]

theorem texts_in_one_order_ann :
    ∃ (t : Network × (ConnId → List ChatEvent)) (told : List String),
      t.1.room.sendQ.received = ["hi"] ∧
      t.2 0 = [.message ⟨""⟩ "" "ann joined", .message ⟨"host"⟩ "host" "hi"] ∧
      told <+: t.1.room.sendQ.received ∧ (t.2 0 = [] ∨
        ∃ info, ∃ got : List String, (t.1.room.conns 0).handler.joined = some info ∧
          got.Sublist told ∧
          t.2 0 <+: heardEvents .standard (joinNotice info :: got.map (.chat "host"))) := by
  obtain ⟨token, ls, n, hrun, hl, hsession⟩ := exists_annTalk
  obtain ⟨heard, hwatched⟩ := NetworkRun.watch hrun fun _ => []
  have hroom : n.room = (Session.annTalked token).room := congrArg Session.room hsession
  have hjoiner : n.joiners 0 = (Session.annTalked token).joiner :=
    congrArg Session.joiner hsession
  have hshown : heard 0 = heardEvents .standard [joinNotice ann, .chat "host" "hi"] := by
    refine (seesInOrder_of_run hwatched rfl hl).shows_all (congrArg Joiner.reader hjoiner) ?_ ?_ ?_
    all_goals rw [hjoiner]
    · rfl
    · rfl
    · rfl
  obtain ⟨told, htold, hguests⟩ :=
    texts_in_one_order .standard ⟨"host", 300⟩ true {0} 0 _ ls (n, heard) hwatched
  refine ⟨(n, heard), told, ?_, ?_, htold, hguests 0 rfl hl⟩
  · show n.room.sendQ.received = _
    rw [hroom]
    rfl
  · show heard 0 = _
    rw [hshown]
    rfl

/-! ## The texts of the guests -/

/-- The bytes a guest sends behind its introduction are frames of its texts. -/
theorem Session.Wired.payload_prefix {s : Session} {me : Guest} (hs : s.Wired X cfg c)
    (hspeaks : s.joiner.Speaks X me) {info : PeerInfo}
    (hknows : (s.room.conns c).handler.knows = some info) :
    payload (s.room.conns c).sock.arrived <+:
      (me.messages s.joiner.messages.received).flatMap (frameBytes X.json) := by
  obtain ⟨hname, -⟩ := hs.known hspeaks hknows
  obtain ⟨more, hgreets⟩ := (hs.reach.coherent c).greets_of_knows hknows
  have hscript := hs.toHub.trans hspeaks.spoken.prefix
  have hread : (s.room.conns c).sock.read = me.script X [] ++ more :=
    (hgreets.of_script hname (hs.read_prefix hspeaks)).2.2
  have hpayload : payload (s.room.conns c).sock.arrived = more ++ (s.room.conns c).sock.inbox :=
    payload_of_greets hgreets _
  have hsplit : me.script X (me.messages s.joiner.messages.received) = me.script X [] ++
      (me.messages s.joiner.messages.received).flatMap (frameBytes X.json) := by
    rw [← me.script_append X [], List.nil_append]
  rw [hpayload]
  rwa [Socket.arrived, hread, List.append_assoc, hsplit, List.prefix_append_right_inj] at hscript

/-- The messages on the stream of a guest are its texts. -/
theorem Session.Wired.framed_sublist {s : Session} {me : Guest} (hs : s.Wired X cfg c)
    (hspeaks : s.joiner.Speaks X me) {info : PeerInfo}
    (hknows : (s.room.conns c).handler.knows = some info) :
    (framed X (s.room.conns c)).Sublist (me.messages s.joiner.messages.received) := by
  obtain ⟨more, hmore⟩ := hs.payload_prefix hspeaks hknows
  have hfront : framed X (s.room.conns c) <+: streamMessages X.json
      ((me.messages s.joiner.messages.received).flatMap (frameBytes X.json)) := by
    rw [← hmore]
    exact Format.messages_prefix_append ..
  rw [← flatMap_frameBytes_filter, ← List.append_nil (List.flatMap _ _),
    streamMessages_flatMap (fun msg hmsg => of_decide_eq_true (List.mem_filter.mp hmsg).2)]
    at hfront
  have hnothing : streamMessages X.json [] = [] := Format.messages_of_needs Format.progress_nil
  rw [hnothing, List.append_nil] at hfront
  exact hfront.sublist.trans List.filter_sublist

/-- **The host sees the texts of a guest in their order.**  While no two connections have
joined under one id, the messages the host is shown from a guest are texts that the guest
took from its user, each at most once, in its order and under its own name. -/
theorem guest_heard_in_order (X : Crates) (cfg : HostConfig) (checks : Bool)
    (guests : Set ConnId) (now : ℕ) (configs : ConnId → JoinConfig) (ls : List NetworkLabel)
    (n : Network) (hrun : Run (NetworkStep X cfg checks guests) (.init now configs) ls n)
    (hids : DistinctIds n.room) {c : ConnId} (hc : c ∈ guests) {info : PeerInfo}
    (hjoined : (n.room.conns c).handler.joined = some info) :
    ∃ me : Guest, me.Invited X (n.joiners c).config ∧ info.name = me.name ∧
      (messagesFrom info.id n.room.events.sent).Sublist
        (me.messages (n.joiners c).messages.received) := by
  have hwired := wired_of_run hrun hc
  obtain ⟨me, hspeaks⟩ := hwired.speaks
  have hknows := knows_of_joined hjoined
  obtain ⟨-, -, hname⟩ := hwired.known hspeaks hknows
  obtain ⟨ks, hroom⟩ := NetworkRun.room hrun
  -- no step is left out of this run
  have hguarded : Run (Guarded (Step X cfg) fun s l => False → Takes s l) (Room.init now) ks
      n.room := hroom.guard fun _ _ _ hfalse => hfalse.elim
  obtain ⟨done, hreads, hfollows, -⟩ := tracked_of_run hguarded hids False.elim hjoined
  refine ⟨me, hwired.invited hspeaks hknows, hname, ?_⟩
  have hshown : (messagesFrom info.id n.room.events.sent).Sublist (chats done) := by
    refine List.Sublist.trans ?_ hfollows
    rw [Room.onWay, List.append_assoc, List.append_assoc]
    exact List.sublist_append_left _ _
  -- what the room has read is the front of what its stream frames
  have hdone : (chats done).Sublist (framed X (n.room.conns c)) :=
    List.filter_sublist.trans hreads.prefix_framed.sublist
  exact (hshown.trans hdone).trans (hwired.framed_sublist hspeaks hknows)

theorem guest_heard_in_order_ann :
    ∃ (n : Network) (me : Guest), (n.joiners 0).messages.received = ["yo"] ∧
      messagesFrom ann.id n.room.events.sent = [.chat "ann" "yo"] ∧
      (n.room.conns 0).handler.joined = some ann ∧ ann.name = me.name ∧
        (messagesFrom ann.id n.room.events.sent).Sublist
          (me.messages (n.joiners 0).messages.received) := by
  obtain ⟨token, ls, n, hrun, -, hsession⟩ := exists_annTalk
  have hroom : n.room = (Session.annTalked token).room := congrArg Session.room hsession
  have hjoiner : n.joiners 0 = (Session.annTalked token).joiner :=
    congrArg Session.joiner hsession
  have hjoined : (n.room.conns 0).handler.joined = some ann := by
    rw [hroom]
    rfl
  -- ann is alone in the room
  have hids : DistinctIds n.room := by
    have hone : ∀ c info, (n.room.conns c).handler.joined = some info → c = 0 := by
      intro c info hc
      by_contra hne
      have hfresh : (Session.annTalked token).room.conns c = Conn.fresh :=
        (conns_setConn_of_ne _ _ _ _ hne).trans ((conns_setConn_of_ne _ _ _ _ hne).trans
          ((conns_setConn_of_ne _ _ _ _ hne).trans (conns_admitted_of_ne hne)))
      rw [hroom, hfresh] at hc
      cases hc
    intro c d info info' hc hd _
    rw [hone c info hc, hone d info' hd]
  obtain ⟨me, -, hname, hsub⟩ :=
    guest_heard_in_order .standard ⟨"host", 300⟩ true {0} 0 _ ls n hrun hids rfl hjoined
  refine ⟨n, me, ?_, ?_, hjoined, hname, hsub⟩
  · rw [hjoiner]
    rfl
  · rw [hroom]
    exact show messagesFrom ann.id (Session.annTalked "").room.events.sent = _ by decide

end Nullpipe

import HomeControl.Proofs.Conversation.Net

/-!
# What links a client to its session

`Linked` is what holds of every client of a server and of the session it talks to, in whatever order
the steps have been taken. A step is one of four kinds for it: one of the server that is not its
session's (`Linked.record`), one of its session (`Linked.serve`, `Linked.flush`), one of its own
(`Linked.hear`, `Linked.takePosted`), or an answer of its user (`Linked.post`).
-/

namespace HomeControl

open Hub (Sound)
open ServerMachine (Turn)

/-- The client's target is the home that was handed over and all it has been told since. -/
def HasTold (hub : Hub) (history : List Record) (id : SessionId) (target : Home) : Prop :=
  ∃ earlier r between, history = earlier ++ r :: between ∧ Told hub id r between ∧
    target = r.before.home.shown.replay (between.flatMap fun q => q.told id)

/-- Neither a session nor its client has written an ERROR. -/
structure Calm (history : List Record) (id : SessionId) (said : List Bytes) : Prop where
  server : ∀ r ∈ history, ∀ m ∈ r.written id, m.keycode ≠ .error
  client : ∀ m ∈ said.filterMap Line.message?, m.keycode ≠ .error

/-- Some user may ask for an action that does not fit a line. -/
def Overlong (Args : Bytes → Prop) : Prop :=
  ∃ a : Action, Args a.params ∧ ¬ Line.Fits (.action a)

/-- What holds while a session and its client are at work. -/
structure Alive (Args : Bytes → Prop) (hub : Hub) (history : List Record) (id : SessionId) (p : Peer)
    (sm : ServerMachine) (ups downs : List Message) (target : Home) : Prop where
  machine : hub.machine? id = some sm
  goesOn : p.ended = none
  up : p.up.Carries ups
  down : p.down.Carries downs
  joint : Joint Args sm p.session ups downs target
  calm : Calm history id p.said
  told : sm.state = .serverAwaitsAction → HasTold hub history id target
  /-- A session that has not admitted its client has nothing to tell it. -/
  queue : sm.state ≠ .serverAwaitsAction → hub.registry.queued id = []

/-- What links a client to its session. -/
inductive Linked (Args : Bytes → Prop) (hub : Hub) (history : List Record) (id : SessionId) (p : Peer) :
    Prop where
  /-- Both are at work. -/
  | live {sm : ServerMachine} {ups downs : List Message} {target : Home}
      (h : Alive Args hub history id p sm ups downs target) : Linked Args hub history id p
  /-- The session has ended because of an action that did not fit a line. -/
  | dying {downs : List Message} (hm : hub.machine? id = none) (hend : p.ended = none)
      (hdown : p.down.Carries downs) (hd : Dying p.session downs) (hlong : Overlong Args) :
      Linked Args hub history id p
  /-- The client has ended as well. -/
  | ended (hm : hub.machine? id = none) (hend : p.ended ≠ none)
      (hs : p.session.machine.state = .idle) (hlong : Overlong Args) : Linked Args hub history id p

variable {Args : Bytes → Prop} {hub : Hub} {history : List Record} {id : SessionId} {p : Peer}
  {sm : ServerMachine} {ups downs : List Message} {act : Hub.Act} {n : Nat} {target : Home}

/-! ## What a client has been told -/

/-- While the session goes on, the client's target follows what it is told. -/
theorem HasTold.step (ht : HasTold hub history id target) (h : Sound n hub)
    (hn : act = .accept → n < UInt64.size) (hp : hub.Permits act) (ha : hub.Awaits id)
    (hl : ¬ ({ before := hub, act } : Record).Leaves id) :
    HasTold (hub.perform act).1 (history ++ [{ before := hub, act }]) id
      (target.replay (({ before := hub, act } : Record).told id)) := by
  obtain ⟨earlier, r, between, rfl, htold, rfl⟩ := ht
  refine ⟨earlier, r, between ++ [{ before := hub, act }], by simp, htold.step h hn hp ha hl, ?_⟩
  rw [List.flatMap_append, List.flatMap_singleton, Home.replay_append]

/-- The home that is handed over is where the client's target starts. -/
theorem HasTold.start (h : Sound n hub) (hn : act = .accept → n < UInt64.size) (hp : hub.Permits act)
    (ha : (hub.perform act).1.Awaits id) (hb : ¬ hub.Awaits id) (hq : hub.registry.queued id = []) :
    HasTold (hub.perform act).1 (history ++ [{ before := hub, act }]) id hub.home.shown :=
  ⟨history, { before := hub, act }, [], rfl,
    Told.start h (Hub.handsOver_of_awaits h hn hp ha hb) hq, rfl⟩

/-- A step that writes no ERROR to the client disturbs nobody. -/
theorem Calm.record {said : List Bytes} (h : Calm history id said) {r : Record}
    (hr : ∀ m ∈ r.written id, m.keycode ≠ .error) : Calm (history ++ [r]) id said := by
  refine ⟨?_, h.client⟩
  intro q hq
  rcases List.mem_append.1 hq with hq | hq
  · exact h.server q hq
  · obtain rfl := List.mem_singleton.1 hq
    exact hr

/-! ## Steps of others -/

/-- A step that is not the session's. -/
theorem Linked.record (hl : Linked Args hub history id p) (h : Sound n hub)
    (hn : act = .accept → n < UInt64.size) (hp : hub.Permits act) (hne : act.session? ≠ some id)
    (hid : act = .accept → id ≠ hub.registry.ids.value) :
    Linked Args (hub.perform act).1 (history ++ [{ before := hub, act }]) id p := by
  have hgone : hub.machine? id = none → (hub.perform act).1.machine? id = none := by
    intro hm
    cases hm' : (hub.perform act).1.machine? id with
    | none => rfl
    | some m =>
      obtain ⟨hact, hnew⟩ := Hub.accept_of_machine? h hm hm'
      exact absurd hnew (hid hact)
  cases hl with
  | dying hm hend hdown hd hlong => exact .dying (hgone hm) hend hdown hd hlong
  | ended hm hend hs hlong => exact .ended (hgone hm) hend hs hlong
  | @live sm ups downs target ha =>
    have hu := Hub.unmoved_perform h hn hp ha.machine hne
    have hfit := h.running id sm ha.machine
    refine .live ⟨hu.machine.trans ha.machine, ha.goesOn, ha.up, ha.down, ha.joint,
      ha.calm.record ?_, ?_, ?_⟩
    · simp [Record.written, hne]
    · intro hs
      have hstep := (ha.told hs).step h hn hp ⟨sm, ha.machine, hs⟩ fun hleaves => hne hleaves.1
      rwa [Record.told_of_ne hne] at hstep
    · intro hs
      have hsub : hub.registry.isSubscribed id = false := by
        rw [← Bool.not_eq_true, hfit.subscribed]
        exact hs
      rw [hu.queued, ha.queue hs, Hub.news, hsub]
      rfl

/-! ## Steps of the session -/

/-- A session waits for an action after a plain reply if it did before or has been shown the right
response. -/
theorem ServerMachine.Outcome.awaits {m : ServerMachine} {home : Home} {fresh : Bytes}
    {message reply : Message} {step : ServerStep} (ho : ServerMachine.Outcome m home fresh message step)
    (hr : step.reply = some reply) (hplain : reply.Plain) :
    step.machine.state = .serverAwaitsAction ↔
      m.state = .serverAwaitsAction ∨ m.state = .serverAwaitsResponse := by
  cases ho with
  | farewell =>
    obtain rfl := Option.some.inj hr
    exact absurd rfl hplain.noFarewell
  | refused v =>
    obtain rfl := Option.some.inj hr
    exact absurd (Violation.reply_keycode v) hplain.noError
  | greeted hs => simp [hs]
  | challenged hs => simp [hs]
  | admitted hs => simp [hs]
  | accepted hs => simp [hs]
  | denied hs => simp [hs]

namespace Hub

theorem perform_receive (hm : hub.machine? id = some sm) (fresh : Bytes) (arrival : Arrival) :
    hub.perform (.receive id none fresh arrival) = hub.commit id (sm.receive hub.home fresh arrival) := by
  simp only [perform, receive, hm, Turn.within]

theorem perform_flush (hm : hub.machine? id = some sm) :
    hub.perform (.flush id none) = { hub with registry := (hub.registry.drain id).2 }.commit id
      (sm.flush hub.home (hub.registry.queued id)) := by
  simp only [perform, flush, hm]
  rfl

/-- An answer queues nothing for the session that gives it. -/
theorem queued_receive (hm : hub.machine? id = some sm) (hset : sm.Settled) {fresh : Bytes}
    {arrival : Arrival} (hq : hub.registry.queued id = []) :
    (hub.perform (.receive id none fresh arrival)).1.registry.queued id = [] := by
  have hid := session_of_machine? hm
  have hstep : SessionStep hub (.receive id none fresh arrival) id sm _ := session_step hm hset rfl
  generalize hout : hub.perform (.receive id none fresh arrival) = out at hstep
  cases hstep with
  | rest => exact hq
  | answer hacc ht =>
    rw [registry_commit]
    split
    · rw [← hid, ht.asks.queued_self, hid, hq]
    · simp
  | flush hact => cases hact

end Hub

/-- A session that waits for an action does not leave. -/
theorem not_leaves {sm' : ServerMachine} (hm : (hub.perform act).1.machine? id = some sm')
    (hs : sm'.state = .serverAwaitsAction) : ¬ ({ before := hub, act } : Record).Leaves id := by
  rintro ⟨-, hidle⟩
  have hi := hidle sm' hm
  rw [hs] at hi
  cases hi

/-- Queued updates are plain messages. -/
theorem exists_news {queue : List Message} (h : ∀ u ∈ queue, Hub.IsNews u) :
    ∃ news : List Action, queue = news.map .update ∧ ∀ a ∈ news, (Message.update a).Plain := by
  induction queue with
  | nil => exact ⟨[], rfl, by simp⟩
  | cons u queue ih =>
    obtain ⟨news, rfl, hplain⟩ := ih fun v hv => h v (List.mem_cons_of_mem _ hv)
    obtain ⟨a, home, home', rfl, hok⟩ := h u List.mem_cons_self
    have hlen := Home.length_params_le hok
    refine ⟨a :: news, rfl, ?_⟩
    rw [List.forall_mem_cons]
    refine ⟨Stage.plain_of (b := 8) rfl (by simp [Message.update]) (by simp [Message.update]) ?_, hplain⟩
    simp only [Message.update, Action.target, List.length_cons]
    omega

/-- What a session reports is what its queue holds. -/
theorem replay_told (home : Home) (news : List Action) :
    home.replay ((none : Option Action).toList ++
      ((news.map Message.update).filter fun m => m.keycode = .update).filterMap Message.reported) =
        home.replay news := by
  have hall : ((news.map Message.update).filter fun m => m.keycode = .update) =
      news.map Message.update := by
    refine List.filter_eq_self.2 ?_
    intro u hu
    obtain ⟨a, -, rfl⟩ := List.mem_map.1 hu
    rfl
  rw [hall, Option.toList_none, List.nil_append]
  clear hall
  induction news generalizing home with
  | nil => rfl
  | cons a news ih =>
    rw [List.map_cons, List.filterMap_cons_some (Message.reported_update a), Home.replay_cons,
      Home.replay_cons, Home.applyOrKeep_sequence, ih]

namespace Alive

/-- The session takes a step, says some plain messages and goes on. -/
theorem advance (ha : Alive Args hub history id p sm ups downs target) (h : Sound n hub)
    (hact : act.session? = some id) {sm' : ServerMachine} {ups' said : List Message} {target' : Home}
    {up : Pipe} (hm' : (hub.perform act).1.machine? id = some sm')
    (hlines : (hub.perform act).2.lines = said.map Line.ofMessage) (hsaid : ∀ m ∈ said, m.Plain)
    (hup : up.Carries ups') (hj : Joint Args sm' p.session ups' (downs ++ said) target')
    (hqueue : hub.registry.queued id = [] → (hub.perform act).1.registry.queued id = [])
    (hstays : sm.state = .serverAwaitsAction → sm'.state = .serverAwaitsAction ∧
      target' = target.replay (({ before := hub, act } : Record).told id))
    (hcomes : sm.state ≠ .serverAwaitsAction → sm'.state = .serverAwaitsAction →
      target' = hub.home.shown) :
    Alive Args (hub.perform act).1 (history ++ [{ before := hub, act }]) id
      { p with up, down := p.down.write (hub.perform act).2.lines } sm' ups' (downs ++ said) target' := by
  have hpermits : hub.Permits act := by
    rintro id' rfl
    cases hact
  have hn : act = .accept → n < UInt64.size := fun he => absurd he (Hub.ne_accept hact)
  have hwritten : ({ before := hub, act } : Record).written id = said := by
    rw [Record.written_of_perform hact rfl, hlines]
    exact Line.filterMap_message? fun m hm => (hsaid m hm).wire
  refine ⟨hm', ha.goesOn, hup, ?_, hj, ha.calm.record ?_, ?_, ?_⟩
  · rw [hlines]
    exact ha.down.write said
  · rw [hwritten]
    exact fun m hm => (hsaid m hm).noError
  · intro hs'
    by_cases hs : sm.state = .serverAwaitsAction
    · rw [(hstays hs).2]
      exact (ha.told hs).step h hn hpermits ⟨sm, ha.machine, hs⟩ (not_leaves hm' hs')
    · rw [hcomes hs hs']
      refine HasTold.start h hn hpermits ⟨sm', hm', hs'⟩ ?_ (ha.queue hs)
      rintro ⟨m, hm, hs₁⟩
      obtain rfl := Option.some.inj (ha.machine.symm.trans hm)
      exact hs hs₁
  · intro hs'
    by_cases hs : sm.state = .serverAwaitsAction
    · exact absurd (hstays hs).1 hs'
    · exact hqueue (ha.queue hs)

/-- The session answers the line of a message, and both remain at work. -/
theorem line {message : Message} {fresh : Bytes} {up : Pipe}
    (ha : Alive Args hub history id p sm (message :: ups) downs target) (h : Sound n hub)
    (hvalid : hub.home.Valid) (hup : up.Carries ups) (hfresh : fresh.length = challengeLength)
    (hact : act = .receive id none fresh (.frame (.line (Line.body message)))) :
    ∃ reply sm' target', reply.keycode.downWeight < message.keycode.upWeight ∧
      Alive Args (hub.perform act).1 (history ++ [{ before := hub, act }]) id
        { p with up, down := p.down.write (hub.perform act).2.lines } sm' ups (downs ++ [reply])
        target' := by
  obtain ⟨reply, hreply, hplain, hless, hj⟩ := ha.joint.answer hvalid hfresh
  obtain ⟨b, hb⟩ := ha.joint.stage.wire
  obtain ⟨b', hb'⟩ := hplain.wire
  have hid := Hub.session_of_machine? ha.machine
  have hdec : Line.decode (Line.body message) = .ok message := by
    simpa using Line.decode_body hb [] (by simp)
  have hses : act.session? = some id := by rw [hact]; rfl
  have ho := ServerMachine.process_outcome ha.joint.settled hub.home fresh message
  have hawaits := ho.awaits hreply hplain
  have hperform : hub.perform act = hub.commit id
      { machine := (sm.process hub.home fresh message).machine
        home := (sm.process hub.home fresh message).home
        lines := [Line.ofMessage reply], events := (sm.process hub.home fresh message).events } := by
    rw [hact, Hub.perform_receive ha.machine, ServerMachine.receive, ServerMachine.handleLine, hdec,
      ServerMachine.write_reply hreply hb', hplain.endAfter]
  have hlines : (hub.perform act).2.lines = [reply].map Line.ofMessage := by
    rw [hperform, Hub.lines_commit]
    rfl
  have htold : ({ before := hub, act } : Record).told id = (sm.accepts? hub.home message).toList := by
    have hupdates : ({ before := hub, act } : Record).updates id = [] := by
      obtain ⟨reply', b'', hr, -, hu⟩ := ho.reply
      obtain rfl := Option.some.inj (hreply.symm.trans hr)
      rw [Record.updates, Record.written_of_perform hses rfl, hlines, List.map_singleton,
        List.filterMap_cons_some (Line.message?_ofMessage hb'), List.filterMap_nil]
      simp [hu]
    have hown : ({ before := hub, act } : Record).own? id = sm.accepts? hub.home message := by
      rw [Record.own?, hact, Hub.accepted?_receive ha.machine hdec]
      cases sm.accepts? hub.home message <;> simp
    rw [Record.told, hown, hupdates, List.filterMap_nil, List.append_nil]
  refine ⟨reply, _, _, hless,
    ha.advance h hses ?_ hlines ?_ hup hj ?_ (fun hs => ⟨?_, ?_⟩) ?_⟩
  · rw [hperform, Hub.machine?_commit ha.machine (ho.config.1.trans hid), if_pos rfl]
  · intro m hm
    obtain rfl := List.mem_singleton.1 hm
    exact hplain
  · rw [hact]
    exact Hub.queued_receive ha.machine ha.joint.settled
  · exact hawaits.2 (Or.inl hs)
  · rw [htold, Stage.retarget, if_neg (by simp [hs])]
  · intro hs hs'
    rw [Stage.retarget, if_pos ((hawaits.1 hs').resolve_left hs)]

theorem elapsed {fresh : Bytes} {up : Pipe} (ha : Alive Args hub history id p sm ups downs target)
    (h : Sound n hub) (hup : up.Carries ups) (hact : act = .receive id none fresh .elapsed) :
    Linked Args (hub.perform act).1 (history ++ [{ before := hub, act }]) id
      { p with up, down := p.down.write (hub.perform act).2.lines } := by
  have hid := Hub.session_of_machine? ha.machine
  have hses : act.session? = some id := by rw [hact]; rfl
  have hperform : hub.perform act = hub.commit id { machine := sm, home := hub.home } := by
    rw [hact, Hub.perform_receive ha.machine, ServerMachine.receive]
  have hlines : (hub.perform act).2.lines = [].map Line.ofMessage := by
    rw [hperform, Hub.lines_commit]
    rfl
  have htold : ({ before := hub, act } : Record).told id = [] := by
    rw [Record.told, Record.updates, Record.written_of_perform hses rfl, hlines, hact]
    rfl
  refine .live (ha.advance h hses ?_ hlines (by simp) hup (by simpa using ha.joint) ?_
    (fun hs => ⟨hs, by rw [htold]; rfl⟩) fun hs hs' => absurd hs' hs)
  · rw [hperform, Hub.machine?_commit ha.machine hid, if_pos rfl]
  · rw [hact]
    exact Hub.queued_receive ha.machine ha.joint.settled

/-- A line beyond the limit ends the session, and with it the client, before long. -/
theorem tooLong {message : Message} {fresh : Bytes} {up : Pipe}
    (ha : Alive Args hub history id p sm (message :: ups) downs target)
    (hlong : ¬ Line.Fits message) (hact : act = .receive id none fresh (.frame .tooLong)) :
    Linked Args (hub.perform act).1 (history ++ [{ before := hub, act }]) id
      { p with up, down := p.down.write (hub.perform act).2.lines } := by
  obtain ⟨hover, hdying⟩ := ha.joint.dying hlong
  have hid := Hub.session_of_machine? ha.machine
  have hperform : hub.perform act = hub.commit id
      { machine := sm.reset, home := hub.home, lines := [.errorGeneral].map Line.ofMessage
        events := sm.resetEvents, ended := some .lineTooLong } := by
    rw [hact, Hub.perform_receive ha.machine, ServerMachine.receive,
      ServerMachine.write_reply (b := 2) rfl rfl]
    rfl
  refine .dying ?_ ha.goesOn ?_ hdying hover
  · rw [hperform, Hub.machine?_commit ha.machine hid, if_neg (by simp)]
  · rw [hperform, Hub.lines_commit]
    exact ha.down.write [.errorGeneral]

/-- What a flush leaves behind: the same machine, and nothing queued. -/
theorem left_by_flush (ha : Alive Args hub history id p sm ups downs target)
    (hact : act = .flush id none) {t : Turn} (ht : sm.flush hub.home (hub.registry.queued id) = t)
    (hm : t.machine = sm) (he : t.ended = none) :
    (hub.perform act).2.lines = t.lines ∧ (hub.perform act).1.machine? id = some sm ∧
      (hub.perform act).1.registry.queued id = [] := by
  have hm₁ : ({ hub with registry := (hub.registry.drain id).2 } : Hub).machine? id = some sm :=
    ha.machine
  have hperform : hub.perform act = { hub with registry := (hub.registry.drain id).2 }.commit id t := by
    rw [hact, Hub.perform_flush ha.machine, ht]
  refine ⟨?_, ?_, ?_⟩
  · rw [hperform, Hub.lines_commit]
  · rw [hperform, Hub.machine?_commit hm₁ (by rw [hm]; exact Hub.session_of_machine? ha.machine),
      if_pos he, hm]
  · rw [hact]
    exact Hub.queued_flush hub id none (by rw [ha.machine]; rfl)

/-- The session passes on what is queued to a client that is logged in, and both remain at work. -/
theorem flush_told (ha : Alive Args hub history id p sm ups downs target) (h : Sound n hub)
    (hact : act = .flush id none) (hs : sm.state = .serverAwaitsAction) :
    Linked Args (hub.perform act).1 (history ++ [{ before := hub, act }]) id
      { p with down := p.down.write (hub.perform act).2.lines } := by
  have hses : act.session? = some id := by rw [hact]; rfl
  have hfit := h.running id sm ha.machine
  obtain ⟨news, hnews, hplain⟩ := exists_news fun u hu => hfit.updates u hu
  have hall : ∀ u ∈ news.map Message.update, u.Plain := by
    intro u hu
    obtain ⟨a, ha', rfl⟩ := List.mem_map.1 hu
    exact hplain a ha'
  have hwrites : ServerMachine.writeAll (news.map Message.update) =
      ((news.map Message.update).map Line.ofMessage, none) :=
    ServerMachine.writeAll_eq fun u hu => (hall u hu).wire
  have hturn : sm.flush hub.home (hub.registry.queued id) =
      { machine := sm, home := hub.home, lines := (news.map Message.update).map Line.ofMessage } := by
    rw [ServerMachine.flush, if_pos hs, hnews, hwrites]
  obtain ⟨hlines, hmachine, hqueue⟩ := ha.left_by_flush hact hturn rfl rfl
  have htold : target.replay (({ before := hub, act } : Record).told id) = target.replay news := by
    have hwritten : ({ before := hub, act } : Record).written id = news.map Message.update := by
      rw [Record.written_of_perform hses rfl, hlines]
      exact Line.filterMap_message? fun u hu => (hall u hu).wire
    have hown : ({ before := hub, act } : Record).own? id = none := by
      rw [hact]
      rfl
    rw [Record.told, hown, Record.updates, hwritten]
    exact replay_told target news
  exact .live (ha.advance h hses hmachine hlines hall ha.up (ha.joint.flush hs hplain)
    (fun _ => hqueue) (fun _ => ⟨hs, htold.symm⟩) fun hne => absurd hs hne)

/-- To a client that is not logged in it passes on nothing, and both remain at work. -/
theorem flush_untold (ha : Alive Args hub history id p sm ups downs target) (h : Sound n hub)
    (hact : act = .flush id none) (hs : sm.state ≠ .serverAwaitsAction) :
    Linked Args (hub.perform act).1 (history ++ [{ before := hub, act }]) id
      { p with down := p.down.write (hub.perform act).2.lines } := by
  have hses : act.session? = some id := by rw [hact]; rfl
  have hturn : sm.flush hub.home (hub.registry.queued id) = { machine := sm, home := hub.home } := by
    rw [ServerMachine.flush, if_neg hs]
  obtain ⟨hlines, hmachine, hqueue⟩ := ha.left_by_flush hact hturn rfl rfl
  have hnone : (hub.perform act).2.lines = [].map Line.ofMessage := hlines
  exact .live (ha.advance h hses hmachine hnone (by simp) ha.up (by simpa using ha.joint)
    (fun _ => hqueue) (fun hs' => absurd hs' hs) fun _ hs' => absurd hs' hs)

/-- The session passes on what is queued, and both remain at work. -/
theorem flush (ha : Alive Args hub history id p sm ups downs target) (h : Sound n hub)
    (hact : act = .flush id none) :
    Linked Args (hub.perform act).1 (history ++ [{ before := hub, act }]) id
      { p with down := p.down.write (hub.perform act).2.lines } := by
  by_cases hs : sm.state = .serverAwaitsAction
  · exact ha.flush_told h hact hs
  · exact ha.flush_untold h hact hs

end Alive

namespace Linked

/-- Once the session has ended, nothing it does reaches the client. -/
theorem gone {up : Pipe} (hl : Linked Args hub history id p) (hm : hub.machine? id = none)
    (hact : act.session? = some id) :
    Linked Args (hub.perform act).1 (history ++ [{ before := hub, act }]) id
      { p with up, down := p.down.write (hub.perform act).2.lines } := by
  rw [Hub.perform_of_none hact hm, Pipe.write_nil]
  cases hl with
  | live ha =>
    rw [ha.machine] at hm
    cases hm
  | dying hm hend hdown hd hlong => exact .dying hm hend hdown hd hlong
  | ended hm hend hs hlong => exact .ended hm hend hs hlong

/-- Whatever the session reads, it stays linked to its client. -/
theorem serve {fresh : Bytes} (hl : Linked Args hub history id p) (h : Sound n hub)
    (hvalid : hub.home.Valid) (hfresh : fresh.length = challengeLength) (k : Nat)
    (hact : act = .receive id none fresh (.ofRead (p.up.read k).2)) :
    Linked Args (hub.perform act).1 (history ++ [{ before := hub, act }]) id
      { p with up := (p.up.read k).1, down := p.down.write (hub.perform act).2.lines } := by
  have hses : act.session? = some id := by rw [hact]; rfl
  cases hm : hub.machine? id with
  | none => exact hl.gone hm hses
  | some sm' =>
    cases hl with
    | dying hm' => cases hm.symm.trans hm'
    | ended hm' => cases hm.symm.trans hm'
    | @live sm ups downs target ha =>
      rcases ha.up.read k with ⟨hf, hup⟩ | ⟨m, rest, rfl, -, hf, hup⟩ | ⟨m, rest, rfl, hlen, hf⟩
      · rw [hf] at hact
        exact ha.elapsed h hup hact
      · rw [hf] at hact
        obtain ⟨reply, sm', target', -, ha'⟩ := ha.line h hvalid hup hfresh hact
        exact .live ha'
      · rw [hf] at hact
        exact ha.tooLong (Nat.not_le.2 hlen) hact

theorem flush (hl : Linked Args hub history id p) (h : Sound n hub) (hact : act = .flush id none) :
    Linked Args (hub.perform act).1 (history ++ [{ before := hub, act }]) id
      { p with down := p.down.write (hub.perform act).2.lines } := by
  cases hm : hub.machine? id with
  | none =>
    have hses : act.session? = some id := by rw [hact]; rfl
    exact hl.gone hm hses
  | some sm' =>
    cases hl with
    | dying hm' => cases hm.symm.trans hm'
    | ended hm' => cases hm.symm.trans hm'
    | live ha => exact ha.flush h hact

end Linked

/-! ## Steps of the client -/

/-- What a client says joins what is in flight to the server. -/
theorem Alive.say (ha : Alive Args hub history id p sm ups downs target) {t : ClientTurn}
    {said downs' : List Message} {down : Pipe} (ht : Says t said) (hdown : down.Carries downs')
    (hj : Joint Args sm t.session (ups ++ said) downs' target) :
    Alive Args hub history id ({ p with down }.commit t) sm (ups ++ said) downs' target := by
  refine ⟨ha.machine, ht.goesOn, ?_, hdown, hj, ⟨ha.calm.server, ?_⟩, ha.told, ha.queue⟩
  · show (p.up.write t.lines).Carries (ups ++ said)
    rw [ht.lines]
    exact ha.up.write said
  · show ∀ m ∈ (p.said ++ t.lines).filterMap Line.message?, m.keycode ≠ .error
    rw [List.filterMap_append, ht.lines, Line.filterMap_message? ht.wire]
    intro m hm
    rcases List.mem_append.1 hm with hm | hm
    · exact ha.calm.client m hm
    · exact ht.noError m hm

namespace Linked

/-- Whatever the client reads, it stays linked to its session. -/
theorem hear (hl : Linked Args hub history id p) (hend : p.ended = none) (k : Nat) :
    Linked Args hub history id ({ p with down := (p.down.read k).1 }.commit
      (p.session.receive (.ofRead (p.down.read k).2))) := by
  cases hl with
  | ended hm hend' => exact absurd hend hend'
  | @live sm ups downs target ha =>
    rcases ha.down.read k with ⟨hf, hdown⟩ | ⟨m, rest, rfl, -, hf, hdown⟩ | ⟨m, rest, rfl, hlen, -⟩
    · rw [hf, Arrival.ofRead, ClientSession.receive]
      exact .live (ha.say (.nothing p.session) hdown (by simpa using ha.joint))
    · obtain ⟨said, hturn, -, hj⟩ := ha.joint.hear
      rw [hf, Arrival.ofRead, ClientSession.receive]
      exact .live (ha.say hturn hdown hj)
    · have hfits := (ha.joint.plain m List.mem_cons_self).fits
      exact absurd hfits (Nat.not_le.2 hlen)
  | @dying downs hm _ hdown hd hlong =>
    rcases hdown.read k with ⟨hf, hdown'⟩ | ⟨m, rest, rfl, -, hf, hdown'⟩ | ⟨m, rest, rfl, hlen, -⟩
    · rw [hf, Arrival.ofRead, ClientSession.receive]
      exact .dying hm rfl hdown' hd hlong
    · rw [hf, Arrival.ofRead, ClientSession.receive]
      obtain ⟨-, ⟨hgoes, hd'⟩ | ⟨hends, hidle⟩⟩ := hd.hear
      · exact .dying hm hgoes hdown' hd' hlong
      · exact .ended hm hends hidle hlong
    · exact absurd (hd.fits m List.mem_cons_self) (Nat.not_le.2 hlen)

theorem takePosted (hl : Linked Args hub history id p) (hend : p.ended = none) :
    Linked Args hub history id (p.commit p.session.takePosted) := by
  cases hl with
  | ended hm hend' => exact absurd hend hend'
  | live ha =>
    obtain ⟨said, hturn, hj⟩ := ha.joint.act
    exact .live (ha.say hturn ha.down hj)
  | dying hm _ hdown hd hlong =>
    rw [hd.takePosted]
    exact .dying hm rfl hdown hd hlong

theorem post (hl : Linked Args hub history id p) {params : Bytes} (hargs : Args params) (number : Nat)
    (kind : Kind) (index opcode : UInt8) :
    Linked Args hub history id
      { p with session := p.session.post number (some (.act kind index opcode params)) } := by
  cases hl with
  | live ha =>
    have hj := ha.joint.post hargs number kind index opcode
    exact .live ⟨ha.machine, ha.goesOn, ha.up, ha.down, hj, ha.calm, ha.told, ha.queue⟩
  | dying hm hend hdown hd hlong =>
    rw [hd.post]
    exact .dying hm hend hdown hd hlong
  | ended hm hend hs hlong =>
    refine .ended hm hend ?_ hlong
    rw [ClientSession.post_machine]
    exact hs

/-- As long as actions fit a line, both go on. -/
theorem alive (hl : Linked Args hub history id p) (hshort : ¬ Overlong Args) :
    ∃ sm ups downs target, Alive Args hub history id p sm ups downs target := by
  cases hl with
  | live ha => exact ⟨_, _, _, _, ha⟩
  | dying _ _ _ _ hlong => exact absurd hlong hshort
  | ended _ _ _ hlong => exact absurd hlong hshort

end Linked

end HomeControl

import HomeControl.Proofs.Protocol.Message
import HomeControl.Proofs.Server.Registry
import HomeControl.Proofs.Server.Run
import HomeControl.Proofs.Server.Session

/-!
# Steps of a server

`session_step` lists what a session's step can come to: an answer, of which `Answer` says all that
matters to the others, or passing on what is queued. With it `perform_step` lists what any step of a
server can come to, and whatever holds of all steps is proved by a case distinction over this list.
-/

namespace HomeControl

open ServerMachine (Turn)
open Hub (Act)

namespace Hub

variable {hub : Hub} {id other : SessionId} {m : ServerMachine} {t : Turn}

/-! ## Machines -/

theorem session_of_machine? (h : hub.machine? id = some m) : m.session = id := by
  simpa using List.find?_some h

theorem machine?_accept (hub : Hub) (id : SessionId) :
    hub.accept.2.machine? id = (hub.machine? id).or
      (if hub.registry.ids.value = id then
        some { session := id, version := hub.version, users := hub.users } else none) := by
  simp only [accept, Registry.register, Counter.next, machine?, List.find?_append]
  congr 1
  by_cases h : hub.registry.ids.value = id <;> simp [h]

@[simp] theorem machine?_retire (hub : Hub) (id : SessionId) : (hub.retire id).machine? id = none := by
  simp [retire, machine?]

theorem machine?_retire_of_ne (h : other ≠ id) : (hub.retire id).machine? other = hub.machine? other := by
  rw [retire, machine?, List.find?_filter, machine?]
  congr 1
  funext m
  by_cases hs : m.session = other <;> simp [hs, h]

theorem machine?_commit (h : hub.machine? id = some m) (ht : t.machine.session = id) :
    (hub.commit id t).1.machine? id = if t.ended = none then some t.machine else none := by
  cases he : t.ended with
  | some e => simp [commit, he]
  | none =>
    have hp : ((fun m : ServerMachine => m.session == id) ∘
        fun m => if m.session = id then t.machine else m) = fun m => m.session == id := by
      funext m
      by_cases hm : m.session = id <;> simp [hm, ht]
    have hid := session_of_machine? h
    simp only [commit, he, machine?, List.find?_map, hp, if_true]
    rw [← machine?, h, Option.map_some, if_pos hid]

/-- Only a session that goes on still runs after a part of its turn. -/
theorem of_machine?_commit {m' : ServerMachine} (h : hub.machine? id = some m)
    (ht : t.machine.session = id) (hm' : (hub.commit id t).1.machine? id = some m') :
    t.ended = none ∧ t.machine = m' := by
  rw [machine?_commit h ht] at hm'
  by_cases he : t.ended = none
  · rw [if_pos he] at hm'
    exact ⟨he, Option.some.inj hm'⟩
  · rw [if_neg he] at hm'
    cases hm'

theorem machine?_commit_of_ne (h : other ≠ id) (ht : t.machine.session = id) :
    (hub.commit id t).1.machine? other = hub.machine? other := by
  have hp : ((fun m : ServerMachine => m.session == other) ∘
      fun m => if m.session = id then t.machine else m) = fun m => m.session == other := by
    funext m
    by_cases hm : m.session = id <;> simp [hm, ht]
  have hmap : ({ hub with
      home := t.home
      registry := hub.registry.handleAll t.events
      machines := hub.machines.map fun m => if m.session = id then t.machine else m } : Hub).machine?
        other = hub.machine? other := by
    simp only [machine?, List.find?_map, hp]
    cases hm : hub.machines.find? fun m => m.session == other with
    | none => rfl
    | some m =>
      have hid : m.session = other := by simpa using List.find?_some hm
      rw [Option.map_some, if_neg (by rw [hid]; exact h)]
  cases he : t.ended with
  | some e => simpa only [commit, he, machine?_retire_of_ne h] using hmap
  | none => simpa only [commit, he] using hmap

/-! ## What a part of a turn does to what is shared -/

@[simp] theorem home_commit (hub : Hub) (id : SessionId) (t : Turn) : (hub.commit id t).1.home = t.home := by
  cases he : t.ended <;> simp [commit, he, retire]

@[simp] theorem lines_commit (hub : Hub) (id : SessionId) (t : Turn) :
    (hub.commit id t).2.lines = t.lines := by
  cases he : t.ended <;> simp [commit, he]

theorem registry_commit (hub : Hub) (id : SessionId) (t : Turn) :
    (hub.commit id t).1.registry =
      if t.ended = none then hub.registry.handleAll t.events
      else (hub.registry.handleAll t.events).leaveSeat id := by
  cases he : t.ended <;> simp [commit, he, retire]

theorem spoken_perform (hub : Hub) (act : Act) : Line.Spoken (hub.perform act).2.lines := by
  cases act with
  | accept => exact Line.spoken_nil
  | deregister => exact Line.spoken_nil
  | shutdown => exact Line.spoken_nil
  | receive id room fresh arrival =>
    rw [perform, Hub.receive]
    split
    · exact Line.spoken_nil
    · rw [lines_commit]
      exact ServerMachine.spoken_within (ServerMachine.spoken_receive _ _ _ _) room
  | obeyFlag id room fresh =>
    rw [perform, Hub.obeyFlag]
    split
    · exact Line.spoken_nil
    split
    · rw [lines_commit]
      exact ServerMachine.spoken_within (ServerMachine.spoken_write _ _) room
    · exact Line.spoken_nil
  | flush id room =>
    rw [perform, Hub.flush]
    split
    · exact Line.spoken_nil
    · rw [lines_commit]
      exact ServerMachine.spoken_within (ServerMachine.spoken_flush _ _ _) room

/-! ## What a session's step can come to -/

/-- What a turn asks of the fan-out, which action it has brought into the home, and how this fits the
states before and after. -/
inductive Asks (m m' : ServerMachine) : Option Action → List Event → Prop where
  /-- Nothing. -/
  | nothing (h : m'.state = .serverAwaitsAction ↔ m.state = .serverAwaitsAction) : Asks m m' none []
  /-- Updates from now on. -/
  | subscribe (h : m'.state = .serverAwaitsAction) : Asks m m' none [.subscribe m.session]
  /-- No more updates. -/
  | unsubscribe (h : m'.state ≠ .serverAwaitsAction) : Asks m m' none [.unsubscribe m.session]
  /-- An update for the others. -/
  | broadcast (a : Action) (h : m.state = .serverAwaitsAction) (h' : m'.state = .serverAwaitsAction) :
      Asks m m' (some a) [.broadcast (.update a) m.session]

namespace Asks

variable {m' : ServerMachine} {accepted : Option Action} {events : List Event} {r : Registry}

/-- The other sessions that receive updates are told of the accepted action. -/
theorem queued_of_ne (h : Asks m m' accepted events) (hne : other ≠ m.session) :
    (r.handleAll events).queued other = r.queued other ++
      if r.isSubscribed other ∧ r.isSeated other then (accepted.map Message.update).toList else [] := by
  cases h with
  | nothing => simp [Registry.handleAll]
  | subscribe => simp [Registry.handleAll, Registry.handle]
  | unsubscribe => simp [Registry.handleAll, Registry.handle]
  | broadcast a => simp [Registry.handleAll, Registry.handle, Registry.queued_broadcast, hne]

/-- The session itself is told nothing. -/
theorem queued_self (h : Asks m m' accepted events) :
    (r.handleAll events).queued m.session = r.queued m.session := by
  cases h <;> simp [Registry.handleAll, Registry.handle, Registry.queued_broadcast]

theorem isSubscribed_of_ne (h : Asks m m' accepted events) (hne : other ≠ m.session) :
    (r.handleAll events).isSubscribed other = r.isSubscribed other := by
  cases h with
  | nothing => rfl
  | subscribe => exact Registry.isSubscribed_setSubscribed_of_ne hne true
  | unsubscribe => exact Registry.isSubscribed_setSubscribed_of_ne hne false
  | broadcast => rfl

/-- The subscription goes with the state. -/
theorem isSubscribed_self (h : Asks m m' accepted events)
    (hreg : r.isRegistered m.session = true)
    (hsub : r.isSubscribed m.session = true ↔ m.state = .serverAwaitsAction) :
    (r.handleAll events).isSubscribed m.session = true ↔ m'.state = .serverAwaitsAction := by
  cases h with
  | nothing h => exact hsub.trans h.symm
  | subscribe h => simp [Registry.handleAll, Registry.handle, Registry.isSubscribed_setSubscribed, hreg, h]
  | unsubscribe h => simp [Registry.handleAll, Registry.handle, Registry.isSubscribed_setSubscribed, h]
  | broadcast a h h' =>
    rw [Registry.handleAll, List.foldl_cons, List.foldl_nil, Registry.handle,
      Registry.isSubscribed_broadcast, hsub]
    simp [h, h']

theorem isRegistered (h : Asks m m' accepted events) (id : SessionId) :
    (r.handleAll events).isRegistered id = r.isRegistered id := by
  cases h with
  | nothing => rfl
  | subscribe => exact Registry.isRegistered_setSubscribed true
  | unsubscribe => exact Registry.isRegistered_setSubscribed false
  | broadcast => rfl

theorem isSeated (h : Asks m m' accepted events) (id : SessionId) :
    (r.handleAll events).isSeated id = r.isSeated id := by
  cases h with
  | nothing => rfl
  | subscribe => rfl
  | unsubscribe => rfl
  | broadcast a => exact Registry.isSeated_broadcast r (.update a) m.session id

theorem ids (h : Asks m m' accepted events) : (r.handleAll events).ids = r.ids := by
  cases h <;> rfl

theorem flush (m : ServerMachine) (home : Home) (queue : List Message) (room : Option Nat) :
    Asks m ((m.flush home queue).within room).machine none ((m.flush home queue).within room).events := by
  simpa using Asks.nothing Iff.rfl

end Asks

/-- What is known of a turn in which a session answers. -/
structure Answer (hub : Hub) (m : ServerMachine) (accepted : Option Action) (t : Turn) : Prop where
  settled : t.machine.Settled
  session : t.machine.session = m.session
  asks : Asks m t.machine accepted t.events
  kept : accepted = none → t.home = hub.home
  applied : ∀ a, accepted = some a → hub.home.apply a = .ok t.home
  noUpdate : ∀ u ∈ t.said, u.keycode ≠ .update
  /-- Who waits for an action goes on waiting for actions or falls back to `idle`. -/
  stays : m.state = .serverAwaitsAction →
    t.machine.state = .idle ∨ t.machine.state = .serverAwaitsAction
  handsOver : ∀ snapshot, .initial snapshot ∈ t.said → snapshot = hub.home.snapshot ∧
    accepted = none ∧ m.state ≠ .serverAwaitsAction ∧ t.machine.state = .serverAwaitsAction ∧
    t.ended = none
  /-- Nobody comes to wait for actions without a snapshot. -/
  admitted : t.machine.state = .serverAwaitsAction → m.state ≠ .serverAwaitsAction →
    t.ended = none → .initial hub.home.snapshot ∈ t.said

theorem Answer.filter_said {accepted : Option Action} (h : Answer hub m accepted t) :
    t.said.filter (fun u => u.keycode = .update) = [] :=
  List.filter_eq_nil_iff.2 fun u hu => by simpa using h.noUpdate u hu

/-- What a session's step can come to. -/
inductive SessionStep (hub : Hub) (act : Act) (id : SessionId) (m : ServerMachine) :
    Hub × Output → Prop where
  /-- There is nothing to do. -/
  | rest (hacc : ({ before := hub, act } : Record).accepted? = none) : SessionStep hub act id m (hub, {})
  /-- The session answers what has arrived, or obeys its flag. -/
  | answer {accepted : Option Action} {t : Turn}
      (hacc : ({ before := hub, act } : Record).accepted? = accepted.map fun a => (id, a))
      (ht : Answer hub m accepted t)
      (hact : act.phase? = some .waiting ∨ t.machine.state = .idle) :
      SessionStep hub act id m (hub.commit id t)
  /-- The session passes on what is queued for it. -/
  | flush {room : Option Nat} (hact : act = .flush id room)
      (hacc : ({ before := hub, act } : Record).accepted? = none) :
      SessionStep hub act id m
        ({ hub with registry := (hub.registry.drain id).2 }.commit id
          ((m.flush hub.home (hub.registry.queued id)).within room))

theorem accepts?_eq_some {home : Home} {incoming : Message} {a : Action} :
    m.accepts? home incoming = some a ↔ m.state = .serverAwaitsAction ∧
      incoming.parseAction = .ok a ∧ ∃ home', home.apply a = .ok home' := by
  unfold ServerMachine.accepts?
  by_cases hs : m.state = .serverAwaitsAction
  · rw [if_pos hs]
    cases hp : incoming.parseAction with
    | error e => simp
    | ok a' =>
      constructor
      · intro ha
        cases hh : home.apply a' with
        | error e => simp [hh] at ha
        | ok home' =>
          simp only [hh] at ha
          obtain rfl := Option.some.inj ha
          exact ⟨hs, rfl, home', hh⟩
      · rintro ⟨-, ha, home', hh⟩
        obtain rfl := Except.ok.inj ha
        simp [hh]
  · rw [if_neg hs]
    simp [hs]

/-- The home accepts an action only if it can apply it. -/
theorem apply_of_accepted {r : Record} {p : SessionId × Action} (h : r.accepted? = some p) :
    ∃ home', r.before.home.apply p.2 = .ok home' := by
  unfold Record.accepted? at h
  split at h
  · split at h
    · obtain ⟨a, ha, rfl⟩ := Option.map_eq_some_iff.1 h
      exact (accepts?_eq_some.1 ha).2.2
    · cases h
  · cases h

theorem accepts?_terminate (m : ServerMachine) (home : Home) : m.accepts? home .terminate = none := by
  cases h : m.accepts? home .terminate with
  | none => rfl
  | some a =>
    have hk := Message.keycode_of_parseAction (accepts?_eq_some.1 h).2.1
    cases hk

/-- A written step is an answer if its reply fits the states before and after. -/
theorem answer_write {step : ServerStep} {reply : Message} {b : UInt8} {accepted : Option Action}
    {after : Option Message → Option SessionEnd} (room : Option Nat)
    (hr : step.reply = some reply) (hb : reply.keycode.wire? = some b)
    (hu : reply.keycode ≠ .update) (hset : step.machine.Settled)
    (hses : step.machine.session = m.session) (hasks : Asks m step.machine accepted step.events)
    (hkept : accepted = none → step.home = hub.home)
    (happlied : ∀ a, accepted = some a → hub.home.apply a = .ok step.home)
    (hstays : m.state = .serverAwaitsAction →
      step.machine.state = .idle ∨ step.machine.state = .serverAwaitsAction)
    (hinit : reply.keycode = .initial → reply = .initial hub.home.snapshot ∧ accepted = none ∧
      m.state ≠ .serverAwaitsAction ∧ step.machine.state = .serverAwaitsAction ∧
      after (some reply) = none)
    (hadm : step.machine.state = .serverAwaitsAction → m.state ≠ .serverAwaitsAction →
      reply = .initial hub.home.snapshot) :
    Answer hub m accepted ((ServerMachine.write step after).within room) := by
  have hw := ServerMachine.write_reply hr hb after
  have hsaid := ServerMachine.said_within_write hr hb after room
  refine ⟨?_, ?_, ?_, ?_, ?_, ?_, ?_, ?_, ?_⟩
  · simpa [hw] using hset
  · simpa [hw] using hses
  · simpa [hw] using hasks
  · simpa [hw] using hkept
  · simpa [hw] using happlied
  · intro u hmem
    rcases hsaid with ⟨hs, -⟩ | ⟨hs, -⟩
    · rw [hs, List.mem_singleton] at hmem
      exact hmem ▸ hu
    · simp [hs] at hmem
  · simpa [hw] using hstays
  · intro snapshot hmem
    rcases hsaid with ⟨hs, he⟩ | ⟨hs, -⟩
    · rw [hs, List.mem_singleton] at hmem
      obtain ⟨hr', hacc, hst, hst', ha⟩ := hinit (by rw [← hmem]; rfl)
      have hsnap : snapshot = hub.home.snapshot := by
        rw [hr'] at hmem
        simpa [Message.initial] using hmem
      exact ⟨hsnap, hacc, hst, by simpa [hw] using hst', by rw [he, ha]⟩
    · simp [hs] at hmem
  · intro hst' hst he
    rcases hsaid with ⟨hs, -⟩ | ⟨-, he'⟩
    · rw [hs, hadm (by simpa [hw] using hst') hst, List.mem_singleton]
    · exact absurd he he'

/-- Giving up an attempt ends the subscription that belongs to it. -/
theorem asks_reset (m : ServerMachine) : Asks m m.reset none m.resetEvents := by
  unfold ServerMachine.resetEvents
  split
  · exact .unsubscribe (by simp)
  · rename_i h
    refine .nothing ?_
    simp only [ServerMachine.isSubscribed, Bool.or_eq_true, beq_iff_eq, not_or] at h
    simp [h.1]

/-- A call that the home accepts nothing from is an answer. -/
theorem answer_of_outcome {step : ServerStep} {fresh : Bytes} {incoming : Message}
    {after : Option Message → Option SessionEnd} (hset : m.Settled)
    (ho : ServerMachine.Outcome m hub.home fresh incoming step) (hn : m.accepts? hub.home incoming = none)
    (hafter : ∀ reply, step.reply = some reply → reply.keycode = .initial → after (some reply) = none)
    (room : Option Nat) : Answer hub m none ((ServerMachine.write step after).within room) := by
  obtain ⟨reply, b, hr, hb, hu⟩ := ho.reply
  have hset' := ho.settled hset
  have hses := ho.config.1
  have hstep : ∀ a, (none : Option Action) = some a → hub.home.apply a = .ok step.home := by simp
  cases ho with
  | farewell =>
    refine answer_write room hr hb hu hset' hses (asks_reset m) (fun _ => rfl) hstep
      (fun _ => Or.inl rfl) ?_ (by simp)
    intro hk
    obtain rfl := Option.some.inj hr
    cases hk
  | greeted hs =>
    refine answer_write room hr hb hu hset' hses (.nothing (by simp [hs])) (fun _ => rfl) hstep
      (by simp [hs]) ?_ (by simp)
    intro hk
    obtain rfl := Option.some.inj hr
    cases hk
  | challenged hs =>
    refine answer_write room hr hb hu hset' hses (.nothing (by simp [hs])) (fun _ => rfl) hstep
      (by simp [hs]) ?_ (by simp)
    intro hk
    obtain rfl := Option.some.inj hr
    cases hk
  | admitted hs =>
    obtain rfl := Option.some.inj hr
    exact answer_write room hr hb hu hset' hses (.subscribe rfl) (fun _ => rfl) hstep
      (fun _ => Or.inr rfl) (fun hk => ⟨rfl, rfl, by simp [hs], rfl, hafter _ rfl hk⟩) (fun _ _ => rfl)
  | accepted hs hk ha hh =>
    have hsome := accepts?_eq_some.2 ⟨hs, ha, _, hh⟩
    rw [hn] at hsome
    cases hsome
  | denied hs =>
    refine answer_write room hr hb hu hset' hses (.nothing Iff.rfl) (fun _ => rfl) hstep
      (fun _ => Or.inr hs) ?_ (fun _ h => absurd hs h)
    intro hk
    obtain rfl := Option.some.inj hr
    cases hk
  | refused v =>
    refine answer_write room hr hb hu hset' hses (asks_reset m) (fun _ => rfl) hstep
      (fun _ => Or.inl rfl) ?_ (by simp)
    intro hk
    obtain rfl := Option.some.inj hr
    simp at hk

/-- Giving up because of a violation is an answer. -/
theorem answer_of_reject (hset : m.Settled) (v : Violation)
    (after : Option Message → Option SessionEnd) (room : Option Nat) :
    Answer hub m none ((ServerMachine.write (m.reject hub.home v) after).within room) := by
  have ho : ServerMachine.Outcome m hub.home [] .terminate (m.reject hub.home v) :=
    ServerMachine.outcome_reject m hub.home v
  refine answer_of_outcome hset ho (accepts?_terminate m hub.home) (fun reply hr hi => ?_) room
  obtain rfl := Option.some.inj hr
  simp at hi

theorem endAfter_initial {reply : Message} (h : reply.keycode = .initial) :
    ServerMachine.endAfter (some reply) = none := by
  have hne : reply ≠ .errorAuth := by
    rintro rfl
    cases h
  simp [ServerMachine.endAfter, h, hne]

/-- A call that the home accepts an action from is an answer. -/
theorem answer_of_accepted {fresh : Bytes} {incoming : Message} {a : Action}
    {after : Option Message → Option SessionEnd} (hset : m.Settled)
    (hn : m.accepts? hub.home incoming = some a) (room : Option Nat) :
    Answer hub m (some a)
      ((ServerMachine.write (m.process hub.home fresh incoming) after).within room) := by
  obtain ⟨hs, ha, home', hh⟩ := accepts?_eq_some.1 hn
  rw [ServerMachine.process_accepted hset hs (Message.keycode_of_parseAction ha) ha hh]
  refine answer_write room rfl (b := 7) rfl (by simp [Message.confirm]) hset rfl (.broadcast a hs hs)
    (by simp) ?_ (fun _ => Or.inr hs) (fun hk => by cases hk) (fun _ h => absurd hs h)
  intro a' ha'
  obtain rfl := Option.some.inj ha'
  exact hh

/-- Saying nothing is an answer, whether or not the session goes on. -/
theorem answer_quiet (hset : m.Settled) (ended : Option SessionEnd) (room : Option Nat) :
    Answer hub m none
      (({ machine := m, home := hub.home, ended } : Turn).within room) := by
  have hw : ({ machine := m, home := hub.home, ended } : Turn).within room =
      { machine := m, home := hub.home, ended } := by
    cases room <;> simp [Turn.within]
  rw [hw]
  refine ⟨hset, rfl, .nothing Iff.rfl, fun _ => rfl, by simp, by simp [Turn.said], fun h => Or.inr h,
    by simp [Turn.said], fun h h' => absurd h h'⟩

theorem accepted?_receive {room : Option Nat} {fresh line : Bytes} {incoming : Message}
    (hm : hub.machine? id = some m) (hl : Line.decode line = .ok incoming) :
    ({ before := hub, act := .receive id room fresh (.frame (.line line)) } : Record).accepted? =
      (m.accepts? hub.home incoming).map fun a => (id, a) := by
  simp only [Record.accepted?, Line.message?, hl, Except.toOption, hm]

/-- A message of the peer is answered, whether or not the home accepts an action from it. -/
theorem step_line (room : Option Nat) (fresh line : Bytes) (hm : hub.machine? id = some m)
    (hset : m.Settled) :
    SessionStep hub (.receive id room fresh (.frame (.line line))) id m
      (hub.perform (.receive id room fresh (.frame (.line line)))) := by
  simp only [perform, receive, hm, ServerMachine.receive, ServerMachine.handleLine]
  cases hl : Line.decode line with
  | error e =>
    have hacc : ({ before := hub, act := .receive id room fresh (.frame (.line line)) } :
        Record).accepted? = (none : Option Action).map fun a => (id, a) := by
      simp [Record.accepted?, Line.message?, hl, Except.toOption]
    exact .answer hacc (answer_of_reject hset (.malformed e) _ room) (Or.inl rfl)
  | ok incoming =>
    cases hacc : m.accepts? hub.home incoming with
    | some a =>
      exact .answer ((accepted?_receive hm hl).trans (by rw [hacc]))
        (answer_of_accepted hset hacc room) (Or.inl rfl)
    | none =>
      exact .answer ((accepted?_receive hm hl).trans (by rw [hacc]))
        (answer_of_outcome hset (ServerMachine.process_outcome hset hub.home fresh incoming) hacc
          (fun reply _ hi => endAfter_initial hi) room) (Or.inl rfl)

/-- So is whatever else may arrive, if only by saying nothing. -/
theorem step_receive (room : Option Nat) (fresh : Bytes) (arrival : Arrival)
    (hm : hub.machine? id = some m) (hset : m.Settled) :
    SessionStep hub (.receive id room fresh arrival) id m
      (hub.perform (.receive id room fresh arrival)) := by
  cases arrival with
  | elapsed =>
    simp only [perform, receive, hm]
    have hacc : ({ before := hub, act := .receive id room fresh .elapsed } : Record).accepted? =
        (none : Option Action).map fun a => (id, a) := rfl
    exact .answer hacc (answer_quiet hset none room) (Or.inl rfl)
  | closed =>
    simp only [perform, receive, hm]
    have hacc : ({ before := hub, act := .receive id room fresh .closed } : Record).accepted? =
        (none : Option Action).map fun a => (id, a) := rfl
    exact .answer hacc (answer_quiet hset (some .connectionLost) room) (Or.inl rfl)
  | frame frame =>
    cases frame with
    | line line => exact step_line room fresh line hm hset
    | tooLong =>
      simp only [perform, receive, hm]
      have hacc : ({ before := hub, act := .receive id room fresh (.frame .tooLong) } :
          Record).accepted? = (none : Option Action).map fun a => (id, a) := rfl
      rw [ServerMachine.receive]
      exact .answer hacc
        (answer_of_reject hset (.malformed (.lineTooLong maxLineLength)) _ room) (Or.inl rfl)

/-- A session that finds its flag set answers as if it had heard TERMINATE; else there is nothing to do. -/
theorem step_obeyFlag (room : Option Nat) (fresh : Bytes) (hm : hub.machine? id = some m)
    (hset : m.Settled) :
    SessionStep hub (.obeyFlag id room fresh) id m (hub.perform (.obeyFlag id room fresh)) := by
  simp only [perform, obeyFlag, hm]
  split
  · have hacc : ({ before := hub, act := .obeyFlag id room fresh } : Record).accepted? =
        (none : Option Action).map fun a => (id, a) := rfl
    have hp : m.process hub.home fresh .terminate =
        { machine := m.reset, home := hub.home, reply := some .terminate, events := m.resetEvents } :=
      ServerMachine.process_terminate m hub.home fresh rfl
    refine .answer hacc ?_ (Or.inr (by simp [ServerMachine.obeyFlag, hp]))
    refine answer_of_outcome hset (ServerMachine.process_outcome hset hub.home fresh .terminate)
      (accepts?_terminate m hub.home) (fun reply hr hi => ?_) room
    rw [hp] at hr
    obtain rfl := Option.some.inj hr
    cases hi
  · exact .rest rfl

/-- The queue is emptied before it is passed on. -/
theorem step_flush (room : Option Nat) (hm : hub.machine? id = some m) :
    SessionStep hub (.flush id room) id m (hub.perform (.flush id room)) := by
  have hp : hub.perform (.flush id room) =
      { hub with registry := (hub.registry.drain id).2 }.commit id
        ((m.flush hub.home (hub.registry.queued id)).within room) := by
    simp only [perform, flush, hm]
    rfl
  rw [hp]
  exact .flush rfl rfl

/-- A session's step comes to one of three things. -/
theorem session_step {act : Act} (hm : hub.machine? id = some m) (hset : m.Settled)
    (ha : act.session? = some id) : SessionStep hub act id m (hub.perform act) := by
  cases act with
  | accept => cases ha
  | deregister => cases ha
  | shutdown => cases ha
  | receive id' room fresh arrival =>
    obtain rfl : id' = id := Option.some.inj ha
    exact step_receive room fresh arrival hm hset
  | obeyFlag id' room fresh =>
    obtain rfl : id' = id := Option.some.inj ha
    exact step_obeyFlag room fresh hm hset
  | flush id' room =>
    obtain rfl : id' = id := Option.some.inj ha
    exact step_flush room hm

/-- What a step of a server can come to. -/
inductive Step (hub : Hub) : Act → Hub × Output → Prop where
  /-- The session does not run. -/
  | absent {act : Act} {id : SessionId} (hs : act.session? = some id) (hm : hub.machine? id = none)
      (hacc : ({ before := hub, act } : Record).accepted? = none) : Step hub act (hub, {})
  /-- A session takes a step. -/
  | session {act : Act} {id : SessionId} {m : ServerMachine} {out : Hub × Output}
      (hs : act.session? = some id) (hm : hub.machine? id = some m)
      (hstep : SessionStep hub act id m out) : Step hub act out
  /-- A connection is accepted. -/
  | accept : Step hub .accept (hub.accept.2, {})
  /-- The registry is told that a session has ended. -/
  | deregister (id : SessionId) : Step hub (.deregister id) (hub.deregister id, {})
  /-- Every session is asked to end. -/
  | shutdown : Step hub .shutdown (hub.shutdown, {})

theorem perform_of_none {act : Act} (ha : act.session? = some id) (hm : hub.machine? id = none) :
    hub.perform act = (hub, {}) := by
  cases act with
  | accept => cases ha
  | deregister => cases ha
  | shutdown => cases ha
  | receive => simp_all [perform, receive, Act.session?]
  | obeyFlag => simp_all [perform, obeyFlag, Act.session?]
  | flush => simp_all [perform, flush, Act.session?]

theorem accepted?_of_none {act : Act} (ha : act.session? = some id) (hm : hub.machine? id = none) :
    ({ before := hub, act } : Record).accepted? = none := by
  cases act with
  | receive id' room fresh arrival =>
    obtain rfl : id' = id := by simpa [Act.session?] using ha
    unfold Record.accepted?
    split
    · rename_i hact
      cases hact
      simp [hm]
    · rfl
  | _ => rfl

/-- A step comes to one of these things if the running sessions are between two calls. -/
theorem perform_step (hset : ∀ id m, hub.machine? id = some m → m.Settled) (act : Act) :
    Step hub act (hub.perform act) := by
  have hsession : ∀ id, act.session? = some id → Step hub act (hub.perform act) := by
    intro id hs
    cases hm : hub.machine? id with
    | none =>
      rw [perform_of_none hs hm]
      exact .absent hs hm (accepted?_of_none hs hm)
    | some m => exact .session hs hm (session_step hm (hset id m hm) hs)
  cases act with
  | accept => exact .accept
  | deregister id => exact .deregister id
  | shutdown => exact .shutdown
  | receive id => exact hsession id rfl
  | obeyFlag id => exact hsession id rfl
  | flush id => exact hsession id rfl

end Hub

end HomeControl

import HomeControl.Proofs.Machine.Subscription
import HomeControl.Proofs.Server.Hub

/-!
# Rounds of a server session

A session goes through its loop until a round ends it. In each round it answers what has arrived,
looks at its flag and passes on its updates. Whatever arrives and whenever the flag is set, a line is
answered by one message, written before anything else of the round, and the session ends for one of
five reasons, each with its own last message or with none (`close_policy`).
-/

namespace HomeControl

namespace ServerMachine

/-- What a session meets in one round. -/
structure Round where
  /-- What has arrived, or that nothing has. -/
  arrival : Arrival
  /-- The shared home when the session answers. -/
  home : Home
  /-- A challenge not used before. -/
  fresh : Bytes
  /-- Whether the session finds its flag set. -/
  flagged : Bool := false
  /-- The updates it finds queued. -/
  queue : List Message := []

/-- A round together with the machine it finds. -/
structure Lap where
  /-- The machine before the round. -/
  machine : ServerMachine
  /-- The round. -/
  round : Round

namespace Lap

variable (x : Lap)

/-- The session answers what has arrived. -/
def answer : Turn :=
  x.machine.receive x.round.home x.round.fresh x.round.arrival

/-- What the session does after its answer, if that has not ended it. -/
def rest : Turn :=
  if x.round.flagged then x.answer.machine.obeyFlag x.answer.home x.round.fresh
  else x.answer.machine.flush x.answer.home x.round.queue

/-- The whole round. -/
def turn : Turn :=
  match x.answer.ended with
  | some _ => x.answer
  | none =>
    { x.rest with
      lines := x.answer.lines ++ x.rest.lines, events := x.answer.events ++ x.rest.events }

/-- The answer is this one message, and an ERROR is said only on the way back to `idle`. -/
structure Replies (reply : Message) : Prop where
  written : ∃ line, Line.encode reply = .ok line ∧ x.answer.lines = [line]
  idle : reply.keycode = .error → x.answer.machine.state = .idle

/-- How a session may end with its answer to a line. -/
inductive Closing (reply : Message) : Option SessionEnd → Prop where
  /-- TERMINATE is the last word. -/
  | terminated (h : reply.keycode = .terminate) : Closing reply (some .peerTerminated)
  /-- So is the refusal of a response. -/
  | unknown (h : reply = .errorAuth) : Closing reply (some .authenticationFailed)
  /-- After any other reply, ERRORs included, the session goes on. -/
  | goesOn (ht : reply.keycode ≠ .terminate) (ha : reply ≠ .errorAuth) : Closing reply none

/-- What a session's answer may be. -/
def Answers : Prop :=
  match x.round.arrival with
  | .frame (.line line) =>
    ∃ reply, (x.machine.handleLine x.round.home x.round.fresh line).reply = some reply ∧
      x.Replies reply ∧ Closing reply x.answer.ended
  | .frame .tooLong => x.Replies .errorGeneral ∧ x.answer.ended = some .lineTooLong
  | .elapsed => x.answer.lines = [] ∧ x.answer.ended = none
  | .closed => x.answer.lines = [] ∧ x.answer.ended = some .connectionLost

/-- The rules for a round. -/
structure Orderly : Prop where
  answers : x.Answers
  /-- Whatever a session has to say can be said. -/
  sendable : ∀ e, x.turn.ended ≠ some (.unsendable e)
  /-- Nothing is written after an answer that ends the session. -/
  ends : x.answer.ended ≠ none → x.turn.lines = x.answer.lines ∧ x.turn.ended = x.answer.ended
  /-- A session that finds its flag set says TERMINATE and ends. -/
  obeys : x.answer.ended = none → x.round.flagged = true →
    x.turn.ended = some .serverShutdown ∧
      ∃ bye, Line.encode .terminate = .ok bye ∧ x.turn.lines = x.answer.lines ++ [bye]
  /-- Otherwise it goes on, and writes all that is queued for it or nothing of it. -/
  relays : x.answer.ended = none → x.round.flagged = false →
    x.turn.ended = none ∧ x.turn.machine = x.answer.machine ∧
      ∃ updates, x.turn.lines = x.answer.lines ++ updates ∧
        if x.answer.machine.state = .serverAwaitsAction then
          x.round.queue.map Line.encode = updates.map .ok
        else updates = []

end Lap

/-- The rounds of a session, up to the one that ends it. -/
def laps (m : ServerMachine) : List Round → List Lap
  | [] => []
  | round :: rest =>
    let x : Lap := { machine := m, round }
    match x.turn.ended with
    | some _ => [x]
    | none => x :: laps x.turn.machine rest

variable {m : ServerMachine} {home : Home} {fresh : Bytes} {incoming : Message} {step : ServerStep}
  {x : Lap} {rounds : List Round}

/-! ## Answers -/

theorem Outcome.error (ho : Outcome m home fresh incoming step) {reply : Message}
    (hr : step.reply = some reply) (hk : reply.keycode = .error) : step.machine.state = .idle := by
  cases ho with
  | farewell => rfl
  | refused => rfl
  | greeted | challenged | admitted | accepted | denied =>
    obtain rfl := Option.some.inj hr
    cases hk

/-- Whatever a line says, the machine that is handed it comes to an outcome. -/
theorem handleLine_outcome (h : m.Settled) (home : Home) (fresh line : Bytes) :
    ∃ incoming, Outcome m home fresh incoming (m.handleLine home fresh line) := by
  unfold handleLine
  split
  next incoming _ => exact ⟨incoming, process_outcome h home fresh incoming⟩
  next e _ => exact ⟨.internal, outcome_reject m home _⟩

theorem closing_endAfter (reply : Message) : Lap.Closing reply (endAfter (some reply)) := by
  simp only [endAfter]
  by_cases ht : reply.keycode = .terminate
  · rw [if_pos ht]
    exact .terminated ht
  · rw [if_neg ht]
    by_cases ha : reply = .errorAuth
    · rw [if_pos ha]
      exact .unknown ha
    · rw [if_neg ha]
      exact .goesOn ht ha

/-- The answer to a line or to one that is too long. -/
theorem Lap.replies_of_outcome (ho : Outcome x.machine home fresh incoming step)
    {after : Option Message → Option SessionEnd} (hx : x.answer = write step after) :
    x.answer.machine = step.machine ∧
      ∃ reply, step.reply = some reply ∧ x.Replies reply ∧ x.answer.ended = after (some reply) := by
  obtain ⟨reply, b, hr, hb, -⟩ := ho.reply
  have hw := write_reply hr hb after
  have hm : x.answer.machine = step.machine := by rw [hx, write_machine]
  refine ⟨hm, reply, hr, ⟨⟨_, Line.encode_of_wire hb, by rw [hx, hw]⟩, ?_⟩, by rw [hx, hw]⟩
  intro hk
  rw [hm]
  exact ho.error hr hk

/-- Whatever arrives, a session answers as it should and its machine remains settled. -/
theorem Lap.answers (h : x.machine.Settled) : x.Answers ∧ x.answer.machine.Settled := by
  have hx : x.answer = x.machine.receive x.round.home x.round.fresh x.round.arrival := rfl
  unfold Lap.Answers
  cases ha : x.round.arrival with
  | elapsed =>
    rw [hx, ha]
    exact ⟨⟨rfl, rfl⟩, h⟩
  | closed =>
    rw [hx, ha]
    exact ⟨⟨rfl, rfl⟩, h⟩
  | frame frame =>
    cases frame with
    | line line =>
      rw [ha, receive] at hx
      obtain ⟨incoming, ho⟩ := handleLine_outcome h x.round.home x.round.fresh line
      obtain ⟨hm, reply, hr, hreplies, hend⟩ := Lap.replies_of_outcome ho hx
      refine ⟨⟨reply, hr, hreplies, ?_⟩, ?_⟩
      · rw [hend]
        exact closing_endAfter reply
      · rw [hm]
        exact ho.settled h
    | tooLong =>
      rw [ha, receive] at hx
      have ho : Outcome x.machine x.round.home x.round.fresh .internal
          (x.machine.reject x.round.home (.malformed (.lineTooLong maxLineLength))) :=
        outcome_reject x.machine x.round.home _
      obtain ⟨hm, reply, hr, hreplies, hend⟩ := Lap.replies_of_outcome ho hx
      obtain rfl : Message.errorGeneral = reply := Option.some.inj hr
      refine ⟨⟨hreplies, hend⟩, ?_⟩
      rw [hm]
      exact ho.settled h

/-! ## Rounds -/

/-- A session that obeys its flag says TERMINATE, resets its machine and ends. -/
theorem obeyFlag_eq (m : ServerMachine) (home : Home) (fresh : Bytes) :
    m.obeyFlag home fresh =
      { machine := m.reset, home, lines := [Line.ofMessage .terminate], events := m.resetEvents
        ended := some .serverShutdown } := by
  unfold obeyFlag
  rw [process_terminate m home fresh rfl, write_reply rfl (b := 9) rfl]

/-- A session passes on what is queued if its client is logged in. -/
theorem flush_eq {queue : List Message} (hq : ∀ u ∈ queue, ∃ b, u.keycode.wire? = some b) :
    m.flush home queue =
      { machine := m, home
        lines := if m.state = .serverAwaitsAction then queue.map Line.ofMessage else [] } := by
  unfold flush
  rw [writeAll_eq hq]
  by_cases hs : m.state = .serverAwaitsAction
  · rw [if_pos hs, if_pos hs]
  · rw [if_neg hs, if_neg hs]

theorem map_encode {queue : List Message} (hq : ∀ u ∈ queue, ∃ b, u.keycode.wire? = some b) :
    queue.map Line.encode = (queue.map Line.ofMessage).map .ok := by
  rw [List.map_map]
  refine List.map_congr_left ?_
  intro u hu
  obtain ⟨b, hb⟩ := hq u hu
  exact Line.encode_of_wire hb

/-- An answer that ends the session is the whole turn. -/
theorem Lap.turn_of_ended (he : x.answer.ended ≠ none) : x.turn = x.answer := by
  obtain ⟨e, he⟩ := Option.ne_none_iff_exists'.1 he
  simp only [turn, he]

/-- A session that has answered and finds its flag set says TERMINATE and ends. -/
theorem Lap.turn_of_flagged (he : x.answer.ended = none) (hf : x.round.flagged = true) :
    x.turn.ended = some .serverShutdown ∧
      x.turn.lines = x.answer.lines ++ [Line.ofMessage .terminate] := by
  have hr : x.rest = x.answer.machine.obeyFlag x.answer.home x.round.fresh := by
    rw [rest, if_pos hf]
  simp only [turn, he, hr, obeyFlag_eq, and_self]

/-- A session that has not been asked to end passes on its updates and goes on. -/
theorem Lap.turn_of_quiet (he : x.answer.ended = none) (hf : x.round.flagged = false)
    (hq : ∀ u ∈ x.round.queue, ∃ b, u.keycode.wire? = some b) :
    x.turn.ended = none ∧ x.turn.machine = x.answer.machine ∧
      x.turn.lines = x.answer.lines ++
        if x.answer.machine.state = .serverAwaitsAction then x.round.queue.map Line.ofMessage
        else [] := by
  have hr : x.rest = x.answer.machine.flush x.answer.home x.round.queue := by
    rw [rest, if_neg (by simp [hf])]
  simp only [turn, he, hr, flush_eq hq, and_self]

/-- A session never has to write what does not travel. -/
theorem Lap.Answers.sendable (h : x.Answers) (e : ProtocolError) :
    x.answer.ended ≠ some (.unsendable e) := by
  unfold Lap.Answers at h
  intro he
  split at h
  · obtain ⟨reply, -, -, hc⟩ := h
    rw [he] at hc
    cases hc
  · rw [h.2] at he
    cases he
  · rw [h.2] at he
    cases he
  · rw [h.2] at he
    cases he

/-- Every round keeps to the rules, and one that does not end the session leaves its machine between
two calls. -/
theorem Lap.orderly (h : x.machine.Settled) (hq : ∀ u ∈ x.round.queue, u.keycode = .update) :
    x.Orderly ∧ (x.turn.ended = none → x.turn.machine.Settled) := by
  obtain ⟨hanswers, hsettled⟩ := Lap.answers h
  have hwire : ∀ u ∈ x.round.queue, ∃ b, u.keycode.wire? = some b := by
    intro u hu
    rw [hq u hu]
    exact ⟨8, rfl⟩
  refine ⟨⟨hanswers, ?_, ?_, ?_, ?_⟩, ?_⟩
  · intro e
    by_cases he : x.answer.ended = none
    · cases hf : x.round.flagged with
      | true => simp [(Lap.turn_of_flagged he hf).1]
      | false => simp [(Lap.turn_of_quiet he hf hwire).1]
    · rw [Lap.turn_of_ended he]
      exact hanswers.sendable e
  · intro he
    rw [Lap.turn_of_ended he]
    exact ⟨rfl, rfl⟩
  · intro he hf
    obtain ⟨hend, hlines⟩ := Lap.turn_of_flagged he hf
    exact ⟨hend, _, Line.encode_of_wire (b := 9) rfl, hlines⟩
  · intro he hf
    obtain ⟨hend, hm, hlines⟩ := Lap.turn_of_quiet he hf hwire
    refine ⟨hend, hm, _, hlines, ?_⟩
    by_cases hs : x.answer.machine.state = .serverAwaitsAction
    · rw [if_pos hs, if_pos hs]
      exact map_encode hwire
    · rw [if_neg hs, if_neg hs]
  · intro hend
    cases he : x.answer.ended with
    | some e =>
      have hne : x.answer.ended ≠ none := by simp [he]
      rw [Lap.turn_of_ended hne] at hend
      exact absurd hend hne
    | none =>
      cases hf : x.round.flagged with
      | true =>
        rw [(Lap.turn_of_flagged he hf).1] at hend
        cases hend
      | false =>
        rw [(Lap.turn_of_quiet he hf hwire).2.1]
        exact hsettled

/-! ## The loop -/

theorem laps_cons_of_ended {round : Round} {e : SessionEnd}
    (he : ({ machine := m, round } : Lap).turn.ended = some e) :
    laps m (round :: rounds) = [{ machine := m, round }] := by
  simp only [laps, he]

theorem laps_cons_of_goesOn {round : Round}
    (he : ({ machine := m, round } : Lap).turn.ended = none) :
    laps m (round :: rounds) =
      { machine := m, round } :: laps ({ machine := m, round } : Lap).turn.machine rounds := by
  simp only [laps, he]

theorem head?_laps (m : ServerMachine) (rounds : List Round) :
    ∀ x ∈ (laps m rounds).head?, x.machine = m := by
  intro x hx
  cases rounds with
  | nil => cases hx
  | cons round rounds =>
    cases he : ({ machine := m, round } : Lap).turn.ended with
    | some e =>
      rw [laps_cons_of_ended he] at hx
      obtain rfl := Option.some.inj hx
      rfl
    | none =>
      rw [laps_cons_of_goesOn he] at hx
      obtain rfl := Option.some.inj hx
      rfl

/-- A loop takes its rounds in order, and all of them unless one ends the session. -/
theorem map_round_laps (m : ServerMachine) (rounds : List Round) :
    (laps m rounds).map Lap.round <+: rounds ∧
      ((∀ x ∈ laps m rounds, x.turn.ended = none) → (laps m rounds).map Lap.round = rounds) := by
  induction rounds generalizing m with
  | nil => exact ⟨List.nil_prefix, fun _ => rfl⟩
  | cons round rounds ih =>
    cases he : ({ machine := m, round } : Lap).turn.ended with
    | some e =>
      rw [laps_cons_of_ended he]
      refine ⟨⟨rounds, rfl⟩, ?_⟩
      intro h
      rw [h _ (List.mem_singleton_self _)] at he
      cases he
    | none =>
      rw [laps_cons_of_goesOn he, List.map_cons]
      obtain ⟨hbegin, hall⟩ := ih ({ machine := m, round } : Lap).turn.machine
      refine ⟨List.cons_prefix_cons.2 ⟨rfl, hbegin⟩, ?_⟩
      intro h
      rw [hall fun x hx => h x (List.mem_cons_of_mem _ hx)]

/-- What holds of every round of a loop that starts between two calls. -/
theorem orderly_laps (h : m.Settled) (hq : ∀ r ∈ rounds, ∀ u ∈ r.queue, u.keycode = .update)
    {before after : List Lap} (hx : laps m rounds = before ++ x :: after) :
    x.Orderly ∧ (x.turn.ended ≠ none → after = []) ∧ ∀ y ∈ after.head?, y.machine = x.turn.machine := by
  induction rounds generalizing m before with
  | nil => simp [laps] at hx
  | cons round rounds ih =>
    obtain ⟨horderly, hsettled⟩ :=
      Lap.orderly (x := { machine := m, round }) h (hq round List.mem_cons_self)
    have hq' : ∀ r ∈ rounds, ∀ u ∈ r.queue, u.keycode = .update :=
      fun r hr => hq r (List.mem_cons_of_mem _ hr)
    cases he : ({ machine := m, round } : Lap).turn.ended with
    | some e =>
      rw [laps_cons_of_ended he, List.singleton_eq_append_iff] at hx
      rcases hx with ⟨rfl, hx⟩ | ⟨-, hx⟩
      · obtain ⟨rfl, rfl⟩ := List.cons.inj hx
        exact ⟨horderly, fun _ => rfl, by simp⟩
      · cases hx
    | none =>
      rw [laps_cons_of_goesOn he] at hx
      cases before with
      | nil =>
        obtain ⟨rfl, rfl⟩ := List.cons.inj hx
        exact ⟨horderly, fun hne => absurd he hne, head?_laps _ _⟩
      | cons y before =>
        exact ih (hsettled he) hq' (List.cons.inj hx).2

/-- **Replies and ends.** Take any rounds of a session with a new machine: whatever arrives, whenever
the flag is set and whichever updates are queued. The session takes the rounds in order, and all of
them unless one ends it. In each it writes one reply to a line or an over-long line and then, unless
the reply ends it, TERMINATE if it finds its flag set, or else the updates queued for it if it waits
for an action. Nothing is written after a round that ends the session, and the next round finds the
machine as this one has left it. -/
theorem close_policy (session : SessionId) (version : String) (users : Users) (rounds : List Round)
    (hq : ∀ r ∈ rounds, ∀ u ∈ r.queue, u.keycode = .update) :
    let log := laps { session, version, users } rounds
    (log.map Lap.round <+: rounds ∧
      ((∀ x ∈ log, x.turn.ended = none) → log.map Lap.round = rounds)) ∧
    ∀ before x after, log = before ++ x :: after →
      x.Orderly ∧ (x.turn.ended ≠ none → after = []) ∧
        ∀ y ∈ after.head?, y.machine = x.turn.machine := by
  intro log
  refine ⟨map_round_laps _ rounds, ?_⟩
  intro before x after hx
  exact orderly_laps (settled_new session version users) hq hx

/-- Ada logs in while an update waits for her, says something that no state expects, and is then
shown out; the line that comes after that is not read. -/
theorem close_policy_ada :
    let ada : Login := { username := "ada", password := "byron" }
    let news : Message := .update ⟨0, 0, 0, 0, []⟩
    let hear (message : Message) : Round :=
      { arrival := .frame (.line (Line.body message)), home := .empty, fresh := [7] }
    let rounds : List Round :=
      [hear .ping, hear (.version "1"), { hear (.response (ada.responseBody [7])) with queue := [news] },
        { hear .ping with queue := [news] },
        { arrival := .elapsed, home := .empty, fresh := [7], flagged := true }, hear .ping]
    let log := laps { session := 1, version := "1", users := .ofPasswords [("ada", "byron")] } rounds
    (∀ r ∈ rounds, ∀ u ∈ r.queue, u.keycode = .update) ∧
      (∀ before x after, log = before ++ x :: after → x.Orderly) ∧
      (log.map fun x => x.turn.said) =
        [[.version "1"], [.challenge [7]], [.initial Home.empty.snapshot, news], [.errorGeneral],
          [.terminate]] := by
  intro ada news hear rounds log
  have hq : ∀ r ∈ rounds, ∀ u ∈ r.queue, u.keycode = .update := by decide
  obtain ⟨-, hall⟩ := close_policy 1 "1" (.ofPasswords [("ada", "byron")]) rounds hq
  have hsaid : (log.map fun x => x.turn.said) =
      [[.version "1"], [.challenge [7]], [.initial Home.empty.snapshot, news], [.errorGeneral],
        [.terminate]] := by
    decide +kernel
  exact ⟨hq, fun before x after hx => (hall before x after hx).1, hsaid⟩

/-! ## A session in its server -/

/-- What a session does about an arrival is quiet, or it is what a call comes to. -/
theorem receive_cases (h : m.Settled) (home : Home) (fresh : Bytes) (arrival : Arrival) :
    (∃ ended, m.receive home fresh arrival = { machine := m, home, ended }) ∨
      ∃ incoming step after, Outcome m home fresh incoming step ∧
        m.receive home fresh arrival = write step after := by
  unfold receive
  split
  next line =>
    obtain ⟨incoming, ho⟩ := handleLine_outcome h home fresh line
    exact Or.inr ⟨incoming, _, _, ho, rfl⟩
  next => exact Or.inr ⟨.internal, _, _, outcome_reject m home _, rfl⟩
  next => exact Or.inl ⟨none, rfl⟩
  next => exact Or.inl ⟨some .connectionLost, rfl⟩

/-- What a session asks of the registry is about itself. -/
theorem own_receive (h : m.Settled) (home : Home) (fresh : Bytes) (arrival : Arrival) :
    (m.receive home fresh arrival).machine.session = m.session ∧
      ∀ e ∈ (m.receive home fresh arrival).events, e.session = m.session := by
  rcases receive_cases h home fresh arrival with ⟨ended, hr⟩ | ⟨incoming, step, after, ho, hr⟩
  · rw [hr]
    exact ⟨rfl, by simp⟩
  · obtain ⟨reply, b, hreply, hb, -⟩ := ho.reply
    rw [hr, write_reply hreply hb]
    exact ⟨ho.config.1, ho.session_of_mem_events⟩

end ServerMachine

namespace Registry

variable {r : Registry} {id : SessionId}

/-- A session queues nothing for itself. -/
theorem queued_handleAll_self {events : List Event} (h : ∀ e ∈ events, e.session = id) :
    (r.handleAll events).queued id = r.queued id := by
  induction events generalizing r with
  | nil => rfl
  | cons e events ih =>
    have hid := h e List.mem_cons_self
    have he : (r.handle e).queued id = r.queued id := by
      cases e with
      | broadcast update origin =>
        obtain rfl : origin = id := hid
        simp [handle, queued_broadcast]
      | subscribe id' => exact queued_setSubscribed r id' id true
      | unsubscribe id' => exact queued_setSubscribed r id' id false
    exact (ih fun e' he' => h e' (List.mem_cons_of_mem _ he')).trans he

end Registry

namespace Hub

open ServerMachine (Turn Lap)

variable {hub : Hub} {id : SessionId} {m : ServerMachine}

/-- The round that a session of a server is about to take. -/
def lap (hub : Hub) (m : ServerMachine) (fresh : Bytes) (arrival : Arrival) : Lap where
  machine := m
  round :=
    { arrival, home := hub.home, fresh
      flagged := hub.registry.isFlagged m.session, queue := hub.registry.queued m.session }

theorem output_commit (hub : Hub) (id : SessionId) (t : Turn) :
    (hub.commit id t).2 = { lines := t.lines, ended := t.ended } := by
  cases he : t.ended <;> simp [commit, he]

theorem andThen_of_ended {first : Hub × Output} {e : SessionEnd} (he : first.2.ended = some e)
    (next : Hub → Hub × Output) : andThen first next = first := by
  simp only [andThen, he]

theorem andThen_of_goesOn {first : Hub × Output} (he : first.2.ended = none)
    (next : Hub → Hub × Output) :
    andThen first next =
      ((next first.1).1,
        { lines := first.2.lines ++ (next first.1).2.lines, ended := (next first.1).2.ended }) := by
  simp only [andThen, he]

/-- A part that follows two others follows the second of them. -/
theorem andThen_assoc (first : Hub × Output) (second third : Hub → Hub × Output) :
    andThen (andThen first second) third = andThen first fun hub => andThen (second hub) third := by
  cases he : first.2.ended with
  | some e => rw [andThen_of_ended he, andThen_of_ended he, andThen_of_ended he]
  | none =>
    rw [andThen_of_goesOn he, andThen_of_goesOn he]
    cases he' : (second first.1).2.ended with
    | some e =>
      rw [andThen_of_ended he', andThen_of_ended rfl, he']
    | none =>
      rw [andThen_of_goesOn he', andThen_of_goesOn rfl, List.append_assoc]

/-- What is left of a part of a session's turn: a session that has ended is removed. -/
def tidy (id : SessionId) (out : Hub × Output) : Hub :=
  match out.2.ended with
  | some _ => out.1.deregister id
  | none => out.1

theorem machine?_tidy (id : SessionId) (out : Hub × Output) :
    (tidy id out).machine? id = out.1.machine? id := by
  unfold tidy
  split
  · rfl
  · rfl

/-- A turn is a read, a look at the flag and a flush, as far as it comes, and then the session is tidied
away if it has ended. -/
theorem turn_eq (hub : Hub) (id : SessionId) (fresh : Bytes) (arrival : Arrival) {out : Hub × Output}
    (h : andThen (hub.receive id none fresh arrival)
      (fun hub => andThen (hub.obeyFlag id none fresh) fun hub => hub.flush id none) = out) :
    hub.turn id fresh arrival = (tidy id out, out.2) := by
  unfold turn tidy
  rw [andThen_assoc, h]
  cases he : out.2.ended with
  | some e => simp only [he]
  | none => simp only [he]

/-- What a session does after its answer, if the server has not changed what the round is about. -/
theorem rest_eq_lap {x : Lap} (hm : hub.machine? id = some x.answer.machine)
    (hid : x.answer.machine.session = id) (hhome : hub.home = x.answer.home)
    (hflag : hub.registry.isFlagged id = x.round.flagged)
    (hqueue : hub.registry.queued id = x.round.queue) {out : Hub × Output}
    (h : (andThen (hub.obeyFlag id none x.round.fresh) fun hub => hub.flush id none) = out) :
    out.2 = { lines := x.rest.lines, ended := x.rest.ended } ∧
      out.1.machine? id = if x.rest.ended = none then some x.rest.machine else none := by
  cases hf : x.round.flagged with
  | true =>
    have hrest : x.rest = x.answer.machine.obeyFlag hub.home x.round.fresh := by
      rw [Lap.rest, if_pos hf, hhome]
    have hobey : hub.obeyFlag id none x.round.fresh = hub.commit id x.rest := by
      simp only [obeyFlag, hm, hflag, hf, if_true, Turn.within, hrest]
    rw [ServerMachine.obeyFlag_eq] at hrest
    have hout := output_commit hub id x.rest
    have hend : (hub.commit id x.rest).2.ended = some .serverShutdown := by rw [hout, hrest]
    rw [hobey, andThen_of_ended hend] at h
    rw [← h]
    exact ⟨hout, machine?_commit hm (by rw [hrest]; exact hid)⟩
  | false =>
    have hrest : x.rest = x.answer.machine.flush hub.home x.round.queue := by
      rw [Lap.rest, if_neg (by simp [hf]), hhome]
    have hobey : hub.obeyFlag id none x.round.fresh = (hub, {}) := by
      simp [obeyFlag, hm, hflag, hf]
    let drained : Hub := { hub with registry := (hub.registry.drain id).2 }
    have hflush : hub.flush id none = drained.commit id x.rest := by
      simp only [flush, hm, Registry.drain, Turn.within, hrest, hqueue, drained]
    have hdrained : drained.machine? id = some x.answer.machine := hm
    rw [hobey, andThen_of_goesOn rfl, hflush, output_commit, List.nil_append] at h
    rw [← h]
    exact ⟨rfl, machine?_commit hdrained (by rw [hrest, ServerMachine.flush_machine]; exact hid)⟩

/-- A session's turn is a round of its loop. -/
theorem turn_eq_lap (hm : hub.machine? id = some m) (hset : m.Settled) (fresh : Bytes)
    (arrival : Arrival) :
    (hub.turn id fresh arrival).2 =
      { lines := (hub.lap m fresh arrival).turn.lines
        ended := (hub.lap m fresh arrival).turn.ended } ∧
    (hub.turn id fresh arrival).1.machine? id =
      if (hub.lap m fresh arrival).turn.ended = none then some (hub.lap m fresh arrival).turn.machine
      else none := by
  generalize hx : hub.lap m fresh arrival = x
  have hid := session_of_machine? hm
  have hanswer : m.receive hub.home fresh arrival = x.answer := by rw [← hx]; rfl
  have hreceive : hub.receive id none fresh arrival = hub.commit id x.answer := by
    simp only [receive, hm, Turn.within, hanswer]
  obtain ⟨hsession, hown⟩ := ServerMachine.own_receive hset hub.home fresh arrival
  rw [hanswer, hid] at hsession hown
  have hm₁ := machine?_commit hm hsession
  have hout₁ := output_commit hub id x.answer
  cases he : x.answer.ended with
  | some e =>
    have hturn : x.turn = x.answer := ServerMachine.Lap.turn_of_ended (by simp [he])
    have hout := turn_eq hub id fresh arrival
      (by rw [hreceive, andThen_of_ended (by rw [hout₁, he])])
    rw [hout, machine?_tidy, hturn, hm₁, hout₁]
    exact ⟨rfl, rfl⟩
  | none =>
    have hturn : x.turn = { x.rest with
        lines := x.answer.lines ++ x.rest.lines, events := x.answer.events ++ x.rest.events } := by
      simp only [Lap.turn, he]
    have hgoes : (hub.commit id x.answer).2.ended = none := by rw [hout₁, he]
    have hout := turn_eq hub id fresh arrival (by rw [hreceive, andThen_of_goesOn hgoes])
    have hreg := registry_commit hub id x.answer
    rw [if_pos he] at hreg hm₁
    have hflag : (hub.commit id x.answer).1.registry.isFlagged id = x.round.flagged := by
      rw [hreg, Registry.isFlagged_eq_of_flags (Registry.flags_handleAll _ _), ← hx, ← hid]
      rfl
    have hqueue : (hub.commit id x.answer).1.registry.queued id = x.round.queue := by
      rw [hreg, Registry.queued_handleAll_self hown, ← hx, ← hid]
      rfl
    have hfresh : x.round.fresh = fresh := by rw [← hx]; rfl
    obtain ⟨hout₂, hm₂⟩ := rest_eq_lap hm₁ hsession (home_commit hub id x.answer) hflag hqueue rfl
    rw [hfresh] at hout₂ hm₂
    rw [hout, machine?_tidy, hturn, hout₂, hm₂, hout₁]
    exact ⟨rfl, rfl⟩

end Hub

end HomeControl

import HomeControl.Proofs.Machine.Gate
import HomeControl.Proofs.Server.Session
import Mathlib.Data.List.Chain

/-!
# Attempts and subscriptions

What a server's machine is like after each of its calls (`between_calls`): it stands in one of four
states, holds a challenge exactly while it waits for the response and keeps back no confirmation; it
has answered with a message that has a line; and it is subscribed exactly while it waits for an
action, since its subscriptions and their ends take turns. A call that ends in `idle` says so to the
peer and leaves the machine as it was when it was new, so the next attempt is like the first.
-/

namespace HomeControl

namespace Event

/-- The session that an event is about. -/
def session : Event → SessionId
  | broadcast _ origin => origin
  | subscribe session => session
  | unsubscribe session => session

/-- Whether an event starts or ends a subscription. -/
def switch? : Event → Option Bool
  | broadcast _ _ => none
  | subscribe _ => some true
  | unsubscribe _ => some false

end Event

namespace ServerMachine

/-- The starts and ends of subscriptions in a history. -/
def switches (xs : List Exchange) : List Bool :=
  xs.flatMap fun x => x.step.events.filterMap Event.switch?

/-- Starts and ends take turns, a start first. -/
def Alternate (bs : List Bool) : Prop :=
  (false :: bs).IsChain (· ≠ ·)

variable {m : ServerMachine} {home : Home} {fresh : Bytes} {incoming : Message} {out : ServerStep}
  {session : SessionId} {version : String} {users : Users} {xs : List Exchange}

/-! ## One call -/

theorem reset_eq (m : ServerMachine) :
    m.reset = { session := m.session, version := m.version, users := m.users } := rfl

theorem Exchange.outcome {x : Exchange} (h : x.machine.Settled) :
    ∃ fresh incoming, Outcome x.machine x.home fresh incoming x.step := by
  obtain ⟨m, home, fresh | v⟩ := x
  case process incoming => exact ⟨fresh, incoming, process_outcome h home fresh incoming⟩
  case reject => exact ⟨[], .internal, outcome_reject m home v⟩

theorem session_of_mem_resetEvents {e : Event} (he : e ∈ m.resetEvents) : e.session = m.session := by
  unfold resetEvents at he
  split at he
  · rw [List.mem_singleton.1 he]
    rfl
  · cases he

theorem Outcome.session_of_mem_events (ho : Outcome m home fresh incoming out) :
    ∀ e ∈ out.events, e.session = m.session := by
  cases ho with
  | farewell => exact fun e he => session_of_mem_resetEvents he
  | refused => exact fun e he => session_of_mem_resetEvents he
  | greeted => simp
  | challenged => simp
  | admitted => simp [Event.session]
  | accepted => simp [Event.session]
  | denied => simp

/-- Between two calls a machine is subscribed only while it waits for an action. -/
theorem Settled.isSubscribed_eq (h : m.Settled) :
    m.isSubscribed = decide (m.state = .serverAwaitsAction) := by
  rcases h.state with hs | hs | hs | hs <;> simp [isSubscribed, hs]

/-- A subscription starts or ends in a call that leads to or away from waiting for an action. -/
theorem Outcome.switches (h : m.Settled) (ho : Outcome m home fresh incoming out) :
    out.events.filterMap Event.switch? =
      if m.state = .serverAwaitsAction ↔ out.machine.state = .serverAwaitsAction then []
      else [decide (out.machine.state = .serverAwaitsAction)] := by
  have hreset : m.resetEvents.filterMap Event.switch? =
      if m.state = .serverAwaitsAction ↔ m.reset.state = .serverAwaitsAction then []
      else [decide (m.reset.state = .serverAwaitsAction)] := by
    by_cases hs : m.state = .serverAwaitsAction <;>
      simp [resetEvents, h.isSubscribed_eq, hs, Event.switch?]
  cases ho with
  | farewell => exact hreset
  | refused => exact hreset
  | greeted hs => simp [hs]
  | challenged hs => simp [hs]
  | admitted hs => simp [hs, Event.switch?]
  | accepted hs => simp [hs, Event.switch?]
  | denied hs => simp

/-- A call that ends in `idle` tells the peer and leaves a new machine. -/
theorem Outcome.of_idle (ho : Outcome m home fresh incoming out) (hs : out.machine.state = .idle) :
    (∃ reply, out.reply = some reply ∧ (reply.keycode = .error ∨ reply.keycode = .terminate)) ∧
      out.machine = { session := m.session, version := m.version, users := m.users } := by
  cases ho with
  | farewell => exact ⟨⟨.terminate, rfl, Or.inr rfl⟩, reset_eq m⟩
  | refused v => exact ⟨⟨v.reply, rfl, Or.inl (Violation.reply_keycode v)⟩, reset_eq m⟩
  | greeted => simp at hs
  | challenged => simp at hs
  | admitted => simp at hs
  | accepted ha => simp [ha] at hs
  | denied ha => simp [ha] at hs

/-! ## Whole runs -/

theorem Alternate.snoc {bs : List Bool} {b : Bool} (h : Alternate bs)
    (hlast : bs.getLast? = some true ↔ b = false) : Alternate (bs ++ [b]) := by
  unfold Alternate at h ⊢
  rw [← List.cons_append, List.isChain_append]
  refine ⟨h, List.isChain_singleton b, ?_⟩
  intro a ha b' hb
  obtain rfl : b = b' := by simpa using hb
  rcases List.eq_nil_or_concat' bs with rfl | ⟨bs, c, rfl⟩
  · obtain rfl : false = a := by simpa using ha
    cases b <;> simp_all
  · rw [← List.cons_append, List.getLast?_concat] at ha
    obtain rfl : c = a := by simpa using ha
    cases b <;> cases c <;> simp_all

/-- What the calls so far have made of a machine. -/
structure Followed (session : SessionId) (version : String) (users : Users) (xs : List Exchange)
    (m : ServerMachine) : Prop where
  settled : m.Settled
  config : m.session = session ∧ m.version = version ∧ m.users = users
  alternate : Alternate (switches xs)
  /-- The subscription that was started last is not over exactly while an action is waited for. -/
  last : (switches xs).getLast? = some true ↔ m.state = .serverAwaitsAction

theorem followed_new (session : SessionId) (version : String) (users : Users) :
    Followed session version users [] { session, version, users } :=
  ⟨settled_new session version users, ⟨rfl, rfl, rfl⟩, List.isChain_singleton false, by simp [switches]⟩

theorem Followed.step {x : Exchange} (h : Followed session version users xs x.machine) :
    Followed session version users (xs ++ [x]) x.step.machine := by
  obtain ⟨fresh, incoming, ho⟩ := Exchange.outcome h.settled
  have hconfig := ho.config
  rw [h.config.1, h.config.2.1, h.config.2.2] at hconfig
  have hswitches : switches (xs ++ [x]) = switches xs ++ x.step.events.filterMap Event.switch? := by
    simp [switches]
  rw [ho.switches h.settled] at hswitches
  -- A call adds a switch exactly if it changes whether an action is waited for.
  by_cases hsame : x.machine.state = .serverAwaitsAction ↔ x.step.machine.state = .serverAwaitsAction
  · rw [if_pos hsame, List.append_nil] at hswitches
    refine ⟨ho.settled h.settled, hconfig, ?_, ?_⟩ <;> rw [hswitches]
    · exact h.alternate
    · exact h.last.trans hsame
  · rw [if_neg hsame] at hswitches
    refine ⟨ho.settled h.settled, hconfig, ?_, ?_⟩ <;> rw [hswitches]
    · refine h.alternate.snoc (h.last.trans ?_)
      rw [decide_eq_false_iff_not]
      tauto
    · simp

/-- **Between calls.** Take any calls of a new machine. After each of them the machine is between two
calls; it has answered with a message that has a line; subscriptions of its session and their ends
have taken turns, and one is running exactly if the machine waits for an action. If the call ends in
`idle`, then its answer is an ERROR or TERMINATE, and the machine is as good as new. -/
theorem between_calls (session : SessionId) (version : String) (users : Users)
    (calls : List (Home × Call)) (before after : List Exchange) (x : Exchange)
    (hr : exchanges { session, version, users } calls = before ++ x :: after) :
    x.step.machine.Settled ∧
      (∃ reply line, x.step.reply = some reply ∧ Line.encode reply = .ok line) ∧
      (∀ e ∈ x.step.events, e.session = session) ∧
      Alternate (switches (before ++ [x])) ∧
      ((switches (before ++ [x])).getLast? = some true ↔
        x.step.machine.state = .serverAwaitsAction) ∧
      (x.step.machine.state = .idle →
        (∃ reply, x.step.reply = some reply ∧
          (reply.keycode = .error ∨ reply.keycode = .terminate)) ∧
        x.step.machine = { session, version, users }) := by
  have hbefore : Followed session version users before x.machine := by
    simpa using before_of_step (fun _ _ => Followed.step) (followed_new session version users) hr
  have hafter := hbefore.step
  obtain ⟨fresh, incoming, ho⟩ := Exchange.outcome hbefore.settled
  obtain ⟨hsession, hversion, husers⟩ := hbefore.config
  obtain ⟨reply, b, hreply, hb, -⟩ := ho.reply
  refine ⟨hafter.settled, ⟨reply, _, hreply, Line.encode_of_wire hb⟩, ?_, hafter.alternate, hafter.last,
    ?_⟩
  · rw [← hsession]
    exact ho.session_of_mem_events
  · intro hs
    rw [← hsession, ← hversion, ← husers]
    exact ho.of_idle hs

/-- Ada says TERMINATE as soon as she has logged in. -/
theorem between_calls_ada :
    let new : ServerMachine := { session := 1, version := "1", users := .ofPasswords [("ada", "byron")] }
    let calls := loginCalls "1" { username := "ada", password := "byron" } [7] ++
      [(Home.empty, .process [] .terminate)]
    ∃ before x, exchanges new calls = before ++ [x] ∧ x.step.machine.state = .idle ∧
      Alternate (switches (before ++ [x])) ∧ x.step.machine = new := by
  intro new calls
  obtain ⟨before, x, hr, hx⟩ : ∃ before x, exchanges new calls = before ++ [x] ∧
      x.call = .process [] .terminate := by
    simp only [calls, loginCalls, List.cons_append, List.nil_append, exchanges_cons, exchanges_nil]
    exact ⟨[_, _, _], _, rfl, rfl⟩
  have hidle : x.step.machine.state = .idle := by
    have hk : Message.terminate.keycode = .terminate := rfl
    rw [Exchange.step, hx]
    simp only [process_terminate x.machine x.home [] hk, reset_state]
  obtain ⟨-, -, -, halt, -, hnew⟩ := between_calls 1 "1" _ calls before [] x hr
  exact ⟨before, x, hr, hidle, halt, (hnew hidle).2⟩

end ServerMachine

end HomeControl

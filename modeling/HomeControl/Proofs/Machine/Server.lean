import HomeControl.Machine.Server

/-!
# Calls of the server's machine

Between two calls a machine stands in one of four states; the other four are left by the call that
enters them. `Outcome` lists what a call of such a machine can come to, and `process_outcome` says
that the list is complete. Whatever is proved of all calls is a case distinction over it.
-/

namespace HomeControl.ServerMachine

variable {m : ServerMachine} {home : Home} {fresh : Bytes} {incoming : Message}

/-- A machine between two calls. -/
structure Settled (m : ServerMachine) : Prop where
  state : m.state = .idle ∨ m.state = .serverAwaitsVersion ∨ m.state = .serverAwaitsResponse ∨
    m.state = .serverAwaitsAction
  /-- It holds a challenge exactly while it waits for the response. -/
  challenge : m.challenge.isSome ↔ m.state = .serverAwaitsResponse
  confirm : m.pendingConfirm = none

/-- What a call can come to. -/
inductive Outcome (m : ServerMachine) (home : Home) (fresh : Bytes) (incoming : Message) :
    ServerStep → Prop where
  /-- TERMINATE is answered in kind, in every state. -/
  | farewell (hk : incoming.keycode = .terminate) :
      Outcome m home fresh incoming
        { machine := m.reset, home, reply := some .terminate, events := m.resetEvents }
  /-- An empty PING is answered with the version. -/
  | greeted (hs : m.state = .idle) (hi : incoming = .ping) :
      Outcome m home fresh incoming
        { machine := { m with state := .serverAwaitsVersion }, home
          reply := some (.version m.version) }
  /-- The right version is answered with a challenge. -/
  | challenged (hs : m.state = .serverAwaitsVersion) (hk : incoming.keycode = .version)
      (ht : incoming.text? = some m.version) :
      Outcome m home fresh incoming
        { machine := { m with state := .serverAwaitsResponse, challenge := some fresh }, home
          reply := some (.challenge fresh) }
  /-- The right response is answered with the snapshot. -/
  | admitted (hs : m.state = .serverAwaitsResponse) {c : Bytes} (hc : m.challenge = some c)
      (hk : incoming.keycode = .response) (hv : m.users.verify c incoming.payload = true) :
      Outcome m home fresh incoming
        { machine := { m with state := .serverAwaitsAction, challenge := none }, home
          reply := some (.initial home.snapshot), events := [.subscribe m.session] }
  /-- An action that the home accepts is broadcast and confirmed. -/
  | accepted (hs : m.state = .serverAwaitsAction) {a : Action} {home' : Home}
      (hk : incoming.keycode = .action) (ha : incoming.parseAction = .ok a)
      (hh : home.apply a = .ok home') :
      Outcome m home fresh incoming
        { machine := m, home := home', reply := some (.confirm a.sequence true)
          events := [.broadcast (.update a) m.session] }
  /-- An action that the home refuses is denied. -/
  | denied (hs : m.state = .serverAwaitsAction) {a : Action} {e : DeviceError}
      (hk : incoming.keycode = .action) (ha : incoming.parseAction = .ok a)
      (hh : home.apply a = .error e) :
      Outcome m home fresh incoming
        { machine := m, home, reply := some (.confirm a.sequence false) }
  /-- Everything else is a violation. -/
  | refused (v : Violation) :
      Outcome m home fresh incoming
        { machine := m.reset, home, reply := some v.reply, events := m.resetEvents }

/-! ## Machines between two calls -/

@[simp] theorem reset_state (m : ServerMachine) : m.reset.state = .idle := rfl
@[simp] theorem reset_challenge (m : ServerMachine) : m.reset.challenge = none := rfl
@[simp] theorem reset_session (m : ServerMachine) : m.reset.session = m.session := rfl
@[simp] theorem reset_version (m : ServerMachine) : m.reset.version = m.version := rfl
@[simp] theorem reset_users (m : ServerMachine) : m.reset.users = m.users := rfl

theorem settled_reset (m : ServerMachine) : m.reset.Settled :=
  ⟨Or.inl rfl, by simp, rfl⟩

/-- A machine that has not been called yet. -/
theorem settled_new (session : SessionId) (version : String) (users : Users) :
    ({ session, version, users } : ServerMachine).Settled :=
  ⟨Or.inl rfl, by simp, rfl⟩

/-- A challenge is only held while the response is waited for. -/
theorem Settled.challenge_eq_none (h : m.Settled) (hs : m.state ≠ .serverAwaitsResponse) :
    m.challenge = none := by
  have hn : ¬ m.challenge.isSome := fun hc => hs (h.challenge.1 hc)
  simpa using hn

/-- Going back to `awaits action` and forgetting the confirmation changes nothing there. -/
theorem Settled.back_to_action (h : m.Settled) (hs : m.state = .serverAwaitsAction) :
    { m with state := .serverAwaitsAction, pendingConfirm := none } = m := by
  have hc := h.confirm
  cases m
  simp_all

/-! ## What a call comes to -/

/-- TERMINATE is echoed in every state, and the machine goes to rest. -/
theorem process_terminate (m : ServerMachine) (home : Home) (fresh : Bytes)
    (hk : incoming.keycode = .terminate) :
    m.process home fresh incoming =
      { machine := m.reset, home, reply := some .terminate, events := m.resetEvents } := by
  simp [process, hk]

/-- A machine at rest answers PING with its version. -/
theorem process_ping (hs : m.state = .idle) :
    m.process home fresh .ping =
      { machine := { m with state := .serverAwaitsVersion }, home
        reply := some (.version m.version) } := by
  simp [process, hs, onIdle, onClientAwaitsVersion, Message.ping, Message.internal]

/-- The version that was offered is answered with a fresh challenge. -/
theorem process_version (hs : m.state = .serverAwaitsVersion) (hk : incoming.keycode = .version)
    (ht : incoming.text? = some m.version) :
    m.process home fresh incoming =
      { machine := { m with state := .serverAwaitsResponse, challenge := some fresh }, home
        reply := some (.challenge fresh) } := by
  simp [process, hs, hk, ht, onServerAwaitsVersion, onClientAwaitsChallenge, Message.internal]

/-- A response that verifies against the challenge logs the client in; it is answered with the home, and
updates are asked for. -/
theorem process_response (hs : m.state = .serverAwaitsResponse) {c : Bytes}
    (hc : m.challenge = some c) (hk : incoming.keycode = .response)
    (hv : m.users.verify c incoming.payload = true) :
    m.process home fresh incoming =
      { machine := { m with state := .serverAwaitsAction, challenge := none }, home
        reply := some (.initial home.snapshot), events := [.subscribe m.session] } := by
  simp [process, hs, hc, hk, hv, onServerAwaitsResponse, onClientAwaitsInit, Message.internal]

/-- An action that the home takes is confirmed and told to the others. -/
theorem process_accepted (h : m.Settled) (hs : m.state = .serverAwaitsAction) {a : Action}
    {home' : Home} (hk : incoming.keycode = .action) (ha : incoming.parseAction = .ok a)
    (hh : home.apply a = .ok home') :
    m.process home fresh incoming =
      { machine := m, home := home', reply := some (.confirm a.sequence true)
        events := [.broadcast (.update a) m.session] } := by
  have hm := h.back_to_action hs
  simp_all [process, onServerAwaitsAction, onClientAwaitsConfirm, Message.internal]

/-- An action that the home refuses is denied, and nobody else hears of it. -/
theorem process_denied (h : m.Settled) (hs : m.state = .serverAwaitsAction) {a : Action}
    {e : DeviceError} (hk : incoming.keycode = .action) (ha : incoming.parseAction = .ok a)
    (hh : home.apply a = .error e) :
    m.process home fresh incoming =
      { machine := m, home, reply := some (.confirm a.sequence false) } := by
  have hm := h.back_to_action hs
  simp_all [process, onServerAwaitsAction, onClientAwaitsConfirm, Message.internal]

/-- An action that cannot be read is rejected. -/
theorem process_unreadable (hs : m.state = .serverAwaitsAction) {e : ProtocolError}
    (hk : incoming.keycode = .action) (he : incoming.parseAction = .error e) :
    m.process home fresh incoming = m.reject home (.malformed e) := by
  simp [process, hs, hk, he, onServerAwaitsAction]

theorem outcome_reject (m : ServerMachine) (home : Home) (v : Violation) :
    Outcome m home fresh incoming (m.reject home v) :=
  .refused v

/-- A message that is not expected is refused; what is held back to be forgotten does not matter. -/
theorem outcome_unexpected (m : ServerMachine) (home : Home) :
    Outcome m home fresh incoming (m.unexpected home incoming) :=
  .refused _

section States

variable {home : Home} (hk : incoming.keycode ≠ .terminate)

include hk

/-- A machine at rest is greeted, or refuses. -/
theorem outcome_idle (hs : m.state = .idle) :
    Outcome m home fresh incoming (m.process home fresh incoming) := by
  by_cases hi : incoming = .ping
  · subst hi
    rw [process_ping hs]
    exact .greeted hs rfl
  · simp only [process, hk, hs, onIdle, if_false]
    split
    · exact outcome_unexpected m home
    · split
      · exact outcome_reject m home _
      · refine absurd ?_ hi
        cases incoming
        simp_all [Message.ping]

/-- A machine that has offered its version challenges a client of that version, or refuses. -/
theorem outcome_serverAwaitsVersion (hs : m.state = .serverAwaitsVersion) :
    Outcome m home fresh incoming (m.process home fresh incoming) := by
  by_cases hv : incoming.keycode = .version ∧ incoming.text? = some m.version
  · rw [process_version hs hv.1 hv.2]
    exact .challenged hs hv.1 hv.2
  · simp only [process, hk, hs, onServerAwaitsVersion, if_false]
    split
    · exact outcome_unexpected m home
    · split
      · exact outcome_reject m home _
      · simp_all

/-- A machine that has challenged its client admits it, or refuses. -/
theorem outcome_serverAwaitsResponse (h : m.Settled) (hs : m.state = .serverAwaitsResponse) :
    Outcome m home fresh incoming (m.process home fresh incoming) := by
  obtain ⟨c, hc⟩ := Option.isSome_iff_exists.1 (h.challenge.2 hs)
  by_cases hv : incoming.keycode = .response ∧ m.users.verify c incoming.payload = true
  · rw [process_response hs hc hv.1 hv.2]
    exact .admitted hs hc hv.1 hv.2
  · simp only [process, hk, hs, hc, onServerAwaitsResponse, if_false]
    split
    · exact outcome_unexpected m home
    · split
      · simp_all
      · have ho : Outcome m home fresh incoming _ := .refused .authenticationFailed
        simpa [reject, reset, resetEvents, isSubscribed, hs] using ho

/-- A machine whose client is logged in takes an action or denies it, or refuses. -/
theorem outcome_serverAwaitsAction (h : m.Settled) (hs : m.state = .serverAwaitsAction) :
    Outcome m home fresh incoming (m.process home fresh incoming) := by
  by_cases ha : incoming.keycode = .action
  · cases hp : incoming.parseAction with
    | error e =>
      rw [process_unreadable hs ha hp]
      exact outcome_reject m home _
    | ok a =>
      cases hh : home.apply a with
      | ok home' =>
        rw [process_accepted h hs ha hp hh]
        exact .accepted hs ha hp hh
      | error e =>
        rw [process_denied h hs ha hp hh]
        exact .denied hs ha hp hh
  · simp only [process, hk, hs, onServerAwaitsAction, if_false]
    rw [if_pos ha]
    exact outcome_unexpected m home

end States

/-- Every call of a machine between two calls comes to one of the outcomes. -/
theorem process_outcome (h : m.Settled) (home : Home) (fresh : Bytes) (incoming : Message) :
    Outcome m home fresh incoming (m.process home fresh incoming) := by
  by_cases hk : incoming.keycode = .terminate
  · rw [process_terminate m home fresh hk]
    exact .farewell hk
  rcases h.state with hs | hs | hs | hs
  · exact outcome_idle hk hs
  · exact outcome_serverAwaitsVersion hk hs
  · exact outcome_serverAwaitsResponse hk h hs
  · exact outcome_serverAwaitsAction hk h hs

/-- Whatever a machine answers, it remains settled. -/
theorem Outcome.settled {step : ServerStep} (h : m.Settled) (ho : Outcome m home fresh incoming step) :
    step.machine.Settled := by
  cases ho with
  | farewell => exact settled_reset m
  | greeted hs => exact ⟨by simp, by simp [h.challenge, hs], h.confirm⟩
  | challenged => exact ⟨by simp, by simp, h.confirm⟩
  | admitted => exact ⟨by simp, by simp, h.confirm⟩
  | accepted => exact h
  | denied => exact h
  | refused => exact settled_reset m

/-- Number, version and users of a machine never change. -/
theorem Outcome.config {step : ServerStep} (ho : Outcome m home fresh incoming step) :
    step.machine.session = m.session ∧ step.machine.version = m.version ∧
      step.machine.users = m.users := by
  cases ho <;> simp

end HomeControl.ServerMachine

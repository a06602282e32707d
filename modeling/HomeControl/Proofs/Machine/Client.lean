import HomeControl.Machine.Client
import HomeControl.Proofs.Protocol.Message
import HomeControl.Proofs.Text.Utf8

/-!
# Calls of the client's machine

One equation for each message that a server which keeps to the protocol sends in a state, and all that
a call can come to, whatever it is called with (`process_outcome`).
-/

namespace HomeControl.ClientMachine

variable {m : ClientMachine}

/-- The signal to start has a machine at rest say PING. -/
theorem process_internal (hs : m.state = .idle) :
    m.process .internal = ({ m with state := .clientAwaitsVersion }, some .ping) := by
  simp [process, hs, onIdle, Message.internal]

theorem process_version (hs : m.state = .clientAwaitsVersion) :
    m.process (.version m.version) =
      ({ m with state := .clientAwaitsChallenge }, some (.version m.version)) := by
  have ht : (Message.version m.version).text? = some m.version := Utf8.decode?_encode m.version
  simp [process, hs, onClientAwaitsVersion, ht, onServerAwaitsVersion, Message.internal]
  simp [Message.version]

theorem process_challenge (hs : m.state = .clientAwaitsChallenge) (c : Bytes) :
    m.process (.challenge c) = ({ m with state := .clientAwaitsInit, pendingResponse := none },
      some (.response (m.login.responseBody c))) := by
  simp [process, hs, onClientAwaitsChallenge, Message.challenge, onServerAwaitsResponse,
    Message.internal]

/-- The snapshot of the home becomes the mirror, and the user is asked. -/
theorem process_initial (hs : m.state = .clientAwaitsInit) {snapshot : Bytes} {home : Home}
    (hh : Home.ofSnapshot snapshot = .ok home) :
    m.process (.initial snapshot) =
      ({ m with state := .serverAwaitsAction, home := some home }, some .waitUserInput) := by
  simp [process, hs, onClientAwaitsInit, Message.initial, hh, onServerAwaitsAction, Message.internal]

/-- The mirror follows an update between actions, and the user is asked anew. -/
theorem process_update_resting (hs : m.state = .serverAwaitsAction) (a : Action) :
    m.process (.update a) = (m.mirror { a with sequence := 0 }, some .waitUserInput) := by
  have hk : (Message.update a).keycode = .update := rfl
  simp [process, hs, onServerAwaitsAction, hk, applyUpdate, Message.parseUpdate_update]

/-- The user's action is sent, and its confirmation awaited. -/
theorem process_action (hs : m.state = .serverAwaitsAction) (a : Action) :
    m.process (.action a) =
      ({ m with state := .clientAwaitsConfirm, pendingAction := some a }, some (.action a)) := by
  have hk : (Message.action a).keycode = .action := rfl
  simp [process, hs, onServerAwaitsAction, hk, Message.parseAction_action]

/-- The mirror follows an update while an action waits for its confirmation. -/
theorem process_update_confirming (hs : m.state = .clientAwaitsConfirm) (a : Action) :
    m.process (.update a) = (m.mirror { a with sequence := 0 }, none) := by
  have hk : (Message.update a).keycode = .update := rfl
  simp [process, hs, onClientAwaitsConfirm, hk, applyUpdate, Message.parseUpdate_update]

/-- A confirmation settles the action: the mirror follows it if it was accepted. -/
theorem process_confirm (hs : m.state = .clientAwaitsConfirm) {a : Action}
    (ha : m.pendingAction = some a) (accepted : Bool) :
    m.process (.confirm a.sequence accepted) =
      ({ (if accepted then m.mirror a else m) with
          state := .serverAwaitsAction, pendingAction := none }, some .waitUserInput) := by
  have hk : (Message.confirm a.sequence accepted).keycode = .confirm := rfl
  cases accepted <;>
    simp [process, hs, onClientAwaitsConfirm, hk, Message.parseConfirm_confirm, ha,
      onServerAwaitsAction, Message.internal, mirror]

/-- An ERROR brings the machine to rest, in every state. -/
theorem process_error (m : ClientMachine) (text : String) :
    m.process (.error text) = (m.reset, none) := by
  simp [process, Message.error]

/-! ## All that a call can come to -/

/-- A machine between two calls. An action may also be left over from before a TERMINATE. -/
structure Settled (m : ClientMachine) : Prop where
  state : m.state ≠ .serverAwaitsVersion ∧ m.state ≠ .serverAwaitsResponse
  response : m.pendingResponse = none
  action : m.state = .clientAwaitsConfirm → m.pendingAction.isSome
  home : m.state = .serverAwaitsAction ∨ m.state = .clientAwaitsConfirm → m.home.isSome

/-- What a call of a machine between two calls can come to. -/
inductive Outcome (m : ClientMachine) (incoming : Message) : ClientMachine × Option Message → Prop where
  /-- TERMINATE is answered in kind, in every state. -/
  | farewell (hk : incoming.keycode = .terminate) :
      Outcome m incoming ({ m with state := .idle }, some .terminate)
  /-- ERROR ends the attempt, in every state. -/
  | dismissed (hk : incoming.keycode = .error) : Outcome m incoming (m.reset, none)
  /-- The session opens the conversation. -/
  | opened (hs : m.state = .idle) (hk : incoming.keycode = .internal) :
      Outcome m incoming ({ m with state := .clientAwaitsVersion }, some .ping)
  /-- The right version is answered in kind. -/
  | offered (hs : m.state = .clientAwaitsVersion) (hk : incoming.keycode = .version)
      (ht : incoming.text? = some m.version) :
      Outcome m incoming ({ m with state := .clientAwaitsChallenge }, some (.version m.version))
  /-- A challenge is answered. -/
  | answered (hs : m.state = .clientAwaitsChallenge) (hk : incoming.keycode = .challenge) :
      Outcome m incoming
        ({ m with state := .clientAwaitsInit }, some (.response (m.login.responseBody incoming.payload)))
  /-- A snapshot becomes the mirror. -/
  | admitted (hs : m.state = .clientAwaitsInit) (hk : incoming.keycode = .initial) {home : Home}
      (hh : Home.ofSnapshot incoming.payload = .ok home) :
      Outcome m incoming ({ m with state := .serverAwaitsAction, home := some home }, some .waitUserInput)
  /-- The user is asked. -/
  | asked (hs : m.state = .serverAwaitsAction) (hk : incoming.keycode = .internal) :
      Outcome m incoming (m, some .waitUserInput)
  /-- Between actions the mirror follows an update, and the user is asked anew. -/
  | followed (hs : m.state = .serverAwaitsAction) {a : Action} (ha : incoming.parseUpdate = .ok a) :
      Outcome m incoming (m.mirror a, some .waitUserInput)
  /-- Between actions an ACTION is passed on, whoever has handed it in. -/
  | sent (hs : m.state = .serverAwaitsAction) {a : Action} (ha : incoming.parseAction = .ok a) :
      Outcome m incoming
        ({ m with state := .clientAwaitsConfirm, pendingAction := some a }, some incoming)
  /-- While an action waits for its confirmation the mirror follows an update. -/
  | kept (hs : m.state = .clientAwaitsConfirm) {a : Action} (ha : incoming.parseUpdate = .ok a) :
      Outcome m incoming (m.mirror a, none)
  /-- The confirmation of the action that waits for it settles it. -/
  | confirmed (hs : m.state = .clientAwaitsConfirm) {a : Action} (hp : m.pendingAction = some a)
      {c : Message.Confirmation} (hc : incoming.parseConfirm = .ok c) (hn : c.sequence = a.sequence) :
      Outcome m incoming
        ({ (if c.accepted then m.mirror a else m) with
            state := .serverAwaitsAction, pendingAction := none }, some .waitUserInput)
  /-- Anything else ends the attempt with an ERROR. -/
  | refused (v : Violation) : Outcome m incoming (m.reset, some v.reply)

@[simp] theorem reset_state (m : ClientMachine) : m.reset.state = .idle := rfl

variable {incoming : Message}

theorem outcome_onIdle (hs : m.state = .idle) : Outcome m incoming (m.onIdle incoming) := by
  unfold onIdle
  split
  · exact .refused _
  · exact .opened hs (by simp_all)

theorem outcome_onClientAwaitsVersion (hs : m.state = .clientAwaitsVersion) :
    Outcome m incoming (m.onClientAwaitsVersion incoming) := by
  unfold onClientAwaitsVersion
  split
  · exact .refused _
  split
  · exact .refused _
  · have hk : incoming.keycode = .version := by simp_all
    have ht : incoming.text? = some m.version := by simp_all
    exact .offered hs hk ht

theorem outcome_onClientAwaitsChallenge (hs : m.state = .clientAwaitsChallenge)
    (hr : m.pendingResponse = none) : Outcome m incoming (m.onClientAwaitsChallenge incoming) := by
  unfold onClientAwaitsChallenge
  split
  · exact .refused _
  · have ho : Outcome m incoming _ := .answered hs (by simp_all)
    simpa [onServerAwaitsResponse, Message.internal, hr] using ho

theorem outcome_onClientAwaitsInit (hs : m.state = .clientAwaitsInit) :
    Outcome m incoming (m.onClientAwaitsInit incoming) := by
  unfold onClientAwaitsInit
  split
  · exact .refused _
  cases hh : Home.ofSnapshot incoming.payload with
  | error e => exact .refused _
  | ok home => exact .admitted hs (by simp_all) hh

/-- While the user is asked, a machine mirrors updates, sends actions, and rejects the rest. -/
theorem outcome_onServerAwaitsAction (hs : m.state = .serverAwaitsAction) :
    Outcome m incoming (m.onServerAwaitsAction incoming) := by
  unfold onServerAwaitsAction
  split
  · exact .asked hs ‹_›
  · unfold applyUpdate
    cases ha : incoming.parseUpdate with
    | error e => exact .refused _
    | ok a => exact .followed hs ha
  · cases ha : incoming.parseAction with
    | error e => exact .refused _
    | ok a => exact .sent hs ha
  · exact .refused _

/-- While an action is pending, a machine mirrors updates and takes the confirmation of that action. -/
theorem outcome_onClientAwaitsConfirm (hs : m.state = .clientAwaitsConfirm)
    (hp : m.pendingAction.isSome) : Outcome m incoming (m.onClientAwaitsConfirm incoming) := by
  obtain ⟨a, hp⟩ := Option.isSome_iff_exists.1 hp
  unfold onClientAwaitsConfirm
  split
  · unfold applyUpdate
    cases ha : incoming.parseUpdate with
    | error e => exact .refused _
    | ok a => exact .kept hs ha
  · cases hc : incoming.parseConfirm with
    | error e => exact .refused _
    | ok c =>
      simp only [hp]
      split
      · exact .refused _
      · have ho : Outcome m incoming _ := .confirmed hs hp hc (by simp_all)
        cases hacc : c.accepted <;>
          simpa [hacc, mirror, onServerAwaitsAction, Message.internal] using ho
  · exact .refused _

/-- Every call of a machine between two calls comes to one of the outcomes. -/
theorem process_outcome (h : m.Settled) (incoming : Message) :
    Outcome m incoming (m.process incoming) := by
  unfold process
  split
  · exact .farewell ‹_›
  split
  · exact .dismissed ‹_›
  split
  next hs => exact outcome_onIdle hs
  next hs => exact outcome_onClientAwaitsVersion hs
  next hs => exact absurd hs h.state.1
  next hs => exact outcome_onClientAwaitsChallenge hs h.response
  next hs => exact absurd hs h.state.2
  next hs => exact outcome_onClientAwaitsInit hs
  next hs => exact outcome_onServerAwaitsAction hs
  next hs => exact outcome_onClientAwaitsConfirm hs (h.action hs)

theorem settled_new (version : String) (login : Login) :
    ({ version, login } : ClientMachine).Settled :=
  ⟨by simp, rfl, by simp, by simp⟩

theorem settled_reset (m : ClientMachine) : m.reset.Settled :=
  ⟨by simp, rfl, by simp, by simp⟩

/-- A machine that stops where it is, is between two calls. -/
theorem Settled.idle (h : m.Settled) : ({ m with state := .idle } : ClientMachine).Settled :=
  ⟨by simp, h.response, by simp, by simp⟩

/-- Whatever a machine makes of a message, it remains settled. -/
theorem Outcome.settled {out : ClientMachine × Option Message} (h : m.Settled)
    (ho : Outcome m incoming out) : out.1.Settled := by
  cases ho with
  | farewell => exact h.idle
  | dismissed => exact settled_reset m
  | opened => exact ⟨by simp, h.response, by simp, by simp⟩
  | offered => exact ⟨by simp, h.response, by simp, by simp⟩
  | answered => exact ⟨by simp, h.response, by simp, by simp⟩
  | admitted => exact ⟨by simp, h.response, by simp, by simp⟩
  | asked => exact h
  | followed hs => exact ⟨h.state, h.response, h.action, by simpa [mirror] using h.home⟩
  | sent hs => exact ⟨by simp, h.response, by simp, fun _ => h.home (Or.inl hs)⟩
  | kept hs => exact ⟨h.state, h.response, h.action, by simpa [mirror] using h.home⟩
  | @confirmed hs a hp c hc hn =>
    refine ⟨by simp, ?_, by simp, ?_⟩ <;> cases c.accepted
    · exact h.response
    · exact h.response
    · exact fun _ => h.home (Or.inr hs)
    · exact fun _ => by simpa [mirror] using h.home (Or.inr hs)
  | refused => exact settled_reset m

/-- The user is asked by the calls that end where an action may be sent, and by no others. -/
theorem Outcome.asks {out : ClientMachine × Option Message} (ho : Outcome m incoming out) :
    out.1.state = .serverAwaitsAction ↔ ∃ request, out.2 = some request ∧
      request.keycode = .waitUserInput := by
  cases ho with
  | farewell => simp [Message.terminate]
  | dismissed => simp
  | opened => simp [Message.ping]
  | offered => simp [Message.version]
  | answered => simp [Message.response]
  | admitted => simp [Message.waitUserInput]
  | asked hs => simp [hs, Message.waitUserInput]
  | followed hs => simp [mirror, hs, Message.waitUserInput]
  | sent hs ha => simp [Message.keycode_of_parseAction ha]
  | kept hs => simp [mirror, hs]
  | confirmed => simp [Message.waitUserInput]
  | refused v => simp

end HomeControl.ClientMachine

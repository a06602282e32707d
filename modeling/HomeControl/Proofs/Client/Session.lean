import HomeControl.Client.Session
import HomeControl.Proofs.Machine.Client
import HomeControl.Proofs.Protocol.Line

/-!
# Turns of a client session

What a session makes of a line, and of what its user has posted.
-/

namespace HomeControl.ClientSession

variable {s : ClientSession} {message : Message} {b : UInt8}

/-- A message of the server that is neither TERMINATE nor ERROR is handed to the machine. -/
theorem onLine_message {line : Bytes} (hd : Line.message? line = some message)
    (ht : message.keycode ≠ .terminate) (he : message.keycode ≠ .error) :
    s.onLine line = s.feed message := by
  simp [onLine, Line.decode_of_message? hd, ht, he]

/-- The line of a message that ends nothing is fed to the machine. -/
theorem onLine_body (hb : message.keycode.wire? = some b) (ht : message.keycode ≠ .terminate)
    (he : message.keycode ≠ .error) : s.onLine (Line.body message) = s.feed message :=
  onLine_message (Line.message?_body hb) ht he

/-- An ERROR from the server resets the machine and ends the session. -/
theorem onLine_error (s : ClientSession) (text : String) :
    s.onLine (Line.body (.error text)) =
      ({ s with machine := s.machine.reset } : ClientSession).finish []
        (.serverError (Message.error text).lossyText) := by
  have hd : Line.decode (Line.body (.error text)) = .ok (.error text) :=
    Line.decode_of_message? (Line.message?_body (b := 2) rfl)
  have hp := ClientMachine.process_error s.machine text
  have hk : (Message.error text).keycode = .error := rfl
  simp [onLine, hd, hp, hk]

theorem dispatch_message (hb : message.keycode.wire? = some b) (he : message.keycode ≠ .error) :
    s.dispatch (some message) = { session := s, lines := [Line.ofMessage message] } := by
  have hw : message.keycode ≠ .waitUserInput := by
    intro h
    rw [h] at hb
    cases hb
  simp [dispatch, hw, Line.encode_of_wire hb, he]

/-- A machine that waits for its user has the session collect an action. -/
theorem dispatch_waitUserInput (s : ClientSession) :
    s.dispatch (some .waitUserInput) = s.collect := by
  simp [dispatch, Message.waitUserInput]

theorem dispatch_none (s : ClientSession) : s.dispatch none = { session := s } := rfl

theorem opening_make (version : String) (login : Login) :
    (make version login).opening =
      { session := { machine := { version, login, state := .clientAwaitsVersion } }
        lines := [Line.ofMessage .ping] } := by
  have hproc := ClientMachine.process_internal (m := { version, login }) rfl
  simp only [opening, feed, make, hproc]
  exact dispatch_message (b := 0) rfl (by simp [Message.ping])

/-- An ACTION is passed on. -/
theorem feed_action (hs : s.machine.state = .serverAwaitsAction) (a : Action) :
    s.feed (.action a) =
      { session :=
          { s with machine := { s.machine with state := .clientAwaitsConfirm, pendingAction := some a } }
        lines := [Line.ofMessage (.action a)] } := by
  rw [feed, ClientMachine.process_action hs]
  exact dispatch_message (b := 6) rfl (by simp [Message.action])

/-! ## What the user posts -/

/-- What is posted is noted on the open question, or nothing happens. -/
theorem post_cases (s : ClientSession) (number : Nat) (request : Option Request) :
    s.post number request = s ∨ ∃ c, s.collection = some c ∧ c.number = number ∧
      s.post number request = { s with collection := some { c with posted := some request } } := by
  unfold post
  cases hc : s.collection with
  | none => exact Or.inl rfl
  | some c =>
    by_cases hn : c.number = number
    · exact Or.inr ⟨c, rfl, hn, if_pos hn⟩
    · exact Or.inl (if_neg hn)

@[simp] theorem post_machine (s : ClientSession) (number : Nat) (request : Option Request) :
    (s.post number request).machine = s.machine := by
  rcases s.post_cases number request with hs | ⟨c, -, -, hs⟩
  · rw [hs]
  · rw [hs]

theorem takePosted_of_none (h : ∀ c, s.collection = some c → c.posted = none) :
    s.takePosted = { session := s } := by
  unfold takePosted
  cases hc : s.collection with
  | none => rfl
  | some c => simp only [h c hc]

/-- The answer to a collection is sent as an action, numbered next, and the machine awaits its
confirmation. -/
theorem takePosted_act {c : Collection} {kind : Kind} {index opcode : UInt8} {params : Bytes}
    (hc : s.collection = some c) (hp : c.posted = some (some (.act kind index opcode params)))
    (hs : s.machine.state = .serverAwaitsAction) :
    ∃ (a : Action) (sequence : Counter), a.params = params ∧
      s.takePosted =
        { session := { s.withdraw with sequence, machine := (s.machine.process (.action a)).1 }
          lines := [Line.ofMessage (.action a)], events := s.withdrawal } := by
  let a : Action :=
    { sequence := s.sequence.nextByte.1, kind := kind.code, index, opcode, params }
  refine ⟨a, s.sequence.nextByte.2, rfl, ?_⟩
  have hfeed : { s.withdraw with sequence := s.sequence.nextByte.2 }.feed (.action a) =
      { session := { s.withdraw with
          sequence := s.sequence.nextByte.2, machine := (s.machine.process (.action a)).1 }
        lines := [Line.ofMessage (.action a)] } := by
    rw [ClientMachine.process_action hs]
    exact feed_action (s := { s.withdraw with sequence := s.sequence.nextByte.2 }) hs a
  have hact : s.withdraw.act (some (.act kind index opcode params)) =
      { s.withdraw with sequence := s.sequence.nextByte.2 }.feed (.action a) := rfl
  simp only [takePosted, hc, hp, hact, hfeed, List.append_nil]

end HomeControl.ClientSession

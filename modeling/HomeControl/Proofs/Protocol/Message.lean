import HomeControl.Protocol.Message

/-!
# Payloads are read as they are written

An ACTION is read as the action it was written for, an UPDATE as that action without its number, and
a CONFIRM as what it says; and only such messages are read so. Writing and reading are inverse to each
other, each between all that can be said and the messages of one keycode with a payload of the right
shape (`layouts_exact`).
-/

namespace HomeControl.Message

theorem parseAction_action (a : Action) : (action a).parseAction = .ok a := rfl

theorem parseUpdate_update (a : Action) : (update a).parseUpdate = .ok { a with sequence := 0 } := rfl

theorem parseConfirm_confirm (sequence : UInt8) (accepted : Bool) :
    (confirm sequence accepted).parseConfirm = .ok { sequence, accepted } := by
  cases accepted <;> rfl

theorem eq_action_of_parseAction {m : Message} {a : Action} (h : m.parseAction = .ok a) :
    m = .action a := by
  obtain ⟨k, payload⟩ := m
  by_cases hk : k = .action
  · subst hk
    rcases payload with _ | ⟨sequence, _ | ⟨kind, _ | ⟨index, _ | ⟨opcode, params⟩⟩⟩⟩
    case cons.cons.cons.cons =>
      obtain rfl := Except.ok.inj h
      rfl
    all_goals cases h
  · simp [parseAction, expect, hk, bind, Except.bind] at h

/-- An ACTION is read if there are a sequence number and the three bytes that begin a target. -/
theorem exists_parseAction_iff {payload : Bytes} :
    (∃ a, ({ keycode := .action, payload } : Message).parseAction = .ok a) ↔ 4 ≤ payload.length := by
  constructor
  · rintro ⟨a, ha⟩
    have hp : payload = a.sequence :: a.target := congrArg Message.payload (eq_action_of_parseAction ha)
    simp [hp, Action.target]
  · intro h
    rcases payload with _ | ⟨sequence, _ | ⟨kind, _ | ⟨index, _ | ⟨opcode, params⟩⟩⟩⟩
    case cons.cons.cons.cons => exact ⟨{ sequence, kind, index, opcode, params }, rfl⟩
    all_goals simp at h

/-- Only an ACTION is read as an action. -/
theorem keycode_of_parseAction {m : Message} {a : Action} (h : m.parseAction = .ok a) :
    m.keycode = .action := by
  rw [eq_action_of_parseAction h]
  rfl

theorem eq_update_of_parseUpdate {m : Message} {a : Action} (h : m.parseUpdate = .ok a) :
    m = .update a ∧ a.sequence = 0 := by
  obtain ⟨k, payload⟩ := m
  by_cases hk : k = .update
  · subst hk
    rcases payload with _ | ⟨kind, _ | ⟨index, _ | ⟨opcode, params⟩⟩⟩
    case cons.cons.cons =>
      obtain rfl := Except.ok.inj h
      exact ⟨rfl, rfl⟩
    all_goals cases h
  · simp [parseUpdate, expect, hk, bind, Except.bind] at h

theorem eq_confirm_of_parseConfirm {m : Message} {c : Confirmation} (h : m.parseConfirm = .ok c) :
    m = .confirm c.sequence c.accepted := by
  obtain ⟨k, payload⟩ := m
  by_cases hk : k = .confirm
  · subst hk
    simp only [parseConfirm, expect, if_true, bind, Except.bind] at h
    split at h
    · obtain rfl := Except.ok.inj h
      simp_all [confirm]
    · obtain rfl := Except.ok.inj h
      simp_all [confirm]
    · cases h
  · simp [parseConfirm, expect, hk, bind, Except.bind] at h

theorem keycode_of_parseUpdate {m : Message} {a : Action} (h : m.parseUpdate = .ok a) :
    m.keycode = .update := by
  rw [(eq_update_of_parseUpdate h).1]
  rfl

theorem keycode_of_parseConfirm {m : Message} {c : Confirmation} (h : m.parseConfirm = .ok c) :
    m.keycode = .confirm := by
  rw [eq_confirm_of_parseConfirm h]
  rfl

/-- An UPDATE is read if there are the three bytes that begin a target. -/
theorem exists_parseUpdate_iff {payload : Bytes} :
    (∃ a, ({ keycode := .update, payload } : Message).parseUpdate = .ok a) ↔ 3 ≤ payload.length := by
  constructor
  · rintro ⟨a, ha⟩
    have hp : payload = a.target := congrArg Message.payload (eq_update_of_parseUpdate ha).1
    simp [hp, Action.target]
  · intro h
    rcases payload with _ | ⟨kind, _ | ⟨index, _ | ⟨opcode, params⟩⟩⟩
    case cons.cons.cons => exact ⟨{ sequence := 0, kind, index, opcode, params }, rfl⟩
    all_goals simp at h

/-- A CONFIRM is read if it is a number and a flag. -/
theorem exists_parseConfirm_iff {payload : Bytes} :
    (∃ c, ({ keycode := .confirm, payload } : Message).parseConfirm = .ok c) ↔
      ∃ sequence, payload = [sequence, 0] ∨ payload = [sequence, 1] := by
  constructor
  · rintro ⟨⟨sequence, accepted⟩, hc⟩
    have hp : payload = [sequence, if accepted then 1 else 0] :=
      congrArg Message.payload (eq_confirm_of_parseConfirm hc)
    cases accepted
    · exact ⟨sequence, .inl hp⟩
    · exact ⟨sequence, .inr hp⟩
  · rintro ⟨sequence, rfl | rfl⟩
    · exact ⟨_, parseConfirm_confirm sequence false⟩
    · exact ⟨_, parseConfirm_confirm sequence true⟩

/-- A reader for one keycode, from which payloads of that keycode it takes. -/
theorem exists_ok_iff {α : Type} {read : Message → Except ProtocolError α} {k : Keycode}
    {Shape : Bytes → Prop} (hk : ∀ m a, read m = .ok a → m.keycode = k)
    (hshape : ∀ payload, (∃ a, read { keycode := k, payload } = .ok a) ↔ Shape payload) {m : Message} :
    (∃ a, read m = .ok a) ↔ m.keycode = k ∧ Shape m.payload := by
  constructor
  · rintro ⟨a, ha⟩
    obtain rfl := hk m a ha
    exact ⟨rfl, (hshape m.payload).1 ⟨a, ha⟩⟩
  · rintro ⟨rfl, hm⟩
    exact (hshape m.payload).2 hm

/-- The refusal of a message that has another keycode than the expected one. -/
def misplaced (expected got : Keycode) : ProtocolError :=
  .malformedPayload ("expected " ++ expected.name ++ ", got " ++ got.name)

theorem expect_bind_of_ne {α : Type} {m : Message} {k : Keycode} (h : m.keycode ≠ k)
    (next : Unit → Except ProtocolError α) :
    (m.expect k >>= next) = .error (misplaced k m.keycode) := by
  rw [expect, if_neg h]
  rfl

theorem parseAction_of_ne {m : Message} (h : m.keycode ≠ .action) :
    m.parseAction = .error (misplaced .action m.keycode) :=
  expect_bind_of_ne h _

theorem parseUpdate_of_ne {m : Message} (h : m.keycode ≠ .update) :
    m.parseUpdate = .error (misplaced .update m.keycode) :=
  expect_bind_of_ne h _

theorem parseConfirm_of_ne {m : Message} (h : m.keycode ≠ .confirm) :
    m.parseConfirm = .error (misplaced .confirm m.keycode) :=
  expect_bind_of_ne h _

/-- **Layouts of actions and their confirmations.** What is written is read back, an UPDATE under number
zero, and the payload of an UPDATE is that of the ACTION without its first byte. Read as an action are
the ACTIONs of at least four bytes, as an update the UPDATEs of at least three, and as a confirmation
the CONFIRMs of a number and a flag; and to write what has been read gives the same message again. So
no message is read in two ways: the other two readers refuse it for its keycode. -/
theorem layouts_exact :
    (∀ a : Action, (action a).parseAction = .ok a ∧
      (update a).parseUpdate = .ok { a with sequence := 0 } ∧
      (update a).payload = (action a).payload.drop 1) ∧
    (∀ sequence accepted, (confirm sequence accepted).parseConfirm = .ok { sequence, accepted }) ∧
    ∀ m : Message,
      ((∃ a, m.parseAction = .ok a) ↔ m.keycode = .action ∧ 4 ≤ m.payload.length) ∧
      ((∃ a, m.parseUpdate = .ok a) ↔ m.keycode = .update ∧ 3 ≤ m.payload.length) ∧
      ((∃ c, m.parseConfirm = .ok c) ↔
        m.keycode = .confirm ∧ ∃ sequence, m.payload = [sequence, 0] ∨ m.payload = [sequence, 1]) ∧
      (∀ a, m.parseAction = .ok a → action a = m ∧
        m.parseUpdate = .error (misplaced .update .action) ∧
        m.parseConfirm = .error (misplaced .confirm .action)) ∧
      (∀ a, m.parseUpdate = .ok a → update a = m ∧
        m.parseAction = .error (misplaced .action .update) ∧
        m.parseConfirm = .error (misplaced .confirm .update)) ∧
      (∀ c, m.parseConfirm = .ok c → confirm c.sequence c.accepted = m ∧
        m.parseAction = .error (misplaced .action .confirm) ∧
        m.parseUpdate = .error (misplaced .update .confirm)) := by
  refine ⟨fun a => ⟨parseAction_action a, parseUpdate_update a, rfl⟩, parseConfirm_confirm, ?_⟩
  intro m
  refine ⟨?_, ?_, ?_, ?_, ?_, ?_⟩
  · exact exists_ok_iff (fun _ _ h => keycode_of_parseAction h) fun _ => exists_parseAction_iff
  · exact exists_ok_iff (fun _ _ h => keycode_of_parseUpdate h) fun _ => exists_parseUpdate_iff
  · exact exists_ok_iff (fun _ _ h => keycode_of_parseConfirm h) fun _ => exists_parseConfirm_iff
  · intro a ha
    obtain rfl := eq_action_of_parseAction ha
    exact ⟨rfl, parseUpdate_of_ne nofun, parseConfirm_of_ne nofun⟩
  · intro a ha
    obtain ⟨rfl, -⟩ := eq_update_of_parseUpdate ha
    exact ⟨rfl, parseAction_of_ne nofun, parseConfirm_of_ne nofun⟩
  · intro c hc
    obtain rfl := eq_confirm_of_parseConfirm hc
    exact ⟨rfl, parseAction_of_ne nofun, parseUpdate_of_ne nofun⟩

/-- The shortest ACTION with an argument: it is read as what it was written for, and as nothing else. -/
theorem layouts_exact_dim :
    let dim : Action := { sequence := 255, kind := 0, index := 1, opcode := 2, params := [40] }
    (action dim).parseAction = .ok dim ∧ (update dim).payload = [0, 1, 2, 40] ∧
      (action dim).parseUpdate = .error (.malformedPayload "expected UPDATE, got ACTION") := by
  intro dim
  obtain ⟨hwritten, -, hread⟩ := layouts_exact
  obtain ⟨haction, -, hpayload⟩ := hwritten dim
  obtain ⟨-, -, -, hrefused, -⟩ := hread (action dim)
  exact ⟨haction, hpayload, (hrefused dim haction).2.1⟩

end HomeControl.Message

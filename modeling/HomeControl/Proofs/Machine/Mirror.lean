import HomeControl.Proofs.Home.Replay
import HomeControl.Proofs.Machine.History

/-!
# What a client's mirror is

A machine has no mirror before it accepts an INITIAL. From then on its mirror is the home that it has
accepted last, with the actions applied since in the order in which the calls have brought them: those
of the UPDATEs that found it logged in, and its own that have been confirmed. No other call changes
the mirror, also if it ends the attempt (`mirror_of_history`).
-/

namespace HomeControl.ClientMachine

namespace Exchange

/-- The home of the INITIAL that the call accepts. -/
def admitted? (x : Exchange) : Option Home :=
  x.heard?.bind fun incoming =>
    if x.machine.state = .clientAwaitsInit ∧ incoming.keycode = .initial then
      (Home.ofSnapshot incoming.payload).toOption
    else none

/-- The action of an UPDATE that finds the machine logged in. -/
def updated? (x : Exchange) : Option Action :=
  x.heard?.bind fun incoming =>
    if x.machine.state = .serverAwaitsAction ∨ x.machine.state = .clientAwaitsConfirm then
      incoming.parseUpdate.toOption
    else none

/-- The machine's own action, if a CONFIRM with its number accepts it. -/
def confirmed? (x : Exchange) : Option Action :=
  x.heard?.bind fun incoming =>
    if x.machine.state = .clientAwaitsConfirm then
      incoming.parseConfirm.toOption.bind fun c =>
        x.machine.pendingAction.filter fun a => c.accepted && c.sequence == a.sequence
    else none

/-- The action that the call applies to the mirror. -/
def applied? (x : Exchange) : Option Action :=
  x.updated?.or x.confirmed?

end Exchange

/-- What the mirror is after a history. -/
inductive Mirrors : List Exchange → Option Home → Prop where
  /-- No INITIAL has been accepted. -/
  | none {xs : List Exchange} (h : ∀ x ∈ xs, x.admitted? = none) : Mirrors xs none
  /-- `x` has accepted the last INITIAL. -/
  | since {earlier later : List Exchange} {x : Exchange} {home : Home} (hx : x.admitted? = some home)
      (hlater : ∀ y ∈ later, y.admitted? = none) :
      Mirrors (earlier ++ x :: later) (some (home.replay (later.filterMap Exchange.applied?)))

variable {x : Exchange} {xs : List Exchange} {home : Home} {a : Action}

theorem toOption_eq_some {ε α : Type} {e : Except ε α} {a : α} : e.toOption = some a ↔ e = .ok a := by
  cases e <;> simp [Except.toOption]

/-! ## One call -/

namespace Exchange

theorem admitted?_eq_some : x.admitted? = some home ↔ ∃ snapshot, x.call = .process (.initial snapshot) ∧
    x.machine.state = .clientAwaitsInit ∧ Home.ofSnapshot snapshot = .ok home := by
  obtain ⟨m, ⟨keycode, payload⟩ | v⟩ := x
  · simp only [admitted?, heard?, Option.bind_some, Option.ite_none_right_eq_some, toOption_eq_some,
      Call.process.injEq, Message.initial, Message.mk.injEq]
    constructor
    · rintro ⟨⟨hs, rfl⟩, hh⟩
      exact ⟨payload, ⟨rfl, rfl⟩, hs, hh⟩
    · rintro ⟨_, ⟨rfl, rfl⟩, hs, hh⟩
      exact ⟨⟨hs, rfl⟩, hh⟩
  · simp [admitted?, heard?]

theorem updated?_eq_some : x.updated? = some a ↔ x.call = .process (.update a) ∧ a.sequence = 0 ∧
    (x.machine.state = .serverAwaitsAction ∨ x.machine.state = .clientAwaitsConfirm) := by
  obtain ⟨m, incoming | v⟩ := x
  · simp only [updated?, heard?, Option.bind_some, Option.ite_none_right_eq_some, toOption_eq_some,
      Call.process.injEq]
    constructor
    · rintro ⟨hs, ha⟩
      obtain ⟨rfl, hn⟩ := Message.eq_update_of_parseUpdate ha
      exact ⟨rfl, hn, hs⟩
    · rintro ⟨rfl, hn, hs⟩
      refine ⟨hs, ?_⟩
      rw [Message.parseUpdate_update, ← hn]
  · simp [updated?, heard?]

theorem confirmed?_eq_some : x.confirmed? = some a ↔ x.call = .process (.confirm a.sequence true) ∧
    x.machine.state = .clientAwaitsConfirm ∧ x.machine.pendingAction = some a := by
  obtain ⟨m, incoming | v⟩ := x
  · simp only [confirmed?, heard?, Option.bind_some, Option.ite_none_right_eq_some,
      Option.bind_eq_some_iff, toOption_eq_some, Option.filter_eq_some_iff, Call.process.injEq]
    constructor
    · rintro ⟨hs, c, hc, ha, hacc⟩
      obtain ⟨hacc, hn⟩ : c.accepted = true ∧ c.sequence = a.sequence := by simpa using hacc
      rw [Message.eq_confirm_of_parseConfirm hc, hacc, hn]
      exact ⟨rfl, hs, ha⟩
    · rintro ⟨rfl, hs, ha⟩
      exact ⟨hs, _, Message.parseConfirm_confirm a.sequence true, ha, by simp⟩
  · simp [confirmed?, heard?]

/-- An INITIAL that is accepted becomes the mirror. -/
theorem home_of_admitted (h : x.admitted? = some home) : x.step.1.home = some home := by
  obtain ⟨m, call⟩ := x
  obtain ⟨snapshot, rfl, hs, hh⟩ := admitted?_eq_some.1 h
  simp [step, process_initial hs hh]

/-- An UPDATE that finds the machine logged in changes the mirror and nothing else. -/
theorem step_of_updated (h : x.updated? = some a) : x.step.1 = x.machine.mirror a := by
  obtain ⟨m, call⟩ := x
  obtain ⟨rfl, hn, hs | hs⟩ := updated?_eq_some.1 h
  · simp [step, process_update_resting hs, ← hn]
  · simp [step, process_update_confirming hs, ← hn]

theorem home_of_confirmed (h : x.confirmed? = some a) :
    x.step.1.home = x.machine.home.map fun home => home.applyOrKeep a := by
  obtain ⟨m, call⟩ := x
  obtain ⟨rfl, hs, ha⟩ := confirmed?_eq_some.1 h
  simp [step, process_confirm hs ha, mirror]

/-- Nothing else changes the mirror. -/
theorem home_of_not_applied (hset : x.machine.Settled) (hadm : x.admitted? = none)
    (happ : x.applied? = none) : x.step.1.home = x.machine.home := by
  obtain ⟨hupd, hconf⟩ := Option.or_eq_none_iff.1 happ
  obtain ⟨m, incoming | v⟩ := x
  case reject => rfl
  case process =>
    obtain ⟨out, hout, ho⟩ : ∃ out, m.process incoming = out ∧ Outcome m incoming out :=
      ⟨_, rfl, process_outcome hset incoming⟩
    simp only [step, hout]
    cases ho with
    | admitted hs hk hh => simp [admitted?, heard?, hs, hk, hh, Except.toOption] at hadm
    | followed hs ha => simp [updated?, heard?, hs, ha, Except.toOption] at hupd
    | kept hs ha => simp [updated?, heard?, hs, ha, Except.toOption] at hupd
    | @confirmed hs a ha c hc hn =>
      cases hacc : c.accepted with
      | true => simp [confirmed?, heard?, hs, ha, hc, hn, hacc, Except.toOption] at hconf
      | false => simp
    | _ => rfl

theorem home_of_idle (hset : x.machine.Settled) (hi : x.step.1.state = .idle) :
    x.step.1.home = x.machine.home := by
  rcases reset_of_idle hset hi with hp | hr
  · rw [step_of_parts hp]
  · rw [hr]
    rfl

/-- A call that accepts no INITIAL changes the mirror by the action that it applies, if any. -/
theorem home_of_not_admitted (hset : x.machine.Settled) (hadm : x.admitted? = none) :
    x.step.1.home = x.machine.home.map fun home => home.replay x.applied?.toList := by
  cases hupd : x.updated? with
  | some a => simp [applied?, hupd, step_of_updated hupd, mirror]
  | none =>
    cases hconf : x.confirmed? with
    | some a => simp [applied?, hupd, hconf, home_of_confirmed hconf]
    | none =>
      have happ : x.applied? = none := by simp [applied?, hupd, hconf]
      rw [home_of_not_applied hset hadm happ, happ]
      simp

end Exchange

theorem Mirrors.step (h : Mirrors xs x.machine.home) (hset : x.machine.Settled) :
    Mirrors (xs ++ [x]) x.step.1.home := by
  cases hadm : x.admitted? with
  | some home =>
    rw [Exchange.home_of_admitted hadm]
    exact .since hadm (List.forall_mem_nil _)
  | none =>
    rw [Exchange.home_of_not_admitted hset hadm]
    generalize x.machine.home = mirrored at h
    cases h with
    | none hxs => exact .none (List.forall_mem_append.2 ⟨hxs, List.forall_mem_singleton.2 hadm⟩)
    | @since earlier later y home hy hlater =>
      have hmore : (later ++ [x]).filterMap Exchange.applied? =
          later.filterMap Exchange.applied? ++ x.applied?.toList := by
        cases happ : x.applied? <;> simp [happ]
      rw [Option.map_some, ← Home.replay_append, ← hmore, List.append_assoc, List.cons_append]
      exact .since hy (List.forall_mem_append.2 ⟨hlater, List.forall_mem_singleton.2 hadm⟩)

/-! ## Whole runs -/

/-- **The mirror.** After any calls of a new machine its mirror is the home of the INITIAL that it has
accepted last, with the actions applied since in their order, and it has none if it has accepted none.
The machine rests in neither of the states in which it only sends, and it has a mirror whenever it is
logged in. A call that ends in `idle` leaves the mirror alone, and so does every other call that
neither accepts an INITIAL nor applies an action; an UPDATE that finds the machine logged in leaves
its state and its own action alone. -/
theorem mirror_of_history (version : String) (login : Login) (calls : List Call) :
    let m := after { version, login } calls
    let xs := exchanges { version, login } calls
    Mirrors xs m.home ∧
      (m.state ≠ .serverAwaitsVersion ∧ m.state ≠ .serverAwaitsResponse) ∧
      (m.state = .serverAwaitsAction ∨ m.state = .clientAwaitsConfirm → m.home.isSome) ∧
      (∀ x ∈ xs, x.step.1.state = .idle → x.step.1.home = x.machine.home) ∧
      (∀ x ∈ xs, x.admitted? = none → x.applied? = none → x.step.1.home = x.machine.home) ∧
      (∀ x ∈ xs, ∀ a, x.updated? = some a → x.step.1.state = x.machine.state ∧
        x.step.1.pendingAction = x.machine.pendingAction) := by
  intro m xs
  have hnew : ({ version, login } : ClientMachine).Settled := settled_new version login
  obtain ⟨hmirror, hset⟩ : Mirrors xs m.home ∧ m.Settled := by
    have hstart : Mirrors [] ({ version, login } : ClientMachine).home := .none (by simp)
    have hrun := run_induction (I := fun xs m => Mirrors xs m.home ∧ m.Settled) ⟨hstart, hnew⟩
      (fun xs x h => ⟨h.1.step h.2, Exchange.settled h.2⟩) calls
    simpa using hrun
  refine ⟨hmirror, hset.state, hset.home, ?_, ?_, ?_⟩
  · exact fun x hx hi => Exchange.home_of_idle (settled_of_mem hnew hx) hi
  · exact fun x hx => Exchange.home_of_not_applied (settled_of_mem hnew hx)
  · intro x hx a ha
    rw [Exchange.step_of_updated ha]
    exact ⟨rfl, rfl⟩

end HomeControl.ClientMachine

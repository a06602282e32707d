import HomeControl.Proofs.Home.Snapshot
import HomeControl.Proofs.Machine.Client

/-!
# The history of a client's machine

The history of a machine is the list of its calls, each with the machine it finds. A call hands in a
message or reports a violation that the session has noticed itself; any calls may follow each other in
any order. What one call preserves of the history and the machine holds after every run
(`run_induction`).
-/

namespace HomeControl.ClientMachine

/-- A call of a machine. -/
inductive Call where
  /-- A message is handed in: one from the server, a sentinel, or an action of the user. -/
  | process (incoming : Message)
  /-- The session reports a violation that it has noticed itself. -/
  | reject (v : Violation)

/-- A call together with the machine it finds. -/
structure Exchange where
  /-- The machine before the call. -/
  machine : ClientMachine
  /-- The call. -/
  call : Call

namespace Exchange

/-- What the call comes to: the machine after it, and the answer. -/
def step (x : Exchange) : ClientMachine × Option Message :=
  match x.call with
  | .process incoming => x.machine.process incoming
  | .reject v => x.machine.reject v

/-- The message of the call, if it has one. -/
def heard? (x : Exchange) : Option Message :=
  match x.call with
  | .process incoming => some incoming
  | .reject _ => none

/-- The call hands in TERMINATE. -/
def Parts (x : Exchange) : Prop :=
  ∃ incoming, x.heard? = some incoming ∧ incoming.keycode = .terminate

end Exchange

/-- The calls of a machine, one after the other. -/
def exchanges (m : ClientMachine) : List Call → List Exchange
  | [] => []
  | call :: calls =>
    let x : Exchange := { machine := m, call }
    x :: exchanges x.step.1 calls

/-- The machine after its calls. -/
def after (m : ClientMachine) : List Call → ClientMachine
  | [] => m
  | call :: calls => after ({ machine := m, call } : Exchange).step.1 calls

variable {m : ClientMachine} {x : Exchange} {calls : List Call} {xs : List Exchange}

/-- What one call preserves of the history and the machine holds after every run. -/
theorem run_induction {I : List Exchange → ClientMachine → Prop} (h : I xs m)
    (hstep : ∀ xs x, I xs x.machine → I (xs ++ [x]) x.step.1) (calls : List Call) :
    I (xs ++ exchanges m calls) (after m calls) := by
  induction calls generalizing m xs with
  | nil => simpa [exchanges, after] using h
  | cons call calls ih => simpa [exchanges, after] using ih (hstep xs { machine := m, call } h)

theorem after_append (m : ClientMachine) (calls calls' : List Call) :
    after m (calls ++ calls') = after (after m calls) calls' := by
  induction calls generalizing m with
  | nil => rfl
  | cons call calls ih => exact ih _

/-- The calls that log a client in at a server with the client's version and this home. -/
def loginCalls (version : String) (home : Home) (challenge : Bytes) : List Call :=
  [.process .internal, .process (.version version), .process (.challenge challenge),
   .process (.initial home.snapshot)]

/-- A client that has logged in has the home as its snapshot shows it. -/
theorem after_loginCalls (version : String) (login : Login) {home : Home} (hv : home.Valid)
    (challenge : Bytes) :
    after { version, login } (loginCalls version home challenge) =
      { version, login, state := .serverAwaitsAction, home := some home.shown } := by
  let m₀ : ClientMachine := { version, login }
  let m₁ : ClientMachine := { version, login, state := .clientAwaitsVersion }
  let m₂ : ClientMachine := { version, login, state := .clientAwaitsChallenge }
  let m₃ : ClientMachine := { version, login, state := .clientAwaitsInit }
  have h₁ : m₀.process .internal = (m₁, some .ping) := process_internal rfl
  have h₂ : m₁.process (.version version) = (m₂, some (.version version)) := process_version rfl
  have h₃ : m₂.process (.challenge challenge) = (m₃, some (.response (login.responseBody challenge))) :=
    process_challenge rfl challenge
  have h₄ : m₃.process (.initial home.snapshot) = _ :=
    process_initial rfl (Home.ofSnapshot_snapshot hv)
  simp only [loginCalls, after, Exchange.step]
  rw [h₁, h₂, h₃, h₄]

namespace Exchange

/-- TERMINATE stops a machine where it is. -/
theorem step_of_parts (h : x.Parts) :
    x.step = ({ x.machine with state := .idle }, some .terminate) := by
  obtain ⟨m, incoming | v⟩ := x
  · obtain ⟨_, hi, hk⟩ := h
    obtain rfl := Option.some.inj hi
    simp [step, process, hk]
  · obtain ⟨_, hi, -⟩ := h
    cases hi

/-- Any other call comes to one of the other outcomes, also if it reports a violation. -/
theorem outcome (h : x.machine.Settled) (hp : ¬ x.Parts) :
    ∃ incoming, incoming.keycode ≠ .terminate ∧ Outcome x.machine incoming x.step := by
  obtain ⟨m, incoming | v⟩ := x
  · exact ⟨incoming, fun hk => hp ⟨incoming, rfl, hk⟩, process_outcome h incoming⟩
  · exact ⟨.internal, by simp [Message.internal], .refused v⟩

/-- A call that ends in `idle` is a TERMINATE, or the machine has been reset. -/
theorem reset_of_idle (h : x.machine.Settled) (hi : x.step.1.state = .idle) :
    x.Parts ∨ x.step.1 = x.machine.reset := by
  by_cases hp : x.Parts
  · exact Or.inl hp
  obtain ⟨incoming, hk, ho⟩ := outcome h hp
  generalize x.step = out at ho hi
  cases ho with
  | farewell hk' => exact absurd hk' hk
  | dismissed => exact Or.inr rfl
  | refused => exact Or.inr rfl
  | asked hs => simp [hs] at hi
  | followed hs => simp [mirror, hs] at hi
  | kept hs => simp [mirror, hs] at hi
  | _ => simp at hi

theorem settled (h : x.machine.Settled) : x.step.1.Settled := by
  by_cases hp : x.Parts
  · rw [step_of_parts hp]
    exact h.idle
  · obtain ⟨incoming, -, ho⟩ := outcome h hp
    exact ho.settled h

end Exchange

theorem settled_of_mem (h : m.Settled) (hx : x ∈ exchanges m calls) : x.machine.Settled := by
  have hall : (∀ y ∈ [] ++ exchanges m calls, y.machine.Settled) ∧ (after m calls).Settled := by
    refine run_induction (I := fun xs m => (∀ y ∈ xs, y.machine.Settled) ∧ m.Settled)
      ⟨by simp, h⟩ ?_ calls
    rintro xs y ⟨hxs, hy⟩
    exact ⟨List.forall_mem_append.2 ⟨hxs, List.forall_mem_singleton.2 hy⟩, Exchange.settled hy⟩
  exact hall.1 x (by simpa using hx)

end HomeControl.ClientMachine

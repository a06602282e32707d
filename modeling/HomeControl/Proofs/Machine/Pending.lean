import HomeControl.Proofs.Machine.History
import Mathlib.Data.List.Basic
import Mathlib.Tactic.Tauto

/-!
# What a client's machine holds back

Between two calls a machine holds back no response, and an action while its confirmation is awaited:
the one it has sent last. An ERROR of the server and every violation make it forget that action. A
TERMINATE does not: an action whose confirmation is outstanding then is *abandoned*, and the machine
holds it in `idle` and beyond, until it sends another action or is taken back to `idle` in another way.
Apart from that the machine holds an action back exactly while it waits for a confirmation
(`pending_iff_awaited_or_abandoned`).
-/

namespace HomeControl.ClientMachine

namespace Exchange

/-- The action that the call sends. -/
def sent? (x : Exchange) : Option Action :=
  x.step.2.bind fun reply => reply.parseAction.toOption

/-- TERMINATE arrives while an action waits for its confirmation. -/
def Interrupts (x : Exchange) : Prop :=
  x.machine.state = .clientAwaitsConfirm ∧ x.Parts

/-- The call sends an action, or it takes the machine back to `idle` otherwise than by TERMINATE. -/
def Replaces (x : Exchange) : Prop :=
  x.sent?.isSome ∨ x.step.1.state = .idle ∧ ¬ x.Parts

end Exchange

/-- The action that has been sent last. -/
def lastSent? (xs : List Exchange) : Option Action :=
  (xs.filterMap Exchange.sent?).getLast?

/-- An action has been interrupted, and nothing has replaced it since. -/
def Abandoned (xs : List Exchange) : Prop :=
  ∃ earlier x later, xs = earlier ++ x :: later ∧ x.Interrupts ∧ ∀ y ∈ later, ¬ y.Replaces

variable {m : ClientMachine} {x : Exchange} {calls : List Call} {xs : List Exchange} {version : String}
  {login : Login}

/-! ## One call -/

theorem sent?_of_reply {reply : Message} (hr : x.step.2 = some reply) (hk : reply.keycode ≠ .action) :
    x.sent? = none := by
  unfold Exchange.sent?
  rw [hr]
  cases ha : reply.parseAction with
  | error e => simp [ha, Except.toOption]
  | ok a => exact absurd (Message.keycode_of_parseAction ha) hk

theorem lastSent?_snoc_of_none (h : x.sent? = none) : lastSent? (xs ++ [x]) = lastSent? xs := by
  simp [lastSent?, List.filterMap_append, h]

theorem lastSent?_snoc_of_some {a : Action} (h : x.sent? = some a) :
    lastSent? (xs ++ [x]) = some a := by
  simp [lastSent?, List.filterMap_append, h]

theorem not_abandoned_nil : ¬ Abandoned [] := by
  rintro ⟨earlier, x, later, hxs, -⟩
  simp at hxs

theorem abandoned_snoc : Abandoned (xs ++ [x]) ↔ x.Interrupts ∨ Abandoned xs ∧ ¬ x.Replaces := by
  constructor
  · rintro ⟨earlier, y, later, hxs, hy, hlater⟩
    rcases List.eq_nil_or_concat' later with rfl | ⟨later, z, rfl⟩
    · obtain ⟨-, hxy⟩ := List.append_inj' hxs rfl
      obtain rfl := List.singleton_inj.1 hxy
      exact Or.inl hy
    · rw [← List.cons_append, ← List.append_assoc] at hxs
      obtain ⟨rfl, hxz⟩ := List.append_inj' hxs rfl
      obtain rfl := List.singleton_inj.1 hxz
      obtain ⟨hbefore, hlast⟩ := List.forall_mem_append.1 hlater
      exact Or.inr ⟨⟨earlier, y, later, rfl, hy, hbefore⟩, hlast x (List.mem_singleton_self x)⟩
  · rintro (hx | ⟨⟨earlier, y, later, rfl, hy, hlater⟩, hx⟩)
    · exact ⟨xs, x, [], rfl, hx, by simp⟩
    · have hall := List.forall_mem_append.2 ⟨hlater, List.forall_mem_singleton.2 hx⟩
      exact ⟨earlier, y, later ++ [x], by simp, hy, hall⟩

/-- A call that is no TERMINATE, sends nothing and does not end in `idle` leaves it at that. -/
theorem abandoned_snoc_of_quiet (hp : ¬ x.Parts) (hs : x.sent? = none) (hi : x.step.1.state ≠ .idle) :
    Abandoned (xs ++ [x]) ↔ Abandoned xs := by
  rw [abandoned_snoc]
  simp [Exchange.Interrupts, Exchange.Replaces, hp, hs, hi]

/-- What the history says about the action that a machine holds back. -/
structure Withheld (xs : List Exchange) (m : ClientMachine) : Prop where
  settled : m.Settled
  last : ∀ a, m.pendingAction = some a → lastSent? xs = some a
  pending : m.pendingAction.isSome ↔ m.state = .clientAwaitsConfirm ∨ Abandoned xs
  apart : Abandoned xs → m.state ≠ .clientAwaitsConfirm

theorem withheld_new : Withheld [] { version, login } :=
  ⟨settled_new version login, by simp, by simp [not_abandoned_nil], by simp⟩

/-- A call that sends nothing and holds nothing back afterwards. -/
theorem withheld_of_none (hset : m.Settled) (hn : m.pendingAction = none) (ha : ¬ Abandoned xs)
    (hs : m.state ≠ .clientAwaitsConfirm) : Withheld xs m :=
  ⟨hset, by simp [hn], by simp [hn, ha, hs], fun h => absurd h ha⟩

namespace Withheld

/-- TERMINATE keeps the action and leaves the wait for its confirmation. -/
theorem parted (h : Withheld xs x.machine) (hp : x.Parts) : Withheld (xs ++ [x]) x.step.1 := by
  have hx := Exchange.step_of_parts hp
  have hsent : x.sent? = none := sent?_of_reply (by rw [hx]) (by simp [Message.terminate])
  have habandoned : Abandoned (xs ++ [x]) ↔ x.machine.pendingAction.isSome := by
    rw [abandoned_snoc, h.pending]
    simp [Exchange.Interrupts, Exchange.Replaces, hp, hsent]
  refine ⟨Exchange.settled h.settled, ?_, ?_, ?_⟩
  · rw [lastSent?_snoc_of_none hsent, hx]
    exact h.last
  · rw [habandoned, hx]
    simp
  · simp [hx]

/-- A machine that gives up forgets. -/
theorem gaveUp (h : Withheld xs x.machine) (hp : ¬ x.Parts) (hx : x.step.1 = x.machine.reset) :
    Withheld (xs ++ [x]) x.step.1 := by
  have hidle : x.step.1.state = .idle := by rw [hx]; rfl
  refine withheld_of_none (Exchange.settled h.settled) (by rw [hx]; rfl) ?_ (by simp [hidle])
  rw [abandoned_snoc]
  simp [Exchange.Interrupts, Exchange.Replaces, hp, hidle]

/-- A machine that neither sends an action nor begins or ends to wait for a confirmation keeps what it
holds. -/
theorem unchanged (h : Withheld xs x.machine) (hp : ¬ x.Parts) (hsent : x.sent? = none)
    (hidle : x.step.1.state ≠ .idle) (hsame : x.step.1.pendingAction = x.machine.pendingAction)
    (hstate : x.step.1.state = .clientAwaitsConfirm ↔ x.machine.state = .clientAwaitsConfirm) :
    Withheld (xs ++ [x]) x.step.1 := by
  have habandoned : Abandoned (xs ++ [x]) ↔ Abandoned xs := abandoned_snoc_of_quiet hp hsent hidle
  refine ⟨Exchange.settled h.settled, ?_, ?_, ?_⟩
  · rw [lastSent?_snoc_of_none hsent, hsame]
    exact h.last
  · rw [hsame, hstate, habandoned]
    exact h.pending
  · rw [habandoned, Ne, hstate]
    exact h.apart

/-- An action that is sent takes the place of one that has been abandoned. -/
theorem sent (h : Withheld xs x.machine) (hp : ¬ x.Parts) {a : Action} (hsent : x.sent? = some a)
    (ha : x.step.1.pendingAction = some a) (hs : x.step.1.state = .clientAwaitsConfirm) :
    Withheld (xs ++ [x]) x.step.1 := by
  have hnot : ¬ Abandoned (xs ++ [x]) := by
    rw [abandoned_snoc]
    simp [Exchange.Interrupts, Exchange.Replaces, hp, hsent]
  exact ⟨Exchange.settled h.settled, by simp [lastSent?_snoc_of_some hsent, ha], by simp [ha, hs],
    fun hab => absurd hab hnot⟩

/-- A confirmation settles the action that is waited for, and none has been abandoned by then. -/
theorem confirmed (h : Withheld xs x.machine) (hp : ¬ x.Parts) (hsent : x.sent? = none)
    (hs : x.machine.state = .clientAwaitsConfirm) (hn : x.step.1.pendingAction = none)
    (hs' : x.step.1.state = .serverAwaitsAction) : Withheld (xs ++ [x]) x.step.1 := by
  refine withheld_of_none (Exchange.settled h.settled) hn ?_ (by simp [hs'])
  rw [abandoned_snoc_of_quiet hp hsent (by simp [hs'])]
  exact fun hab => h.apart hab hs

/-- Every call preserves what the history says about the action that is held back. -/
theorem step (h : Withheld xs x.machine) : Withheld (xs ++ [x]) x.step.1 := by
  by_cases hp : x.Parts
  · exact h.parted hp
  obtain ⟨incoming, hk, ho⟩ := Exchange.outcome h.settled hp
  obtain ⟨out, hx, ho⟩ : ∃ out, x.step = out ∧ Outcome x.machine incoming out := ⟨_, rfl, ho⟩
  have hreply : ∀ reply, out.2 = some reply → reply.keycode ≠ .action → x.sent? = none :=
    fun reply hr => sent?_of_reply (hx ▸ hr)
  cases ho with
  | farewell hk' => exact absurd hk' hk
  | dismissed => exact h.gaveUp hp (by rw [hx])
  | refused => exact h.gaveUp hp (by rw [hx])
  | opened hs =>
    exact h.unchanged hp (hreply _ rfl (by simp [Message.ping])) (by simp [hx]) (by rw [hx])
      (by simp [hx, hs])
  | offered hs =>
    exact h.unchanged hp (hreply _ rfl (by simp [Message.version])) (by simp [hx]) (by rw [hx])
      (by simp [hx, hs])
  | answered hs =>
    exact h.unchanged hp (hreply _ rfl (by simp [Message.response])) (by simp [hx]) (by rw [hx])
      (by simp [hx, hs])
  | admitted hs =>
    exact h.unchanged hp (hreply _ rfl (by simp [Message.waitUserInput])) (by simp [hx]) (by rw [hx])
      (by simp [hx, hs])
  | asked hs =>
    exact h.unchanged hp (hreply _ rfl (by simp [Message.waitUserInput])) (by simp [hx, hs])
      (by rw [hx]) (by rw [hx])
  | followed hs =>
    exact h.unchanged hp (hreply _ rfl (by simp [Message.waitUserInput])) (by simp [hx, mirror, hs])
      (by rw [hx]; rfl) (by simp [hx, mirror])
  | @sent hs a ha =>
    have hsent : x.sent? = some a := by simp [Exchange.sent?, hx, ha, Except.toOption]
    exact h.sent hp hsent (by rw [hx]) (by rw [hx])
  | kept hs =>
    have hsent : x.sent? = none := by simp [Exchange.sent?, hx]
    exact h.unchanged hp hsent (by simp [hx, mirror, hs]) (by rw [hx]; rfl) (by simp [hx, mirror])
  | confirmed hs =>
    exact h.confirmed hp (hreply _ rfl (by simp [Message.waitUserInput])) hs (by rw [hx]) (by rw [hx])

end Withheld

/-! ## Whole runs -/

/-- **What is held back.** After any calls of a new machine it holds back no response. The action that
it holds back is the one it has sent last, and it holds one back if it waits for a confirmation or has
abandoned one: so it does exactly while it waits for a confirmation, unless one is abandoned. Every
call that ends in `idle` makes it forget the action, TERMINATE excepted. -/
theorem pending_iff_awaited_or_abandoned (version : String) (login : Login) (calls : List Call) :
    let m := after { version, login } calls
    let xs := exchanges { version, login } calls
    m.pendingResponse = none ∧
      (∀ a, m.pendingAction = some a → lastSent? xs = some a) ∧
      (m.pendingAction.isSome ↔ m.state = .clientAwaitsConfirm ∨ Abandoned xs) ∧
      ((m.pendingAction.isSome ↔ m.state = .clientAwaitsConfirm) ↔ ¬ Abandoned xs) ∧
      (∀ x ∈ xs, x.step.1.state = .idle → ¬ x.Parts →
        x.step.1.pendingAction = none ∧ x.step.1.pendingResponse = none) := by
  intro m xs
  have h : Withheld xs m := by
    simpa using run_induction (I := Withheld) withheld_new (fun _ _ => Withheld.step) calls
  refine ⟨h.settled.response, h.last, h.pending, ?_, ?_⟩
  · have hpending := h.pending
    have hapart := h.apart
    tauto
  · intro x hx hi hp
    have hreset := Exchange.reset_of_idle (settled_of_mem (settled_new version login) hx) hi
    rw [hreset.resolve_left hp]
    exact ⟨rfl, rfl⟩

/-- Ada turns the lamp on and parts before that has been confirmed: her machine is back in `idle` and
still holds the action. -/
theorem action_abandoned :
    let on : Action := { sequence := 0, kind := 0, index := 0, opcode := 0, params := [] }
    let m := after { version := "1", login := { username := "ada", password := "byron" } }
      (loginCalls "1" .empty [7] ++ [.process (.action on), .process .terminate])
    m.state = .idle ∧ m.pendingAction = some on ∧
      ¬ (m.pendingAction.isSome ↔ m.state = .clientAwaitsConfirm) := by
  intro on m
  have hm : m = { version := "1", login := { username := "ada", password := "byron" }
                  home := some Home.empty.shown, pendingAction := some on } := by
    simp only [m, after_append, after_loginCalls _ _ Home.valid_empty]
    rfl
  rw [hm]
  exact ⟨rfl, rfl, by simp⟩

end HomeControl.ClientMachine

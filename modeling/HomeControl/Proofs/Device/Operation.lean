import HomeControl.Device.Basic

/-!
# What operations do

The tables of a kind fit together: an operation that enters a state enters one of the kind's and takes
no argument, and one that writes a slot writes one of the kind's and takes a single argument. So there
are two things that an operation can do to a device which accepts it (`apply_eq_ok`).
-/

namespace HomeControl

/-- The state that an operation enters, if it enters one. -/
def Effect.target? : Effect → Option UInt8
  | .enter state => some state
  | .adjust _ _ => none

/-- The slot that an effect writes. -/
def Effect.slot? : Effect → Option Nat
  | .enter _ => none
  | .adjust slot _ => some slot

namespace Kind

/-- An operation that enters a state names one of the kind's, and wants no arguments. -/
theorem enter_in_range (k : Kind) : ∀ op ∈ k.operations, ∀ target, op.effect = .enter target →
    target.toNat < k.states.length ∧ op.arguments.length = 0 := by
  intro op ho target he
  have hall : (k.operations.all fun op => op.effect.target?.all fun target =>
      target.toNat < k.states.length ∧ op.arguments.length = 0) = true := by
    cases k <;> rfl
  have hop := List.all_eq_true.mp hall op ho
  rw [he] at hop
  exact of_decide_eq_true hop

/-- An operation that adjusts a slot names one of the kind's, and wants one argument. -/
theorem adjust_in_range (k : Kind) : ∀ op ∈ k.operations, ∀ slot needs,
    op.effect = .adjust slot needs → slot < k.slots.length ∧ op.arguments.length = 1 := by
  intro op ho slot needs he
  have hall : (k.operations.all fun op => op.effect.slot?.all fun slot =>
      slot < k.slots.length ∧ op.arguments.length = 1) = true := by
    cases k <;> rfl
  have hop := List.all_eq_true.mp hall op ho
  rw [he] at hop
  exact of_decide_eq_true hop

theorem mem_operations {k : Kind} {opcode : UInt8} {op : Operation} (ho : k.operation? opcode = some op) :
    op ∈ k.operations :=
  List.mem_of_find?_eq_some ho

theorem opcode_of_operation? {k : Kind} {opcode : UInt8} {op : Operation}
    (ho : k.operation? opcode = some op) : op.opcode = opcode := by
  have hfound := List.find?_some ho
  exact eq_of_beq hfound

/-- No two operations of a kind share their opcode. -/
theorem operation?_of_mem {k : Kind} {op : Operation} (ho : op ∈ k.operations) :
    k.operation? op.opcode = some op := by
  have hall : (k.operations.all fun op => k.operation? op.opcode = some op) = true := by
    cases k <;> rfl
  exact of_decide_eq_true (List.all_eq_true.mp hall op ho)

end Kind

/-- The error is about the state that a device is in. -/
inductive DeviceError.OfState : DeviceError → Prop where
  /-- The device is in the target state already. -/
  | already (name state : String) : OfState (.alreadyInState name state)
  /-- The operation needs another state. -/
  | wrong (operation name state : String) : OfState (.invalidInState operation name state)

namespace Device

variable {d d' : Device} {opcode : UInt8} {args : Bytes}

/-- What an operation does to a device that accepts it. -/
inductive Changes (d : Device) (opcode : UInt8) : Bytes → Device → Prop where
  /-- It enters another state. -/
  | entered {op : Operation} {target : UInt8} (ho : d.kind.operation? opcode = some op)
      (he : op.effect = .enter target) (hs : d.state ≠ target) :
      Changes d opcode [] { d with state := target }
  /-- It writes its argument into a slot. -/
  | adjusted {op : Operation} {slot : Nat} {needs arg : UInt8} (ho : d.kind.operation? opcode = some op)
      (he : op.effect = .adjust slot needs) (hs : d.state = needs) :
      Changes d opcode [arg] { d with params := d.params.set slot arg }

/-- A device that has been changed has been changed in one of these ways. -/
theorem changes_of_apply (h : d.apply opcode args = .ok d') : d.Changes opcode args d' := by
  unfold apply at h
  cases ho : d.kind.operation? opcode with
  | none => simp [ho] at h
  | some op =>
    simp only [ho] at h
    have hop := Kind.mem_operations ho
    split at h
    · cases h
    rename_i hargs
    have hlength : args.length = op.arguments.length := Decidable.not_not.1 hargs
    unfold run at h
    cases he : op.effect with
    | enter target =>
      simp only [he] at h
      split at h
      · cases h
      · rename_i hs
        obtain ⟨-, hnone⟩ := d.kind.enter_in_range op hop target he
        obtain rfl : args = [] := List.eq_nil_of_length_eq_zero (hlength.trans hnone)
        obtain rfl := Except.ok.inj h
        exact .entered ho he hs
    | adjust slot needs =>
      simp only [he] at h
      split at h
      · cases h
      · rename_i hs
        obtain ⟨-, hone⟩ := d.kind.adjust_in_range op hop slot needs he
        obtain ⟨arg, rfl⟩ := List.length_eq_one_iff.1 (hlength.trans hone)
        obtain rfl := Except.ok.inj h
        exact .adjusted ho he (Decidable.not_not.1 hs)

/-- And each of these ways is taken. -/
theorem Changes.apply (h : d.Changes opcode args d') : d.apply opcode args = .ok d' := by
  cases h with
  | @entered op target ho he hs =>
    obtain ⟨-, hnone⟩ := d.kind.enter_in_range op (Kind.mem_operations ho) target he
    simp [Device.apply, ho, hnone, run, he, hs]
  | @adjusted op slot needs arg ho he hs =>
    obtain ⟨-, hone⟩ := d.kind.adjust_in_range op (Kind.mem_operations ho) slot needs he
    simp [Device.apply, ho, hone, run, he, hs]

/-- What it takes for a device to accept an operation. -/
theorem apply_eq_ok : d.apply opcode args = .ok d' ↔ d.Changes opcode args d' :=
  ⟨changes_of_apply, Changes.apply⟩

/-- Only the state of a device can keep it from an operation of its kind with the right number of
arguments. -/
theorem ofState_of_apply {op : Operation} {e : DeviceError} (ho : d.kind.operation? opcode = some op)
    (hargs : args.length = op.arguments.length) (he : d.apply opcode args = .error e) : e.OfState := by
  unfold apply at he
  simp only [ho, hargs, ne_eq, not_true_eq_false, if_false] at he
  unfold run at he
  cases heffect : op.effect with
  | enter target =>
    simp only [heffect] at he
    split at he
    · obtain rfl := Except.error.inj he
      exact .already _ _
    · cases he
  | adjust slot needs =>
    simp only [heffect] at he
    obtain ⟨-, hone⟩ := d.kind.adjust_in_range op (Kind.mem_operations ho) slot needs heffect
    obtain ⟨arg, rfl⟩ := List.length_eq_one_iff.1 (hargs.trans hone)
    split at he
    · obtain rfl := Except.error.inj he
      exact .wrong _ _ _
    · cases he

/-- An operation leaves the kind and the name of a device alone. -/
theorem Changes.kind_name (h : d.Changes opcode args d') : d'.kind = d.kind ∧ d'.name = d.name := by
  cases h <;> exact ⟨rfl, rfl⟩

theorem Changes.length_le (h : d.Changes opcode args d') : args.length ≤ 1 := by
  cases h <;> simp

theorem Changes.legal (h : d.Changes opcode args d') (hd : d.Legal) : d'.Legal := by
  cases h with
  | @entered op target ho he hs =>
    obtain ⟨hrange, -⟩ := d.kind.enter_in_range op (Kind.mem_operations ho) target he
    exact ⟨hrange, hd.2⟩
  | adjusted ho he hs =>
    refine ⟨hd.1, ?_⟩
    rw [List.length_set]
    exact hd.2

end Device

end HomeControl

import HomeControl.Proofs.Device.Operation
import HomeControl.Proofs.Home.Replay

/-!
# Valid homes

A home as it is built device by device: every device stands in the group of its kind, is legal, and
no group is larger than a count byte can tell. Actions preserve this, and whether a home accepts an
action does not depend on the action's number.
-/

namespace HomeControl

namespace Device

variable {d : Device}

/-- Exactly the legal devices are made. -/
theorem make_eq_ok {kind : Kind} {name : String} {state : UInt8} {params : Bytes} :
    make kind name state params = .ok d ↔ state.toNat < kind.states.length ∧
      params.length = kind.slots.length ∧ d = { kind, name, state, params } := by
  unfold make
  split
  · rename_i hstate
    simp [Nat.not_lt.2 hstate]
  · rename_i hstate
    split
    · rename_i hparams
      simp [hparams]
    · rename_i hparams
      rw [Except.ok.injEq, eq_comm]
      simp [Nat.not_le.1 hstate, Decidable.not_not.1 hparams]

theorem make_legal {kind : Kind} {name : String} {state : UInt8} {params : Bytes}
    (h : make kind name state params = .ok d) : d.Legal := by
  obtain ⟨hstate, hparams, rfl⟩ := make_eq_ok.1 h
  exact ⟨hstate, hparams⟩

end Device

namespace Home

variable {h h' : Home} {a : Action}

/-- A home as it is built device by device. -/
structure Valid (h : Home) : Prop where
  legal : ∀ k, ∀ d ∈ h.group k, d.kind = k ∧ d.Legal
  /-- A count byte tells the size of each group. -/
  size : ∀ k, (h.group k).length ≤ capacity

theorem valid_empty : empty.Valid :=
  ⟨fun k => by cases k <;> simp [empty, group], fun k => by cases k <;> simp [empty, group]⟩

/-- A group may be replaced by legal devices of its kind. -/
theorem Valid.setGroup {k : Kind} {ds : List Device} (hv : h.Valid)
    (hd : ∀ d ∈ ds, d.kind = k ∧ d.Legal) (hs : ds.length ≤ capacity) : (h.setGroup k ds).Valid := by
  constructor
  · intro k' e he
    by_cases hk : k' = k
    · subst hk
      rw [group_setGroup_self] at he
      exact hd e he
    · rw [group_setGroup_of_ne hk] at he
      exact hv.legal k' e he
  · intro k'
    by_cases hk : k' = k
    · subst hk
      rw [group_setGroup_self]
      exact hs
    · rw [group_setGroup_of_ne hk]
      exact hv.size k'

theorem Valid.add {d : Device} {index : UInt8} (hv : h.Valid) (hd : d.Legal)
    (ha : h.add d = .ok (h', index)) : h'.Valid := by
  simp only [Home.add] at ha
  split at ha
  · rename_i hlt
    obtain ⟨rfl, -⟩ := Prod.mk.inj (Except.ok.inj ha)
    refine hv.setGroup ?_ ?_
    · intro e he
      rcases List.mem_append.1 he with he | he
      · exact hv.legal d.kind e he
      · obtain rfl := List.mem_singleton.1 he
        exact ⟨rfl, hd⟩
    · rw [List.length_append, List.length_singleton]
      omega
  · cases ha

/-- What it takes for a home to accept an action. -/
theorem apply_eq_ok : h.apply a = .ok h' ↔ ∃ k d d', Kind.ofCode? a.kind = some k ∧
    h.device? k a.index = some d ∧ d.apply a.opcode a.params = .ok d' ∧
    h' = h.setGroup k ((h.group k).set a.index.toNat d') := by
  unfold apply
  cases hk : Kind.ofCode? a.kind with
  | none => simp
  | some k =>
    cases hd : h.device? k a.index with
    | none => simp [hd]
    | some d =>
      cases hda : d.apply a.opcode a.params with
      | error e => simp [hd, hda]
      | ok d' =>
        simp only [hd, hda, Except.ok.injEq, Option.some.injEq]
        constructor
        · rintro rfl
          exact ⟨k, d, d', rfl, hd, hda, rfl⟩
        · rintro ⟨k', d₁, d₂, rfl, hd₁, hd₂, rfl⟩
          obtain rfl := Option.some.inj (hd.symm.trans hd₁)
          obtain rfl := Except.ok.inj (hda.symm.trans hd₂)
          rfl

/-- The home does not look at the number of an action. -/
theorem applyOrKeep_sequence (h : Home) (a : Action) (s : UInt8) :
    h.applyOrKeep { a with sequence := s } = h.applyOrKeep a := rfl

theorem Valid.apply (hv : h.Valid) (ha : h.apply a = .ok h') : h'.Valid := by
  obtain ⟨k, d, d', -, hd, hda, rfl⟩ := apply_eq_ok.1 ha
  have hmem : d ∈ h.group k := List.mem_of_getElem? hd
  obtain ⟨hkind, hlegal⟩ := hv.legal k d hmem
  have hchanges := Device.apply_eq_ok.1 hda
  refine hv.setGroup ?_ ?_
  · intro e he
    rcases List.mem_or_eq_of_mem_set he with he | rfl
    · exact hv.legal k e he
    · exact ⟨hchanges.kind_name.1.trans hkind, hchanges.legal hlegal⟩
  · rw [List.length_set]
    exact hv.size k

theorem Valid.applyOrKeep (hv : h.Valid) (a : Action) : (h.applyOrKeep a).Valid := by
  unfold Home.applyOrKeep
  split
  · rename_i h' ha
    exact hv.apply ha
  · exact hv

theorem Valid.replay (hv : h.Valid) (as : List Action) : (h.replay as).Valid := by
  induction as generalizing h with
  | nil => exact hv
  | cons a as ih => exact ih (hv.applyOrKeep a)

/-- A home that has been built device by device. -/
inductive Built : Home → Prop where
  /-- A home starts without devices. -/
  | empty : Built empty
  /-- A device that can be made is added, if there is room for it. -/
  | add {h h' : Home} {kind : Kind} {name : String} {state : UInt8} {params : Bytes} {d : Device}
      {index : UInt8} (hb : Built h) (hd : Device.make kind name state params = .ok d)
      (ha : h.add d = .ok (h', index)) : Built h'

theorem Built.valid (hb : h.Built) : h.Valid := by
  induction hb with
  | empty => exact valid_empty
  | add _ hd ha ih => exact ih.add (Device.make_legal hd) ha

end Home

end HomeControl

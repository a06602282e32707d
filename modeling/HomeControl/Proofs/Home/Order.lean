import HomeControl.Proofs.Home.Snapshot

/-!
# The order of actions

An action touches one device and nothing else of a home (`getElem?_applyOrKeep`), and it never renames
that device. So actions on different devices may change places (`replay_comm`), and a home with tidy
names keeps them.
-/

namespace HomeControl

/-- Two actions name the same device. -/
def Action.SameDevice (a b : Action) : Prop :=
  a.kind = b.kind ∧ a.index = b.index

instance (a b : Action) : Decidable (a.SameDevice b) :=
  inferInstanceAs (Decidable (_ ∧ _))

theorem Kind.eq_code_of_ofCode? {c : UInt8} {k : Kind} (h : ofCode? c = some k) : c = k.code := by
  unfold ofCode? at h
  split at h <;> cases h <;> rfl

theorem Kind.ofCode?_inj {c c' : UInt8} {k : Kind} (h : ofCode? c = some k) (h' : ofCode? c' = some k) :
    c = c' := by
  rw [eq_code_of_ofCode? h, eq_code_of_ofCode? h']

namespace Device

variable {d : Device} {opcode : UInt8} {args : Bytes}

/-- The device after an operation; one that it refuses changes nothing. -/
def applyOrKeep (d : Device) (opcode : UInt8) (args : Bytes) : Device :=
  match d.apply opcode args with
  | .ok d => d
  | .error _ => d

theorem name_applyOrKeep (d : Device) (opcode : UInt8) (args : Bytes) :
    (d.applyOrKeep opcode args).name = d.name := by
  unfold applyOrKeep
  split
  · rename_i h
    exact (apply_eq_ok.1 h).kind_name.2
  · rfl

end Device

namespace Home

variable {h h' : Home} {a b : Action} {k k' : Kind} {index : UInt8} {d d' : Device}

theorem length_params_le (ha : h.apply a = .ok h') : a.params.length ≤ 1 := by
  obtain ⟨k, d, d', -, -, hd, -⟩ := apply_eq_ok.1 ha
  exact (Device.apply_eq_ok.1 hd).length_le

/-! ## Another device at an index -/

/-- A device that is put back where it stands changes nothing. -/
theorem setGroup_set_self (hd : h.device? k index = some d) :
    h.setGroup k ((h.group k).set index.toNat d) = h := by
  obtain ⟨hlt, hget⟩ := List.getElem?_eq_some_iff.1 hd
  rw [← hget, List.set_getElem_self hlt, setGroup_group]

/-- Putting another device at an index leaves every other place alone. -/
theorem getElem?_setGroup_set {n : Nat} (hne : (k', n) ≠ (k, index.toNat)) :
    ((h.setGroup k ((h.group k).set index.toNat d)).group k')[n]? = (h.group k')[n]? := by
  by_cases hk : k' = k
  · subst hk
    have hn : index.toNat ≠ n := by
      rintro rfl
      exact hne rfl
    rw [group_setGroup_self, List.getElem?_set_ne hn]
  · rw [group_setGroup_of_ne hk]

theorem device?_setGroup_set (hd : h.device? k index = some d) (d' : Device) :
    (h.setGroup k ((h.group k).set index.toNat d')).device? k index = some d' := by
  obtain ⟨hlt, -⟩ := List.getElem?_eq_some_iff.1 hd
  rw [device?, group_setGroup_self, List.getElem?_set_self hlt]

/-- If a device gives way to one that is alike in some respect, every group stays as it is in that
respect. -/
theorem map_setGroup_set {β : Type} (f : Device → β) (hd : h.device? k index = some d)
    (hf : f d' = f d) (k' : Kind) :
    ((h.setGroup k ((h.group k).set index.toNat d')).group k').map f = (h.group k').map f := by
  refine List.ext_getElem? fun n => ?_
  rw [List.getElem?_map, List.getElem?_map]
  by_cases hkn : (k', n) = (k, index.toNat)
  · obtain ⟨rfl, rfl⟩ := Prod.mk.inj hkn
    have hput := device?_setGroup_set hd d'
    rw [device?] at hd hput
    rw [hput, hd, Option.map_some, Option.map_some, hf]
  · rw [getElem?_setGroup_set hkn]

/-! ## Actions on different devices -/

/-- A home takes an action as the device that it names takes it. -/
theorem apply_of_device? (hk : Kind.ofCode? a.kind = some k) (hi : a.index = index)
    (hd : h.device? k index = some d) :
    h.apply a =
      (d.apply a.opcode a.params).map fun d' => h.setGroup k ((h.group k).set index.toNat d') := by
  subst hi
  unfold apply
  simp only [hk, hd]
  cases d.apply a.opcode a.params <;> rfl

/-- An action touches the device it names. -/
theorem getElem?_applyOrKeep (h : Home) (a : Action) (k : Kind) (n : Nat) :
    ((h.applyOrKeep a).group k)[n]? =
      if Kind.ofCode? a.kind = some k ∧ a.index.toNat = n then
        ((h.group k)[n]?).map fun d => d.applyOrKeep a.opcode a.params
      else (h.group k)[n]? := by
  unfold applyOrKeep
  by_cases hcond : Kind.ofCode? a.kind = some k ∧ a.index.toNat = n
  · rw [if_pos hcond]
    obtain ⟨hk, rfl⟩ := hcond
    cases hd : h.device? k a.index with
    | none =>
      have hnone : h.apply a = .error (.unknownDevice k a.index) := by simp only [apply, hk, hd]
      rw [device?] at hd
      rw [hnone, hd]
      rfl
    | some d =>
      rw [apply_of_device? hk rfl hd]
      have hget := hd
      rw [device?] at hget
      rw [hget, Option.map_some, Device.applyOrKeep]
      cases d.apply a.opcode a.params with
      | error e => exact hget
      | ok d' => exact device?_setGroup_set hd d'
  · rw [if_neg hcond]
    cases ha : h.apply a with
    | error e => rfl
    | ok h' =>
      obtain ⟨k', d, d', hk, -, -, rfl⟩ := apply_eq_ok.1 ha
      refine getElem?_setGroup_set ?_
      intro hkn
      obtain ⟨rfl, rfl⟩ := Prod.mk.inj hkn
      exact hcond ⟨hk, rfl⟩

/-- Actions on different devices may change places. -/
theorem applyOrKeep_comm (h : Home) (hab : ¬ a.SameDevice b) :
    (h.applyOrKeep a).applyOrKeep b = (h.applyOrKeep b).applyOrKeep a := by
  refine ext_group ?_
  intro k
  refine List.ext_getElem? ?_
  intro n
  simp only [getElem?_applyOrKeep]
  by_cases ha : Kind.ofCode? a.kind = some k ∧ a.index.toNat = n
  · have hb : ¬ (Kind.ofCode? b.kind = some k ∧ b.index.toNat = n) := by
      rintro ⟨hk, hn⟩
      exact hab ⟨Kind.ofCode?_inj ha.1 hk, UInt8.toNat_inj.1 (ha.2.trans hn.symm)⟩
    rw [if_pos ha, if_neg hb, if_neg hb, if_pos ha]
  · rw [if_neg ha, if_neg ha]

/-- An action may change places with all actions on other devices. -/
theorem replay_comm {bs : List Action} (h : Home) (hab : ∀ b ∈ bs, ¬ a.SameDevice b) :
    (h.applyOrKeep a).replay bs = (h.replay bs).applyOrKeep a := by
  induction bs generalizing h with
  | nil => rfl
  | cons b bs ih =>
    rw [replay_cons, applyOrKeep_comm h (hab b List.mem_cons_self),
      ih _ fun c hc => hab c (List.mem_cons_of_mem _ hc), replay_cons]

theorem Tidy.applyOrKeep (ht : h.Tidy) (a : Action) : (h.applyOrKeep a).Tidy := by
  intro k d hd
  obtain ⟨n, hn⟩ := List.mem_iff_getElem?.1 hd
  rw [getElem?_applyOrKeep] at hn
  split at hn
  · obtain ⟨d₀, hd₀, rfl⟩ := Option.map_eq_some_iff.1 hn
    have htidy := ht k d₀ (List.mem_of_getElem? hd₀)
    have hname := Device.name_applyOrKeep d₀ a.opcode a.params
    exact ⟨by rw [hname]; exact htidy.fits, by rw [hname]; exact htidy.trimmed⟩
  · exact ht k d (List.mem_of_getElem? hn)

theorem Tidy.replay (ht : h.Tidy) (as : List Action) : (h.replay as).Tidy := by
  induction as generalizing h with
  | nil => exact ht
  | cons a as ih => exact ih (ht.applyOrKeep a)

end Home

end HomeControl

import HomeControl.Proofs.Home.Order

/-!
# Homes as they are reached

A home starts without devices; then devices are added, actions are applied and snapshots are read, and
any of this may be refused. Whatever comes, the home stays valid (`Reached.valid`), and a device keeps
the index it was given (`device?_changes`).

`applyChecked` takes nothing for granted: it looks up the group, the argument and the slot, and has no
answer where one of them does not exist. On homes that can be reached it always has the answer of
`apply` (`applyChecked_eq`).
-/

namespace HomeControl

/-! ## Look-ups that may miss -/

namespace Device

/-- Writes a slot that has to exist. -/
def setSlot? (d : Device) (slot : Nat) (arg : UInt8) : Option Device :=
  if slot < d.params.length then some { d with params := d.params.set slot arg } else none

/-- Runs the effect of an operation; no answer if its slot or its argument does not exist. -/
def runChecked (d : Device) (op : Operation) (args : Bytes) : Option (Except DeviceError Device) :=
  match op.effect with
  | .enter target =>
    if d.state = target then some (.error (.alreadyInState d.name (d.kind.stateName target)))
    else some (.ok { d with state := target })
  | .adjust slot needs =>
    if d.state ≠ needs then some (.error (.invalidInState op.name d.name d.stateName))
    else do
      let arg ← args[0]?
      let d ← d.setSlot? slot arg
      return .ok d

/-- Applies an operation; no answer if its slot or its argument does not exist. -/
def applyChecked (d : Device) (opcode : UInt8) (args : Bytes) : Option (Except DeviceError Device) :=
  match d.kind.operation? opcode with
  | none => some (.error (.unknownOpcode d.kind opcode))
  | some op =>
    if args.length ≠ op.arguments.length then
      some (.error (.wrongArgumentCount op.name op.arguments.length args.length))
    else
      d.runChecked op args

variable {d : Device} {op : Operation} {args : Bytes}

theorem runChecked_eq (ho : op ∈ d.kind.operations) (h : d.Legal)
    (hargs : args.length = op.arguments.length) : d.runChecked op args = some (d.run op args) := by
  unfold runChecked run
  cases he : op.effect with
  | enter target =>
    by_cases hs : d.state = target
    · simp only [if_pos hs]
    · simp only [if_neg hs]
  | adjust slot needs =>
    by_cases hs : d.state = needs
    · obtain ⟨hslot, hone⟩ := d.kind.adjust_in_range op ho slot needs he
      obtain ⟨arg, rfl⟩ := List.length_eq_one_iff.1 (hargs.trans hone)
      have hlt : slot < d.params.length := by
        rw [h.2]
        exact hslot
      simp [hs, setSlot?, hlt]
    · simp [hs]

/-- On a legal device no look-up misses, whatever the operation. -/
theorem applyChecked_eq (h : d.Legal) (opcode : UInt8) (args : Bytes) :
    d.applyChecked opcode args = some (d.apply opcode args) := by
  unfold applyChecked apply
  cases ho : d.kind.operation? opcode with
  | none => rfl
  | some op =>
    by_cases hargs : args.length = op.arguments.length
    · simp only [hargs, ne_eq, not_true_eq_false, if_false]
      exact runChecked_eq (Kind.mem_operations ho) h hargs
    · simp only [ne_eq, hargs, not_false_eq_true, if_true]

end Device

namespace Home

/-- The groups, each at the place that its kind's code says. -/
def groups (h : Home) : List (List Device) :=
  Kind.all.map h.group

/-- Applies an action; no answer if a group, a slot or an argument is looked up that does not exist. -/
def applyChecked (h : Home) (a : Action) : Option (Except DeviceError Home) :=
  match Kind.ofCode? a.kind with
  | none => some (.error (.unknownKind a.kind))
  | some k => do
    let ds ← h.groups[a.kind.toNat]?
    match ds[a.index.toNat]? with
    | none => return .error (.unknownDevice k a.index)
    | some d =>
      match ← d.applyChecked a.opcode a.params with
      | .error e => return .error e
      | .ok d => return .ok (h.setGroup k (ds.set a.index.toNat d))

variable {h h' : Home} {k : Kind} {index : UInt8} {d : Device}

theorem getElem?_groups (h : Home) (k : Kind) : h.groups[k.code.toNat]? = some (h.group k) := by
  cases k <;> rfl

theorem mem_groups {c : Nat} {ds : List Device} (hc : h.groups[c]? = some ds) :
    ∃ k : Kind, k.code.toNat = c ∧ ds = h.group k := by
  obtain ⟨k, hk, rfl⟩ : ∃ k, Kind.all[c]? = some k ∧ h.group k = ds := by
    simpa [groups, List.getElem?_map] using hc
  refine ⟨k, ?_, rfl⟩
  have hcodes : ∀ c < Kind.all.length, Kind.all[c]?.map (fun k => k.code.toNat) = some c := by
    decide
  obtain ⟨hlt, -⟩ := List.getElem?_eq_some_iff.1 hk
  simpa [hk] using hcodes c hlt

/-- On a valid home no look-up misses, whatever the action. -/
theorem applyChecked_eq (hv : h.Valid) (a : Action) : h.applyChecked a = some (h.apply a) := by
  unfold applyChecked apply
  cases hk : Kind.ofCode? a.kind with
  | none => rfl
  | some k =>
    simp only [Kind.eq_code_of_ofCode? hk, getElem?_groups, device?, Option.bind_eq_bind,
      Option.bind_some]
    cases hd : (h.group k)[a.index.toNat]? with
    | none => rfl
    | some d =>
      obtain ⟨-, hlegal⟩ := hv.legal k d (List.mem_of_getElem? hd)
      simp only [Device.applyChecked_eq hlegal, Option.bind_some]
      cases d.apply a.opcode a.params <;> rfl

/-! ## What happens to a home -/

/-- What may happen to a home. -/
inductive Change where
  /-- A device is made and added. -/
  | add (kind : Kind) (name : String) (state : UInt8) (params : Bytes)
  | apply (a : Action)
  /-- The home is read anew. -/
  | read (snapshot : Bytes)
  deriving DecidableEq

/-- The home after a change; one that is refused changes nothing. -/
def change (h : Home) : Change → Home
  | .add kind name state params =>
    match Device.make kind name state params with
    | .error _ => h
    | .ok d =>
      match h.add d with
      | .error _ => h
      | .ok (h, _) => h
  | .apply a => h.applyOrKeep a
  | .read snapshot =>
    match ofSnapshot snapshot with
    | .error _ => h
    | .ok h => h

/-- The home after some changes, one after the other. -/
def changes (h : Home) (cs : List Change) : Home :=
  cs.foldl change h

/-- Some changes have led to the home. -/
def Reached (h : Home) : Prop :=
  ∃ cs, h = empty.changes cs

/-- Whatever happens to a home, it stays valid. -/
theorem Valid.change (hv : h.Valid) (c : Change) : (h.change c).Valid := by
  cases c with
  | add kind name state params =>
    rw [Home.change]
    split
    · exact hv
    · rename_i d hd
      split
      · exact hv
      · rename_i h' index ha
        exact hv.add (Device.make_legal hd) ha
  | apply a => exact hv.applyOrKeep a
  | read snapshot =>
    rw [Home.change]
    split
    · exact hv
    · rename_i h' hread
      obtain ⟨l, -, rfl⟩ := ofSnapshot_eq_ok.1 hread
      exact l.valid_home

theorem Valid.changes (hv : h.Valid) (cs : List Change) : (h.changes cs).Valid := by
  induction cs generalizing h with
  | nil => exact hv
  | cons c cs ih => exact ih (hv.change c)

/-- A home that can be reached is valid. -/
theorem Reached.valid (hr : h.Reached) : h.Valid := by
  obtain ⟨cs, rfl⟩ := hr
  exact valid_empty.changes cs

/-! ## The device at an index -/

end Home

/-- What a change does to the device at an index. -/
def Device.follow (k : Kind) (index : UInt8) (d : Device) : Home.Change → Device
  | .apply a =>
    if Kind.ofCode? a.kind = some k ∧ a.index = index then d.applyOrKeep a.opcode a.params else d
  | _ => d

namespace Home

variable {h h' : Home} {k : Kind} {index : UInt8} {d e : Device} {c : Change}

/-- A device is added if there is room for it, behind the others of its kind. -/
theorem add_eq_ok (ha : h.add d = .ok (h', index)) :
    (h.group d.kind).length < capacity ∧ h' = h.setGroup d.kind (h.group d.kind ++ [d]) ∧
      index = UInt8.ofNat (h.group d.kind).length := by
  simp only [add] at ha
  split at ha
  · rename_i hlt
    obtain ⟨rfl, rfl⟩ := Prod.mk.inj (Except.ok.inj ha)
    exact ⟨hlt, rfl, rfl⟩
  · cases ha

/-- A device is added behind the others of its kind. -/
theorem device?_add_self (ha : h.add d = .ok (h', index)) :
    index.toNat = (h.group d.kind).length ∧ h'.device? d.kind index = some d := by
  obtain ⟨hlt, rfl, rfl⟩ := add_eq_ok ha
  have hindex : (UInt8.ofNat (h.group d.kind).length).toNat = (h.group d.kind).length :=
    Utf8.toNat_ofNat_of_lt (by unfold capacity at hlt; omega)
  refine ⟨hindex, ?_⟩
  rw [device?, hindex, group_setGroup_self, List.getElem?_append_right (Nat.le_refl _), Nat.sub_self]
  rfl

theorem device?_add (hd : h.device? k index = some d) {i : UInt8} (ha : h.add e = .ok (h', i)) :
    h'.device? k index = some d := by
  obtain ⟨-, rfl, -⟩ := add_eq_ok ha
  rw [device?] at hd ⊢
  by_cases hk : k = e.kind
  · subst hk
    obtain ⟨hlt, -⟩ := List.getElem?_eq_some_iff.1 hd
    rw [group_setGroup_self, List.getElem?_append_left hlt, hd]
  · rw [group_setGroup_of_ne hk, hd]

/-- Unless the home is read anew, a change leaves the device at an index there, and the device follows
it. -/
theorem device?_change (hd : h.device? k index = some d) (hc : ∀ snapshot, c ≠ .read snapshot) :
    (h.change c).device? k index = some (d.follow k index c) := by
  cases c with
  | add kind name state params =>
    rw [change]
    split
    · exact hd
    · split
      · exact hd
      · rename_i h' i ha
        exact device?_add hd ha
  | apply a =>
    rw [device?] at hd
    rw [change, device?, getElem?_applyOrKeep, hd, Device.follow]
    simp only [UInt8.toNat_inj]
    split <;> rfl
  | read snapshot => exact absurd rfl (hc snapshot)

/-- Unless the home is read anew, the device at an index stays there, and only the actions that address
it change it. -/
theorem device?_changes {cs : List Change} (hd : h.device? k index = some d)
    (hcs : ∀ snapshot, .read snapshot ∉ cs) :
    (h.changes cs).device? k index = some (cs.foldl (Device.follow k index) d) := by
  induction cs generalizing h d with
  | nil => exact hd
  | cons c cs ih =>
    refine ih (device?_change hd ?_) fun snapshot hmem => hcs snapshot (List.mem_cons_of_mem _ hmem)
    rintro snapshot rfl
    exact hcs snapshot List.mem_cons_self

/-! ## Everything is in range -/

theorem toNat_count (hv : h.Valid) (k : Kind) :
    (UInt8.ofNat (h.group k).length).toNat = (h.group k).length :=
  Utf8.toNat_ofNat_of_lt (Nat.lt_succ_of_le (hv.size k))

/-- **Homes stay in range.** Take any home that can be reached. The group at a kind's code holds at most
255 devices, all of that kind, each in a state of the kind and with a byte for each of its slots. A
device that is added gets the next index of its kind, and unless the home is read anew it is the device
at that index from then on, changed by nothing but the actions that address it. The count bytes of the
snapshot are the sizes of the groups. And no action makes the home look up a group, a slot or an
argument that does not exist. -/
theorem reached_in_range (hr : h.Reached) :
    (∀ (c : Nat) (ds : List Device), h.groups[c]? = some ds → ds.length ≤ 255 ∧
      ∀ d ∈ ds, d.kind.code.toNat = c ∧ d.state.toNat < d.kind.states.length ∧
        d.params.length = d.kind.slots.length) ∧
    (∀ kind name state params d h' index, Device.make kind name state params = .ok d →
      h.add d = .ok (h', index) → index.toNat = (h.group kind).length ∧
        ∀ later : List Change, (∀ snapshot, .read snapshot ∉ later) →
          (h'.changes later).device? kind index = some (later.foldl (Device.follow kind index) d)) ∧
    (∃ count : Kind → UInt8, (∀ k, (count k).toNat = (h.group k).length) ∧
      h.snapshot = Kind.all.flatMap fun k => count k :: (h.group k).flatMap Device.record) ∧
    ∀ a, h.applyChecked a = some (h.apply a) := by
  have hv := hr.valid
  refine ⟨?_, ?_, ⟨_, toNat_count hv, rfl⟩, applyChecked_eq hv⟩
  · intro c ds hc
    obtain ⟨k, hk, rfl⟩ := mem_groups hc
    refine ⟨hv.size k, fun d hd => ?_⟩
    obtain ⟨rfl, hstate, hparams⟩ := hv.legal k d hd
    exact ⟨hk, hstate, hparams⟩
  · intro kind name state params d h' index hd ha
    obtain ⟨-, -, rfl⟩ := Device.make_eq_ok.1 hd
    obtain ⟨hindex, hdevice⟩ := device?_add_self ha
    exact ⟨hindex, fun later hlater => device?_changes hdevice hlater⟩

/-- A lamp joins one that is on, and is turned on where it was put, at index 1. -/
theorem reached_in_range_lamps :
    let study := empty.changes [.add .light "desk lamp" 0 [0], .apply ⟨0, 0, 0, 0, []⟩]
    let lamp : Device := { kind := .light, name := "floor lamp", state := 0, params := [0] }
    let later : List Change := [.apply ⟨1, 0, 1, 0, []⟩, .apply ⟨2, 0, 0, 2, [40]⟩]
    study.Reached ∧ ∃ h', study.add lamp = .ok (h', 1) ∧
      (h'.changes later).device? .light 1 = some { lamp with state := 1 } ∧
      study.applyChecked ⟨3, 0, 0, 2, [7, 7]⟩ = some (study.apply ⟨3, 0, 0, 2, [7, 7]⟩) := by
  intro study lamp later
  have hr : study.Reached := ⟨_, rfl⟩
  obtain ⟨-, hadded, -, hchecked⟩ := reached_in_range hr
  have hmake : Device.make .light "floor lamp" 0 [0] = .ok lamp := rfl
  have hadd : study.add lamp = .ok (study.setGroup .light (study.lights ++ [lamp]), 1) := rfl
  obtain ⟨-, hlater⟩ := hadded .light "floor lamp" 0 [0] lamp _ 1 hmake hadd
  exact ⟨hr, _, hadd, hlater later (by simp [later]), hchecked _⟩

end Home

end HomeControl

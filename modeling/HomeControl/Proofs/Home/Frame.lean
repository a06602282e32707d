import HomeControl.Proofs.Home.Reached

/-!
# Actions in place

A home can carry an action out in place: it finds the device and lets the operation write to it. What
has been written by then stays written if something is refused afterwards, so all depends on every
refusal coming before the first write. It does (`run_perform`): a home that refuses an action is left
as it was, and otherwise becomes what `apply` says. An accepted action then changes the device it names
and nothing else, and of that device the state or a single slot (`perform_frame`).
-/

namespace HomeControl

namespace Device

/-- Carries an operation out in place. -/
def perform (opcode : UInt8) (args : Bytes) : EStateM DeviceError Device Unit := do
  let d ← get
  match d.kind.operation? opcode with
  | none => throw (.unknownOpcode d.kind opcode)
  | some op =>
    if args.length ≠ op.arguments.length then
      throw (.wrongArgumentCount op.name op.arguments.length args.length)
    match op.effect with
    | .enter target =>
      if d.state = target then throw (.alreadyInState d.name (d.kind.stateName target))
      set { d with state := target }
    | .adjust slot needs =>
      if d.state ≠ needs then throw (.invalidInState op.name d.name d.stateName)
      match args with
      | arg :: _ => set { d with params := d.params.set slot arg }
      | [] => throw (.wrongArgumentCount op.name op.arguments.length 0)

theorem run_perform (d : Device) (opcode : UInt8) (args : Bytes) :
    (perform opcode args).run d =
      match d.apply opcode args with
      | .ok d' => .ok () d'
      | .error e => .error e d := by
  unfold perform apply
  simp only [EStateM.run_bind, EStateM.run_get]
  cases ho : d.kind.operation? opcode with
  | none => rfl
  | some op =>
    by_cases hargs : args.length = op.arguments.length
    · simp only [hargs, ne_eq, not_true_eq_false, if_false]
      unfold run
      cases he : op.effect with
      | enter target =>
        by_cases hs : d.state = target
        · simp [hs]
        · simp [hs]
      | adjust slot needs =>
        by_cases hs : d.state = needs
        · cases args <;> simp [hs]
        · simp [hs]
    · simp [hargs]

end Device

namespace Home

/-- Lets something happen in place to the device at an index, which has to exist. Whatever it comes to,
the home holds the device as it is then. -/
def atDevice (k : Kind) (index : UInt8) (x : EStateM DeviceError Device Unit) :
    EStateM DeviceError Home Unit := fun h =>
  match h.device? k index with
  | none => .error (.unknownDevice k index) h
  | some d =>
    match x.run d with
    | .ok _ d' => .ok () (h.setGroup k ((h.group k).set index.toNat d'))
    | .error e d' => .error e (h.setGroup k ((h.group k).set index.toNat d'))

/-- Carries an action out in place. -/
def perform (a : Action) : EStateM DeviceError Home Unit :=
  match Kind.ofCode? a.kind with
  | none => throw (.unknownKind a.kind)
  | some k => atDevice k a.index (Device.perform a.opcode a.params)

variable {h h' : Home} {a : Action}

/-- Nothing is written before everything has been checked. -/
theorem run_perform (h : Home) (a : Action) :
    (perform a).run h =
      match h.apply a with
      | .ok h' => .ok () h'
      | .error e => .error e h := by
  unfold perform apply
  cases hk : Kind.ofCode? a.kind with
  | none => rfl
  | some k =>
    have hat (x : EStateM DeviceError Device Unit) :
        (atDevice k a.index x).run h = atDevice k a.index x h := rfl
    simp only [hat, atDevice]
    cases hd : h.device? k a.index with
    | none => rfl
    | some d =>
      simp only [Device.run_perform]
      cases hda : d.apply a.opcode a.params with
      | ok d' => rfl
      | error e => simp only [setGroup_set_self hd]

theorem run_perform_eq_ok : (perform a).run h = .ok () h' ↔ h.apply a = .ok h' := by
  rw [run_perform]
  cases h.apply a with
  | ok h₁ => simp
  | error e => simp

theorem run_perform_eq_error {e : DeviceError} :
    (perform a).run h = .error e h' ↔ h.apply a = .error e ∧ h' = h := by
  rw [run_perform]
  cases h.apply a with
  | ok h₁ => simp
  | error e => simp [eq_comm]

/-- **Actions are all or nothing.** Take any home that can be reached and any action, carried out in
place. If it is refused, the home is what it was. If it is accepted, it names a device of the home, and
no other device differs afterwards. That device keeps its kind and name; either it is in another state
of its kind, with all parameters kept, or it is in the same state, and of its parameters only the one
in the operation's slot may differ, which is the action's single argument. The groups keep their
sizes and the order of their devices. -/
theorem perform_frame (hr : h.Reached) (a : Action) :
    (∀ e h', (perform a).run h = .error e h' → h.apply a = .error e ∧ h' = h) ∧
    ∀ h', (perform a).run h = .ok () h' → h.apply a = .ok h' ∧
      (∃ k d d' op, Kind.ofCode? a.kind = some k ∧ h.device? k a.index = some d ∧
        h'.device? k a.index = some d' ∧ d.kind.operation? a.opcode = some op ∧
        (∀ k' i, (k', i) ≠ (k, a.index.toNat) → (h'.group k')[i]? = (h.group k')[i]?) ∧
        (d'.kind = d.kind ∧ d'.name = d.name) ∧
        ((∃ target, op.effect = .enter target ∧ a.params = [] ∧ d.state ≠ target ∧
            target.toNat < d.kind.states.length ∧ d'.state = target ∧ d'.params = d.params) ∨
          ∃ slot needs arg, op.effect = .adjust slot needs ∧ a.params = [arg] ∧
            d'.state = d.state ∧ d'.params.length = d.params.length ∧
            d'.params[slot]? = some arg ∧ ∀ i, i ≠ slot → d'.params[i]? = d.params[i]?)) ∧
      ∀ k, (h'.group k).length = (h.group k).length ∧
        (h'.group k).map (fun d => (d.kind, d.name)) = (h.group k).map fun d => (d.kind, d.name) := by
  refine ⟨fun e h' => run_perform_eq_error.1, ?_⟩
  intro h' hok
  have ha := run_perform_eq_ok.1 hok
  refine ⟨ha, ?_⟩
  obtain ⟨k, d, d', hk, hd, hda, rfl⟩ := apply_eq_ok.1 ha
  obtain ⟨-, hlegal⟩ := hr.valid.legal k d (List.mem_of_getElem? hd)
  have hchanges := Device.apply_eq_ok.1 hda
  obtain ⟨hkind, hname⟩ := hchanges.kind_name
  have htag : (d'.kind, d'.name) = (d.kind, d.name) := by rw [hkind, hname]
  have hmap := map_setGroup_set (fun d => (d.kind, d.name)) hd htag
  have hsame (k' : Kind) (i : Nat) (hne : (k', i) ≠ (k, a.index.toNat)) :
      ((h.setGroup k ((h.group k).set a.index.toNat d')).group k')[i]? = (h.group k')[i]? :=
    getElem?_setGroup_set hne
  have hput := device?_setGroup_set hd d'
  refine ⟨?_, fun k' => ⟨?_, hmap k'⟩⟩
  · generalize a.params = args at hchanges ⊢
    cases hchanges with
    | @entered op target ho he hs =>
      obtain ⟨hrange, -⟩ := d.kind.enter_in_range op (Kind.mem_operations ho) target he
      exact ⟨k, d, _, op, hk, hd, hput, ho, hsame, ⟨hkind, hname⟩,
        Or.inl ⟨target, he, rfl, hs, hrange, rfl, rfl⟩⟩
    | @adjusted op slot needs arg ho he hs =>
      obtain ⟨hrange, -⟩ := d.kind.adjust_in_range op (Kind.mem_operations ho) slot needs he
      -- A reached home has a byte for each slot, so what is written can be read again.
      have hslot : slot < d.params.length := by
        rw [hlegal.2]
        exact hrange
      have hwritten : (d.params.set slot arg)[slot]? = some arg := List.getElem?_set_self hslot
      have hkept (i : Nat) (hi : i ≠ slot) : (d.params.set slot arg)[i]? = d.params[i]? :=
        List.getElem?_set_ne hi.symm
      exact ⟨k, d, _, op, hk, hd, hput, ho, hsame, ⟨hkind, hname⟩,
        Or.inr ⟨slot, needs, arg, he, rfl, rfl, List.length_set, hwritten, hkept⟩⟩
  · have hlength := congrArg List.length (hmap k')
    rwa [List.length_map, List.length_map] at hlength

/-- The desk lamp of a study is on; it is dimmed, which the second lamp, being off, does not allow. -/
theorem perform_frame_lamps :
    let lamp : Device := { kind := .light, name := "desk lamp", state := 1, params := [0] }
    let study := empty.changes [.add .light "desk lamp" 1 [0], .add .light "floor lamp" 0 [0]]
    study.Reached ∧
      (∃ e, (perform ⟨1, 0, 1, 2, [40]⟩).run study = .error e study ∧
        study.apply ⟨1, 0, 1, 2, [40]⟩ = .error e) ∧
      ∃ h' d', (perform ⟨2, 0, 0, 2, [40]⟩).run study = .ok () h' ∧
        h'.device? .light 0 = some d' ∧ d'.name = lamp.name ∧ d'.params[0]? = some 40 ∧
        h'.device? .light 1 = study.device? .light 1 := by
  intro lamp study
  have hr : study.Reached := ⟨_, rfl⟩
  have hlamp : study.device? .light 0 = some lamp := rfl
  obtain ⟨hrefused, -⟩ := perform_frame hr ⟨1, 0, 1, 2, [40]⟩
  obtain ⟨-, haccepted⟩ := perform_frame hr ⟨2, 0, 0, 2, [40]⟩
  obtain ⟨e, he⟩ : ∃ e, (perform ⟨1, 0, 1, 2, [40]⟩).run study = .error e study := ⟨_, rfl⟩
  obtain ⟨h', hh⟩ : ∃ h', (perform ⟨2, 0, 0, 2, [40]⟩).run study = .ok () h' := ⟨_, rfl⟩
  obtain ⟨-, ⟨k, d, d', op, hk, hd, hd', ho, hsame, ⟨-, hname⟩, heffect⟩, -⟩ := haccepted h' hh
  obtain rfl : Kind.light = k := Option.some.inj hk
  obtain rfl : lamp = d := Option.some.inj (hlamp.symm.trans hd)
  refine ⟨hr, ⟨e, he, (hrefused e study he).1⟩, h', d', hh, hd', hname, ?_, hsame .light 1 (by decide)⟩
  obtain rfl : Operation.adjust 2 "Dim" "Dim level" 0 1 = op := Option.some.inj ho
  rcases heffect with ⟨target, he, -⟩ | ⟨slot, needs, arg, he, hargs, -, -, hwritten, -⟩
  · cases he
  · obtain ⟨rfl, -⟩ := Effect.adjust.inj he
    obtain ⟨rfl, -⟩ := List.cons.inj hargs
    exact hwritten

end Home

end HomeControl

import HomeControl.Proofs.Home.Reached
import HomeControl.Proofs.Home.Simulation
import Mathlib.Data.List.Chain

/-!
# The history of a device

What becomes of a device under any actions can be told from those that name it, as if it were alone
(`device?_replay`, `filter_accepted`). Of these it accepts some. The states they enter never repeat one
after the other, and the last of them is the state it is in; each of its slots holds what was written
into it last (`device_history`).
-/

namespace HomeControl

/-- The action names the device of a kind at an index. -/
def Action.Names (k : Kind) (index : UInt8) (a : Action) : Prop :=
  Kind.ofCode? a.kind = some k ∧ a.index = index

instance (k : Kind) (index : UInt8) : DecidablePred (Action.Names k index) :=
  fun _ => inferInstanceAs (Decidable (_ ∧ _))

namespace Kind

/-- The state that an action enters on a device of the kind. -/
def target? (k : Kind) (a : Action) : Option UInt8 :=
  (k.operation? a.opcode).bind fun op => op.effect.target?

/-- The state in which a device of the kind has to be for an action that writes a slot. -/
def needs? (k : Kind) (a : Action) : Option UInt8 :=
  (k.operation? a.opcode).bind fun op =>
    match op.effect with
    | .enter _ => none
    | .adjust _ needs => some needs

/-- What an action writes into a slot of a device of the kind. -/
def written? (k : Kind) (slot : Nat) (a : Action) : Option UInt8 :=
  (k.operation? a.opcode).bind fun op => if op.effect.slot? = some slot then a.params.head? else none

end Kind

namespace Device

variable {d d' : Device} {k : Kind} {a : Action} {as : List Action} {slot : Nat} {value : UInt8}

/-- The device after some actions on it. -/
def replay (d : Device) (as : List Action) : Device :=
  as.foldl (fun d a => d.applyOrKeep a.opcode a.params) d

/-- The actions that a device accepts, one after the other. -/
def accepted (d : Device) : List Action → List Action
  | [] => []
  | a :: as =>
    match d.apply a.opcode a.params with
    | .ok d' => a :: d'.accepted as
    | .error _ => d.accepted as

/-! ## One action -/

/-- An accepted action changes the state to the one it enters, if it enters one. -/
theorem Changes.state_eq (h : d.Changes a.opcode a.params d') :
    d'.state = (d.kind.target? a).getD d.state := by
  generalize hp : a.params = args at h
  cases h with
  | entered ho he hs => simp [Kind.target?, ho, he, Effect.target?]
  | adjusted ho he hs => simp [Kind.target?, ho, he, Effect.target?]

theorem Changes.target_ne (h : d.Changes a.opcode a.params d') {target : UInt8}
    (ht : d.kind.target? a = some target) : d.state ≠ target := by
  generalize hp : a.params = args at h
  cases h with
  | entered ho he hs =>
    obtain rfl : _ = target := by simpa [Kind.target?, ho, he, Effect.target?] using ht
    exact hs
  | adjusted ho he hs => simp [Kind.target?, ho, he, Effect.target?] at ht

theorem Changes.needs_eq (h : d.Changes a.opcode a.params d') {needs : UInt8}
    (hn : d.kind.needs? a = some needs) : d.state = needs := by
  generalize hp : a.params = args at h
  cases h with
  | entered ho he hs => simp [Kind.needs?, ho, he] at hn
  | adjusted ho he hs =>
    obtain rfl : _ = needs := by simpa [Kind.needs?, ho, he] using hn
    exact hs

/-- An accepted action changes a slot to what it writes there, if it writes there. -/
theorem Changes.param_eq (h : d.Changes a.opcode a.params d') (hv : d.params[slot]? = some value) :
    d'.params[slot]? = some ((d.kind.written? slot a).getD value) := by
  generalize hp : a.params = args at h
  cases h with
  | entered ho he hs => simpa [Kind.written?, ho, he, Effect.slot?] using hv
  | @adjusted op slot' needs arg ho he hs =>
    obtain ⟨hlt, -⟩ := List.getElem?_eq_some_iff.1 hv
    by_cases hslot : slot' = slot
    · subst hslot
      simp [Kind.written?, ho, he, Effect.slot?, hp, hlt]
    · simp [Kind.written?, ho, he, Effect.slot?, hslot, hv, List.getElem?_set_ne hslot]

/-! ## All actions -/

theorem accepted_cons_of_ok (ha : d.apply a.opcode a.params = .ok d') :
    d.accepted (a :: as) = a :: d'.accepted as := by
  rw [accepted, ha]

theorem replay_cons_of_ok (ha : d.apply a.opcode a.params = .ok d') :
    d.replay (a :: as) = d'.replay as := by
  rw [replay, List.foldl_cons, applyOrKeep, ha]
  rfl

theorem accepted_cons_of_error {e : DeviceError} (ha : d.apply a.opcode a.params = .error e) :
    d.accepted (a :: as) = d.accepted as := by
  rw [accepted, ha]

theorem replay_cons_of_error {e : DeviceError} (ha : d.apply a.opcode a.params = .error e) :
    d.replay (a :: as) = d.replay as := by
  rw [replay, List.foldl_cons, applyOrKeep, ha]
  rfl

theorem kind_name_replay (d : Device) (as : List Action) :
    (d.replay as).kind = d.kind ∧ (d.replay as).name = d.name := by
  induction as generalizing d with
  | nil => exact ⟨rfl, rfl⟩
  | cons a as ih =>
    cases ha : d.apply a.opcode a.params with
    | error e =>
      rw [replay_cons_of_error ha]
      exact ih d
    | ok d' =>
      obtain ⟨hkind, hname⟩ := (apply_eq_ok.1 ha).kind_name
      rw [replay_cons_of_ok ha, ← hkind, ← hname]
      exact ih d'

/-- The states that are entered never repeat one after the other. -/
theorem targets_isChain (d : Device) (as : List Action) :
    (d.state :: (d.accepted as).filterMap d.kind.target?).IsChain (· ≠ ·) := by
  induction as generalizing d with
  | nil => exact List.isChain_singleton _
  | cons a as ih =>
    cases ha : d.apply a.opcode a.params with
    | error e =>
      rw [accepted_cons_of_error ha]
      exact ih d
    | ok d' =>
      have hchanges := apply_eq_ok.1 ha
      have hrest := ih d'
      rw [hchanges.kind_name.1, hchanges.state_eq] at hrest
      rw [accepted_cons_of_ok ha]
      cases ht : d.kind.target? a with
      | none =>
        -- An adjustment enters nothing, and the chain goes on from the same state.
        rw [List.filterMap_cons_none ht]
        rwa [ht, Option.getD_none] at hrest
      | some target =>
        rw [List.filterMap_cons_some ht, List.isChain_cons_cons]
        rw [ht, Option.getD_some] at hrest
        exact ⟨hchanges.target_ne ht, hrest⟩

/-- What every accepted action changes to what it writes, if it writes anything, is in the end what was
written last. -/
theorem read_replay (read : Device → Option UInt8) (written? : Kind → Action → Option UInt8)
    (hstep : ∀ {d a d' value}, d.Changes a.opcode a.params d' → read d = some value →
      read d' = some ((written? d.kind a).getD value))
    (hv : read d = some value) (as : List Action) :
    read (d.replay as) = some (((d.accepted as).filterMap (written? d.kind)).getLast?.getD value) := by
  induction as generalizing d value with
  | nil => exact hv
  | cons a as ih =>
    cases ha : d.apply a.opcode a.params with
    | error e =>
      rw [replay_cons_of_error ha, accepted_cons_of_error ha]
      exact ih hv
    | ok d' =>
      have hchanges := apply_eq_ok.1 ha
      have hrest := ih (hstep hchanges hv)
      rw [hchanges.kind_name.1] at hrest
      rw [replay_cons_of_ok ha, accepted_cons_of_ok ha, hrest]
      cases hw : written? d.kind a with
      | none => rw [List.filterMap_cons_none hw, Option.getD_none]
      | some w => rw [List.filterMap_cons_some hw, List.getLast?_cons, Option.getD_some, Option.getD_some]

theorem state_replay (d : Device) (as : List Action) :
    (d.replay as).state = ((d.accepted as).filterMap d.kind.target?).getLast?.getD d.state := by
  have hread := read_replay (fun d => some d.state) Kind.target?
    (fun h hv => by rw [h.state_eq, Option.some.inj hv]) (d := d) rfl as
  exact Option.some.inj hread

theorem param_replay (hv : d.params[slot]? = some value) (as : List Action) :
    (d.replay as).params[slot]? =
      some (((d.accepted as).filterMap (d.kind.written? slot)).getLast?.getD value) :=
  read_replay (fun d => d.params[slot]?) (fun k => k.written? slot) Changes.param_eq hv as

/-- Actions that all enter the same state are not accepted one after the other. -/
theorem length_accepted_le (target : UInt8)
    (ht : ∀ a ∈ d.accepted as, d.kind.target? a = some target) : (d.accepted as).length ≤ 1 := by
  have hchain := d.targets_isChain as
  rcases hacc : d.accepted as with _ | ⟨a, _ | ⟨b, rest⟩⟩
  · simp
  · simp
  · have ha : d.kind.target? a = some target := ht a (by simp [hacc])
    have hb : d.kind.target? b = some target := ht b (by simp [hacc])
    rw [hacc, List.filterMap_cons_some ha, List.filterMap_cons_some hb, List.isChain_cons_cons,
      List.isChain_cons_cons] at hchain
    exact absurd rfl hchain.2.1

end Device

namespace Home

variable {h : Home} {k : Kind} {index : UInt8} {d : Device}

/-! ## The device in its home -/

theorem device?_applyOrKeep (hd : h.device? k index = some d) (a : Action) :
    (h.applyOrKeep a).device? k index =
      some (if a.Names k index then d.applyOrKeep a.opcode a.params else d) := by
  have hfollow := device?_change (c := .apply a) hd (by simp)
  exact hfollow

/-- What stands at a position after some actions is what those on it make of what stood there. -/
theorem getElem?_replay (h : Home) (as : List Action) (k : Kind) (n : Nat) :
    ((h.replay as).group k)[n]? = ((h.group k)[n]?).map fun d =>
      d.replay (as.filter fun a => Kind.ofCode? a.kind = some k ∧ a.index.toNat = n) := by
  induction as generalizing h with
  | nil => simp [Device.replay]
  | cons a as ih =>
    rw [replay_cons, ih, getElem?_applyOrKeep]
    by_cases ha : Kind.ofCode? a.kind = some k ∧ a.index.toNat = n
    · rw [if_pos ha, List.filter_cons_of_pos (by simpa using ha), Option.map_map]
      rfl
    · rw [if_neg ha, List.filter_cons_of_neg (by simpa using ha)]

theorem device?_replay (hd : h.device? k index = some d) (as : List Action) :
    (h.replay as).device? k index = some (d.replay (as.filter (Action.Names k index))) := by
  have hnames : as.filter (fun a => Kind.ofCode? a.kind = some k ∧ a.index.toNat = index.toNat) =
      as.filter (Action.Names k index) := by
    refine List.filter_congr fun a _ => ?_
    rw [decide_eq_decide, UInt8.toNat_inj]
    exact Iff.rfl
  rw [device?] at hd ⊢
  rw [getElem?_replay, hd, Option.map_some, hnames]

/-- Of the actions that name a device, the home accepts those that the device accepts. -/
theorem filter_accepted (hd : h.device? k index = some d) (as : List Action) :
    (h.accepted as).filter (Action.Names k index) = d.accepted (as.filter (Action.Names k index)) := by
  induction as generalizing h d with
  | nil => rfl
  | cons a as ih =>
    have hnext := device?_applyOrKeep hd a
    have hrest := ih hnext
    by_cases ha : a.Names k index
    · rw [if_pos ha] at hrest
      have hh := apply_of_device? ha.1 ha.2 hd
      rw [List.filter_cons_of_pos (by simpa using ha), accepted]
      rw [applyOrKeep, Device.applyOrKeep] at hrest
      cases hda : d.apply a.opcode a.params with
      | error e =>
        rw [hda] at hh
        simp only [hh, hda, Except.map] at hrest ⊢
        rw [Device.accepted_cons_of_error hda, hrest]
      | ok d' =>
        rw [hda] at hh
        simp only [hh, hda, Except.map] at hrest ⊢
        rw [Device.accepted_cons_of_ok hda, List.filter_cons_of_pos (by simpa using ha), hrest]
    · rw [if_neg ha] at hrest
      rw [List.filter_cons_of_neg (by simpa using ha), ← hrest, accepted, applyOrKeep]
      cases h.apply a with
      | error e => rfl
      | ok h' => rw [List.filter_cons_of_neg (by simpa using ha)]

/-- **The history of a device.** Take any home, any device in it and any actions, applied one after the
other. The device keeps its kind and name. Of the actions that name it, look at those that are accepted:
the states they enter differ from the first state at first and from the one entered before them
afterwards, and the state in the end is the one entered last; each parameter is in the end what was
written into its slot last; and whenever one is accepted that needs a state, the device is in that
state. So of any identical actions that enter a state, with no other action accepted on the device in
between, at most one is accepted. -/
theorem device_history (hd : h.device? k index = some d) (as : List Action) :
    let accepted := (h.accepted as).filter (Action.Names k index)
    let targets := accepted.filterMap d.kind.target?
    ∃ d', (h.replay as).device? k index = some d' ∧ (d'.kind = d.kind ∧ d'.name = d.name) ∧
      (d.state :: targets).IsChain (· ≠ ·) ∧
      d'.state = targets.getLast?.getD d.state ∧
      (∀ slot value, d.params[slot]? = some value →
        d'.params[slot]? = some ((accepted.filterMap (d.kind.written? slot)).getLast?.getD value)) ∧
      (∀ before a after h', as = before ++ a :: after → a.Names k index →
        (h.replay before).apply a = .ok h' → ∀ needs, d.kind.needs? a = some needs →
          ∃ e, (h.replay before).device? k index = some e ∧ e.state = needs) ∧
      ∀ before between after a, as = before ++ between ++ after → (d.kind.target? a).isSome →
        let taken := ((h.replay before).accepted between).filter (Action.Names k index)
        (∀ b ∈ taken, b.target = a.target) → taken.length ≤ 1 := by
  intro accepted targets
  have hacc : accepted = d.accepted (as.filter (Action.Names k index)) := filter_accepted hd as
  have htargets : targets =
      (d.accepted (as.filter (Action.Names k index))).filterMap d.kind.target? := by rw [← hacc]
  refine ⟨_, device?_replay hd as, Device.kind_name_replay d _, ?_, ?_, ?_, ?_, ?_⟩
  · rw [htargets]
    exact d.targets_isChain _
  · rw [htargets]
    exact d.state_replay _
  · intro slot value hv
    rw [hacc]
    exact Device.param_replay hv _
  · intro before a after h' _ ha hh needs hn
    have hbefore := device?_replay hd before
    refine ⟨_, hbefore, ?_⟩
    rw [← (d.kind_name_replay (before.filter (Action.Names k index))).1] at hn
    rw [apply_of_device? ha.1 ha.2 hbefore] at hh
    cases hda : (d.replay (before.filter (Action.Names k index))).apply a.opcode a.params with
    | error e => rw [hda] at hh; cases hh
    | ok d' => exact (Device.apply_eq_ok.1 hda).needs_eq hn
  · intro before between after a _ ht taken hsame
    obtain ⟨target, ht⟩ := Option.isSome_iff_exists.1 ht
    have hbefore := device?_replay hd before
    have htaken : taken = _ := filter_accepted hbefore between
    rw [htaken]
    refine Device.length_accepted_le target ?_
    intro b hb
    have hopcode : b.opcode = a.opcode := by
      have htarget := hsame b (htaken ▸ hb)
      simp only [Action.target, List.cons.injEq] at htarget
      exact htarget.2.2.1
    rw [(d.kind_name_replay _).1, Kind.target?, hopcode]
    exact ht

/-- Two people turn a lamp on, one of them dims it, and it is turned off before the other one dims it:
the second "on" and the second "dim" are refused. -/
theorem device_history_lamp :
    let lamp : Device := { kind := .light, name := "desk lamp", state := 0, params := [0] }
    let study : Home := { lights := [lamp] }
    let as : List Action :=
      [⟨0, 0, 0, 0, []⟩, ⟨7, 0, 0, 0, []⟩, ⟨1, 0, 0, 2, [40]⟩, ⟨2, 0, 0, 1, []⟩, ⟨8, 0, 0, 2, [90]⟩]
    study.device? .light 0 = some lamp ∧
      ∃ d', (study.replay as).device? .light 0 = some d' ∧ d'.state = 0 ∧ d'.params[0]? = some 40 := by
  intro lamp study as
  have hd : study.device? .light 0 = some lamp := rfl
  obtain ⟨d', hd', -, -, hstate, hparams, -, -⟩ := device_history hd as
  have hsteps : (study.accepted as).filter (Action.Names .light 0) =
      [⟨0, 0, 0, 0, []⟩, ⟨1, 0, 0, 2, [40]⟩, ⟨2, 0, 0, 1, []⟩] := by decide
  rw [hsteps] at hstate hparams
  exact ⟨hd, d', hd', hstate, hparams 0 0 rfl⟩

end Home

end HomeControl

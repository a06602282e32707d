import HomeControl.Proofs.Home.Snapshot

/-!
# Mirrors simulate the home

A home that has been read from a snapshot takes every action that the home of the snapshot takes, and
becomes what a snapshot of that home shows then; the names it lost on the way do not matter, since no
operation looks at a name or changes one. So a snapshot with the accepted actions since is as good as
a snapshot taken now (`snapshot_simulates`).
-/

namespace HomeControl

namespace Device

variable {d d' : Device} {opcode : UInt8} {args : Bytes}

/-- A device is shown to do what it does: no operation looks at the name, and what is shown of a name
depends on nothing else. -/
theorem Changes.shown (h : d.Changes opcode args d') : d.shown.Changes opcode args d'.shown := by
  cases h with
  | @entered op target ho he hs =>
    have hshown : ({ d with state := target } : Device).shown = { d.shown with state := target } := by
      simp only [shown, nameField]
    rw [hshown]
    rw [← shown_kind] at ho
    rw [← shown_state] at hs
    exact .entered ho he hs
  | @adjusted op slot needs arg ho he hs =>
    have hshown : ({ d with params := d.params.set slot arg } : Device).shown =
        { d.shown with params := d.shown.params.set slot arg } := by
      simp only [shown, nameField]
    rw [hshown]
    rw [← shown_kind] at ho
    rw [← shown_state] at hs
    exact .adjusted ho he hs

end Device

namespace Home

variable {h h' : Home} {a : Action}

theorem shown_setGroup (h : Home) (k : Kind) (ds : List Device) :
    (h.setGroup k ds).shown = h.shown.setGroup k (ds.map Device.shown) := by
  refine ext_group ?_
  intro k'
  by_cases hk : k' = k
  · subst hk
    rw [group_shown, group_setGroup_self, group_setGroup_self]
  · rw [group_shown, group_setGroup_of_ne hk, group_setGroup_of_ne hk, group_shown]

/-- What a home accepts, its mirror accepts, and it stays the mirror. -/
theorem apply_shown (ha : h.apply a = .ok h') : h.shown.apply a = .ok h'.shown := by
  obtain ⟨k, d, d', hk, hd, hda, rfl⟩ := apply_eq_ok.1 ha
  have hd' : h.shown.device? k a.index = some d.shown := by
    rw [device?, group_shown, List.getElem?_map, ← device?, hd, Option.map_some]
  refine apply_eq_ok.2 ⟨k, d.shown, d'.shown, hk, hd', (Device.apply_eq_ok.1 hda).shown.apply, ?_⟩
  rw [shown_setGroup, List.map_set, group_shown]

/-- The actions that a home accepts, one after the other. -/
def accepted (h : Home) : List Action → List Action
  | [] => []
  | a :: as =>
    match h.apply a with
    | .ok h' => a :: h'.accepted as
    | .error _ => h.accepted as

/-- The mirror accepts all that the home accepts of some actions. -/
theorem foldlM_accepted_shown (h : Home) (as : List Action) :
    (h.accepted as).foldlM apply h.shown = .ok (h.replay as).shown := by
  induction as generalizing h with
  | nil => rfl
  | cons a as ih =>
    rw [accepted, replay_cons, applyOrKeep]
    cases ha : h.apply a with
    | error e => exact ih h
    | ok h' =>
      simp only [List.foldlM_cons, apply_shown ha]
      exact ih h'

/-- **Snapshots and what follows.** Take any home that has been built device by device, whatever the
names, and any actions. Its snapshot can be read; what has been read accepts, step by step, exactly the
actions that the home accepts, and is then equal to what is read from a snapshot taken after them. -/
theorem snapshot_simulates (hb : h.Built) (as : List Action) :
    ∃ mirror mirror', ofSnapshot h.snapshot = .ok mirror ∧
      (h.accepted as).foldlM apply mirror = .ok mirror' ∧
      ofSnapshot (h.replay as).snapshot = .ok mirror' :=
  ⟨h.shown, (h.replay as).shown, ofSnapshot_snapshot hb.valid, foldlM_accepted_shown h as,
    ofSnapshot_snapshot (hb.valid.replay as)⟩

/-- A lamp whose name does not fit its field is turned on, on once more, which is refused, and dimmed. -/
theorem snapshot_simulates_lamp :
    let lamp : Device := { kind := .light, name := "lamp on the desk in the study", state := 0, params := [0] }
    let on : Action := { sequence := 0, kind := 0, index := 0, opcode := 0, params := [] }
    let dim : Action := { sequence := 1, kind := 0, index := 0, opcode := 2, params := [40] }
    let study : Home := { lights := [lamp] }
    study.Built ∧ study.accepted [on, on, dim] = [on, dim] ∧
      ∃ mirror mirror', ofSnapshot study.snapshot = .ok mirror ∧
        [on, dim].foldlM apply mirror = .ok mirror' ∧
        ofSnapshot (study.replay [on, on, dim]).snapshot = .ok mirror' := by
  intro lamp on dim study
  have hmake : Device.make .light "lamp on the desk in the study" 0 [0] = .ok lamp := rfl
  have hadd : empty.add lamp = .ok (study, 0) := rfl
  have hb : study.Built := .add .empty hmake hadd
  have hacc : study.accepted [on, on, dim] = [on, dim] := by decide
  obtain ⟨mirror, mirror', hread, hsteps, hnow⟩ := snapshot_simulates hb [on, on, dim]
  rw [hacc] at hsteps
  exact ⟨hb, hacc, mirror, mirror', hread, hsteps, hnow⟩

end Home

end HomeControl

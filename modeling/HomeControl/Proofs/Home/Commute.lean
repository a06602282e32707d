import HomeControl.Proofs.Home.DeviceHistory
import HomeControl.Proofs.Home.Frame
import Mathlib.Data.List.FinRange
import Mathlib.Data.List.Sort
import Mathlib.Logic.Equiv.Fin.Rotate

/-!
# Actions on different devices

What becomes of an action depends on the actions before it that name the same device, and on no others
(`verdict_replay_congr`); what becomes of a device, on the actions that name it. So actions on different
devices commute, and a list of actions may be put into any order in which the actions on each device
come as they did before: each of them fares the same, and so does the home (`actions_commute`).
-/

namespace HomeControl

namespace Action

variable {a b c : Action}

theorem SameDevice.symm (h : a.SameDevice b) : b.SameDevice a :=
  ⟨h.1.symm, h.2.symm⟩

theorem SameDevice.trans (h : a.SameDevice b) (h' : b.SameDevice c) : a.SameDevice c :=
  ⟨h.1.trans h'.1, h.2.trans h'.2⟩

theorem sameDevice_iff {k : Kind} (hk : Kind.ofCode? a.kind = some k) :
    a.SameDevice b ↔ Kind.ofCode? b.kind = some k ∧ b.index.toNat = a.index.toNat := by
  rw [UInt8.toNat_inj]
  constructor
  · rintro ⟨hkind, hindex⟩
    exact ⟨hkind ▸ hk, hindex.symm⟩
  · rintro ⟨hk', hindex⟩
    exact ⟨Kind.ofCode?_inj hk hk', hindex.symm⟩

end Action

/-! ## Reorderings -/

/-- A list of actions put into another order, in which the actions on each device come as they did. -/
structure Reordering (as bs : List Action) where
  /-- Where each action has gone. -/
  place : Fin as.length ≃ Fin bs.length
  same : ∀ i, bs[place i] = as[i]
  order : ∀ i j, i < j → as[i].SameDevice as[j] → place i < place j

namespace Reordering

variable {as bs : List Action} {p : Action → Bool} {m n : Nat}

/-- The positions, among the first `n` of a list, of the actions that satisfy a predicate. -/
def positions (p : Action → Bool) (n : Nat) (as : List Action) : List (Fin as.length) :=
  ((List.finRange as.length).take n).filter fun i => p as[i]

theorem sortedLT_positions (p : Action → Bool) (n : Nat) (as : List Action) :
    (positions p n as).SortedLT :=
  ((List.pairwise_lt_finRange _).take.filter _).sortedLT

theorem mem_positions {i : Fin as.length} : i ∈ positions p n as ↔ i < n ∧ p as[i] := by
  have htake : i ∈ (List.finRange as.length).take n ↔ i < n := by
    rw [List.mem_take_iff_getElem]
    constructor
    · rintro ⟨j, hj, rfl⟩
      simpa using (Nat.lt_min.1 hj).1
    · intro hi
      exact ⟨i, by simpa using hi, by simp⟩
  rw [positions, List.mem_filter, htake]

theorem map_get_positions (p : Action → Bool) (n : Nat) (as : List Action) :
    (positions p n as).map as.get = (as.take n).filter p := by
  have hget : (fun i : Fin as.length => p as[i]) = p ∘ as.get := rfl
  rw [positions, hget, ← List.filter_map, List.map_take, List.map_get_finRange]

/-- A reordering keeps the order of actions on the same device. -/
theorem place_lt_iff (r : Reordering as bs) {i j : Fin as.length} (hij : as[i].SameDevice as[j]) :
    r.place j < r.place i ↔ j < i := by
  constructor
  · intro h
    by_contra hn
    rcases (not_lt.1 hn).lt_or_eq with hlt | rfl
    · exact absurd (r.order i j hlt hij) h.asymm
    · exact lt_irrefl _ h
  · exact fun h => r.order j i h hij.symm

section

variable (hp : ∀ a b, p a → p b → a.SameDevice b)
include hp

/-- The actions on one device keep their order, so their places are listed in order too. -/
theorem map_place (r : Reordering as bs) (hmn : ∀ i, p as[i] → (r.place i < n ↔ i < m)) :
    (positions p m as).map r.place = positions p n bs := by
  -- Both lists are strictly increasing, so it is enough that they have the same members.
  refine List.SortedLT.eq_of_mem_iff ?_ (sortedLT_positions p n bs) ?_
  · refine List.Pairwise.sortedLT (List.pairwise_map.2 ?_)
    refine (sortedLT_positions p m as).pairwise.imp_of_mem ?_
    intro i j hi hj hij
    exact r.order i j hij (hp _ _ (mem_positions.1 hi).2 (mem_positions.1 hj).2)
  · intro i'
    obtain ⟨i, rfl⟩ := r.place.surjective i'
    rw [List.mem_map_of_injective r.place.injective, mem_positions, mem_positions, r.same]
    constructor
    · rintro ⟨hi, hpi⟩
      exact ⟨(hmn i hpi).2 hi, hpi⟩
    · rintro ⟨hi, hpi⟩
      exact ⟨(hmn i hpi).1 hi, hpi⟩

/-- If two beginnings hold the same actions on a device, they hold them in the same order. -/
theorem filter_take (r : Reordering as bs) (hmn : ∀ i, p as[i] → (r.place i < n ↔ i < m)) :
    (bs.take n).filter p = (as.take m).filter p := by
  have hget : bs.get ∘ r.place = as.get := funext r.same
  rw [← map_get_positions, ← map_get_positions, ← r.map_place hp hmn, List.map_map, hget]

/-- So the actions on a device come in the order in which they came. -/
theorem filter_eq (r : Reordering as bs) : bs.filter p = as.filter p := by
  have hall := r.filter_take hp (m := as.length) (n := bs.length) fun i _ =>
    ⟨fun _ => i.isLt, fun _ => (r.place i).isLt⟩
  rwa [List.take_length, List.take_length] at hall

end

/-- Before an action stand the same actions on its device as before. -/
theorem filter_before (r : Reordering as bs) (i : Fin as.length) :
    (bs.take (r.place i)).filter (as[i].SameDevice ·) = (as.take i).filter (as[i].SameDevice ·) := by
  refine r.filter_take ?_ ?_
  · intro a b ha hb
    exact (of_decide_eq_true ha).symm.trans (of_decide_eq_true hb)
  · intro j hj
    exact r.place_lt_iff (of_decide_eq_true hj)

end Reordering

namespace Home

variable {as bs : List Action} {a b : Action}

/-! ## Trying actions -/

/-- Tries an action in place, and tells what becomes of it. -/
def attempt (a : Action) : StateM Home (Except DeviceError Unit) := fun h =>
  match (perform a).run h with
  | .ok _ h' => (.ok (), h')
  | .error e h' => (.error e, h')

/-- What becomes of an action. -/
def verdict (h : Home) (a : Action) : Except DeviceError Unit :=
  (h.apply a).map fun _ => ()

/-- What becomes of actions that are tried one after the other. -/
def verdicts (h : Home) : List Action → List (Except DeviceError Unit)
  | [] => []
  | a :: as => h.verdict a :: (h.applyOrKeep a).verdicts as

/-- An attempt says what comes of the action, and leaves the home with or without it. -/
theorem run_attempt (h : Home) (a : Action) : (attempt a).run h = (h.verdict a, h.applyOrKeep a) := by
  have hrun : (attempt a).run h = attempt a h := rfl
  rw [hrun, attempt, run_perform, verdict, applyOrKeep]
  cases h.apply a <;> rfl

/-- Attempts one after the other are a replay that says what came of each action. -/
theorem run_mapM_attempt (h : Home) (as : List Action) :
    (as.mapM attempt).run h = (h.verdicts as, h.replay as) := by
  induction as generalizing h with
  | nil => rfl
  | cons a as ih =>
    simp only [List.mapM_cons, StateT.run_bind, run_attempt, ih, verdicts, replay_cons]
    rfl

theorem length_verdicts (h : Home) (as : List Action) : (h.verdicts as).length = as.length := by
  induction as generalizing h with
  | nil => rfl
  | cons a as ih => rw [verdicts, List.length_cons, ih, List.length_cons]

/-- What comes of an action depends on the home as the actions before it have left it. -/
theorem getElem?_verdicts (h : Home) (as : List Action) (n : Nat) :
    (h.verdicts as)[n]? = as[n]?.map (h.replay (as.take n)).verdict := by
  induction as generalizing h n with
  | nil => rfl
  | cons a as ih =>
    cases n with
    | zero => rfl
    | succ n => exact ih (h.applyOrKeep a) n

/-! ## What an action depends on -/

/-- What comes of an action is what comes of it on the device that it is about. -/
theorem verdict_eq (h : Home) (a : Action) : h.verdict a =
    match Kind.ofCode? a.kind with
    | none => .error (.unknownKind a.kind)
    | some k =>
      match h.device? k a.index with
      | none => .error (.unknownDevice k a.index)
      | some d => (d.apply a.opcode a.params).map fun _ => () := by
  unfold verdict apply
  cases Kind.ofCode? a.kind with
  | none => rfl
  | some k =>
    simp only
    cases h.device? k a.index with
    | none => rfl
    | some d => cases hd : d.apply a.opcode a.params <;> simp [hd, Except.map]

/-- Of the actions before it, only those on the same device matter to an action. -/
theorem verdict_replay_congr (h : Home)
    (hf : as.filter (a.SameDevice ·) = bs.filter (a.SameDevice ·)) :
    (h.replay as).verdict a = (h.replay bs).verdict a := by
  rw [verdict_eq, verdict_eq]
  cases hk : Kind.ofCode? a.kind with
  | none => rfl
  | some k =>
    simp only [Action.sameDevice_iff hk] at hf
    have hd : (h.replay as).device? k a.index = (h.replay bs).device? k a.index := by
      rw [device?, device?, getElem?_replay, getElem?_replay, hf]
    simp only [hd]

/-- An action on another device makes no difference to it. -/
theorem verdict_applyOrKeep (h : Home) (hab : ¬ a.SameDevice b) :
    (h.applyOrKeep a).verdict b = h.verdict b := by
  have hba : ¬ b.SameDevice a := fun hba => hab hba.symm
  have hfilter : [a].filter (b.SameDevice ·) = ([] : List Action).filter (b.SameDevice ·) := by
    simp [hba]
  exact verdict_replay_congr h hfilter

/-- Each action comes to the same wherever the reordering has put it. -/
theorem verdicts_reorder (h : Home) (r : Reordering as bs) (i : Fin as.length) :
    (h.verdicts bs)[r.place i]? = (h.verdicts as)[i]? := by
  have hsame : bs[(r.place i).val]? = some as[i] := by
    rw [List.getElem?_eq_getElem (r.place i).isLt]
    exact congrArg some (r.same i)
  have hhere : as[i.val]? = some as[i] := List.getElem?_eq_getElem i.isLt
  rw [Fin.getElem?_fin, Fin.getElem?_fin, getElem?_verdicts, getElem?_verdicts, hsame, hhere,
    Option.map_some, Option.map_some, verdict_replay_congr h (r.filter_before i)]

theorem replay_reorder (h : Home) (r : Reordering as bs) : h.replay bs = h.replay as := by
  refine ext_group fun k => List.ext_getElem? fun n => ?_
  rw [getElem?_replay, getElem?_replay, r.filter_eq]
  -- Actions that name this group and index name one device, so their order is kept.
  intro a b ha hb
  obtain ⟨hka, hna⟩ := of_decide_eq_true ha
  obtain ⟨hkb, hnb⟩ := of_decide_eq_true hb
  exact (Action.sameDevice_iff hka).2 ⟨hkb, hnb.trans hna.symm⟩

/-- **Actions on different devices commute.** Take any home. Two actions that do not name the same
device fare the same in either order, accepted or refused with the same error, and leave the same home.
And if a list of actions is put into another order in which the actions on each device come as they did,
every action fares in its new place as it did in its old one, and the home is the same in the end. -/
theorem actions_commute :
    (∀ a b : Action, ¬ a.SameDevice b →
      (do let x ← attempt a; let y ← attempt b; return (x, y) : StateM Home _) =
        do let y ← attempt b; let x ← attempt a; return (x, y)) ∧
    ∀ {as bs : List Action} (r : Reordering as bs) (h : Home), ∃ xs ys h',
      (as.mapM attempt).run h = (xs, h') ∧ (bs.mapM attempt).run h = (ys, h') ∧
        xs.length = as.length ∧ ∀ i, ys[r.place i]? = xs[i]? := by
  constructor
  · intro a b hab
    have hba : ¬ b.SameDevice a := fun hba => hab hba.symm
    refine StateT.ext fun h => ?_
    simp only [StateT.run_bind, run_attempt]
    calc
      _ = ((h.verdict a, (h.applyOrKeep a).verdict b), (h.applyOrKeep a).applyOrKeep b) := rfl
      _ = (((h.applyOrKeep b).verdict a, h.verdict b), (h.applyOrKeep b).applyOrKeep a) := by
        rw [verdict_applyOrKeep h hab, verdict_applyOrKeep h hba, applyOrKeep_comm h hab]
      _ = _ := rfl
  · intro as bs r h
    refine ⟨h.verdicts as, h.verdicts bs, h.replay as, run_mapM_attempt h as, ?_,
      length_verdicts h as, verdicts_reorder h r⟩
    rw [run_mapM_attempt, replay_reorder h r]

/-- A light is turned on twice, the second time in vain, and then a television. The television may as
well be turned on first. -/
theorem actions_commute_lamp :
    let lamp : Device := { kind := .light, name := "desk lamp", state := 0, params := [0] }
    let screen : Device := { kind := .tv, name := "screen", state := 0, params := [1, 2] }
    let study : Home := { lights := [lamp], tvs := [screen] }
    let bs : List Action := [⟨7, 3, 0, 0, []⟩, ⟨0, 0, 0, 0, []⟩, ⟨1, 0, 0, 0, []⟩]
    ∃ ys, (bs.mapM attempt).run study =
        (ys, { lights := [{ lamp with state := 1 }], tvs := [{ screen with state := 1 }] }) ∧
      ys[0]? = some (.ok ()) ∧ ys[2]? = some (.error (.alreadyInState "desk lamp" "ON")) := by
  intro lamp screen study bs
  let as : List Action := [⟨0, 0, 0, 0, []⟩, ⟨1, 0, 0, 0, []⟩, ⟨7, 3, 0, 0, []⟩]
  let r : Reordering as bs := { place := finRotate 3, same := by decide, order := by decide }
  have hrun : (as.mapM attempt).run study =
      ([.ok (), .error (.alreadyInState "desk lamp" "ON"), .ok ()],
        { lights := [{ lamp with state := 1 }], tvs := [{ screen with state := 1 }] }) := rfl
  obtain ⟨-, hreorder⟩ := actions_commute
  obtain ⟨xs, ys, h', has, hbs, -, hverdicts⟩ := hreorder r study
  obtain ⟨rfl, rfl⟩ := Prod.mk.inj (has.symm.trans hrun)
  exact ⟨ys, hbs, hverdicts 2, hverdicts 1⟩

end Home

end HomeControl

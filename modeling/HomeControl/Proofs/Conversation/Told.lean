import HomeControl.Proofs.Home.Order
import HomeControl.Proofs.Protocol.Message
import HomeControl.Proofs.Server.Delivery

/-!
# What a client is told, and in which order

A client learns of its own actions by their confirmations, which its session writes at once, and of
the others' by updates, which wait in the queue of its session. So it may be told of an action of its
own before an earlier one of another client: the action *overtakes* an update. It matters only if both
are about the same device (`Told.step`).
-/

namespace HomeControl

open Hub (Act Sound)

/-- The action that an update reports; it bears no number. -/
def Message.reported (u : Message) : Option Action :=
  u.parseUpdate.toOption

theorem Message.reported_update (a : Action) :
    (Message.update a).reported = some { a with sequence := 0 } := by
  rw [reported, parseUpdate_update]
  rfl

namespace Record

variable (r : Record) (id : SessionId)

/-- The action that the home accepts from this session. -/
def own? : Option Action :=
  r.accepted?.bind fun (origin, a) => if origin = id then some a else none

/-- The actions of which the step tells the client of a session: one of its own that is accepted, and
those that its session reports. -/
def told : List Action :=
  (r.own? id).toList ++ (r.updates id).filterMap Message.reported

/-- An action of the session's own is accepted while an update about the same device waits for it. -/
def Overtakes : Prop :=
  ∃ a, r.own? id = some a ∧ ∃ u ∈ r.before.registry.queued id, ∃ b, u.reported = some b ∧ a.SameDevice b

variable {r id}

/-- Whatever is accepted comes from the session or from another one. -/
theorem accepted?_eq : (r.accepted?.map Prod.snd).toList =
    (r.own? id).toList ++ (r.foreign? id).toList := by
  unfold own? foreign?
  cases r.accepted? with
  | none => rfl
  | some p => by_cases ho : p.1 = id <;> simp [ho]

theorem own?_of_ne (h : r.act.session? ≠ some id) : r.own? id = none := by
  unfold own?
  cases hacc : r.accepted? with
  | none => rfl
  | some p =>
    have ho : r.act.session? = some p.1 := session_of_accepted (a := p.2) hacc
    have hne : p.1 ≠ id := by
      rintro rfl
      exact h ho
    simp [hne]

theorem told_of_ne (h : r.act.session? ≠ some id) : r.told id = [] := by
  rw [told, own?_of_ne h, updates_of_ne h]
  rfl

end Record

/-- The updates that wait in the queue of a session. -/
def Hub.waiting (hub : Hub) (id : SessionId) : List Action :=
  (hub.registry.queued id).filterMap Message.reported

/-- What a session has told its client since the step `r`, in which it handed over a snapshot. -/
structure Told (hub : Hub) (id : SessionId) (r : Record) (between : List Record) : Prop where
  handsOver : r.HandsOver id r.before.home.snapshot
  home : hub.home = r.before.home.replay (between.filterMap fun q => q.accepted?.map Prod.snd)
  /-- Every action of another session has been reported or waits to be. -/
  reported : (between.flatMap fun q => q.updates id) ++ hub.registry.queued id =
    (between.filterMap fun q => q.foreign? id).map .update
  /-- Unless an update was overtaken, the client will be told of all that has happened. -/
  inOrder : (∀ q ∈ between, ¬ q.Overtakes id) →
    hub.home = (r.before.home.replay (between.flatMap fun q => q.told id)).replay (hub.waiting id)

namespace Told

variable {hub : Hub} {act : Act} {id : SessionId} {r : Record} {between : List Record} {n : Nat}

/-- A snapshot is handed over. -/
theorem start (h : Sound n hub) (hh : ({ before := hub, act } : Record).HandsOver id hub.home.snapshot)
    (hq : hub.registry.queued id = []) :
    Told (hub.perform act).1 id { before := hub, act } [] := by
  have hhand := Hub.handover h hh
  refine ⟨hh, hhand.home, ?_, ?_⟩
  · rw [hhand.queued, hq]
    rfl
  · intro _
    rw [hhand.home, Hub.waiting, hhand.queued, hq]
    rfl

/-- Hearing of an action that was accepted, or of none, is as good as applying it. -/
theorem replay_reported (home : Home) (a : Option Action) :
    home.replay ((a.map Message.update).toList.filterMap Message.reported) = home.replay a.toList := by
  cases a with
  | none => rfl
  | some a =>
    rw [Option.map_some, Option.toList_some, List.filterMap_cons_some (Message.reported_update a)]
    exact Home.applyOrKeep_sequence home a 0

/-- One more step tells a session what that step changes. -/
theorem step (ht : Told hub id r between) (h : Sound n hub) (hn : act = .accept → n < UInt64.size)
    (hp : hub.Permits act) (ha : hub.Awaits id)
    (hl : ¬ ({ before := hub, act } : Record).Leaves id) :
    Told (hub.perform act).1 id r (between ++ [{ before := hub, act }]) := by
  obtain ⟨-, hbal⟩ := Hub.balance_perform h hn hp ha hl
  have hhome : (hub.perform act).1.home = hub.home.replay _ := Hub.home_perform h
  generalize hrec : ({ before := hub, act } : Record) = q at hbal hhome ⊢
  have hbefore : q.before = hub := by rw [← hrec]
  refine ⟨ht.handsOver, ?_, ?_, ?_⟩
  · rw [filterMap_snoc, Home.replay_append, hhome, ht.home]
  · rw [List.flatMap_append, List.flatMap_singleton, List.append_assoc, hbal, ← List.append_assoc,
      ht.reported, filterMap_snoc, List.map_append, ← Option.toList_map]
  · intro hov
    have hin := ht.inOrder fun p hp => hov p (List.mem_append_left _ hp)
    have hq : ¬ q.Overtakes id := hov q (by simp)
    have hwait : (q.updates id).filterMap Message.reported ++ (hub.perform act).1.waiting id =
        hub.waiting id ++ ((q.foreign? id).map Message.update).toList.filterMap Message.reported := by
      rw [Hub.waiting, ← List.filterMap_append, hbal, List.filterMap_append, Hub.waiting]
    rw [List.flatMap_append, List.flatMap_singleton, Home.replay_append, Record.told, hhome,
      @Record.accepted?_eq q id, Home.replay_append, Home.replay_append,
      ← Home.replay_append _ _ ((hub.perform act).1.waiting id), hwait, Home.replay_append,
      replay_reported]
    congr 1
    -- what is its own changes places with what waits
    cases hown : q.own? id with
    | none => exact hin
    | some a =>
      rw [hin]
      refine (Home.replay_comm _ fun b hb hsame => hq ⟨a, hown, ?_⟩).symm
      obtain ⟨u, hu, hrep⟩ := List.mem_filterMap.1 hb
      exact ⟨u, hbefore ▸ hu, b, hrep, hsame⟩

end Told

end HomeControl

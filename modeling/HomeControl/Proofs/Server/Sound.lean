import HomeControl.Proofs.Server.Hub

/-!
# What every step of a server preserves

`Sound` is what holds of a server at any time: the machines are between two calls, a session is
subscribed exactly while it waits for an action, whoever runs has an entry and a seat, and no number
has been given out twice. A step of one session reaches the others only through their queues
(`unmoved_perform`), and after a step of its own a session is as it should be again (`fit_perform`).
-/

namespace HomeControl

open Hub (Act)
open ServerMachine (Turn)

namespace Hub

variable {hub : Hub} {id other : SessionId} {m : ServerMachine} {t : Turn}

/-- The number of the session that was registered after `k` others. -/
def number (k : Nat) : SessionId :=
  UInt64.ofNat (k + 1)

theorem number_inj {j k : Nat} (hj : j < UInt64.size) (hk : k < UInt64.size) (h : number j = number k) :
    j = k := by
  have hn := congrArg UInt64.toNat h
  simp only [number, UInt64.toNat_ofNat'] at hn
  unfold UInt64.size at hj hk
  omega

/-- A machine, an entry or a seat bears the number. -/
def Knows (hub : Hub) (id : SessionId) : Prop :=
  (hub.machine? id).isSome ∨ hub.registry.isRegistered id = true ∨ hub.registry.isSeated id = true

/-- The update of an action that some home has accepted. -/
def IsNews (u : Message) : Prop :=
  ∃ (a : Action) (home home' : Home), u = .update a ∧ home.apply a = .ok home'

theorem IsNews.keycode {u : Message} (h : IsNews u) : u.keycode = .update := by
  obtain ⟨a, -, -, rfl, -⟩ := h
  rfl

/-- What holds of every session that is running. -/
structure Fit (hub : Hub) (id : SessionId) (m : ServerMachine) : Prop where
  settled : m.Settled
  registered : hub.registry.isRegistered id = true
  seated : hub.registry.isSeated id = true
  subscribed : hub.registry.isSubscribed id = true ↔ m.state = .serverAwaitsAction
  updates : ∀ u ∈ hub.registry.queued id, IsNews u

/-- What holds of a server that has registered `n` sessions. -/
structure Sound (n : Nat) (hub : Hub) : Prop where
  running : ∀ id m, hub.machine? id = some m → Fit hub id m
  next : hub.registry.ids.value = number n
  known : ∀ id, hub.Knows id → ∃ k < n, id = number k

theorem Sound.step {n : Nat} (h : Sound n hub) (act : Act) : Step hub act (hub.perform act) :=
  perform_step (fun id m hm => (h.running id m hm).settled) act

/-- A session does not notice a step of others, but for some news in its queue. -/
structure Unmoved (hub hub' : Hub) (id : SessionId) (news : List Message) : Prop where
  machine : hub'.machine? id = hub.machine? id
  queued : hub'.registry.queued id = hub.registry.queued id ++ news
  subscribed : hub'.registry.isSubscribed id = hub.registry.isSubscribed id
  registered : hub'.registry.isRegistered id = hub.registry.isRegistered id
  seated : hub'.registry.isSeated id = hub.registry.isSeated id

theorem Fit.of_unmoved {hub' : Hub} {news : List Message} (h : Fit hub id m)
    (hu : Unmoved hub hub' id news) (hn : ∀ u ∈ news, IsNews u) : Fit hub' id m where
  settled := h.settled
  registered := by rw [hu.registered, h.registered]
  seated := by rw [hu.seated, h.seated]
  subscribed := by rw [hu.subscribed, h.subscribed]
  updates u hmem := by
    rw [hu.queued, List.mem_append] at hmem
    exact hmem.elim (h.updates u) (hn u)

theorem sound_new (version : String) (users : Users) (home : Home) :
    Sound 0 { version, users, home } := by
  refine ⟨?_, rfl, ?_⟩
  · intro id m hm
    simp [machine?] at hm
  · intro id h
    simp [Knows, machine?, Registry.isRegistered, Registry.isSeated, Registry.seat?] at h

theorem Sound.fresh {n : Nat} (h : Sound n hub) (hn : n < UInt64.size) :
    hub.machine? hub.registry.ids.value = none ∧
      hub.registry.isRegistered hub.registry.ids.value = false ∧
      hub.registry.isSeated hub.registry.ids.value = false := by
  have hnew : ∀ k < n, hub.registry.ids.value ≠ number k := by
    intro k hk he
    rw [h.next] at he
    have hkn := number_inj hn (by omega) he
    omega
  refine ⟨?_, ?_, ?_⟩
  · cases hm : hub.machine? hub.registry.ids.value with
    | none => rfl
    | some m =>
      obtain ⟨k, hk, he⟩ := h.known _ (Or.inl (by rw [hm]; rfl))
      exact absurd he (hnew k hk)
  · cases hr : hub.registry.isRegistered hub.registry.ids.value with
    | false => rfl
    | true =>
      obtain ⟨k, hk, he⟩ := h.known _ (Or.inr (Or.inl hr))
      exact absurd he (hnew k hk)
  · cases hs : hub.registry.isSeated hub.registry.ids.value with
    | false => rfl
    | true =>
      obtain ⟨k, hk, he⟩ := h.known _ (Or.inr (Or.inr hs))
      exact absurd he (hnew k hk)

theorem Sound.queued_fresh {n : Nat} (h : Sound n hub) (hn : n < UInt64.size) :
    hub.registry.queued hub.registry.ids.value = [] := by
  obtain ⟨-, -, hseat⟩ := h.fresh hn
  rw [Registry.isSeated, Option.isSome_eq_false_iff, Option.isNone_iff_eq_none] at hseat
  rw [Registry.queued_eq, hseat]
  rfl

theorem unmoved_refl (hub : Hub) (id : SessionId) : Unmoved hub hub id [] :=
  ⟨rfl, by simp, rfl, rfl, rfl⟩

/-- A part of a turn as another session sees it. -/
theorem unmoved_commit {accepted : Option Action} (hm : m.session = id) (ht : t.machine.session = id)
    (ha : Asks m t.machine accepted t.events) (hne : other ≠ id)
    (hseat : hub.registry.isSeated other = true) :
    Unmoved hub (hub.commit id t).1 other
      (if hub.registry.isSubscribed other then (accepted.map Message.update).toList else []) := by
  have hne' : other ≠ m.session := by rwa [hm]
  have hq := ha.queued_of_ne (r := hub.registry) hne'
  rw [hseat] at hq
  refine ⟨machine?_commit_of_ne hne ht, ?_, ?_, ?_, ?_⟩ <;> rw [registry_commit]
  · split
    · simpa using hq
    · simpa [Registry.queued_leaveSeat_of_ne hne] using hq
  · split <;> exact ha.isSubscribed_of_ne hne'
  · split <;> exact ha.isRegistered other
  · split
    · exact ha.isSeated other
    · rw [Registry.isSeated_leaveSeat_of_ne hne, ha.isSeated]

theorem unmoved_flush (hm : m.session = id) (hne : other ≠ id)
    (hseat : hub.registry.isSeated other = true) (queue : List Message) (room : Option Nat) :
    Unmoved hub ({ hub with registry := (hub.registry.drain id).2 }.commit id
      ((m.flush hub.home queue).within room)).1 other [] := by
  have ha := Asks.flush m hub.home queue room
  have hseat' : (hub.registry.drain id).2.isSeated other = true := by simpa using hseat
  let hub' : Hub := { hub with registry := (hub.registry.drain id).2 }
  have hu : Unmoved hub' (hub'.commit id ((m.flush hub.home queue).within room)).1 other _ :=
    unmoved_commit hm (by simpa using hm) ha hne hseat'
  refine ⟨hu.machine, ?_, hu.subscribed, hu.registered, ?_⟩
  · rw [hu.queued, Registry.queued_drain_of_ne hne]
    simp
  · rw [hu.seated, Registry.isSeated_drain]

/-- What is queued for a session by a step of others. -/
def news (hub : Hub) (act : Act) (id : SessionId) : List Message :=
  if hub.registry.isSubscribed id then
    (({ before := hub, act } : Record).accepted?.map fun p => Message.update p.2).toList
  else []

/-- Nobody who runs notices that a session is registered. -/
theorem unmoved_accept {n : Nat} (h : Sound n hub) (hn : n < UInt64.size)
    (ho : hub.machine? other = some m) : Unmoved hub (hub.perform .accept).1 other [] := by
  have hfit := h.running other m ho
  obtain ⟨-, hreg, -⟩ := h.fresh hn
  refine ⟨?_, ?_, ?_, ?_, ?_⟩
  · exact (machine?_accept ..).trans (by rw [ho, Option.some_or])
  · simp [perform, accept]
  · exact Registry.isSubscribed_register hreg
  · rw [hfit.registered]
    exact (Registry.isRegistered_register hreg).2 (Or.inr hfit.registered)
  · rw [hfit.seated]
    exact (Registry.isSeated_register other).2 (Or.inr hfit.seated)

/-- Nor does anybody notice that another one is removed. -/
theorem unmoved_deregister (h : other ≠ id) : Unmoved hub (hub.deregister id) other [] where
  machine := rfl
  queued := by simp [deregister]
  subscribed := Registry.isSubscribed_deregister_of_ne h
  registered := Registry.isRegistered_deregister_of_ne h
  seated := rfl

/-- All are asked to end without being told. -/
theorem unmoved_shutdown (hub : Hub) (other : SessionId) : Unmoved hub hub.shutdown other [] where
  machine := rfl
  queued := by simp [shutdown]
  subscribed := rfl
  registered := rfl
  seated := Registry.isSeated_terminateAll hub.registry other

/-- A step as a running session sees it that does not take it: an action that the home has accepted
is news to those who are subscribed, and there is no other. -/
theorem unmoved_perform {n : Nat} {act : Act} (h : Sound n hub) (hn : act = .accept → n < UInt64.size)
    (hp : hub.Permits act) (ho : hub.machine? other = some m) (hne : act.session? ≠ some other) :
    Unmoved hub (hub.perform act).1 other (news hub act other) := by
  have hfit := h.running other m ho
  have hstep := h.step act
  -- of what others do only an action that the home accepts is news
  have hnone : ∀ {act' : Act}, ({ before := hub, act := act' } : Record).accepted? = none →
      news hub act' other = [] := by
    intro act' hacc
    simp [news, hacc]
  generalize hub.perform act = out at hstep
  cases hstep with
  | absent hs hm hacc =>
    rw [hnone hacc]
    exact unmoved_refl hub other
  | @session _ id m' _ hs hm hstep =>
    have hid := session_of_machine? hm
    have hne' : other ≠ id := by
      rintro rfl
      exact hne hs
    cases hstep with
    | rest hacc =>
      rw [hnone hacc]
      exact unmoved_refl hub other
    | @answer accepted t hacc ht =>
      rw [news, hacc]
      simpa [Function.comp_def] using
        unmoved_commit hid (ht.session.trans hid) ht.asks hne' hfit.seated
    | flush hact hacc =>
      rw [hnone hacc]
      exact unmoved_flush hid hne' hfit.seated _ _
  | accept =>
    rw [hnone rfl]
    exact unmoved_accept h (hn rfl) ho
  | deregister id =>
    have hne' : other ≠ id := by
      rintro rfl
      rw [hp other rfl] at ho
      cases ho
    rw [hnone rfl]
    exact unmoved_deregister hne'
  | shutdown =>
    rw [hnone rfl]
    exact unmoved_shutdown hub other

/-- A part of a turn leaves no trace of anyone who was not there. -/
theorem knows_of_commit {accepted : Option Action} (hm : hub.machine? id = some m)
    (ht : t.machine.session = id) (ha : Asks m t.machine accepted t.events)
    (h : (hub.commit id t).1.Knows other) : hub.Knows other := by
  by_cases hne : other = id
  · rw [hne]
    exact Or.inl (by rw [hm]; rfl)
  rcases h with h | h | h
  · rw [machine?_commit_of_ne hne ht] at h
    exact Or.inl h
  · rw [registry_commit] at h
    refine Or.inr (Or.inl ?_)
    rw [← ha.isRegistered (r := hub.registry)]
    split at h <;> exact h
  · rw [registry_commit] at h
    refine Or.inr (Or.inr ?_)
    rw [← ha.isSeated (r := hub.registry)]
    split at h
    · exact h
    · exact Registry.isSeated_of_leaveSeat h

/-- Only a new session comes to be known. -/
theorem knows_of_perform {n : Nat} {act : Act} (h : Sound n hub) (hn : act = .accept → n < UInt64.size)
    (hk : (hub.perform act).1.Knows other) :
    hub.Knows other ∨ act = .accept ∧ other = hub.registry.ids.value := by
  have hstep := h.step act
  generalize hub.perform act = out at hstep hk
  cases hstep with
  | absent => exact Or.inl hk
  | @session _ id m _ hs hm hstep =>
    refine Or.inl ?_
    have hid := session_of_machine? hm
    cases hstep with
    | rest => exact hk
    | answer hacc ht => exact knows_of_commit hm (ht.session.trans hid) ht.asks hk
    | @flush room hact hacc =>
      let hub' : Hub := { hub with registry := (hub.registry.drain id).2 }
      have hk' : hub'.Knows other :=
        knows_of_commit hm (by simpa using hid) (Asks.flush m hub.home _ room) hk
      rcases hk' with hk' | hk' | hk'
      · exact Or.inl hk'
      · exact Or.inr (Or.inl hk')
      · exact Or.inr (Or.inr (by simpa [hub'] using hk'))
  | accept =>
    obtain ⟨-, hreg, -⟩ := h.fresh (hn rfl)
    by_cases hid : other = hub.registry.ids.value
    · exact Or.inr ⟨rfl, hid⟩
    refine Or.inl ?_
    rcases hk with hk | hk | hk
    · rw [machine?_accept, if_neg fun he => hid he.symm, Option.or_none] at hk
      exact Or.inl hk
    · exact Or.inr (Or.inl (((Registry.isRegistered_register hreg).1 hk).resolve_left hid))
    · exact Or.inr (Or.inr (((Registry.isSeated_register other).1 hk).resolve_left hid))
  | deregister id =>
    refine Or.inl ?_
    rcases hk with hk | hk | hk
    · exact Or.inl hk
    · exact Or.inr (Or.inl (Registry.isRegistered_of_deregister hk))
    · exact Or.inr (Or.inr hk)
  | shutdown =>
    refine Or.inl ?_
    rcases hk with hk | hk | hk
    · exact Or.inl hk
    · exact Or.inr (Or.inl hk)
    · exact Or.inr (Or.inr (by simpa [shutdown] using hk))

theorem ne_accept {act : Act} (hs : act.session? = some id) : act ≠ .accept := by
  rintro rfl
  cases hs

theorem ids_perform {n : Nat} {act : Act} (h : Sound n hub) :
    (hub.perform act).1.registry.ids.value =
      if act = .accept then number (n + 1) else number n := by
  have hstep := h.step act
  generalize hub.perform act = out at hstep
  cases hstep with
  | absent hs hm hacc =>
    rw [if_neg (ne_accept hs)]
    exact h.next
  | session hs hm hstep =>
    rw [if_neg (ne_accept hs), ← h.next]
    cases hstep with
    | rest => rfl
    | answer hacc ht =>
      rw [registry_commit]
      split <;> simp [ht.asks.ids, Registry.leaveSeat]
    | flush hact hacc =>
      rw [registry_commit]
      split <;> simp [Registry.handleAll, Registry.leaveSeat, Registry.drain, Registry.mapSeat]
  | accept =>
    rw [if_pos rfl]
    simp only [accept, Registry.register, Counter.next, h.next, number]
    rw [UInt64.ofNat_add (n + 1) 1]
    rfl
  | deregister id => exact h.next
  | shutdown => exact h.next

/-- A session that goes on after its own step is still as it should be. -/
theorem fit_commit {accepted : Option Action} (hm : hub.machine? id = some m) (hfit : Fit hub id m)
    (ht : Answer hub m accepted t) (he : t.ended = none) : Fit (hub.commit id t).1 id t.machine := by
  have hid := session_of_machine? hm
  have hreg := registry_commit hub id t
  rw [if_pos he] at hreg
  subst hid
  refine ⟨ht.settled, ?_, ?_, ?_, ?_⟩ <;> rw [hreg]
  · rw [ht.asks.isRegistered, hfit.registered]
  · rw [ht.asks.isSeated, hfit.seated]
  · exact ht.asks.isSubscribed_self hfit.registered hfit.subscribed
  · rw [ht.asks.queued_self]
    exact hfit.updates

/-- Nor does passing on updates change that. -/
theorem fit_flush {room : Option Nat} (hfit : Fit hub id m)
    (he : ((m.flush hub.home (hub.registry.queued id)).within room).ended = none) :
    Fit ({ hub with registry := (hub.registry.drain id).2 }.commit id
      ((m.flush hub.home (hub.registry.queued id)).within room)).1 id m := by
  refine ⟨hfit.settled, ?_, ?_, ?_, ?_⟩ <;> rw [registry_commit, if_pos he] <;>
    simp only [ServerMachine.within_events, ServerMachine.flush_events, Registry.handleAll,
      List.foldl_nil]
  · exact hfit.registered
  · rw [Registry.isSeated_drain, hfit.seated]
  · exact hfit.subscribed
  · simp

/-- A session that has taken a step and still runs is as it should be. -/
theorem fit_perform {n : Nat} {act : Act} {m' : ServerMachine} (h : Sound n hub)
    (hm : hub.machine? id = some m) (hs : act.session? = some id)
    (hm' : (hub.perform act).1.machine? id = some m') : Fit (hub.perform act).1 id m' := by
  have hfit := h.running id m hm
  have hid := session_of_machine? hm
  have hstep := session_step hm hfit.settled hs
  generalize hub.perform act = out at hstep hm'
  cases hstep with
  | rest =>
    obtain rfl : m = m' := Option.some.inj (hm.symm.trans hm')
    exact hfit
  | @answer accepted t hacc ht =>
    obtain ⟨he, rfl⟩ := of_machine?_commit hm (ht.session.trans hid) hm'
    exact fit_commit hm hfit ht he
  | @flush room hact hacc =>
    have hm₁ : ({ hub with registry := (hub.registry.drain id).2 } : Hub).machine? id = some m := hm
    obtain ⟨he, hmm⟩ := of_machine?_commit hm₁ (by simpa using hid) hm'
    obtain rfl : m = m' := by simpa using hmm
    exact fit_flush hfit he

theorem isNews_of_mem_news {act : Act} {u : Message} (hu : u ∈ hub.news act id) : IsNews u := by
  unfold news at hu
  split at hu
  · rw [Option.mem_toList] at hu
    obtain ⟨p, hp, rfl⟩ := Option.map_eq_some_iff.1 hu
    obtain ⟨home', hh⟩ := apply_of_accepted hp
    exact ⟨p.2, hub.home, home', rfl, hh⟩
  · simp at hu

/-- Only a new session comes to run. -/
theorem accept_of_machine? {n : Nat} {act : Act} (h : Sound n hub) (hm₀ : hub.machine? id = none)
    (hm : (hub.perform act).1.machine? id = some m) :
    act = .accept ∧ id = hub.registry.ids.value := by
  have hstep := h.step act
  generalize hub.perform act = out at hstep hm
  cases hstep with
  | absent => exact absurd (hm₀.symm.trans hm) (by simp)
  | @session _ id' m' _ hs hm' hstep =>
    have hne : id ≠ id' := by
      rintro rfl
      exact absurd (hm₀.symm.trans hm') (by simp)
    have hid := session_of_machine? hm'
    cases hstep with
    | rest => exact absurd (hm₀.symm.trans hm) (by simp)
    | answer hacc ht =>
      rw [machine?_commit_of_ne hne (ht.session.trans hid), hm₀] at hm
      cases hm
    | flush hact hacc =>
      rw [machine?_commit_of_ne hne (by simpa using hid)] at hm
      exact absurd (hm₀.symm.trans hm) (by simp)
  | accept =>
    rw [machine?_accept, hm₀, Option.none_or] at hm
    split at hm
    · rename_i hid
      exact ⟨rfl, hid.symm⟩
    · cases hm
  | deregister id' => exact absurd (hm₀.symm.trans hm) (by simp)
  | shutdown => exact absurd (hm₀.symm.trans hm) (by simp)

theorem fit_accept {n : Nat} (h : Sound n hub) (hn : n < UInt64.size)
    (hm : (hub.perform .accept).1.machine? hub.registry.ids.value = some m) :
    Fit (hub.perform .accept).1 hub.registry.ids.value m := by
  obtain ⟨hnone, hreg, -⟩ := h.fresh hn
  rw [perform, machine?_accept, hnone, if_pos rfl] at hm
  obtain rfl := Option.some.inj hm
  have hsub : hub.registry.isSubscribed hub.registry.ids.value = false := by
    cases hs : hub.registry.isSubscribed hub.registry.ids.value with
    | false => rfl
    | true =>
      obtain ⟨e, he, hid, -⟩ := Registry.isSubscribed_iff.1 hs
      rw [Registry.isRegistered_iff.2 ⟨e, he, hid⟩] at hreg
      cases hreg
  refine ⟨ServerMachine.settled_new _ _ _, ?_, ?_, ?_, ?_⟩ <;> simp only [perform, accept]
  · exact (Registry.isRegistered_register hreg).2 (Or.inl rfl)
  · exact (Registry.isSeated_register _).2 (Or.inl rfl)
  · rw [Registry.isSubscribed_register hreg, hsub]
    simp
  · rw [Registry.queued_register, h.queued_fresh hn]
    simp

theorem sound_perform {n : Nat} {act : Act} (h : Sound n hub) (hn : act = .accept → n < UInt64.size)
    (hp : hub.Permits act) : Sound (if act = .accept then n + 1 else n) (hub.perform act).1 := by
  refine ⟨?_, ?_, ?_⟩
  · intro id m hm
    by_cases hs : act.session? = some id
    · cases hm₀ : hub.machine? id with
      | none =>
        rw [perform_of_none hs hm₀, hm₀] at hm
        cases hm
      | some m₀ => exact fit_perform h hm₀ hs hm
    · cases hm₀ : hub.machine? id with
      | some m₀ =>
        have hu := unmoved_perform h hn hp hm₀ hs
        obtain rfl : m₀ = m := Option.some.inj (by rw [← hm₀, ← hu.machine, hm])
        exact (h.running id m₀ hm₀).of_unmoved hu fun u hu => isNews_of_mem_news hu
      | none =>
        obtain ⟨rfl, rfl⟩ := accept_of_machine? h hm₀ hm
        exact fit_accept h (hn rfl) hm
  · rw [ids_perform h]
    split <;> rfl
  · intro id hk
    rcases knows_of_perform h hn hk with hk | ⟨rfl, hid⟩
    · obtain ⟨k, hk, he⟩ := h.known id hk
      exact ⟨k, by split <;> omega, he⟩
    · exact ⟨n, by simp, hid.trans h.next⟩

end Hub

end HomeControl

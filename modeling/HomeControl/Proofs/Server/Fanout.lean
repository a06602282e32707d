import HomeControl.Proofs.Server.Registry
import Mathlib.Data.List.Induction
import Mathlib.Tactic.Tauto

/-!
# What a registry delivers

The registry is called by many sessions, which empty or close their queues in between, so its calls
come in any order and name any session. What each session is due follows from the calls alone: this
file reads it off them (`Registered`, `Subscribed`, `due`) without looking at a registry, and shows
that a registry agrees with the reading after every run of calls (`fanout_exact`).
-/

namespace HomeControl.Registry

/-- A call of the registry, or what a session does with its queue. -/
inductive Call where
  | register
  | deregister (id : SessionId)
  | subscribe (id : SessionId)
  | unsubscribe (id : SessionId)
  | broadcast (update : Message) (origin : SessionId)
  | terminateAll
  | drain (id : SessionId)
  | close (id : SessionId)
  deriving DecidableEq

/-- The registry after a call. -/
def perform (r : Registry) : Call → Registry
  | .register => r.register.2
  | .deregister id => r.deregister id
  | .subscribe id => r.setSubscribed id true
  | .unsubscribe id => r.setSubscribed id false
  | .broadcast update origin => r.broadcast update origin
  | .terminateAll => r.terminateAll
  | .drain id => (r.drain id).2
  | .close id => r.closeQueue id

/-- A registry in use, and what it has handed out. -/
structure Ledger where
  registry : Registry := {}
  /-- The numbers of the sessions, in the order in which they were registered. -/
  issued : List SessionId := []
  /-- What a session has taken from its queue, in order. -/
  drained : SessionId → List Message := fun _ => []

/-- Notes what a call does: a number that is given out, updates that are drained. -/
def Ledger.step (l : Ledger) (c : Call) : Ledger where
  registry := l.registry.perform c
  issued :=
    match c with
    | .register => l.issued ++ [l.registry.register.1]
    | _ => l.issued
  drained other :=
    match c with
    | .drain id => if other = id then l.drained other ++ (l.registry.drain id).1 else l.drained other
    | _ => l.drained other

/-- A new registry after some calls. -/
def Ledger.of (calls : List Call) : Ledger :=
  calls.foldl Ledger.step {}

theorem Ledger.registry_step (l : Ledger) (c : Call) : (l.step c).registry = l.registry.perform c :=
  rfl

theorem Ledger.of_snoc (calls : List Call) (c : Call) :
    Ledger.of (calls ++ [c]) = (Ledger.of calls).step c :=
  List.foldl_append ..

/-! ## What the calls say -/

/-- How many sessions the calls have registered. -/
def registrations (calls : List Call) : Nat :=
  calls.countP fun c => c = .register

/-- The calls that follow the `n`-th registration, counted from one. -/
def afterNth : Nat → List Call → Option (List Call)
  | _, [] => none
  | n, .register :: later => if n = 1 then some later else afterNth (n - 1) later
  | n, _ :: later => afterNth n later

/-- The calls since a session was registered, if it has been. -/
def since (id : SessionId) (calls : List Call) : Option (List Call) :=
  afterNth id.toNat calls

/-- The session has been registered, and not deregistered since. -/
def Registered (calls : List Call) (id : SessionId) : Prop :=
  ∃ later ∈ since id calls, .deregister id ∉ later

/-- Whether the call says if the session receives updates. -/
def Call.switches (id : SessionId) : Call → Bool
  | .subscribe other => other == id
  | .unsubscribe other => other == id
  | _ => false

/-- The last call since its registration to say if the session receives updates says that it does. -/
def Subscribed (calls : List Call) (id : SessionId) : Prop :=
  ∃ later ∈ since id calls, later.reverse.find? (Call.switches id) = some (.subscribe id)

/-- The session has closed its queue. -/
def Closed (calls : List Call) (id : SessionId) : Prop :=
  ∃ later ∈ since id calls, .close id ∈ later

/-- The sessions were asked to end while this one was registered. -/
def Asked (calls : List Call) (id : SessionId) : Prop :=
  ∃ before later, calls = before ++ .terminateAll :: later ∧ Registered before id

instance (calls : List Call) (id : SessionId) : Decidable (Registered calls id) :=
  inferInstanceAs (Decidable (∃ later ∈ since id calls, .deregister id ∉ later))

instance (calls : List Call) (id : SessionId) : Decidable (Subscribed calls id) :=
  inferInstanceAs (Decidable (∃ later ∈ since id calls,
    later.reverse.find? (Call.switches id) = some (.subscribe id)))

instance (calls : List Call) (id : SessionId) : Decidable (Closed calls id) :=
  inferInstanceAs (Decidable (∃ later ∈ since id calls, .close id ∈ later))

/-- What one call, made after others, owes to a session: its update, if it is a broadcast of another
session and finds this one registered and subscribed. -/
def owed (id : SessionId) (before : List Call) : Call → List Message
  | .broadcast update origin =>
    if Registered before id ∧ Subscribed before id ∧ origin ≠ id then [update] else []
  | _ => []

/-- What some calls owe to a session, call by call, if these came before. -/
def owedAfter (id : SessionId) (before : List Call) : List Call → List Message
  | [] => []
  | c :: later => owed id before c ++ owedAfter id (before ++ [c]) later

/-- The updates due to a session: those of the broadcasts of others that found it registered and
subscribed. -/
def due (id : SessionId) (calls : List Call) : List Message :=
  owedAfter id [] calls

variable {r : Registry} {l : Ledger} {calls : List Call} {c : Call} {id other : SessionId}

theorem registrations_snoc (calls : List Call) (c : Call) :
    registrations (calls ++ [c]) = registrations calls + if c = .register then 1 else 0 := by
  rw [registrations, List.countP_append, List.countP_singleton, registrations]
  simp only [decide_eq_true_eq]

theorem afterNth_cons_of_ne (n : Nat) (h : c ≠ .register) :
    afterNth n (c :: calls) = afterNth n calls := by
  cases c <;> first | rfl | exact absurd rfl h

/-- One more call follows a registration that there was, or is itself the one that was looked for. -/
theorem afterNth_snoc (n : Nat) (calls : List Call) (c : Call) :
    afterNth n (calls ++ [c]) =
      ((afterNth n calls).map fun later => later ++ [c]).or
        (if c = .register ∧ registrations calls + 1 = n then some [] else none) := by
  induction calls generalizing n with
  | nil =>
    cases c with
    | register => by_cases hn : n = 1 <;> simp [afterNth, registrations, hn, eq_comm]
    | _ => simp [afterNth]
  | cons first calls ih =>
    by_cases hfirst : first = .register
    · have hcount : registrations (first :: calls) = registrations calls + 1 := by
        simp [registrations, hfirst]
      subst hfirst
      by_cases hn : n = 1
      · simp [afterNth, hn]
      · have hn' : registrations calls + 1 = n - 1 ↔ registrations calls + 1 + 1 = n := by
          omega
        simp only [List.cons_append, afterNth, if_neg hn, ih, hn', hcount]
    · have hcount : registrations (first :: calls) = registrations calls := by
        simp [registrations, hfirst]
      rw [List.cons_append, afterNth_cons_of_ne n hfirst, afterNth_cons_of_ne n hfirst, ih, hcount]

/-- There is an n-th registration if there are as many. -/
theorem isSome_afterNth (n : Nat) (calls : List Call) :
    (afterNth n calls).isSome ↔ 0 < n ∧ n ≤ registrations calls := by
  induction calls using List.reverseRecOn with
  | nil =>
    simp only [afterNth, registrations, List.countP_nil, Option.isSome_none, Bool.false_eq_true,
      false_iff]
    omega
  | append_singleton calls c ih =>
    rw [afterNth_snoc, registrations_snoc, Option.isSome_or, Option.isSome_map, Bool.or_eq_true, ih]
    by_cases hc : c = .register
    · by_cases hn : registrations calls + 1 = n
      · simp [hc, hn]
        omega
      · simp [hc, hn]
        omega
    · simp [hc]

/-- The sessions ever registered are those numbered from one up to how many there have been. -/
theorem isSome_since : (since id calls).isSome ↔ 0 < id.toNat ∧ id.toNat ≤ registrations calls :=
  isSome_afterNth id.toNat calls

/-- The number that comes next has not been given out. -/
theorem not_isSome_since (h : registrations calls + 1 = id.toNat) : ¬ (since id calls).isSome := by
  rw [isSome_since]
  omega

theorem isSome_of_exists {P : List Call → Prop} (h : ∃ later ∈ since id calls, P later) :
    (since id calls).isSome := by
  obtain ⟨later, hs, -⟩ := h
  rw [hs]
  rfl

/-- With one more call, what follows the registration is longer by it, or has just begun. -/
theorem exists_since_snoc {P : List Call → Prop} :
    (∃ later ∈ since id (calls ++ [c]), P later) ↔
      (∃ later ∈ since id calls, P (later ++ [c])) ∨
        (c = .register ∧ registrations calls + 1 = id.toNat) ∧ P [] := by
  rw [since, afterNth_snoc, ← since]
  -- a number is given out once, so what follows its registration does not begin a second time
  by_cases hnew : c = .register ∧ registrations calls + 1 = id.toNat
  · have hnone : since id calls = none := Option.not_isSome_iff_eq_none.1 (not_isSome_since hnew.2)
    simp [hnone, hnew]
  · cases hs : since id calls <;> simp [hnew]

/-- A session has been registered if it had been before, or if this call has given out its number. -/
theorem isSome_since_snoc :
    (since id (calls ++ [c])).isSome ↔
      (since id calls).isSome ∨ c = .register ∧ registrations calls + 1 = id.toNat := by
  have h : (∃ later ∈ since id (calls ++ [c]), True) ↔ _ := exists_since_snoc
  simpa [Option.isSome_iff_exists] using h

/-- A session is registered if it was and is not deregistered now, or if it is registered now. -/
theorem registered_snoc :
    Registered (calls ++ [c]) id ↔
      Registered calls id ∧ c ≠ .deregister id ∨
        c = .register ∧ registrations calls + 1 = id.toNat := by
  rw [Registered, exists_since_snoc, Registered]
  simp only [List.mem_append, List.mem_singleton, not_or, List.not_mem_nil, not_false_eq_true, and_true,
    eq_comm (b := c)]
  refine or_congr_left ⟨?_, ?_⟩
  · rintro ⟨later, hs, hlater, hc⟩
    exact ⟨⟨later, hs, hlater⟩, hc⟩
  · rintro ⟨⟨later, hs, hlater⟩, hc⟩
    exact ⟨later, hs, hlater, hc⟩

/-- A queue is closed if it was, or if its session closes it now. -/
theorem closed_snoc :
    Closed (calls ++ [c]) id ↔ Closed calls id ∨ (since id calls).isSome ∧ c = .close id := by
  rw [Closed, exists_since_snoc, Closed, Option.isSome_iff_exists]
  simp only [List.mem_append, List.mem_singleton, List.not_mem_nil, and_false, or_false, eq_comm (b := c)]
  constructor
  · rintro ⟨later, hs, hlater | hc⟩
    · exact Or.inl ⟨later, hs, hlater⟩
    · exact Or.inr ⟨⟨later, hs⟩, hc⟩
  · rintro (⟨later, hs, hlater⟩ | ⟨⟨later, hs⟩, hc⟩)
    · exact ⟨later, hs, Or.inl hlater⟩
    · exact ⟨later, hs, Or.inr hc⟩

/-- Two calls say whether a session receives updates. -/
theorem Call.switches_iff : c.switches id = true ↔ c = .subscribe id ∨ c = .unsubscribe id := by
  cases c <;> simp [Call.switches]

/-- A session subscribes with a call of its own, and stays subscribed until it says otherwise. -/
theorem subscribed_snoc :
    Subscribed (calls ++ [c]) id ↔
      (since id calls).isSome ∧ c = .subscribe id ∨ Subscribed calls id ∧ c ≠ .unsubscribe id := by
  rw [Subscribed, exists_since_snoc, Subscribed, Option.isSome_iff_exists]
  simp only [List.reverse_append, List.reverse_singleton, List.singleton_append, List.find?_cons,
    List.reverse_nil, List.find?_nil, reduceCtorEq, and_false, or_false]
  -- either the call is the last one to switch, or the one that was the last still is
  by_cases hc : c = .subscribe id
  · have hs : Call.switches id (.subscribe id) = true := Call.switches_iff.2 (Or.inl rfl)
    subst hc
    simp only [hs, and_true]
    constructor
    · exact Or.inl
    · rintro (h | ⟨⟨later, h, -⟩, -⟩)
      · exact h
      · exact ⟨later, h⟩
  · by_cases hu : c = .unsubscribe id
    · simp [hu, Call.switches]
    · have hs : c.switches id = false := by
        rw [Bool.eq_false_iff, Ne, Call.switches_iff]
        tauto
      simp [hc, hu, hs]

/-- A session has been asked to end if it had been before, or if this call asks all and finds it
registered. -/
theorem asked_snoc :
    Asked (calls ++ [c]) id ↔ Asked calls id ∨ c = .terminateAll ∧ Registered calls id := by
  constructor
  · rintro ⟨before, later, he, hr⟩
    rcases later.eq_nil_or_concat with rfl | ⟨later, last, rfl⟩
    · obtain ⟨rfl, hc⟩ := List.append_inj' he rfl
      exact Or.inr ⟨List.singleton_inj.1 hc, hr⟩
    · rw [List.concat_eq_append, ← List.cons_append, ← List.append_assoc] at he
      obtain ⟨rfl, -⟩ := List.append_inj' he rfl
      exact Or.inl ⟨before, later, rfl, hr⟩
  · rintro (⟨before, later, rfl, hr⟩ | ⟨rfl, hr⟩)
    · exact ⟨before, later ++ [c], by simp, hr⟩
    · exact ⟨calls, [], rfl, hr⟩

theorem owedAfter_snoc (before calls : List Call) (c : Call) :
    owedAfter id before (calls ++ [c]) = owedAfter id before calls ++ owed id (before ++ calls) c := by
  induction calls generalizing before with
  | nil => simp [owedAfter]
  | cons first calls ih => simp [owedAfter, ih, List.append_assoc]

/-- With one more call, what that call owes comes last. -/
theorem due_snoc : due id (calls ++ [c]) = due id calls ++ owed id calls c :=
  owedAfter_snoc [] calls c

/-! ## What a call changes -/

theorem ids_perform : (r.perform c).ids.value = r.ids.value + if c = .register then 1 else 0 := by
  cases c <;> simp [perform, register, Counter.next, deregister, setSubscribed, broadcast, terminateAll,
    ask, drain, mapSeat, closeQueue]

/-- A session is registered after a call if it was and the call does not deregister it, or if the call
registers it. -/
theorem isRegistered_perform (hnew : c = .register → r.isRegistered r.ids.value = false) :
    (r.perform c).isRegistered id = true ↔
      r.isRegistered id = true ∧ c ≠ .deregister id ∨ c = .register ∧ id = r.ids.value := by
  cases c with
  | register =>
    rw [perform, isRegistered_register (hnew rfl)]
    simp [or_comm]
  | deregister other =>
    by_cases h : id = other
    · subst h
      simp [perform, isRegistered_deregister]
    · simp [perform, isRegistered_deregister_of_ne h, Ne.symm h]
  | subscribe other => simp [perform, isRegistered_setSubscribed]
  | unsubscribe other => simp [perform, isRegistered_setSubscribed]
  | broadcast update origin => simp [perform]
  | terminateAll => simp [perform]
  | drain other => simp [perform]
  | close other => simp [perform]

/-- A session is subscribed after a call that subscribes it, or if it was and the call neither
unsubscribes nor deregisters it. -/
theorem isSubscribed_perform (hnew : c = .register → r.isRegistered r.ids.value = false) :
    (r.perform c).isSubscribed id = true ↔
      r.isRegistered id = true ∧ c = .subscribe id ∨
        r.isSubscribed id = true ∧ c ≠ .unsubscribe id ∧ c ≠ .deregister id := by
  cases c with
  | register => simp [perform, isSubscribed_register (hnew rfl)]
  | deregister other =>
    by_cases h : id = other
    · subst h
      simp [perform, isSubscribed_deregister]
    · simp [perform, isSubscribed_deregister_of_ne h, Ne.symm h]
  | subscribe other =>
    by_cases h : id = other
    · subst h
      have hreg : r.isSubscribed id = true → r.isRegistered id = true := isRegistered_of_isSubscribed
      simpa [perform, isSubscribed_setSubscribed] using hreg
    · simp [perform, isSubscribed_setSubscribed_of_ne h, Ne.symm h]
  | unsubscribe other =>
    by_cases h : id = other
    · subst h
      simp [perform, isSubscribed_setSubscribed]
    · simp [perform, isSubscribed_setSubscribed_of_ne h, Ne.symm h]
  | broadcast update origin => simp [perform]
  | terminateAll => simp [perform]
  | drain other => simp [perform]
  | close other => simp [perform]

/-- A session keeps its seat until it closes its queue, even when it is deregistered. -/
theorem isSeated_perform :
    (r.perform c).isSeated id = true ↔
      r.isSeated id = true ∧ c ≠ .close id ∨ c = .register ∧ id = r.ids.value := by
  cases c with
  | register =>
    rw [perform, isSeated_register]
    simp [or_comm]
  | close other =>
    rw [perform, isSeated_closeQueue]
    simp [eq_comm (a := other)]
  | deregister other => simp [perform]
  | subscribe other => simp [perform]
  | unsubscribe other => simp [perform]
  | broadcast update origin => simp [perform]
  | terminateAll => simp [perform]
  | drain other => simp [perform]

/-- A flag is held from registration on, and set when all are asked to end while its session is
registered. -/
theorem mem_flags_perform {x : SessionId × Bool} :
    x ∈ (r.perform c).flags ↔
      c = .register ∧ x = (r.ids.value, false) ∨
        ∃ b, (x.1, b) ∈ r.flags ∧ x.2 = (b || c = .terminateAll && r.isRegistered x.1) := by
  cases c with
  | register => simp [perform, mem_flags_register]
  | terminateAll => simp [perform, mem_flags_terminateAll]
  | close other => simp [perform, mem_flags_closeQueue]
  | deregister other => simp [perform]
  | subscribe other => simp [perform]
  | unsubscribe other => simp [perform]
  | broadcast update origin => simp [perform]
  | drain other => simp [perform]

/-- No call disturbs the order of the entries. -/
theorem pairwise_perform (hnew : c = .register → r.isRegistered r.ids.value = false)
    (h : r.entries.Pairwise fun x y => x.id < y.id) :
    (r.perform c).entries.Pairwise fun x y => x.id < y.id := by
  have hset : ∀ id b, (r.setSubscribed id b).entries.Pairwise fun x y => x.id < y.id := by
    intro id b
    refine List.pairwise_map.2 (h.imp ?_)
    intro x y hxy
    split <;> split <;> exact hxy
  cases c with
  | register =>
    refine pairwise_insertEntry ?_ h
    intro x hx he
    have hreg := hnew rfl
    rw [isRegistered_iff.2 ⟨x, hx, he⟩] at hreg
    cases hreg
  | deregister other => exact h.filter _
  | subscribe other => exact hset other true
  | unsubscribe other => exact hset other false
  | broadcast update origin => exact h
  | terminateAll => exact h
  | drain other => exact h
  | close other => exact h

/-! ## The registry and the calls agree -/

/-- A registry is as its calls say. -/
structure Tracks (calls : List Call) (l : Ledger) : Prop where
  issued : l.issued.map UInt64.toNat = List.range' 1 (registrations calls)
  next : l.registry.ids.value = UInt64.ofNat (registrations calls + 1)
  ascending : l.registry.entries.Pairwise fun x y => x.id < y.id
  registered : ∀ id, l.registry.isRegistered id = true ↔ Registered calls id
  subscribed : ∀ id, l.registry.isSubscribed id = true ↔ Registered calls id ∧ Subscribed calls id
  seated : ∀ id, l.registry.isSeated id = true ↔ (since id calls).isSome ∧ ¬ Closed calls id
  held : ∀ id, (∃ b, (id, b) ∈ l.registry.flags) ↔ (since id calls).isSome
  flagged : ∀ id, l.registry.isFlagged id = true ↔ Asked calls id
  delivered : ∀ id, ¬ Closed calls id → l.drained id ++ l.registry.queued id = due id calls

/-- A new registry agrees with no calls at all. -/
theorem tracks_new : Tracks [] {} where
  issued := rfl
  next := rfl
  ascending := List.Pairwise.nil
  registered id := by simp [isRegistered, Registered, since, afterNth]
  subscribed id := by simp [isSubscribed, Registered, since, afterNth]
  seated id := by simp [isSeated, seat?, since, afterNth]
  held id := by simp [flags, since, afterNth]
  flagged id := by simp [isFlagged, Asked]
  delivered id _ := rfl

section Step

variable (h : Tracks calls l)

include h

/-- A flag is set by the call that asks all sessions to end, and not before. -/
theorem Tracks.flagged_step :
    (l.step c).registry.isFlagged id = true ↔ Asked (calls ++ [c]) id := by
  rw [asked_snoc, ← h.flagged, ← h.registered, isFlagged_iff, isFlagged_iff, Ledger.registry_step,
    mem_flags_perform]
  constructor
  · rintro (⟨-, he⟩ | ⟨b, hb, he⟩)
    · cases he
    · cases b with
      | true => exact Or.inl hb
      | false => exact Or.inr (by simpa using he.symm)
  · rintro (hb | ⟨hc, hreg⟩)
    · exact Or.inr ⟨true, hb, rfl⟩
    · -- a session that is registered still holds its flag
      obtain ⟨b, hb⟩ := (h.held id).2 (isSome_of_exists ((h.registered id).1 hreg))
      exact Or.inr ⟨b, hb, by simp [hc, hreg]⟩

/-- A broadcast is queued for the sessions it is owed to, unless they have closed their queues. -/
theorem Tracks.queued_broadcast (hopen : ¬ Closed calls id) (update : Message) (origin : SessionId) :
    (l.registry.broadcast update origin).queued id =
      l.registry.queued id ++ owed id calls (.broadcast update origin) := by
  have hiff : (id ≠ origin ∧ l.registry.isSubscribed id = true ∧ l.registry.isSeated id = true) ↔
      Registered calls id ∧ Subscribed calls id ∧ origin ≠ id := by
    rw [h.subscribed, h.seated]
    constructor
    · rintro ⟨hne, ⟨hreg, hsub⟩, -⟩
      exact ⟨hreg, hsub, hne.symm⟩
    · rintro ⟨hreg, hsub, hne⟩
      exact ⟨hne.symm, ⟨hreg, hsub⟩, isSome_of_exists hreg, hopen⟩
  rw [Registry.queued_broadcast, owed]
  simp only [hiff]

/-- What has been drained and what is queued grow together, by what the call owes. -/
theorem Tracks.delivered_step (hopen : ¬ Closed (calls ++ [c]) id) :
    (l.step c).drained id ++ (l.step c).registry.queued id = due id (calls ++ [c]) := by
  rw [closed_snoc, not_or] at hopen
  obtain ⟨hopen, hc⟩ := hopen
  rw [due_snoc, ← h.delivered id hopen, Ledger.registry_step]
  cases c with
  | register => simp [Ledger.step, perform, owed]
  | deregister other => simp [Ledger.step, perform, owed]
  | subscribe other => simp [Ledger.step, perform, owed]
  | unsubscribe other => simp [Ledger.step, perform, owed]
  | broadcast update origin => simp [Ledger.step, perform, h.queued_broadcast hopen]
  | terminateAll => simp [Ledger.step, perform, owed]
  | drain other =>
    by_cases hid : id = other
    · subst hid
      rw [perform, queued_drain]
      simp [Ledger.step, owed, drain]
    · simp [Ledger.step, perform, owed, hid, queued_drain_of_ne hid]
  | close other =>
    have hqueued : (l.registry.closeQueue other).queued id = l.registry.queued id := by
      rw [queued_closeQueue]
      by_cases hid : id = other
      · -- a session that was never registered closes nothing
        subst hid
        have hseat : l.registry.isSeated id = false := by
          rw [Bool.eq_false_iff, Ne, h.seated]
          exact fun hs => hc ⟨hs.1, rfl⟩
        have hnone : l.registry.seat? id = none := by simpa [isSeated] using hseat
        rw [queued_leaveSeat, queued_eq, hnone]
        rfl
      · exact queued_leaveSeat_of_ne hid
    simp [Ledger.step, perform, owed, hqueued]

variable (hn : registrations (calls ++ [c]) < UInt64.size)

include hn

/-- While the numbers do not run out, the number given out is that of the session to be registered. -/
theorem Tracks.next_iff :
    c = .register ∧ id = l.registry.ids.value ↔
      c = .register ∧ registrations calls + 1 = id.toNat := by
  refine and_congr_right ?_
  rintro rfl
  rw [registrations_snoc, if_pos rfl] at hn
  rw [h.next, ← UInt64.toNat_inj, UInt64.toNat_ofNat_of_lt' hn]
  exact eq_comm

theorem Tracks.fresh (hc : c = .register) : l.registry.isRegistered l.registry.ids.value = false := by
  have hnext := ((h.next_iff hn).1 ⟨hc, rfl⟩).2
  rw [Bool.eq_false_iff, Ne, h.registered]
  exact fun hreg => not_isSome_since hnext (isSome_of_exists hreg)

theorem Tracks.issued_step :
    (l.step c).issued.map UInt64.toNat = List.range' 1 (registrations (calls ++ [c])) := by
  by_cases hc : c = .register
  · have hnext := ((h.next_iff hn).1 ⟨hc, rfl⟩).2
    have hissued : (l.step c).issued = l.issued ++ [l.registry.ids.value] := by
      rw [hc]
      rfl
    rw [hissued, registrations_snoc, if_pos hc, List.map_append, h.issued, List.range'_1_concat,
      List.map_singleton, ← hnext, Nat.add_comm 1]
  · have hissued : (l.step c).issued = l.issued := by
      cases c <;> first | rfl | exact absurd rfl hc
    rw [hissued, h.issued, registrations_snoc, if_neg hc, Nat.add_zero]

theorem Tracks.registered_step :
    (l.step c).registry.isRegistered id = true ↔ Registered (calls ++ [c]) id := by
  rw [Ledger.registry_step, isRegistered_perform (h.fresh hn), h.next_iff hn, h.registered,
    registered_snoc]

theorem Tracks.subscribed_step :
    (l.step c).registry.isSubscribed id = true ↔
      Registered (calls ++ [c]) id ∧ Subscribed (calls ++ [c]) id := by
  rw [Ledger.registry_step, isSubscribed_perform (h.fresh hn), h.registered, h.subscribed,
    registered_snoc, subscribed_snoc]
  have hreg : Registered calls id → (since id calls).isSome := isSome_of_exists
  have hsub : Subscribed calls id → (since id calls).isSome := isSome_of_exists
  have hnew : registrations calls + 1 = id.toNat → ¬ (since id calls).isSome := not_isSome_since
  by_cases hc : c = .subscribe id
  · simp only [hc, reduceCtorEq, ne_eq, not_false_eq_true, and_true, false_and, or_false]
    tauto
  · tauto

theorem Tracks.seated_step :
    (l.step c).registry.isSeated id = true ↔
      (since id (calls ++ [c])).isSome ∧ ¬ Closed (calls ++ [c]) id := by
  rw [Ledger.registry_step, isSeated_perform, h.next_iff hn, h.seated, isSome_since_snoc, closed_snoc]
  have hclosed : Closed calls id → (since id calls).isSome := isSome_of_exists
  have hnew : registrations calls + 1 = id.toNat → ¬ (since id calls).isSome := not_isSome_since
  tauto

theorem Tracks.held_step :
    (∃ b, (id, b) ∈ (l.step c).registry.flags) ↔ (since id (calls ++ [c])).isSome := by
  rw [isSome_since_snoc, ← h.next_iff hn, ← h.held]
  simp only [Ledger.registry_step, mem_flags_perform, Prod.mk.injEq]
  constructor
  · rintro ⟨b, ⟨hc, hid, -⟩ | ⟨b', hb', -⟩⟩
    · exact Or.inr ⟨hc, hid⟩
    · exact Or.inl ⟨b', hb'⟩
  · rintro (⟨b, hb⟩ | ⟨hc, hid⟩)
    · exact ⟨_, Or.inr ⟨b, hb, rfl⟩⟩
    · exact ⟨false, Or.inl ⟨hc, hid, rfl⟩⟩

/-- Every call keeps the registry in agreement with the calls. -/
theorem Tracks.step : Tracks (calls ++ [c]) (l.step c) where
  issued := h.issued_step hn
  next := by
    rw [Ledger.registry_step, ids_perform, h.next, registrations_snoc]
    split
    · exact (UInt64.ofNat_add (registrations calls + 1) 1).symm
    · rw [Nat.add_zero, UInt64.add_zero]
  ascending := pairwise_perform (h.fresh hn) h.ascending
  registered _ := h.registered_step hn
  subscribed _ := h.subscribed_step hn
  seated _ := h.seated_step hn
  held _ := h.held_step hn
  flagged _ := h.flagged_step
  delivered _ := h.delivered_step

end Step

/-- So the two agree after any calls. -/
theorem tracks_of (hn : registrations calls < UInt64.size) : Tracks calls (Ledger.of calls) := by
  induction calls using List.reverseRecOn with
  | nil => exact tracks_new
  | append_singleton calls c ih =>
    have hn' : registrations calls < UInt64.size := by
      rw [registrations_snoc] at hn
      omega
    rw [Ledger.of_snoc]
    exact (ih hn').step hn

/-! ## Closing a queue -/

/-- Two ledgers agree on everything but what one session has drained and what its seat holds. -/
structure AlikeBut (id : SessionId) (l l' : Ledger) : Prop where
  issued : l.issued = l'.issued
  sessionIds : l.registry.sessionIds = l'.registry.sessionIds
  registered : ∀ other, l.registry.isRegistered other = l'.registry.isRegistered other
  subscribed : ∀ other, l.registry.isSubscribed other = l'.registry.isSubscribed other
  drained : ∀ other, other ≠ id → l.drained other = l'.drained other
  queued : ∀ other, other ≠ id → l.registry.queued other = l'.registry.queued other
  flagged : ∀ other, other ≠ id → l.registry.isFlagged other = l'.registry.isFlagged other

theorem filter_mapSeats (f : Seat → Seat) (hf : ∀ s, (f s).id = s.id) (id : SessionId)
    (seats : List Seat) :
    (seats.map f).filter (fun s => s.id != id) = (seats.filter fun s => s.id != id).map f := by
  rw [List.filter_map]
  congr 2
  funext s
  simp [hf s]

/-- It is the same whether a seat is left before a call or after it, unless the call may take it
again. -/
theorem leaveSeat_perform (r : Registry) (id : SessionId) (hc : c ≠ .register) :
    (r.perform c).leaveSeat id = (r.leaveSeat id).perform c := by
  cases c with
  | register => exact absurd rfl hc
  | deregister other => rfl
  | subscribe other => rfl
  | unsubscribe other => rfl
  | broadcast update origin =>
    simp only [perform, broadcast, leaveSeat]
    rw [filter_mapSeats _ fun s => by split <;> rfl]
    rfl
  | terminateAll =>
    simp only [perform, terminateAll, ask, leaveSeat]
    rw [filter_mapSeats _ fun s => by split <;> rfl, filter_mapSeats _ fun s => by split <;> rfl]
    rfl
  | drain other =>
    simp only [perform, drain, mapSeat, leaveSeat]
    rw [filter_mapSeats _ fun s => by split <;> rfl]
  | close other =>
    simp only [perform, closeQueue, leaveSeat, List.filter_append, filter_mapSeats Seat.clear fun _ => rfl,
      List.filter_filter, Bool.and_comm]

/-- Registries that differ in the seat of one session differ in no more after a call. -/
theorem leaveSeat_perform_congr {r r' : Registry} (h : r.leaveSeat id = r'.leaveSeat id) (c : Call) :
    (r.perform c).leaveSeat id = (r'.perform c).leaveSeat id := by
  by_cases hc : c = .register
  · -- the number that is handed out may be that of the seat, so it is left once more
    subst hc
    have hreg (r : Registry) : (r.perform .register).leaveSeat id =
        ((r.leaveSeat id).perform .register).leaveSeat id := by
      simp [perform, register, leaveSeat, Counter.next, List.filter_filter]
    rw [hreg r, h, ← hreg r']
  · rw [leaveSeat_perform r id hc, h, ← leaveSeat_perform r' id hc]

theorem leaveSeat_closeQueue (r : Registry) (id : SessionId) :
    (r.closeQueue id).leaveSeat id = r.leaveSeat id := by
  simp [closeQueue, leaveSeat, List.filter_append, List.filter_filter, filter_mapSeats Seat.clear fun _ => rfl]

/-- Two ledgers are the same once a session has left its seat, but for what it has drained. -/
structure Beside (id : SessionId) (l l' : Ledger) : Prop where
  issued : l.issued = l'.issued
  drained : ∀ other, other ≠ id → l.drained other = l'.drained other
  registry : l.registry.leaveSeat id = l'.registry.leaveSeat id

theorem Beside.entries {l' : Ledger} (h : Beside id l l') : l.registry.entries = l'.registry.entries :=
  congrArg (fun r => r.entries) h.registry

theorem Beside.queued {l' : Ledger} (h : Beside id l l') (hne : other ≠ id) :
    l.registry.queued other = l'.registry.queued other := by
  rw [← queued_leaveSeat_of_ne hne, h.registry, queued_leaveSeat_of_ne hne]

theorem Beside.alikeBut {l' : Ledger} (h : Beside id l l') : AlikeBut id l l' where
  issued := h.issued
  sessionIds := by rw [sessionIds, h.entries, sessionIds]
  registered other := by rw [isRegistered, h.entries, isRegistered]
  subscribed other := by rw [isSubscribed, h.entries, isSubscribed]
  drained := h.drained
  queued _ hne := h.queued hne
  flagged other hne := by rw [← isFlagged_leaveSeat_of_ne hne, h.registry, isFlagged_leaveSeat_of_ne hne]

/-- Whatever is called, the difference stays with the one seat. -/
theorem Beside.step {l' : Ledger} (h : Beside id l l') (c : Call) : Beside id (l.step c) (l'.step c) where
  issued := by
    have hids : l.registry.ids = l'.registry.ids := congrArg (fun r => r.ids) h.registry
    cases c with
    | register => simp only [Ledger.step, register, h.issued, hids]
    | _ => exact h.issued
  drained other hne := by
    cases c with
    | drain who =>
      simp only [Ledger.step, drain, h.drained other hne]
      split
      · rename_i hwho
        rw [← hwho, h.queued hne]
      · rfl
    | _ => exact h.drained other hne
  registry := leaveSeat_perform_congr h.registry c

/-- Nobody else notices that a session closes its queue, then or later. -/
theorem alikeBut_close (before later : List Call) (id : SessionId) :
    AlikeBut id (Ledger.of (before ++ .close id :: later)) (Ledger.of (before ++ later)) := by
  suffices h : Beside id (Ledger.of (before ++ .close id :: later)) (Ledger.of (before ++ later)) from
    h.alikeBut
  induction later using List.reverseRecOn with
  | nil =>
    rw [Ledger.of_snoc, List.append_nil]
    exact ⟨rfl, fun _ _ => rfl, leaveSeat_closeQueue _ id⟩
  | append_singleton later c ih =>
    rw [← List.cons_append, ← List.append_assoc, ← List.append_assoc, Ledger.of_snoc, Ledger.of_snoc]
    exact ih.step c

/-! ## Delivery -/

/-- After any calls that register fewer than 2⁶⁴ sessions: the sessions have been numbered 1, 2, 3, …;
the registry lists in ascending order those that are registered; what a session with an open queue
has drained, followed by what is queued for it, is what it was due, in order and each update once;
closing a queue has changed nothing for the other sessions; and a session has been asked to end if
and only if all were while it was registered. -/
theorem fanout_exact (calls : List Call) (hn : registrations calls < UInt64.size) :
    (Ledger.of calls).issued.map UInt64.toNat = List.range' 1 (registrations calls) ∧
      ((Ledger.of calls).registry.sessionIds.Pairwise (· < ·) ∧
        ∀ id, id ∈ (Ledger.of calls).registry.sessionIds ↔ Registered calls id) ∧
      (∀ id, ¬ Closed calls id →
        (Ledger.of calls).drained id ++ (Ledger.of calls).registry.queued id = due id calls) ∧
      (∀ before later id, calls = before ++ .close id :: later →
        AlikeBut id (Ledger.of calls) (Ledger.of (before ++ later))) ∧
      ∀ id, (Ledger.of calls).registry.isFlagged id = true ↔ Asked calls id := by
  have h := tracks_of hn
  refine ⟨h.issued, ⟨List.pairwise_map.2 h.ascending, ?_⟩, h.delivered, ?_, h.flagged⟩
  · intro id
    rw [mem_sessionIds, h.registered]
  · rintro before later id rfl
    exact alikeBut_close before later id

/-- Three sessions subscribe. The second leaves with an update in its queue, which it reads later; the
third closes its queue. -/
def partings : List Call :=
  [.register, .register, .register, .subscribe 1, .subscribe 2, .subscribe 3,
    .broadcast (.update ⟨0, 0, 0, 0, []⟩) 1, .deregister 2, .close 3,
    .broadcast (.update ⟨0, 0, 0, 1, []⟩) 2, .terminateAll, .drain 2]

/-- The first session is due the second update alone, the second session the first alone, and the
third, which hears of neither, is still asked to end. -/
theorem fanout_exact_partings : registrations partings < UInt64.size ∧
    (Ledger.of partings).drained 1 ++ (Ledger.of partings).registry.queued 1 =
      [.update ⟨0, 0, 0, 1, []⟩] ∧
    (Ledger.of partings).drained 2 ++ (Ledger.of partings).registry.queued 2 =
      [.update ⟨0, 0, 0, 0, []⟩] ∧
    (Ledger.of partings).registry.isFlagged 3 = true := by
  have hn : registrations partings < UInt64.size := by decide
  obtain ⟨-, -, hdelivered, -, hflagged⟩ := fanout_exact partings hn
  have hasked : Asked partings 3 := ⟨partings.take 10, [.drain 2], rfl, by decide⟩
  exact ⟨hn, hdelivered 1 (by decide), hdelivered 2 (by decide), (hflagged 3).2 hasked⟩

end HomeControl.Registry

import HomeControl.Server.Registry

/-!
# What the registry's operations do to one session

Four questions are asked of a registry about a session: what is queued for it, whether it has been
asked to end, whether it is registered, and whether it is subscribed. For every operation this file
says how the answers change, and that they stay as they were for every session the operation is not
about.
-/

namespace HomeControl.Registry

variable {r : Registry} {id other : SessionId}

/-! ## Seats -/

/-- What is queued for a session lies on its seat; without a seat nothing is. -/
theorem queued_eq (r : Registry) (id : SessionId) :
    r.queued id = ((r.seat? id).map Seat.queue).getD [] := by
  unfold queued
  cases r.seat? id <;> rfl

/-- Seats that keep their numbers are found where they were. -/
theorem seat?_map (f : Seat → Seat) (hf : ∀ s, (f s).id = s.id) (id : SessionId) :
    ({ r with seats := r.seats.map f } : Registry).seat? id = (r.seat? id).map f := by
  have hp : ((fun s : Seat => s.id == id) ∘ f) = fun s => s.id == id := by
    funext s
    simp [hf]
  rw [seat?, List.find?_map, hp, seat?]

theorem id_of_seat? {s : Seat} (h : r.seat? id = some s) : s.id = id := by
  simpa using List.find?_some h

/-- To change one seat is to find that one changed and the others as they were. -/
theorem seat?_mapSeat (f : Seat → Seat) (hf : ∀ s, (f s).id = s.id) (id other : SessionId) :
    (r.mapSeat id f).seat? other = (r.seat? other).map fun s => if s.id = id then f s else s := by
  refine seat?_map _ ?_ other
  intro s
  split
  · exact hf s
  · rfl

theorem drain_snd (r : Registry) (id : SessionId) : (r.drain id).2 = r.mapSeat id Seat.clear := rfl

@[simp] theorem queued_drain (r : Registry) (id : SessionId) : (r.drain id).2.queued id = [] := by
  rw [drain_snd, queued_eq, seat?_mapSeat Seat.clear fun _ => rfl]
  cases hs : r.seat? id with
  | none => rfl
  | some s => simp [id_of_seat? hs]

theorem queued_drain_of_ne (h : other ≠ id) : (r.drain id).2.queued other = r.queued other := by
  rw [drain_snd, queued_eq, queued_eq, seat?_mapSeat Seat.clear fun _ => rfl]
  cases hs : r.seat? other with
  | none => rfl
  | some s =>
    have hid := id_of_seat? hs
    rw [Option.map_some, if_neg (by rw [hid]; exact h), Option.map_some]

/-- What is queued goes with the seat. -/
@[simp] theorem queued_leaveSeat (r : Registry) (id : SessionId) : (r.leaveSeat id).queued id = [] := by
  have hs : (r.leaveSeat id).seat? id = none := by
    simp [leaveSeat, seat?]
  rw [queued_eq, hs]
  rfl

theorem seat?_leaveSeat_of_ne (h : other ≠ id) : (r.leaveSeat id).seat? other = r.seat? other := by
  rw [leaveSeat, seat?, List.find?_filter, seat?]
  congr 1
  funext s
  by_cases hs : s.id = other <;> simp [hs, h]

theorem queued_leaveSeat_of_ne (h : other ≠ id) : (r.leaveSeat id).queued other = r.queued other := by
  rw [queued_eq, queued_eq, seat?_leaveSeat_of_ne h]

/-- A new session has nothing queued, and the others keep what they have. -/
theorem seat?_register (id : SessionId) :
    r.register.2.seat? id = (r.seat? id).or (if r.ids.value = id then some { id } else none) := by
  simp only [register, Counter.next, seat?, List.find?_append]
  congr 1
  by_cases h : r.ids.value = id <;> simp [h]

/-- Registering a session leaves every queue as it is: on a new seat nothing is queued. -/
@[simp] theorem queued_register (r : Registry) (id : SessionId) :
    r.register.2.queued id = r.queued id := by
  rw [queued_eq, queued_eq, seat?_register]
  cases r.seat? id with
  | none => by_cases h : r.ids.value = id <;> simp [h, Seat.queue]
  | some s => rfl

@[simp] theorem queued_deregister (r : Registry) (id other : SessionId) :
    (r.deregister id).queued other = r.queued other := rfl

@[simp] theorem queued_setSubscribed (r : Registry) (id other : SessionId) (b : Bool) :
    (r.setSubscribed id b).queued other = r.queued other := rfl

/-- To ask all sessions to end is to set the flags of those that are registered. -/
theorem seat?_terminateAll (r : Registry) (id : SessionId) :
    r.terminateAll.seat? id =
      (r.seat? id).map fun s => if r.isRegistered s.id then s.flag else s :=
  seat?_map _ (fun s => by split <;> rfl) id

@[simp] theorem queued_terminateAll (r : Registry) (id : SessionId) :
    r.terminateAll.queued id = r.queued id := by
  rw [queued_eq, queued_eq, seat?_terminateAll]
  cases r.seat? id with
  | none => rfl
  | some s =>
    simp only [Option.map_some, Option.getD_some]
    split <;> rfl

/-- Whether a session still holds a seat. -/
def isSeated (r : Registry) (id : SessionId) : Bool :=
  (r.seat? id).isSome

theorem isSeated_map (f : Seat → Seat) (hf : ∀ s, (f s).id = s.id) (id : SessionId) :
    ({ r with seats := r.seats.map f } : Registry).isSeated id = r.isSeated id := by
  rw [isSeated, seat?_map f hf, Option.isSome_map, isSeated]

@[simp] theorem isSeated_deregister (r : Registry) (id other : SessionId) :
    (r.deregister id).isSeated other = r.isSeated other := rfl

@[simp] theorem isSeated_setSubscribed (r : Registry) (id other : SessionId) (b : Bool) :
    (r.setSubscribed id b).isSeated other = r.isSeated other := rfl

@[simp] theorem isSeated_drain (r : Registry) (id other : SessionId) :
    (r.drain id).2.isSeated other = r.isSeated other :=
  isSeated_map _ (fun s => by split <;> rfl) other

@[simp] theorem isSeated_broadcast (r : Registry) (update : Message) (origin id : SessionId) :
    (r.broadcast update origin).isSeated id = r.isSeated id :=
  isSeated_map _ (fun s => by split <;> rfl) id

@[simp] theorem isSeated_terminateAll (r : Registry) (id : SessionId) :
    r.terminateAll.isSeated id = r.isSeated id := by
  rw [isSeated, seat?_terminateAll, Option.isSome_map, isSeated]

theorem isSeated_leaveSeat_of_ne (h : other ≠ id) : (r.leaveSeat id).isSeated other = r.isSeated other := by
  rw [isSeated, seat?_leaveSeat_of_ne h, isSeated]

/-- Nobody is seated by another's leaving. -/
theorem isSeated_of_leaveSeat (h : (r.leaveSeat id).isSeated other = true) : r.isSeated other = true := by
  by_cases hne : other = id
  · subst hne
    simp [isSeated, leaveSeat, seat?] at h
  · rwa [isSeated_leaveSeat_of_ne hne] at h

/-- Closing the queue frees the seat as leaving it does. -/
theorem queued_closeQueue (r : Registry) (id other : SessionId) :
    (r.closeQueue id).queued other = (r.leaveSeat id).queued other := rfl

/-- A session that closes its queue is no longer seated; whoever else was still is. -/
theorem isSeated_closeQueue :
    (r.closeQueue id).isSeated other = true ↔ r.isSeated other = true ∧ other ≠ id := by
  have hrfl : (r.closeQueue id).isSeated other = (r.leaveSeat id).isSeated other := rfl
  rw [hrfl]
  constructor
  · intro h
    refine ⟨isSeated_of_leaveSeat h, ?_⟩
    rintro rfl
    simp [isSeated, leaveSeat, seat?] at h
  · rintro ⟨h, hne⟩
    rwa [isSeated_leaveSeat_of_ne hne]

/-- A new session is seated, and nobody loses a seat by it. -/
theorem isSeated_register (id : SessionId) :
    r.register.2.isSeated id = true ↔ id = r.ids.value ∨ r.isSeated id = true := by
  rw [isSeated, seat?_register, isSeated]
  by_cases h : r.ids.value = id
  · simp [h]
  · have hne : id ≠ r.ids.value := fun he => h he.symm
    simp [h, hne]

/-- A broadcast is queued for those who are subscribed and seated, except the session it comes from. -/
theorem queued_broadcast (update : Message) (origin id : SessionId) :
    (r.broadcast update origin).queued id =
      r.queued id ++ if id ≠ origin ∧ r.isSubscribed id ∧ r.isSeated id then [update] else [] := by
  rw [queued_eq, queued_eq, broadcast, seat?_map _ fun s => by split <;> rfl, isSeated]
  cases hs : r.seat? id with
  | none => simp
  | some s =>
    obtain rfl := id_of_seat? hs
    by_cases h : s.id ≠ origin ∧ r.isSubscribed s.id
    · simp [h]
    · rw [Option.map_some, if_neg h, if_neg fun h' => h ⟨h'.1, h'.2.1⟩]
      simp

/-! ## Flags -/

/-- The flags that are still held, with the numbers of their sessions. -/
def flags (r : Registry) : List (SessionId × Bool) :=
  (r.seats ++ r.closed).map fun s => (s.id, s.flagged)

/-- A session has been asked to end if its number is held together with a set flag. -/
theorem isFlagged_iff : r.isFlagged id = true ↔ (id, true) ∈ r.flags := by
  simp [isFlagged, flags, List.any_eq_true, List.mem_map]

/-- Seats that keep their numbers and their flags can be changed at will. -/
theorem flags_map (f : Seat → Seat) (hf : ∀ s, (f s).id = s.id ∧ (f s).flagged = s.flagged) :
    ({ r with seats := r.seats.map f } : Registry).flags = r.flags := by
  have hcomp : (fun s : Seat => (s.id, s.flagged)) ∘ f = fun s => (s.id, s.flagged) := by
    funext s
    simp [hf s]
  simp [flags, hcomp]

@[simp] theorem flags_drain (r : Registry) (id : SessionId) : (r.drain id).2.flags = r.flags :=
  flags_map _ fun s => by split <;> exact ⟨rfl, rfl⟩

@[simp] theorem flags_broadcast (r : Registry) (update : Message) (origin : SessionId) :
    (r.broadcast update origin).flags = r.flags :=
  flags_map _ fun s => by split <;> exact ⟨rfl, rfl⟩

@[simp] theorem flags_deregister (r : Registry) (id : SessionId) :
    (r.deregister id).flags = r.flags := rfl

@[simp] theorem flags_setSubscribed (r : Registry) (id : SessionId) (b : Bool) :
    (r.setSubscribed id b).flags = r.flags := rfl

/-- Nothing that a machine asks of the registry touches a flag. -/
theorem flags_handleAll (r : Registry) (events : List Event) : (r.handleAll events).flags = r.flags := by
  induction events generalizing r with
  | nil => rfl
  | cons e events ih =>
    have he : (r.handle e).flags = r.flags := by
      cases e with
      | broadcast update origin => exact flags_broadcast r update origin
      | subscribe id => exact flags_setSubscribed r id true
      | unsubscribe id => exact flags_setSubscribed r id false
    exact (ih (r.handle e)).trans he

/-- Whether a session has been asked to end depends on the flags alone. -/
theorem isFlagged_eq_of_flags {r' : Registry} (h : r'.flags = r.flags) (id : SessionId) :
    r'.isFlagged id = r.isFlagged id := by
  rw [Bool.eq_iff_iff, isFlagged_iff, isFlagged_iff, h]

theorem mem_flags_closeQueue {x : SessionId × Bool} : x ∈ (r.closeQueue id).flags ↔ x ∈ r.flags := by
  simp only [flags, closeQueue, List.mem_map, List.mem_append, List.mem_filter]
  constructor
  · rintro ⟨s, ⟨hs, -⟩ | hs | ⟨t, ⟨ht, -⟩, rfl⟩, rfl⟩
    · exact ⟨s, Or.inl hs, rfl⟩
    · exact ⟨s, Or.inr hs, rfl⟩
    · exact ⟨t, Or.inl ht, rfl⟩
  · rintro ⟨s, hs | hs, rfl⟩
    · by_cases hid : s.id = id
      · exact ⟨s.clear, Or.inr (Or.inr ⟨s, ⟨hs, by simp [hid]⟩, rfl⟩), rfl⟩
      · exact ⟨s, Or.inl ⟨hs, by simp [hid]⟩, rfl⟩
    · exact ⟨s, Or.inr (Or.inl hs), rfl⟩

/-- A new session has not been asked to end. -/
theorem mem_flags_register {x : SessionId × Bool} :
    x ∈ r.register.2.flags ↔ x = (r.ids.value, false) ∨ x ∈ r.flags := by
  simp only [flags, register, Counter.next, List.map_append, List.mem_append, List.map_cons,
    List.map_nil, List.mem_singleton]
  rw [or_assoc]
  exact or_left_comm

/-- Asking all sessions to end sets the flags of the registered ones and clears none. -/
theorem mem_flags_terminateAll {x : SessionId × Bool} :
    x ∈ r.terminateAll.flags ↔
      ∃ b, (x.1, b) ∈ r.flags ∧ x.2 = (b || r.isRegistered x.1) := by
  have hflags : r.terminateAll.flags = r.flags.map fun y => (y.1, y.2 || r.isRegistered y.1) := by
    simp only [flags, terminateAll, ask, ← List.map_append, List.map_map]
    refine List.map_congr_left ?_
    intro s _
    by_cases hreg : r.isRegistered s.id <;> simp [hreg, Seat.flag]
  rw [hflags, List.mem_map]
  constructor
  · rintro ⟨⟨id, b⟩, hb, rfl⟩
    exact ⟨b, hb, rfl⟩
  · rintro ⟨b, hb, he⟩
    exact ⟨(x.1, b), hb, Prod.ext rfl he.symm⟩

/-- Whoever is registered and holds a seat can be asked to end. -/
theorem isFlagged_terminateAll (hreg : r.isRegistered id = true) (hseat : r.isSeated id = true) :
    r.terminateAll.isFlagged id = true := by
  obtain ⟨s, hs⟩ := Option.isSome_iff_exists.1 hseat
  have hid := id_of_seat? hs
  have hmem : (id, s.flagged) ∈ r.flags := by
    rw [flags, List.mem_map]
    exact ⟨s, List.mem_append_left _ (List.mem_of_find?_eq_some hs), by rw [hid]⟩
  rw [isFlagged_iff, mem_flags_terminateAll]
  exact ⟨s.flagged, hmem, by simp [hreg]⟩

theorem isFlagged_leaveSeat_of_ne (h : other ≠ id) :
    (r.leaveSeat id).isFlagged other = r.isFlagged other := by
  rw [isFlagged, isFlagged, leaveSeat, ← List.filter_append, List.any_filter]
  congr 1
  funext s
  by_cases hs : s.id = other <;> simp [hs, h]

/-! ## Entries -/

@[simp] theorem isSubscribed_broadcast (r : Registry) (update : Message) (origin id : SessionId) :
    (r.broadcast update origin).isSubscribed id = r.isSubscribed id := rfl

@[simp] theorem isRegistered_broadcast (r : Registry) (update : Message) (origin id : SessionId) :
    (r.broadcast update origin).isRegistered id = r.isRegistered id := rfl

@[simp] theorem isSubscribed_terminateAll (r : Registry) (id : SessionId) :
    r.terminateAll.isSubscribed id = r.isSubscribed id := rfl

@[simp] theorem isRegistered_terminateAll (r : Registry) (id : SessionId) :
    r.terminateAll.isRegistered id = r.isRegistered id := rfl

@[simp] theorem isSubscribed_drain (r : Registry) (id other : SessionId) :
    (r.drain id).2.isSubscribed other = r.isSubscribed other := rfl

@[simp] theorem isRegistered_drain (r : Registry) (id other : SessionId) :
    (r.drain id).2.isRegistered other = r.isRegistered other := rfl

@[simp] theorem isSubscribed_closeQueue (r : Registry) (id other : SessionId) :
    (r.closeQueue id).isSubscribed other = r.isSubscribed other := rfl

@[simp] theorem isRegistered_closeQueue (r : Registry) (id other : SessionId) :
    (r.closeQueue id).isRegistered other = r.isRegistered other := rfl

/-- A session is registered if it has an entry. -/
theorem isRegistered_iff : r.isRegistered id = true ↔ ∃ e ∈ r.entries, e.id = id := by
  simp [isRegistered]

/-- A session is subscribed if it has an entry that says so. -/
theorem isSubscribed_iff :
    r.isSubscribed id = true ↔ ∃ e ∈ r.entries, e.id = id ∧ e.subscribed = true := by
  simp [isSubscribed]

/-- Nobody is subscribed without being registered. -/
theorem isRegistered_of_isSubscribed (h : r.isSubscribed id = true) : r.isRegistered id = true := by
  obtain ⟨e, he, hid, -⟩ := isSubscribed_iff.1 h
  exact isRegistered_iff.2 ⟨e, he, hid⟩

/-- An entry with a new number joins the others. -/
theorem mem_insertEntry {e x : Entry} {es : List Entry} (h : ∀ y ∈ es, y.id ≠ e.id) :
    x ∈ insertEntry e es ↔ x = e ∨ x ∈ es := by
  induction es with
  | nil => simp [insertEntry]
  | cons y ys ih =>
    have hy : e.id ≠ y.id := fun he => h y List.mem_cons_self he.symm
    have ih := ih fun z hz => h z (List.mem_cons_of_mem _ hz)
    rw [insertEntry, if_neg hy]
    split
    · rw [List.mem_cons]
    · rw [List.mem_cons, ih, List.mem_cons]
      exact or_left_comm

/-- Registering adds an entry, if the number is new. -/
theorem mem_entries_register (h : r.isRegistered r.ids.value = false) {x : Entry} :
    x ∈ r.register.2.entries ↔ x = { id := r.ids.value } ∨ x ∈ r.entries := by
  refine mem_insertEntry ?_
  intro y hy he
  rw [isRegistered_iff.2 ⟨y, hy, he⟩] at h
  cases h

/-- If the next number is free, to register is to add that session and no other. -/
theorem isRegistered_register (h : r.isRegistered r.ids.value = false) :
    r.register.2.isRegistered id = true ↔ id = r.ids.value ∨ r.isRegistered id = true := by
  rw [isRegistered_iff, isRegistered_iff]
  simp only [mem_entries_register h]
  constructor
  · rintro ⟨e, rfl | he, rfl⟩
    · exact Or.inl rfl
    · exact Or.inr ⟨e, he, rfl⟩
  · rintro (rfl | ⟨e, he, rfl⟩)
    · exact ⟨_, Or.inl rfl, rfl⟩
    · exact ⟨e, Or.inr he, rfl⟩

/-- A session receives no updates merely by being registered. -/
theorem isSubscribed_register (h : r.isRegistered r.ids.value = false) :
    r.register.2.isSubscribed id = r.isSubscribed id := by
  rw [Bool.eq_iff_iff, isSubscribed_iff, isSubscribed_iff]
  simp only [mem_entries_register h]
  constructor
  · rintro ⟨e, rfl | he, hid, hs⟩
    · cases hs
    · exact ⟨e, he, hid, hs⟩
  · rintro ⟨e, he, hid, hs⟩
    exact ⟨e, Or.inr he, hid, hs⟩

/-- The registry lists exactly those that are registered. -/
theorem mem_sessionIds : id ∈ r.sessionIds ↔ r.isRegistered id = true := by
  rw [isRegistered_iff, sessionIds, List.mem_map]

theorem sessionIds_setSubscribed (r : Registry) (id : SessionId) (b : Bool) :
    (r.setSubscribed id b).sessionIds = r.sessionIds := by
  simp only [sessionIds, setSubscribed, List.map_map]
  refine List.map_congr_left ?_
  intro e _
  by_cases he : e.id = id <;> simp [he]

/-- Nothing that a machine asks of the registry registers or removes a session. -/
theorem sessionIds_handleAll (r : Registry) (events : List Event) :
    (r.handleAll events).sessionIds = r.sessionIds := by
  induction events generalizing r with
  | nil => rfl
  | cons e events ih =>
    have he : (r.handle e).sessionIds = r.sessionIds := by
      cases e with
      | broadcast => rfl
      | subscribe id => exact sessionIds_setSubscribed r id true
      | unsubscribe id => exact sessionIds_setSubscribed r id false
    exact (ih (r.handle e)).trans he

/-- An entry is put where its number belongs. -/
theorem pairwise_insertEntry {e : Entry} {es : List Entry} (hnew : ∀ x ∈ es, x.id ≠ e.id)
    (h : es.Pairwise fun x y => x.id < y.id) :
    (insertEntry e es).Pairwise fun x y => x.id < y.id := by
  induction es with
  | nil => exact List.pairwise_singleton _ e
  | cons x xs ih =>
    obtain ⟨hx, hxs⟩ := List.pairwise_cons.1 h
    have hxe : e.id ≠ x.id := fun he => hnew x List.mem_cons_self he.symm
    have hnew' : ∀ y ∈ xs, y.id ≠ e.id := fun y hy => hnew y (List.mem_cons_of_mem _ hy)
    rw [insertEntry, if_neg hxe]
    split
    · rename_i hlt
      refine List.pairwise_cons.2 ⟨?_, h⟩
      intro y hy
      rcases List.mem_cons.1 hy with rfl | hy
      · exact hlt
      · exact UInt64.lt_trans hlt (hx y hy)
    · rename_i hle
      refine List.pairwise_cons.2 ⟨?_, ih hnew' hxs⟩
      intro y hy
      rcases (mem_insertEntry hnew').1 hy with rfl | hy
      · exact UInt64.lt_of_le_of_ne (UInt64.not_lt.1 hle) hxe.symm
      · exact hx y hy

theorem isRegistered_setSubscribed (b : Bool) :
    (r.setSubscribed id b).isRegistered other = r.isRegistered other := by
  simp only [isRegistered, setSubscribed, List.any_map]
  congr 1
  funext e
  by_cases h : e.id = id <;> simp [h]

/-- A session is subscribed as it was last told, provided that it is registered. -/
theorem isSubscribed_setSubscribed (b : Bool) :
    (r.setSubscribed id b).isSubscribed id = (r.isRegistered id && b) := by
  rw [Bool.eq_iff_iff, isSubscribed_iff, Bool.and_eq_true, isRegistered_iff]
  simp only [setSubscribed, List.mem_map]
  constructor
  · rintro ⟨-, ⟨e, he, rfl⟩, hid, hs⟩
    by_cases h : e.id = id
    · exact ⟨⟨e, he, h⟩, by simpa [h] using hs⟩
    · simp [h] at hid
  · rintro ⟨⟨e, he, rfl⟩, hb⟩
    exact ⟨_, ⟨e, he, rfl⟩, by simp, by simp [hb]⟩

theorem isSubscribed_setSubscribed_of_ne (h : other ≠ id) (b : Bool) :
    (r.setSubscribed id b).isSubscribed other = r.isSubscribed other := by
  simp only [isSubscribed, setSubscribed, List.any_map]
  congr 1
  funext e
  by_cases he : e.id = id
  · have hne : (id == other) = false := beq_eq_false_iff_ne.2 fun hid => h hid.symm
    simp only [Function.comp, he, if_true, hne, Bool.false_and]
  · simp [he]

theorem isRegistered_deregister_of_ne (h : other ≠ id) :
    (r.deregister id).isRegistered other = r.isRegistered other := by
  simp only [isRegistered, deregister, List.any_filter]
  congr 1
  funext e
  by_cases he : e.id = other <;> simp [he, h]

theorem isRegistered_deregister : (r.deregister id).isRegistered id = false := by
  simp [isRegistered, deregister]

theorem isRegistered_of_deregister (h : (r.deregister id).isRegistered other = true) :
    r.isRegistered other = true := by
  obtain ⟨e, he, hid⟩ := isRegistered_iff.1 h
  exact isRegistered_iff.2 ⟨e, (List.mem_filter.1 he).1, hid⟩

theorem isSubscribed_deregister : (r.deregister id).isSubscribed id = false := by
  rw [Bool.eq_false_iff]
  intro h
  obtain ⟨e, he, hid, -⟩ := isSubscribed_iff.1 h
  have hne := (List.mem_filter.1 he).2
  simp [hid] at hne

theorem isSubscribed_deregister_of_ne (h : other ≠ id) :
    (r.deregister id).isSubscribed other = r.isSubscribed other := by
  simp only [isSubscribed, deregister, List.any_filter]
  congr 1
  funext e
  by_cases he : e.id = other <;> simp [he, h]

end HomeControl.Registry

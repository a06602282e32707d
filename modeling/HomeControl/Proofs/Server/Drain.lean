import HomeControl.Proofs.Server.Turns

/-!
# Draining a server

From the moment at which the loop has asked every session to end, no session is registered, every
session that runs has its flag set, and each has at most four moves left, of which it can always make
one. So the registry runs empty, and the loop comes to its end only then (`shutdown_drains`).
-/

namespace HomeControl

open Hub (Act)

namespace Site

variable {s : Site} {move : Move} {n : Nat} {id : SessionId}

/-! ## What the server does while it closes -/

/-- A server that closes does not open again. -/
theorem closing_next (hc : s.Closing) (move : Move) : (s.next move).Closing := by
  cases move with
  | loop connected =>
    rcases hc with hc | hc
    · by_cases hd : s.hub.isDrained = true
      · exact Or.inr (by simp_all [next, Listener.step, hub])
      · exact Or.inl (by simp_all [next, Listener.step, hub])
    · exact Or.inr (by simp [next, Listener.step, hc])
  | _ => exact hc

/-- While the server closes, the loop only waits. -/
theorem hub_loop_of_closing (hc : s.Closing) (connected : Bool) :
    (s.next (.loop connected)).hub = s.hub := by
  rcases hc with hc | hc
  · by_cases hd : s.hub.isDrained = true <;> simp_all [next, Listener.step, hub]
  · simp [next, Listener.step, hub, hc]

/-! ## One session while the server closes -/

/-- In closing, a move changes nothing for the sessions it is not about. -/
structure Still (s s' : Site) (id : SessionId) : Prop where
  machine : s'.hub.machine? id = s.hub.machine? id
  phase : s'.phase id = s.phase id
  registered : s'.hub.registry.isRegistered id = s.hub.registry.isRegistered id

/-- While the server closes, a move of one session leaves the others still. -/
theorem still_next (h : Kept n s) (hc : s.Closing) (hdue : s.Due move)
    (hne : move.session? ≠ some id) : Still s (s.next move) id := by
  cases move with
  | stop => exact ⟨rfl, rfl, rfl⟩
  | loop connected =>
    have hhub := hub_loop_of_closing hc connected
    exact ⟨by rw [hhub], rfl, by rw [hhub]⟩
  | session act =>
    obtain ⟨hsome, hpermits, -⟩ := hdue
    obtain ⟨id', hs⟩ := Option.isSome_iff_exists.1 hsome
    have hact := Hub.ne_accept hs
    refine ⟨?_, if_neg hne, ?_⟩
    · cases hm : s.hub.machine? id with
      | some m =>
        have hu := Hub.unmoved_perform h.sound (fun he => absurd he hact) hpermits hm hne
        exact hu.machine.trans hm
      | none =>
        cases hm' : (s.next (.session act)).hub.machine? id with
        | none => rfl
        | some m => exact absurd (Hub.accept_of_machine? h.sound hm hm').1 hact
    · exact Hub.isRegistered_eq_of_sessionIds (Hub.sessionIds_perform hs) id
  | breakOff id' =>
    have hid : id ≠ id' := fun he => hne (by rw [he]; rfl)
    exact ⟨Hub.machine?_retire_of_ne hid, rfl, rfl⟩
  | deregister id' =>
    have hid : id ≠ id' := fun he => hne (by rw [he]; rfl)
    exact ⟨rfl, rfl, Registry.isRegistered_deregister_of_ne hid⟩

/-- How many moves a session may still make while the server closes. -/
def movesLeft (s : Site) (id : SessionId) : Nat :=
  match s.hub.machine? id with
  | some _ =>
    match s.phase id with
    | .flushing => 4
    | .waiting => 3
    | .checking => 2
  | none => if s.hub.registry.isRegistered id then 1 else 0

theorem Still.movesLeft {s' : Site} (h : Still s s' id) : s'.movesLeft id = s.movesLeft id := by
  unfold Site.movesLeft
  rw [h.machine, h.phase, h.registered]

/-- No session makes more than four moves. -/
theorem movesLeft_le (s : Site) (id : SessionId) : s.movesLeft id ≤ 4 := by
  unfold movesLeft
  split
  · split <;> omega
  · split <;> omega

theorem movesLeft_of_none (hm : s.hub.machine? id = none) : s.movesLeft id ≤ 1 := by
  unfold movesLeft
  rw [hm]
  by_cases hr : s.hub.registry.isRegistered id = true <;> simp [hr]

theorem two_le_movesLeft {m : ServerMachine} (hm : s.hub.machine? id = some m) :
    2 ≤ s.movesLeft id := by
  unfold movesLeft
  rw [hm]
  cases s.phase id <;> simp

/-- In closing, whoever looks at its flag says so and ends. -/
theorem farewell_of_due (h : Kept n s) (hc : s.Closing) {room : Option Nat} {fresh : Bytes}
    (hdue : s.Due (.session (.obeyFlag id room fresh))) : s.hub.SaysFarewell id room fresh := by
  obtain ⟨⟨m, hm⟩, -⟩ := running_of_due hdue rfl
  exact Hub.saysFarewell hm (h.flagged hc id m hm) room fresh

/-- Whoever moves has fewer moves left. -/
theorem movesLeft_next_lt (h : Kept n s) (hc : s.Closing) (hdue : s.Due move)
    (hs : move.session? = some id) : (s.next move).movesLeft id < s.movesLeft id := by
  cases move with
  | stop => cases hs
  | loop => cases hs
  | session act =>
    obtain ⟨⟨m, hm⟩, hphase⟩ := running_of_due hdue hs
    have htwo := two_le_movesLeft hm
    have hnext := phase_next (s := s) hs
    cases hm' : (s.next (.session act)).hub.machine? id with
    | none =>
      have hone := movesLeft_of_none hm'
      omega
    | some m' =>
      -- it goes on, so it has not looked at its flag
      cases act with
      | accept => cases hs
      | deregister => cases hs
      | shutdown => cases hs
      | receive id' room fresh arrival =>
        have hwaiting : Phase.waiting = s.phase id := Option.some.inj hphase
        rw [← hwaiting] at hnext
        simp [movesLeft, hm, hm', hnext, ← hwaiting, Phase.next]
      | flush id' room =>
        have hflushing : Phase.flushing = s.phase id := Option.some.inj hphase
        rw [← hflushing] at hnext
        simp [movesLeft, hm, hm', hnext, ← hflushing, Phase.next]
      | obeyFlag id' room fresh =>
        obtain rfl : id' = id := Option.some.inj hs
        have hgone := (farewell_of_due h hc hdue).1
        exact absurd (hm'.symm.trans hgone) (by simp)
  | breakOff id' =>
    obtain rfl : id' = id := Option.some.inj hs
    obtain ⟨m, hm⟩ := Option.isSome_iff_exists.1 hdue
    have htwo := two_le_movesLeft hm
    have hone := movesLeft_of_none (s := s.next (.breakOff id')) (Hub.machine?_retire s.hub id')
    omega
  | deregister id' =>
    obtain rfl : id' = id := Option.some.inj hs
    have hmach : (s.next (.deregister id')).hub.machine? id' = none := hdue.1
    have hreg : (s.next (.deregister id')).hub.registry.isRegistered id' = false :=
      Registry.isRegistered_deregister
    simp [movesLeft, hdue.1, hdue.2, hmach, hreg]

/-- A registered session can always make a move. -/
theorem exists_due (hr : s.hub.registry.isRegistered id = true) :
    ∃ move, move.session? = some id ∧ s.Due move := by
  cases hm : s.hub.machine? id with
  | none => exact ⟨.deregister id, rfl, hm, hr⟩
  | some m =>
    cases hp : s.phase id with
    | waiting =>
      exact ⟨_, rfl, due_of_phase (.receive id none [] .elapsed) hm rfl (by rw [hp]; rfl)⟩
    | checking =>
      exact ⟨_, rfl, due_of_phase (.obeyFlag id none []) hm rfl (by rw [hp]; rfl)⟩
    | flushing =>
      exact ⟨_, rfl, due_of_phase (.flush id none) hm rfl (by rw [hp]; rfl)⟩

/-- What has ended can only be deregistered. -/
theorem deregister_of_ended (hm : s.hub.machine? id = none) (hdue : s.Due move)
    (hs : move.session? = some id) : move = .deregister id := by
  cases move with
  | stop => cases hs
  | loop => cases hs
  | session act =>
    obtain ⟨⟨m, hm'⟩, -⟩ := running_of_due hdue hs
    rw [hm] at hm'
    cases hm'
  | breakOff id' =>
    obtain rfl : id' = id := Option.some.inj hs
    have hrun : (s.hub.machine? id').isSome = true := hdue
    rw [hm] at hrun
    cases hrun
  | deregister id' =>
    obtain rfl : id' = id := Option.some.inj hs
    rfl

/-! ## The rest of the run -/

variable {moves : List Move}

theorem kept_of_closing (h : Kept n s) (hc : s.Closing) (hdue : s.Due move) : Kept n (s.next move) :=
  kept_next h hdue (not_registers_of_closing hc move)

/-- What each move preserves while the server closes holds after all of them. -/
theorem closing_induction {P : Site → Prop}
    (step : ∀ s move, Kept n s → s.Closing → s.Due move → P s → P (s.next move))
    (h : Kept n s) (hc : s.Closing) (ha : s.Admits moves) (hp : P s) : P (s.after moves) := by
  induction moves generalizing s with
  | nil => exact hp
  | cons move rest ih =>
    exact ih (kept_of_closing h hc ha.1) (closing_next hc move) ha.2 (step s move h hc ha.1 hp)

/-- While the server closes, nobody is registered. -/
theorem registrations_of_closing (h : Kept n s) (hc : s.Closing) (ha : s.Admits moves) :
    s.registrations moves = 0 := by
  induction moves generalizing s with
  | nil => rfl
  | cons move rest ih =>
    rw [registrations, if_neg (not_registers_of_closing hc move), Nat.zero_add]
    exact ih (kept_of_closing h hc ha.1) (closing_next hc move) ha.2

/-- The registry only shrinks. -/
theorem sessionIds_next (hc : s.Closing) (hdue : s.Due move) :
    (s.next move).hub.registry.sessionIds.Sublist s.hub.registry.sessionIds := by
  cases move with
  | stop => exact List.Sublist.refl _
  | loop connected =>
    rw [hub_loop_of_closing hc connected]
  | session act =>
    obtain ⟨id, hs⟩ := Option.isSome_iff_exists.1 hdue.1
    have hids : (s.next (.session act)).hub.registry.sessionIds = s.hub.registry.sessionIds :=
      Hub.sessionIds_perform hs
    rw [hids]
  | breakOff id => exact List.Sublist.refl _
  | deregister id => exact List.filter_sublist.map _

theorem sessionIds_after (h : Kept n s) (hc : s.Closing) (ha : s.Admits moves) :
    (s.after moves).hub.registry.sessionIds.Sublist s.hub.registry.sessionIds :=
  closing_induction (P := fun s' => s'.hub.registry.sessionIds.Sublist s.hub.registry.sessionIds)
    (fun _ _ _ hc hdue hp => (sessionIds_next hc hdue).trans hp) h hc ha (List.Sublist.refl _)

/-- A session makes no more moves than it has left. -/
theorem count_le_movesLeft (h : Kept n s) (hc : s.Closing) (ha : s.Admits moves) (id : SessionId) :
    (moves.countP fun move => move.session? = some id) ≤ s.movesLeft id := by
  induction moves generalizing s with
  | nil => exact Nat.zero_le _
  | cons move rest ih =>
    have hrest := ih (kept_of_closing h hc ha.1) (closing_next hc move) ha.2
    rw [List.countP_cons]
    by_cases hs : move.session? = some id
    · have hlt := movesLeft_next_lt h hc ha.1 hs
      simp only [hs, decide_true, if_true]
      omega
    · have hstill := (still_next h hc ha.1 hs).movesLeft
      simp only [hs, decide_false, Bool.false_eq_true, if_false]
      omega

theorem Still.trans {s' s'' : Site} (h : Still s s' id) (h' : Still s' s'' id) : Still s s'' id :=
  ⟨h'.machine.trans h.machine, h'.phase.trans h.phase, h'.registered.trans h.registered⟩

theorem still_after (h : Kept n s) (hc : s.Closing) (ha : s.Admits moves)
    (hne : ∀ move ∈ moves, move.session? ≠ some id) : Still s (s.after moves) id := by
  induction moves generalizing s with
  | nil => exact ⟨rfl, rfl, rfl⟩
  | cons move rest ih =>
    have hstill := still_next h hc ha.1 (hne move List.mem_cons_self)
    refine hstill.trans (ih (kept_of_closing h hc ha.1) (closing_next hc move) ha.2 ?_)
    exact fun other hmem => hne other (List.mem_cons_of_mem _ hmem)

/-- A session that has ended makes no moves but to be deregistered. -/
theorem deregister_of_mem (h : Kept n s) (hc : s.Closing) (ha : s.Admits moves)
    (hm : s.hub.machine? id = none) : ∀ move ∈ moves, move.session? = some id → move = .deregister id := by
  induction moves generalizing s with
  | nil => simp
  | cons first rest ih =>
    have hfirst : first.session? = some id → first = .deregister id := deregister_of_ended hm ha.1
    have hm' : (s.next first).hub.machine? id = none := by
      by_cases hs : first.session? = some id
      · rw [hfirst hs]
        exact hm
      · exact (still_next h hc ha.1 hs).machine.trans hm
    intro move hmem hs
    rcases List.mem_cons.1 hmem with rfl | hmem
    · exact hfirst hs
    · exact ih (kept_of_closing h hc ha.1) (closing_next hc first) ha.2 hm' move hmem hs

/-- What a session does first after a read that has not ended it. -/
inductive LooksAtFlag (s : Site) (id : SessionId) : Move → Prop where
  /-- It says TERMINATE and ends. -/
  | obeys (room : Option Nat) (fresh : Bytes) (h : s.hub.SaysFarewell id room fresh) :
      LooksAtFlag s id (.session (.obeyFlag id room fresh))
  /-- Or it breaks off before it has come to that. -/
  | breaksOff : LooksAtFlag s id (.breakOff id)

/-- A session that has read looks at its flag next or breaks off, and has ended then. -/
theorem looksAtFlag (h : Kept n s) (hc : s.Closing) (hdue : s.Due move) {m : ServerMachine}
    (hm : s.hub.machine? id = some m) (hp : s.phase id = .checking) (hs : move.session? = some id) :
    LooksAtFlag s id move ∧ (s.next move).hub.machine? id = none := by
  cases move with
  | stop => cases hs
  | loop => cases hs
  | breakOff id' =>
    obtain rfl : id' = id := Option.some.inj hs
    exact ⟨.breaksOff, Hub.machine?_retire s.hub id'⟩
  | deregister id' =>
    obtain rfl : id' = id := Option.some.inj hs
    exact absurd (hm.symm.trans hdue.1) (by simp)
  | session act =>
    have hphase := (running_of_due hdue hs).2
    rw [hp] at hphase
    cases act with
    | accept => cases hs
    | deregister => cases hs
    | shutdown => cases hs
    | receive => cases hphase
    | flush => cases hphase
    | obeyFlag id' room fresh =>
      obtain rfl : id' = id := Option.some.inj hs
      have hbye := farewell_of_due h hc hdue
      exact ⟨.obeys room fresh hbye, hbye.1⟩

/-- What is in store for a server whose sessions have all been asked to end, and which then makes some
moves. -/
structure Drains (s : Site) (moves : List Move) : Prop where
  /-- No session is registered any more. -/
  shut : s.registrations moves = 0 ∧
    (s.after moves).hub.registry.sessionIds.Sublist s.hub.registry.sessionIds
  /-- Whoever is registered has its flag set, or has ended and given up the seat that holds it. -/
  flagged : ∀ id, s.hub.registry.isRegistered id = true →
    s.hub.registry.isFlagged id = true ∨ s.hub.machine? id = none
  /-- A read ends a session, or the next that the session does is to look at its flag, and then it
  makes no further move but to be deregistered. -/
  read : ∀ id room fresh arrival between move rest,
    moves = .session (.receive id room fresh arrival) :: (between ++ move :: rest) →
    (∀ other ∈ between, other.session? ≠ some id) → move.session? = some id →
      if (s.hub.perform (.receive id room fresh arrival)).2.ended = none then
        LooksAtFlag ((s.next (.session (.receive id room fresh arrival))).after between) id move ∧
          ∀ other ∈ rest, other.session? = some id → other = .deregister id
      else move = .deregister id
  /-- Whoever looks at its flag says TERMINATE and ends. -/
  farewell : ∀ id room fresh rest, moves = .session (.obeyFlag id room fresh) :: rest →
    s.hub.SaysFarewell id room fresh ∧
      ∀ other ∈ rest, other.session? = some id → other = .deregister id
  /-- If whoever runs takes a whole turn at once, it is its last. -/
  turn : ∀ id, (s.hub.machine? id).isSome → ∀ fresh arrival, s.hub.LastTurn id fresh arrival
  /-- A registered session can always make a move, and it makes at most four. -/
  bounded : ∀ id, (s.hub.registry.isRegistered id = true → ∃ move, move.session? = some id ∧ s.Due move) ∧
    (moves.countP fun move => move.session? = some id) ≤ 4

/-- All this is in store for a server while it closes. -/
theorem drains (h : Kept n s) (hc : s.Closing) (ha : s.Admits moves) : s.Drains moves where
  shut := ⟨registrations_of_closing h hc ha, sessionIds_after h hc ha⟩
  flagged id _ := h.flagged_or_ended hc id
  read := by
    rintro id room fresh arrival between move rest rfl hbetween hmove
    obtain ⟨hread, hrest⟩ := ha
    obtain ⟨habetween, hlast⟩ := admits_append.1 hrest
    have hk := kept_of_closing h hc hread
    have hc' := closing_next hc (.session (.receive id room fresh arrival))
    have hstill := still_after hk hc' habetween hbetween
    have hended : (s.next (.session (.receive id room fresh arrival))).hub.machine? id = none ↔
        (s.hub.perform (.receive id room fresh arrival)).2.ended ≠ none := by
      obtain ⟨⟨m, hm⟩, -⟩ := running_of_due hread rfl
      exact Hub.machine?_perform_eq_none hm (h.sound.running id m hm).settled rfl
    generalize hs₁ : s.next (.session (.receive id room fresh arrival)) = s₁ at *
    have hk₂ : Kept n (s₁.after between) :=
      closing_induction (P := Kept n) (fun _ _ h hc hdue _ => kept_of_closing h hc hdue) hk hc' habetween hk
    have hc₂ : (s₁.after between).Closing :=
      closing_induction (P := Closing) (fun _ move _ hc _ _ => closing_next hc move) hk hc' habetween hc'
    split
    next he =>
      have hrun : s₁.hub.machine? id ≠ none := fun hnone => hended.1 hnone he
      obtain ⟨m, hm⟩ := Option.ne_none_iff_exists'.1 hrun
      have hphase : s₁.phase id = .checking := by
        have hwaiting : Phase.waiting = s.phase id := Option.some.inj (running_of_due hread rfl).2
        rw [← hs₁, phase_next rfl, ← hwaiting]
        rfl
      obtain ⟨hlooks, hgone⟩ := looksAtFlag hk₂ hc₂ hlast.1 (hstill.machine.trans hm)
        (hstill.phase.trans hphase) hmove
      exact ⟨hlooks, deregister_of_mem (kept_of_closing hk₂ hc₂ hlast.1) (closing_next hc₂ move) hlast.2
        hgone⟩
    next he =>
      exact deregister_of_ended (hstill.machine.trans (hended.2 he)) hlast.1 hmove
  farewell := by
    rintro id room fresh rest rfl
    have hbye := farewell_of_due h hc ha.1
    exact ⟨hbye, deregister_of_mem (kept_of_closing h hc ha.1) (closing_next hc _) ha.2 hbye.1⟩
  turn id hrun fresh arrival := by
    obtain ⟨m, hm⟩ := Option.isSome_iff_exists.1 hrun
    exact lastTurn h hc hm fresh arrival
  bounded id := ⟨exists_due, (count_le_movesLeft h hc ha id).trans (movesLeft_le s id)⟩

/-- **Shutting down drains the server.** Take any run of a new server in which no number is given out
twice, cut anywhere in two. However a session ends at the cut, whether in a turn of its own or because
it breaks off, its entry is removed and no other changes; and where a session has ended and its entry
is still there, it may be removed. If the loop has come to its end by then, every session ever
registered has ended and been removed. If every session has been asked to end by then, every turn of a
running session is its last, and the rest of the run drains the server. -/
theorem shutdown_drains (version : String) (users : Users) (home : Home) (earlier later : List Move)
    (ha : Admits { listener := { hub := { version, users, home } } } (earlier ++ later))
    (hids : registrations { listener := { hub := { version, users, home } } } earlier ≤ UInt64.size) :
    let s := after { listener := { hub := { version, users, home } } } earlier
    (∀ id, (s.hub.machine? id).isSome →
      (∀ fresh arrival, (s.hub.turn id fresh arrival).2.ended ≠ none →
        (s.hub.turn id fresh arrival).1.registry.entries = s.hub.others id) ∧
      (s.hub.leave id).registry.entries = s.hub.others id) ∧
    (∀ id, s.hub.registry.isRegistered id = true → s.hub.machine? id = none →
      s.Due (.deregister id) ∧
        (s.next (.deregister id)).hub.registry.entries = s.hub.others id) ∧
    (s.listener.stage = .done →
      ∀ id, s.hub.machine? id = none ∧ s.hub.registry.isRegistered id = false) ∧
    (s.Closing → s.Drains later) := by
  intro s
  obtain ⟨hearlier, hlater⟩ := admits_append.1 ha
  have hk := kept_after (kept_new version users home) hearlier (by omega)
  refine ⟨?_, ?_, hk.ended_of_done, fun hc => drains hk hc hlater⟩
  · intro id hrun
    obtain ⟨m, hm⟩ := Option.isSome_iff_exists.1 hrun
    exact removed hk hm
  · intro id hreg hm
    exact ⟨⟨hm, hreg⟩, rfl⟩

/-- Two connections come and one of them has said PING when the server is asked to stop. The other is
closed by its peer, the first waits once more and is shown out. -/
theorem shutdown_drains_two :
    let new : Site := { listener := { hub := study } }
    let earlier : List Move :=
      [.loop false, .loop true, .loop false, .loop true, .session (.answer 1 .ping),
        .session (.obeyFlag 1 none []), .stop, .session (.flush 1 none), .loop false, .loop false]
    let later : List Move :=
      [.session (.receive 1 none [] .elapsed), .session (.receive 2 none [] .closed), .deregister 2,
        .loop true, .session (.obeyFlag 1 none []), .deregister 1, .loop false]
    new.Admits (earlier ++ later) ∧ new.registrations earlier ≤ UInt64.size ∧
      (new.after earlier).Closing ∧ (new.after earlier).hub.registry.sessionIds = [1, 2] ∧
      (new.after earlier).Drains later ∧ (new.after (earlier ++ later)).listener.stage = .done := by
  intro new earlier later
  obtain ⟨ha, hids, hc, hsessions, hdone⟩ : new.Admits (earlier ++ later) ∧
      new.registrations earlier ≤ UInt64.size ∧ (new.after earlier).Closing ∧
      (new.after earlier).hub.registry.sessionIds = [1, 2] ∧
      (new.after (earlier ++ later)).listener.stage = .done := by
    decide +kernel
  obtain ⟨-, -, -, hdrains⟩ :=
    shutdown_drains study.version study.users study.home earlier later ha hids
  exact ⟨ha, hids, hc, hsessions, hdrains hc, hdone⟩

end Site

end HomeControl

import HomeControl.Proofs.Server.Site

/-!
# Turns of a server at work

The program lets a session take a whole turn at once, and removes it at once if it has ended. Both are
moves of that session, one after the other (`reaches_turn`, `reaches_leave`), so whatever holds of all
runs of moves holds of the program; and however a session ends, its entry is removed and no other
changes (`removed`). While the server closes, the turn that a session takes is its last (`lastTurn`).
-/

namespace HomeControl

open Hub (Act)

namespace Site

variable {s : Site} {move : Move} {n : Nat} {id : SessionId}

/-- A step of a session leads on to the next phase, or ends the session, which can then be
deregistered. -/
theorem session_next (act : Act) {m : ServerMachine} (h : Kept n s) (hm : s.hub.machine? id = some m)
    (hs : act.session? = some id) (hp : act.phase? = some (s.phase id)) :
    Kept n (s.next (.session act)) ∧
      if (s.hub.perform act).2.ended = none then
        ∃ m', (s.next (.session act)).hub.machine? id = some m'
      else (s.next (.session act)).Due (.deregister id) := by
  have hdue := due_of_phase act hm hs hp
  have hfit := h.sound.running id m hm
  have hk := kept_session h hdue
  have hnone : (s.next (.session act)).hub.machine? id = none ↔ (s.hub.perform act).2.ended ≠ none :=
    Hub.machine?_perform_eq_none hm hfit.settled hs
  refine ⟨hk, ?_⟩
  split
  next he =>
    rw [ne_eq, he] at hnone
    exact Option.ne_none_iff_exists'.1 (fun hm' => hnone.1 hm' rfl)
  next he =>
    have hreg : (s.next (.session act)).hub.registry.isRegistered id = s.hub.registry.isRegistered id :=
      Hub.isRegistered_eq_of_sessionIds (Hub.sessionIds_perform hs) id
    exact ⟨hnone.2 he, hreg.trans hfit.registered⟩

/-- One session makes these moves, and the server is left as `hub`. -/
def Reaches (s : Site) (id : SessionId) (hub : Hub) : Prop :=
  ∃ moves, s.Admits moves ∧ (∀ move ∈ moves, move.session? = some id) ∧ (s.after moves).hub = hub

theorem reaches_self (s : Site) (id : SessionId) : s.Reaches id s.hub :=
  ⟨[], trivial, by simp, rfl⟩

theorem Reaches.cons {hub : Hub} (hdue : s.Due move) (hs : move.session? = some id)
    (h : (s.next move).Reaches id hub) : s.Reaches id hub := by
  obtain ⟨moves, ha, hown, hhub⟩ := h
  refine ⟨move :: moves, ⟨hdue, ha⟩, ?_, hhub⟩
  intro other hmem
  rcases List.mem_cons.1 hmem with rfl | hmem
  · exact hs
  · exact hown other hmem

/-- A step of a session, and what follows if the session goes on. -/
theorem reaches_andThen (act : Act) (next : Hub → Hub × Hub.Output) {m : ServerMachine}
    (h : Kept n s) (hm : s.hub.machine? id = some m) (hs : act.session? = some id)
    (hp : act.phase? = some (s.phase id))
    (hnext : ∀ m', Kept n (s.next (.session act)) → (s.next (.session act)).hub.machine? id = some m' →
      (s.next (.session act)).Reaches id (Hub.tidy id (next (s.hub.perform act).1))) :
    s.Reaches id (Hub.tidy id (Hub.andThen (s.hub.perform act) next)) := by
  obtain ⟨hk, hgoes⟩ := session_next act h hm hs hp
  refine Reaches.cons (due_of_phase act hm hs hp) hs ?_
  cases he : (s.hub.perform act).2.ended with
  | none =>
    rw [if_pos he] at hgoes
    obtain ⟨m', hm'⟩ := hgoes
    rw [Hub.andThen_of_goesOn he]
    exact hnext m' hk hm'
  | some e =>
    rw [if_neg (by simp [he])] at hgoes
    have htidy : Hub.tidy id (s.hub.perform act) = (s.hub.perform act).1.deregister id := by
      simp only [Hub.tidy, he]
    rw [Hub.andThen_of_ended he, htidy]
    exact Reaches.cons hgoes rfl (reaches_self _ id)

theorem others_next (h : Kept n s) (hdue : s.Due move) (hs : move.session? = some id) :
    (s.next move).hub.others id = s.hub.others id := by
  cases move with
  | stop => cases hs
  | loop => cases hs
  | session act =>
    obtain ⟨⟨m, hm⟩, -⟩ := running_of_due hdue hs
    exact Hub.others_perform hm (h.sound.running id m hm).settled hs
  | breakOff id' => rfl
  | deregister id' =>
    obtain rfl : id' = id := Option.some.inj hs
    exact Hub.others_deregister s.hub id'

/-- Whatever one session does, the entries of the others stay as they are. -/
theorem Reaches.others {hub : Hub} (h : s.Reaches id hub) (hk : Kept n s) :
    hub.others id = s.hub.others id := by
  obtain ⟨moves, ha, hown, rfl⟩ := h
  induction moves generalizing s with
  | nil => rfl
  | cons move rest ih =>
    have hs := hown move List.mem_cons_self
    have hr : ¬ s.Registers move := by
      rintro ⟨-, rfl⟩
      cases hs
    have hrest := ih (kept_next hk ha.1 hr) ha.2
      (fun other hmem => hown other (List.mem_cons_of_mem _ hmem))
    exact hrest.trans (others_next hk ha.1 hs)

/-- A turn of a session is made of moves of its own. -/
theorem reaches_turn {m : ServerMachine} (h : Kept n s) (hm : s.hub.machine? id = some m)
    (hp : s.phase id = .waiting) (fresh : Bytes) (arrival : Arrival) :
    s.Reaches id (s.hub.turn id fresh arrival).1 := by
  rw [Hub.turn_eq s.hub id fresh arrival rfl]
  refine reaches_andThen (.receive id none fresh arrival) _ h hm rfl (by rw [hp]; rfl) ?_
  intro m₁ hk₁ hm₁
  have hp₁ : (s.next (.session (.receive id none fresh arrival))).phase id = .checking := by
    rw [phase_next rfl, hp]
    rfl
  generalize hs₁ : s.next (.session (.receive id none fresh arrival)) = s₁ at *
  have hhub₁ : (s.hub.perform (.receive id none fresh arrival)).1 = s₁.hub := by rw [← hs₁]; rfl
  rw [hhub₁]
  refine reaches_andThen (.obeyFlag id none fresh) _ hk₁ hm₁ rfl (by rw [hp₁]; rfl) ?_
  intro m₂ hk₂ hm₂
  have hp₂ : (s₁.next (.session (.obeyFlag id none fresh))).phase id = .flushing := by
    rw [phase_next rfl, hp₁]
    rfl
  generalize hs₂ : s₁.next (.session (.obeyFlag id none fresh)) = s₂ at *
  have hhub₂ : (s₁.hub.perform (.obeyFlag id none fresh)).1 = s₂.hub := by rw [← hs₂]; rfl
  rw [hhub₂]
  have hlast := reaches_andThen (.flush id none) (fun hub => (hub, {})) hk₂ hm₂ rfl
    (by rw [hp₂]; rfl) (fun _ _ _ => reaches_self _ id)
  have hnothing : ∀ out : Hub × Hub.Output,
      Hub.tidy id (Hub.andThen out fun hub => (hub, {})) = Hub.tidy id out := by
    intro out
    cases he : out.2.ended with
    | some e => rw [Hub.andThen_of_ended he]
    | none =>
      rw [Hub.andThen_of_goesOn he]
      simp only [Hub.tidy, he]
  rwa [hnothing] at hlast

/-- So is the removal of a session whose task has ended without a turn that says so. -/
theorem reaches_leave {m : ServerMachine} (h : Kept n s) (hm : s.hub.machine? id = some m) :
    s.Reaches id (s.hub.leave id) := by
  have hrun : s.Due (.breakOff id) := by
    rw [Due, hm]
    rfl
  have hleft : (s.next (.breakOff id)).Due (.deregister id) :=
    ⟨Hub.machine?_retire s.hub id, (h.sound.running id m hm).registered⟩
  exact Reaches.cons hrun rfl (Reaches.cons hleft rfl (reaches_self _ id))

/-- However a session ends, its entry is removed and no other changes. -/
theorem removed {m : ServerMachine} (h : Kept n s) (hm : s.hub.machine? id = some m) :
    (∀ fresh arrival, (s.hub.turn id fresh arrival).2.ended ≠ none →
      (s.hub.turn id fresh arrival).1.registry.entries = s.hub.others id) ∧
    (s.hub.leave id).registry.entries = s.hub.others id := by
  -- a turn starts with the session waiting
  let s' : Site := { s with phase := fun _ => .waiting }
  have h' : Kept n s' := ⟨h.sound, h.flagged, h.empty⟩
  refine ⟨?_, rfl⟩
  intro fresh arrival hended
  have hothers := (reaches_turn h' hm rfl fresh arrival).others h'
  obtain ⟨hub, hhub⟩ : ∃ hub : Hub, (s.hub.turn id fresh arrival).1 = hub.deregister id := by
    obtain ⟨e, he⟩ := Option.ne_none_iff_exists'.1 hended
    generalize hout : Hub.andThen (s.hub.receive id none fresh arrival) (fun hub =>
      Hub.andThen (hub.obeyFlag id none fresh) fun hub => hub.flush id none) = out
    rw [Hub.turn_eq s.hub id fresh arrival hout] at he ⊢
    have hlast : out.2.ended = some e := he
    exact ⟨out.1, by simp only [Hub.tidy, hlast]⟩
  have hown : (hub.deregister id).registry.entries = hub.others id := rfl
  have hs' : (s'.hub.turn id fresh arrival).1 = hub.deregister id := hhub
  rw [hs', Hub.others_deregister] at hothers
  rw [hhub, hown]
  exact hothers

end Site

/-! ## Turns while the server closes -/

namespace Hub

variable {hub : Hub} {id : SessionId} {m : ServerMachine} {fresh : Bytes} {arrival : Arrival}

/-- A turn that is a session's last. Either the read ends the session, or TERMINATE follows what it has
answered; then the session has ended and its entry is removed. -/
structure LastTurn (hub : Hub) (id : SessionId) (fresh : Bytes) (arrival : Arrival) : Prop where
  said :
    if (hub.receive id none fresh arrival).2.ended = none then
      ∃ bye, Line.encode .terminate = .ok bye ∧
        (hub.turn id fresh arrival).2 =
          { lines := (hub.receive id none fresh arrival).2.lines ++ [bye], ended := some .serverShutdown }
    else (hub.turn id fresh arrival).2 = (hub.receive id none fresh arrival).2
  gone : (hub.turn id fresh arrival).1.machine? id = none
  removed : (hub.turn id fresh arrival).1.registry.entries = hub.others id

/-- A read that ends the session is all that there is to the turn. -/
theorem turn_of_ended (he : (hub.receive id none fresh arrival).2.ended ≠ none) :
    hub.turn id fresh arrival =
      ((hub.receive id none fresh arrival).1.deregister id, (hub.receive id none fresh arrival).2) := by
  obtain ⟨e, he⟩ := Option.ne_none_iff_exists'.1 he
  rw [turn_eq hub id fresh arrival (andThen_of_ended he _)]
  simp only [tidy, he]

/-- A session that goes on after its read and finds its flag set does not come to its queue. -/
theorem turn_of_farewell (he : (hub.receive id none fresh arrival).2.ended = none)
    (hbye : (hub.receive id none fresh arrival).1.SaysFarewell id none fresh) :
    ∃ bye, Line.encode .terminate = .ok bye ∧
      (hub.turn id fresh arrival).2 =
        { lines := (hub.receive id none fresh arrival).2.lines ++ [bye], ended := some .serverShutdown } ∧
      (hub.turn id fresh arrival).1.machine? id = none := by
  generalize hfirst : hub.receive id none fresh arrival = first at he hbye ⊢
  obtain ⟨hgone, ⟨bye, hline, hsaid⟩ | ⟨hroom, -⟩⟩ := hbye
  · have hout : (first.1.obeyFlag id none fresh).2 = { lines := [bye], ended := some .serverShutdown } :=
      hsaid
    have hturn := turn_eq hub id fresh arrival (by rw [hfirst, andThen_of_goesOn he])
    rw [andThen_of_ended (by rw [hout])] at hturn
    refine ⟨bye, hline, ?_, ?_⟩
    · rw [hturn, hout]
    · rw [hturn, machine?_tidy]
      exact hgone
  · cases hroom

end Hub

namespace Site

variable {s : Site} {n : Nat} {id : SessionId} {m : ServerMachine}

/-- While the server closes, whoever takes a turn says its last word in it. -/
theorem lastTurn (h : Kept n s) (hc : s.Closing) (hm : s.hub.machine? id = some m) (fresh : Bytes)
    (arrival : Arrival) : s.hub.LastTurn id fresh arrival := by
  have hset := (h.sound.running id m hm).settled
  let read : Act := .receive id none fresh arrival
  have hgone : (s.hub.perform read).1.machine? id = none ↔ (s.hub.perform read).2.ended ≠ none :=
    Hub.machine?_perform_eq_none hm hset rfl
  have hremoved := (removed h hm).1 fresh arrival
  by_cases he : (s.hub.receive id none fresh arrival).2.ended = none
  · obtain ⟨m₁, hm₁⟩ := Option.ne_none_iff_exists'.1 fun hnone => hgone.1 hnone he
    have hsame : (s.hub.perform read).1.registry.isFlagged id = s.hub.registry.isFlagged id :=
      Hub.isFlagged_perform rfl hm₁
    have hflag := hsame.trans (h.flagged hc id m hm)
    obtain ⟨bye, hline, hsaid, hend⟩ := Hub.turn_of_farewell he (Hub.saysFarewell hm₁ hflag none fresh)
    refine ⟨?_, hend, hremoved (by simp [hsaid])⟩
    rw [if_pos he]
    exact ⟨bye, hline, hsaid⟩
  · have hturn := Hub.turn_of_ended he
    rw [hturn] at hremoved
    refine ⟨?_, ?_, ?_⟩
    · rw [if_neg he, hturn]
    · rw [hturn]
      exact hgone.2 he
    · rw [hturn]
      exact hremoved he

end Site

end HomeControl

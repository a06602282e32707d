import HomeControl.Proofs.Server.Delivery
import HomeControl.Proofs.Server.Rounds
import HomeControl.Server.Listener

/-!
# Servers at work

A server at work: its loop, its sessions, each in a phase of its round, connections that come, sessions
that break off, and at some time the wish that the server stop. All of these happen in any order.
`Kept` is what holds at any time; `kept_after` says that no run of such moves gets beyond it.
-/

namespace HomeControl

open Hub (Act)
open ServerMachine (Turn)

/-- A server at work. -/
structure Site where
  /-- The server and its loop. -/
  listener : Listener
  /-- How far the sessions are in their rounds. -/
  phase : SessionId → Phase := fun _ => .waiting

/-- What may happen next. -/
inductive Move where
  /-- The server is asked to stop. -/
  | stop
  /-- The loop takes its next step, for which a connection may have come. -/
  | loop (connected : Bool)
  /-- A session takes a step of its round. -/
  | session (act : Act)
  /-- A session breaks off, whatever the reason. -/
  | breakOff (id : SessionId)
  /-- The registry is told that a session has ended. -/
  | deregister (id : SessionId)
  deriving DecidableEq

/-- The session that a move is about, if there is one. -/
def Move.session? : Move → Option SessionId
  | .session act => act.session?
  | .breakOff id => some id
  | .deregister id => some id
  | _ => none

namespace Site

/-- The server. -/
def hub (s : Site) : Hub :=
  s.listener.hub

/-- The sessions of the server in their rounds. -/
def schedule (s : Site) : Schedule :=
  { hub := s.hub, phase := s.phase }

/-- Whether a move may be made now. A session that has ended is deregistered once. -/
def Due (s : Site) : Move → Prop
  | .stop => True
  | .loop _ => s.listener.stage ≠ .done
  | .session act => act.session?.isSome ∧ s.schedule.Due act
  | .breakOff id => (s.hub.machine? id).isSome
  | .deregister id => s.hub.machine? id = none ∧ s.hub.registry.isRegistered id = true

/-- The server at work after a move. -/
def next (s : Site) : Move → Site
  | .stop => { s with listener := s.listener.stop }
  | .loop connected => { s with listener := (s.listener.step connected).2 }
  | .session act =>
    { listener := { s.listener with hub := (s.schedule.next act).hub }
      phase := (s.schedule.next act).phase }
  | .breakOff id => { s with listener := { s.listener with hub := s.hub.retire id } }
  | .deregister id => { s with listener := { s.listener with hub := s.hub.deregister id } }

/-- Whether moves may be made one after the other. -/
def Admits (s : Site) : List Move → Prop
  | [] => True
  | move :: rest => s.Due move ∧ (s.next move).Admits rest

/-- The server at work after some moves. -/
def after (s : Site) (moves : List Move) : Site :=
  moves.foldl next s

/-- Whether a move registers a session. -/
def Registers (s : Site) (move : Move) : Prop :=
  s.listener.stage = .listening ∧ move = .loop true

instance (s : Site) (move : Move) : Decidable (s.Registers move) :=
  inferInstanceAs (Decidable (_ ∧ _))

/-- How many sessions are registered by some moves. -/
def registrations (s : Site) : List Move → Nat
  | [] => 0
  | move :: rest => (if s.Registers move then 1 else 0) + (s.next move).registrations rest

/-- The loop has asked every session to end. -/
def Closing (s : Site) : Prop :=
  s.listener.stage = .draining ∨ s.listener.stage = .done

instance (s : Site) : (move : Move) → Decidable (s.Due move)
  | .stop => isTrue trivial
  | .loop _ => inferInstanceAs (Decidable (_ ≠ _))
  | .session _ => inferInstanceAs (Decidable (_ ∧ _))
  | .breakOff _ => inferInstanceAs (Decidable (_ = true))
  | .deregister _ => inferInstanceAs (Decidable (_ ∧ _))

instance (s : Site) : (moves : List Move) → Decidable (s.Admits moves)
  | [] => isTrue trivial
  | move :: rest =>
    have := instDecidableAdmits (s.next move) rest
    inferInstanceAs (Decidable (s.Due move ∧ (s.next move).Admits rest))

instance (s : Site) : Decidable s.Closing :=
  inferInstanceAs (Decidable (_ ∨ _))

theorem after_append (s : Site) (moves rest : List Move) :
    s.after (moves ++ rest) = (s.after moves).after rest :=
  List.foldl_append

theorem admits_append {s : Site} {moves rest : List Move} :
    s.Admits (moves ++ rest) ↔ s.Admits moves ∧ (s.after moves).Admits rest := by
  induction moves generalizing s with
  | nil => simp [Admits, after]
  | cons move moves ih =>
    rw [List.cons_append, Admits, Admits, ih, and_assoc]
    rfl

end Site

/-! ## What the moves of one session do to the registry -/

namespace Hub

variable {hub : Hub} {id other : SessionId} {m : ServerMachine} {n : Nat} {act : Act}

/-- A session's step changes nothing, or it takes over a turn of the session; the queue may have been
emptied for it. -/
theorem perform_eq_commit (hub : Hub) (hs : act.session? = some id) :
    hub.perform act = (hub, {}) ∨
      ∃ (hub' : Hub) (t : Turn), hub.perform act = hub'.commit id t ∧
        hub'.registry.sessionIds = hub.registry.sessionIds ∧
        hub'.registry.flags = hub.registry.flags := by
  cases act with
  | accept => cases hs
  | deregister => cases hs
  | shutdown => cases hs
  | receive id' room fresh arrival =>
    obtain rfl : id' = id := Option.some.inj hs
    rw [perform, receive]
    split
    · exact Or.inl rfl
    · exact Or.inr ⟨hub, _, rfl, rfl, rfl⟩
  | obeyFlag id' room fresh =>
    obtain rfl : id' = id := Option.some.inj hs
    rw [perform, obeyFlag]
    split
    · exact Or.inl rfl
    split
    · exact Or.inr ⟨hub, _, rfl, rfl, rfl⟩
    · exact Or.inl rfl
  | flush id' room =>
    obtain rfl : id' = id := Option.some.inj hs
    rw [perform, flush]
    split
    · exact Or.inl rfl
    · exact Or.inr ⟨{ hub with registry := (hub.registry.drain id').2 }, _, rfl, rfl,
        Registry.flags_drain hub.registry id'⟩

/-- No step of a session registers or removes anybody. -/
theorem sessionIds_perform (hs : act.session? = some id) :
    (hub.perform act).1.registry.sessionIds = hub.registry.sessionIds := by
  rcases perform_eq_commit hub hs with hp | ⟨hub', t, hp, hids, -⟩
  · rw [hp]
  · rw [hp, registry_commit, ← hids]
    split
    · exact Registry.sessionIds_handleAll _ _
    · exact Registry.sessionIds_handleAll _ _

theorem isRegistered_eq_of_sessionIds {hub' : Hub}
    (h : hub'.registry.sessionIds = hub.registry.sessionIds) (id : SessionId) :
    hub'.registry.isRegistered id = hub.registry.isRegistered id := by
  rw [Bool.eq_iff_iff, ← Registry.mem_sessionIds, ← Registry.mem_sessionIds, h]

/-- A session's step leaves the flags of all who run afterwards as they are. -/
theorem isFlagged_perform (hs : act.session? = some id)
    (hm : (hub.perform act).1.machine? other = some m) :
    (hub.perform act).1.registry.isFlagged other = hub.registry.isFlagged other := by
  rcases perform_eq_commit hub hs with hp | ⟨hub', t, hp, -, hflags⟩
  · rw [hp]
  · have hsame : (hub'.registry.handleAll t.events).isFlagged other = hub.registry.isFlagged other :=
      Registry.isFlagged_eq_of_flags ((Registry.flags_handleAll _ _).trans hflags) other
    rw [hp] at hm
    rw [hp, registry_commit]
    by_cases he : t.ended = none
    · rw [if_pos he, hsame]
    · have hne : other ≠ id := by
        rintro rfl
        obtain ⟨e, he⟩ := Option.ne_none_iff_exists'.1 he
        simp [commit, he] at hm
      rw [if_neg he, Registry.isFlagged_leaveSeat_of_ne hne, hsame]

/-- The entries of the other sessions. -/
def others (hub : Hub) (id : SessionId) : List Entry :=
  hub.registry.entries.filter fun e => e.id != id

theorem others_deregister (hub : Hub) (id : SessionId) :
    (hub.deregister id).others id = hub.others id := by
  have hentries : (hub.deregister id).registry.entries = hub.others id := rfl
  rw [others, hentries, others, List.filter_filter]
  simp only [Bool.and_self]

theorem filter_setSubscribed (r : Registry) (id : SessionId) (b : Bool) :
    (r.setSubscribed id b).entries.filter (fun e => e.id != id) =
      r.entries.filter fun e => e.id != id := by
  rw [Registry.setSubscribed, List.filter_map]
  have hkeep : ((fun e : Entry => e.id != id) ∘
      fun e => if e.id = id then { e with subscribed := b } else e) = fun e => e.id != id := by
    funext e
    by_cases he : e.id = id <;> simp [he]
  rw [hkeep]
  conv_rhs => rw [← List.map_id (r.entries.filter fun e => e.id != id)]
  refine List.map_congr_left ?_
  intro e he
  have hne : e.id ≠ id := by simpa using (List.mem_filter.1 he).2
  rw [if_neg hne, id_eq]

/-- What a session asks of the registry touches no entry but its own. -/
theorem Asks.filter_entries {m' : ServerMachine} {accepted : Option Action} {events : List Event}
    (h : Asks m m' accepted events) (r : Registry) :
    (r.handleAll events).entries.filter (fun e => e.id != m.session) =
      r.entries.filter fun e => e.id != m.session := by
  cases h with
  | nothing => rfl
  | subscribe => exact filter_setSubscribed r m.session true
  | unsubscribe => exact filter_setSubscribed r m.session false
  | broadcast => rfl

theorem others_commit {m' : ServerMachine} {accepted : Option Action} {t : Turn}
    (h : Asks m m' accepted t.events) (hid : m.session = id) :
    (hub.commit id t).1.others id = hub.others id := by
  have hentries : (hub.commit id t).1.registry.entries = (hub.registry.handleAll t.events).entries := by
    rw [registry_commit]
    split <;> rfl
  rw [others, hentries, ← hid, h.filter_entries, others]

/-- A session's step changes no entry but its own. -/
theorem others_perform (hm : hub.machine? id = some m) (hset : m.Settled)
    (hs : act.session? = some id) : (hub.perform act).1.others id = hub.others id := by
  have hid := session_of_machine? hm
  have hstep := session_step hm hset hs
  generalize hub.perform act = out at hstep ⊢
  cases hstep with
  | rest => rfl
  | answer hacc ht => exact others_commit ht.asks hid
  | @flush room =>
    let drained : Hub := { hub with registry := (hub.registry.drain id).2 }
    let t : Turn := (m.flush hub.home (hub.registry.queued id)).within room
    have hsame : (drained.commit id t).1.others id = drained.others id :=
      others_commit (Asks.flush m hub.home _ room) hid
    exact hsame

/-- A session's step tells the peer's side of its end exactly if the session has ended. -/
theorem machine?_perform_eq_none (hm : hub.machine? id = some m) (hset : m.Settled)
    (hs : act.session? = some id) :
    (hub.perform act).1.machine? id = none ↔ (hub.perform act).2.ended ≠ none := by
  have hid := session_of_machine? hm
  have hcommit : ∀ (hub' : Hub) (t : Turn), hub'.machine? id = some m → t.machine.session = id →
      ((hub'.commit id t).1.machine? id = none ↔ (hub'.commit id t).2.ended ≠ none) := by
    intro hub' t hm' ht
    rw [machine?_commit hm' ht, output_commit]
    by_cases he : t.ended = none <;> simp [he]
  have hstep := session_step hm hset hs
  generalize hub.perform act = out at hstep ⊢
  cases hstep with
  | rest => simp [hm]
  | answer hacc ht => exact hcommit hub _ hm (ht.session.trans hid)
  | flush => exact hcommit { hub with registry := (hub.registry.drain id).2 } _ hm (by simpa using hid)

/-- When a session ends, the others stay as they are. -/
theorem unmoved_retire (h : other ≠ id) : Unmoved hub (hub.retire id) other [] where
  machine := machine?_retire_of_ne h
  queued := by rw [List.append_nil]; exact Registry.queued_leaveSeat_of_ne h
  subscribed := rfl
  registered := rfl
  seated := Registry.isSeated_leaveSeat_of_ne h

/-- A server can lose a session at any time. -/
theorem sound_retire (h : Sound n hub) (id : SessionId) : Sound n (hub.retire id) where
  running other m hm := by
    have hne : other ≠ id := by
      rintro rfl
      simp at hm
    rw [machine?_retire_of_ne hne] at hm
    exact (h.running other m hm).of_unmoved (unmoved_retire hne) (by simp)
  next := h.next
  known other hk := by
    refine h.known other ?_
    rcases hk with hk | hk | hk
    · by_cases hne : other = id
      · subst hne
        simp at hk
      · rw [machine?_retire_of_ne hne] at hk
        exact Or.inl hk
    · exact Or.inr (Or.inl hk)
    · exact Or.inr (Or.inr (Registry.isSeated_of_leaveSeat hk))

/-- A session that finds its flag set says TERMINATE, unless its peer takes no more lines, and ends. -/
def SaysFarewell (hub : Hub) (id : SessionId) (room : Option Nat) (fresh : Bytes) : Prop :=
  (hub.perform (.obeyFlag id room fresh)).1.machine? id = none ∧
    ((∃ bye, Line.encode .terminate = .ok bye ∧
        (hub.perform (.obeyFlag id room fresh)).2 = { lines := [bye], ended := some .serverShutdown }) ∨
      room = some 0 ∧
        (hub.perform (.obeyFlag id room fresh)).2 = { lines := [], ended := some .peerGone })

/-- A running session whose flag is set says TERMINATE when it looks at it. -/
theorem saysFarewell (hm : hub.machine? id = some m) (hf : hub.registry.isFlagged id = true)
    (room : Option Nat) (fresh : Bytes) : hub.SaysFarewell id room fresh := by
  have hp : hub.perform (.obeyFlag id room fresh) =
      hub.commit id ((m.obeyFlag hub.home fresh).within room) := by
    simp only [perform, obeyFlag, hm, hf, if_true]
  have hm' := session_of_machine? hm
  have hid : ((m.obeyFlag hub.home fresh).within room).machine.session = id := by
    rw [ServerMachine.within_machine, ServerMachine.obeyFlag_eq]
    exact hm'
  unfold SaysFarewell
  rw [hp, output_commit, machine?_commit hm hid, ServerMachine.obeyFlag_eq]
  rcases room with _ | _ | room
  · exact ⟨rfl, Or.inl ⟨_, Line.encode_of_wire (b := 9) rfl, rfl⟩⟩
  · exact ⟨rfl, Or.inr ⟨rfl, rfl⟩⟩
  · have hroom : ¬ room + 1 < [Line.ofMessage .terminate].length := by simp
    simp only [Turn.within, if_neg hroom]
    exact ⟨rfl, Or.inl ⟨_, Line.encode_of_wire (b := 9) rfl, rfl⟩⟩

end Hub

/-! ## What every move preserves -/

namespace Site

variable {s : Site} {move : Move} {n : Nat} {id : SessionId}

/-- What holds of a server at work that has registered `n` sessions. -/
structure Kept (n : Nat) (s : Site) : Prop where
  sound : Hub.Sound n s.hub
  flagged : s.Closing → ∀ id m, s.hub.machine? id = some m → s.hub.registry.isFlagged id = true
  empty : s.listener.stage = .done → s.hub.registry.entries = []

/-- When the loop has come to its end, nobody runs and nobody is registered. -/
theorem Kept.ended_of_done (h : Kept n s) (hd : s.listener.stage = .done) (id : SessionId) :
    s.hub.machine? id = none ∧ s.hub.registry.isRegistered id = false := by
  have hreg : s.hub.registry.isRegistered id = false := by
    simp [Registry.isRegistered, h.empty hd]
  refine ⟨?_, hreg⟩
  cases hm : s.hub.machine? id with
  | none => rfl
  | some m => exact absurd (h.sound.running id m hm).registered (by simp [hreg])

/-- Whoever is still registered has a flag that is set, or has ended. -/
theorem Kept.flagged_or_ended (h : Kept n s) (hc : s.Closing) (id : SessionId) :
    s.hub.registry.isFlagged id = true ∨ s.hub.machine? id = none := by
  cases hm : s.hub.machine? id with
  | none => exact Or.inr rfl
  | some m => exact Or.inl (h.flagged hc id m hm)

/-- Nobody is registered while the server closes. -/
theorem not_registers_of_closing (hc : s.Closing) (move : Move) : ¬ s.Registers move := by
  rintro ⟨hs, -⟩
  rcases hc with hc | hc <;> simp [hc] at hs

/-! Only the loop's wait for a connection registers anyone, so the moves fall into that one and all
others, which are taken one by one. -/

theorem kept_register (h : Kept n s) (hr : s.Registers move) (hn : n < UInt64.size) :
    Kept (n + 1) (s.next move) := by
  obtain ⟨⟨hub, running, stage⟩, phase⟩ := s
  obtain ⟨hstage, rfl⟩ := hr
  obtain rfl : stage = .listening := hstage
  have hpermits : hub.Permits .accept := by simp [Hub.Permits]
  have hnew := Hub.sound_perform h.sound (fun _ => hn) hpermits
  exact ⟨hnew, by simp [Closing, next, Listener.step], by simp [next, Listener.step]⟩

theorem kept_loop {connected : Bool} (h : Kept n s) (hr : ¬ s.Registers (.loop connected)) :
    Kept n (s.next (.loop connected)) := by
  obtain ⟨⟨hub, running, stage⟩, phase⟩ := s
  have hsound : Hub.Sound n hub := h.sound
  cases stage with
  | looking =>
    cases running <;> exact ⟨hsound, by simp [Closing, next, Listener.step], by simp [next, Listener.step]⟩
  | listening =>
    cases connected with
    | true => exact absurd ⟨rfl, rfl⟩ hr
    | false => exact ⟨hsound, by simp [Closing, next, Listener.step], by simp [next, Listener.step]⟩
  | closing =>
    -- everyone who runs is registered and holds a seat, so the call reaches them all
    have hpermits : hub.Permits .shutdown := by simp [Hub.Permits]
    have hnew := Hub.sound_perform hsound (by simp) hpermits
    refine ⟨hnew, ?_, by simp [next, Listener.step]⟩
    intro _ id m hm
    have hfit := hsound.running id m hm
    exact Registry.isFlagged_terminateAll hfit.registered hfit.seated
  | draining =>
    have hflagged := h.flagged (Or.inl rfl)
    by_cases hd : hub.isDrained = true
    · have hnext : next ⟨⟨hub, running, .draining⟩, phase⟩ (.loop connected) =
          ⟨⟨hub, running, .done⟩, phase⟩ := by
        simp [next, Listener.step, hd]
      rw [hnext]
      exact ⟨hsound, fun _ => hflagged, fun _ => List.isEmpty_iff.1 hd⟩
    · have hnext : next ⟨⟨hub, running, .draining⟩, phase⟩ (.loop connected) =
          ⟨⟨hub, running, .draining⟩, phase⟩ := by
        simp [next, Listener.step, hd]
      rw [hnext]
      exact h
  | done => exact h

theorem kept_session {act : Act} (h : Kept n s) (hdue : s.Due (.session act)) :
    Kept n (s.next (.session act)) := by
  obtain ⟨hsome, hpermits, -⟩ := hdue
  obtain ⟨id, hs⟩ := Option.isSome_iff_exists.1 hsome
  have hne := Hub.ne_accept hs
  have hnew := Hub.sound_perform h.sound (fun he => absurd he hne) hpermits
  rw [if_neg hne] at hnew
  refine ⟨hnew, ?_, ?_⟩
  · intro hc other m hm
    cases hm₀ : s.hub.machine? other with
    | none => exact absurd (Hub.accept_of_machine? h.sound hm₀ hm).1 hne
    | some m₀ =>
      have hflag : (s.next (.session act)).hub.registry.isFlagged other =
          s.hub.registry.isFlagged other := Hub.isFlagged_perform hs hm
      rw [hflag]
      exact h.flagged hc other m₀ hm₀
  · intro hd
    have hids : (s.next (.session act)).hub.registry.sessionIds = s.hub.registry.sessionIds :=
      Hub.sessionIds_perform hs
    rw [Registry.sessionIds, Registry.sessionIds, h.empty hd, List.map_nil, List.map_eq_nil_iff] at hids
    exact hids

theorem kept_breakOff (h : Kept n s) (id : SessionId) : Kept n (s.next (.breakOff id)) := by
  refine ⟨Hub.sound_retire h.sound id, ?_, h.empty⟩
  intro hc other m hm
  have hne : other ≠ id := by
    rintro rfl
    exact absurd (hm.symm.trans (Hub.machine?_retire s.hub other)) (by simp)
  have hm₀ : s.hub.machine? other = some m := (Hub.machine?_retire_of_ne hne).symm.trans hm
  have hflag : (s.next (.breakOff id)).hub.registry.isFlagged other =
      s.hub.registry.isFlagged other := Registry.isFlagged_leaveSeat_of_ne hne
  rw [hflag]
  exact h.flagged hc other m hm₀

theorem kept_deregister (h : Kept n s) (hm : s.hub.machine? id = none) :
    Kept n (s.next (.deregister id)) := by
  have hpermits : s.hub.Permits (.deregister id) := by
    intro id' he
    obtain rfl : id = id' := Act.deregister.inj he
    exact hm
  have hnew := Hub.sound_perform h.sound (by simp) hpermits
  refine ⟨hnew, h.flagged, ?_⟩
  intro hd
  have hentries : (s.next (.deregister id)).hub.registry.entries =
      s.hub.registry.entries.filter fun e => e.id != id := rfl
  rw [hentries, h.empty hd]
  rfl

/-- A move that registers nobody keeps a server in order. -/
theorem kept_next (h : Kept n s) (hdue : s.Due move) (hr : ¬ s.Registers move) :
    Kept n (s.next move) := by
  cases move with
  | stop => exact ⟨h.sound, h.flagged, h.empty⟩
  | loop connected => exact kept_loop h hr
  | session act => exact kept_session h hdue
  | breakOff id => exact kept_breakOff h id
  | deregister id => exact kept_deregister h hdue.1

/-- What holds at the beginning of some moves holds after them, as long as no number is given out
twice. -/
theorem kept_after {moves : List Move} (h : Kept n s) (ha : s.Admits moves)
    (hn : n + s.registrations moves ≤ UInt64.size) :
    Kept (n + s.registrations moves) (s.after moves) := by
  induction moves generalizing s n with
  | nil => exact h
  | cons move rest ih =>
    have hregs : s.registrations (move :: rest) =
        (if s.Registers move then 1 else 0) + (s.next move).registrations rest := rfl
    rw [hregs, ← Nat.add_assoc] at hn ⊢
    by_cases hr : s.Registers move
    · rw [if_pos hr] at hn ⊢
      exact ih (kept_register h hr (by omega)) ha.2 hn
    · rw [if_neg hr, Nat.add_zero] at hn ⊢
      exact ih (kept_next h ha.1 hr) ha.2 hn

/-- A new server is in order. -/
theorem kept_new (version : String) (users : Users) (home : Home) :
    Kept 0 { listener := { hub := { version, users, home } } } :=
  ⟨Hub.sound_new version users home, by simp [Closing], by simp⟩

/-! ## Steps of a round -/

/-- A session in its round runs, and it is in the phase for its step. -/
theorem running_of_due {act : Act} (hdue : s.Due (.session act)) (hs : act.session? = some id) :
    (∃ m, s.hub.machine? id = some m) ∧ act.phase? = some (s.phase id) := by
  obtain ⟨hrun, hphase⟩ := hdue.2.2 id hs
  exact ⟨Option.isSome_iff_exists.1 hrun, hphase⟩

theorem phase_next {act : Act} (hs : act.session? = some id) :
    (s.next (.session act)).phase id = (s.phase id).next :=
  if_pos hs

/-- A session's step may be made if the session runs and is in the phase for it. -/
theorem due_of_phase (act : Act) {m : ServerMachine} (hm : s.hub.machine? id = some m)
    (hs : act.session? = some id) (hp : act.phase? = some (s.phase id)) : s.Due (.session act) := by
  refine ⟨by rw [hs]; rfl, ?_, ?_⟩
  · intro id' he
    rw [he] at hs
    cases hs
  · intro id' hs'
    obtain rfl : id = id' := Option.some.inj (hs.symm.trans hs')
    have hrun : s.schedule.hub.machine? id = some m := hm
    exact ⟨by rw [hrun]; rfl, hp⟩

end Site

end HomeControl

import HomeControl.Proofs.Conversation.Linked

/-!
# What every step of a server and its clients preserves

`Sane` gathers what holds of a server with its clients at any time (`Reachable.sane`), as long as no
number has been given to two sessions.
-/

namespace HomeControl

open Hub (Sound number)

namespace Hub

theorem version_commit (hub : Hub) (id : SessionId) (t : ServerMachine.Turn) :
    (hub.commit id t).1.version = hub.version ∧ (hub.commit id t).1.users = hub.users := by
  cases he : t.ended <;> simp [commit, he, retire]

theorem version_perform (hub : Hub) (act : Act) :
    (hub.perform act).1.version = hub.version ∧ (hub.perform act).1.users = hub.users := by
  cases act with
  | accept => exact ⟨rfl, rfl⟩
  | deregister id => exact ⟨rfl, rfl⟩
  | shutdown => exact ⟨rfl, rfl⟩
  | receive id room fresh arrival =>
    simp only [perform, receive]
    split
    · exact ⟨rfl, rfl⟩
    · exact version_commit hub id _
  | obeyFlag id room fresh =>
    simp only [perform, obeyFlag]
    split
    · exact ⟨rfl, rfl⟩
    · split
      · exact version_commit hub id _
      · exact ⟨rfl, rfl⟩
  | flush id room =>
    simp only [perform, flush]
    split
    · exact ⟨rfl, rfl⟩
    · exact version_commit _ id _

/-- Only a session that runs writes. -/
theorem machine?_of_written {hub : Hub} {act : Act} {id : SessionId}
    (h : ({ before := hub, act } : Record).written id ≠ []) : (hub.machine? id).isSome := by
  by_cases hs : act.session? = some id
  · rw [Record.written_of_perform hs rfl] at h
    cases hm : hub.machine? id with
    | none =>
      rw [perform_of_none hs hm] at h
      exact absurd rfl h
    | some m => rfl
  · simp [Record.written, hs] at h

end Hub

namespace Net

/-- A session has been given this number. -/
def Given (history : List Record) (id : SessionId) : Prop :=
  ∃ k < registrations history, id = number k

/-- What holds of the server. -/
structure Grounded (hub : Hub) (history : List Record) : Prop where
  sound : Sound (registrations history) hub
  home : hub.home.Valid
  offer : Line.Fits (.version hub.version)
  /-- Only sessions write. -/
  written : ∀ r ∈ history, ∀ id, r.written id ≠ [] → Given history id

/-- What holds of the server and its clients. -/
structure Sane (Args : Bytes → Prop) (net : Net) : Prop where
  grounded : Grounded net.hub net.history
  linked : ∀ id p, net.peers id = some p → Linked Args net.hub net.history id p
  given : ∀ id p, net.peers id = some p → Given net.history id

variable {Args : Bytes → Prop} {net : Net} {id other : SessionId} {p : Peer} {act : Hub.Act}

theorem registrations_record (net : Net) (act : Hub.Act) : registrations (net.record act).history =
    if act = .accept then registrations net.history + 1 else registrations net.history := by
  by_cases ha : act = .accept <;> simp [registrations, ha]

theorem Given.record (h : Given net.history id) (act : Hub.Act) :
    Given (net.record act).history id := by
  obtain ⟨k, hk, rfl⟩ := h
  refine ⟨k, ?_, rfl⟩
  rw [registrations_record]
  split <;> omega

theorem Given.ne_next (h : Given net.history id) (hs : Sound (registrations net.history) net.hub)
    (hn : registrations net.history < UInt64.size) : id ≠ net.hub.registry.ids.value := by
  obtain ⟨k, hk, rfl⟩ := h
  rw [hs.next]
  intro he
  have hkn := Hub.number_inj (by omega) hn he
  omega

/-- There is a number left for whoever connects. -/
theorem number_left (hids : registrations (net.record act).history ≤ UInt64.size) :
    act = .accept → registrations net.history < UInt64.size := by
  intro ha
  rw [registrations_record, if_pos ha] at hids
  omega

theorem Grounded.record (h : Grounded net.hub net.history)
    (hids : registrations (net.record act).history ≤ UInt64.size) (hp : net.hub.Permits act) :
    Grounded (net.record act).hub (net.record act).history := by
  refine ⟨?_, ?_, ?_, ?_⟩
  · rw [registrations_record]
    exact Hub.sound_perform h.sound (number_left hids) hp
  · rw [hub_record, Hub.home_perform h.sound]
    exact h.home.replay _
  · rw [hub_record, (Hub.version_perform net.hub act).1]
    exact h.offer
  · intro r hr id hw
    rcases List.mem_append.1 hr with hr | hr
    · exact (h.written r hr id hw).record act
    · obtain rfl := List.mem_singleton.1 hr
      have hgiven : Given net.history id := h.sound.known id (Or.inl (Hub.machine?_of_written hw))
      exact hgiven.record act

/-- A step of the server that is not the session's. -/
theorem Sane.linked_record (h : Sane Args net) (hp : net.peers id = some p)
    (hids : registrations (net.record act).history ≤ UInt64.size) (hperm : net.hub.Permits act)
    (hne : act.session? ≠ some id) :
    Linked Args (net.record act).hub (net.record act).history id p :=
  (h.linked id p hp).record h.grounded.sound (number_left hids) hperm hne
    fun ha => (h.given id p hp).ne_next h.grounded.sound (number_left hids ha)

theorem Sane.deliver (h : Sane Args net) (hp : net.peers id = some p)
    (hids : registrations (net.record act).history ≤ UInt64.size) (hact : act.session? = some id) {p' : Peer}
    (hl : Linked Args (net.record act).hub (net.record act).history id
      { p' with down := p'.down.write (net.hub.perform act).2.lines }) :
    Sane Args (net.deliver id p' act) := by
  have hperm : net.hub.Permits act := by
    rintro id' rfl
    cases hact
  refine ⟨h.grounded.record hids hperm, ?_, ?_⟩
  · intro other q hq
    rcases peers_setPeer_cases hq with ⟨rfl, rfl⟩ | ⟨hne, hq⟩
    · exact hl
    · refine h.linked_record hq hids hperm ?_
      rw [hact]
      intro he
      exact hne (Option.some.inj he).symm
  · intro other q hq
    rcases peers_setPeer_cases hq with ⟨rfl, -⟩ | ⟨-, hq⟩
    · exact (h.given other p hp).record act
    · exact (h.given other q hq).record act

theorem Sane.setPeer (h : Sane Args net) (hp : net.peers id = some p) {p' : Peer}
    (hl : Linked Args net.hub net.history id p') : Sane Args (net.setPeer id p') := by
  refine ⟨h.grounded, ?_, ?_⟩
  · intro other q hq
    rcases peers_setPeer_cases hq with ⟨rfl, rfl⟩ | ⟨-, hq⟩
    · exact hl
    · exact h.linked other q hq
  · intro other q hq
    rcases peers_setPeer_cases hq with ⟨rfl, -⟩ | ⟨-, hq⟩
    · exact h.given other p hp
    · exact h.given other q hq

/-- A client that has just connected. -/
theorem Grounded.linked_connect (h : Grounded net.hub net.history)
    (hids : registrations (net.record .accept).history ≤ UInt64.size) {login : Login}
    (hlogin : login.Works net.hub.users) :
    Linked Args (net.record .accept).hub (net.record .accept).history net.hub.registry.ids.value
      (Peer.commit { session := ClientSession.make net.hub.version login }
        (ClientSession.make net.hub.version login).opening) := by
  have hn := number_left hids rfl
  have hnobody := (h.sound.fresh hn).1
  obtain ⟨hturn, hj⟩ : Says (ClientSession.make net.hub.version login).opening [.ping] ∧
      Joint Args { session := net.hub.registry.ids.value, version := net.hub.version
                   users := net.hub.users }
        (ClientSession.make net.hub.version login).opening.session [.ping] [] net.hub.home :=
    Joint.opening h.offer hlogin net.hub.home
  generalize (ClientSession.make net.hub.version login).opening = t at hturn hj ⊢
  refine .live ⟨?_, hturn.goesOn, ?_, Pipe.carries_new, hj, ⟨?_, ?_⟩, ?_, ?_⟩
  · show (net.hub.perform .accept).1.machine? net.hub.registry.ids.value = _
    rw [Hub.perform, Hub.machine?_accept, hnobody, if_pos rfl]
    rfl
  · show (Pipe.write {} t.lines).Carries [.ping]
    rw [hturn.lines]
    exact Pipe.carries_new.write [.ping]
  · intro r hr m hm
    rcases List.mem_append.1 hr with hr | hr
    · have hgiven := h.written r hr _ (List.ne_nil_of_mem hm)
      exact absurd rfl (hgiven.ne_next h.sound hn)
    · obtain rfl := List.mem_singleton.1 hr
      simp [Record.written, Hub.Act.session?] at hm
  · show ∀ m ∈ ([] ++ t.lines).filterMap Line.message?, m.keycode ≠ .error
    rw [List.nil_append, hturn.lines, Line.filterMap_message? hturn.wire]
    exact hturn.noError
  · intro hs
    cases hs
  · intro hs
    simpa [Hub.perform, Hub.accept] using h.sound.queued_fresh hn

/-- A new client begins a conversation of its own, and the others go on with theirs. -/
theorem Sane.connect (h : Sane Args net) {login : Login} (hlogin : login.Works net.hub.users)
    (hids : registrations (net.perform (.connect login)).history ≤ UInt64.size) :
    Sane Args (net.perform (.connect login)) := by
  have hperm : net.hub.Permits .accept := by
    rintro id h
    cases h
  refine ⟨h.grounded.record hids hperm, ?_, ?_⟩
  · intro other q hq
    rcases peers_setPeer_cases hq with ⟨rfl, rfl⟩ | ⟨-, hq⟩
    · exact h.grounded.linked_connect hids hlogin
    · exact h.linked_record hq hids hperm (by simp [Hub.Act.session?])
  · intro other q hq
    rcases peers_setPeer_cases hq with ⟨he, -⟩ | ⟨-, hq⟩
    · refine ⟨registrations net.history, ?_, he.trans h.grounded.sound.next⟩
      show registrations net.history < registrations (net.record .accept).history
      rw [registrations_record, if_pos rfl]
      omega
    · exact (h.given other q hq).record .accept

/-- A step of the server beside its clients leaves every one of them where it is. -/
theorem Sane.beside (h : Sane Args net) (ha : net.Allows Args (.other act))
    (hids : registrations (net.perform (.other act)).history ≤ UInt64.size) :
    Sane Args (net.perform (.other act)) := by
  obtain ⟨hperm, -, hnobody⟩ := ha
  refine ⟨h.grounded.record hids hperm, ?_, fun id p hp => (h.given id p hp).record act⟩
  intro id p hp
  refine h.linked_record hp hids hperm ?_
  intro hs
  exact absurd ((hnobody id hs).symm.trans hp) (by simp)

/-- A session serves its client the next frame. -/
theorem Sane.serve (h : Sane Args net) {k : Nat} {fresh : Bytes}
    (ha : net.Allows Args (.serve id k fresh))
    (hids : registrations (net.perform (.serve id k fresh)).history ≤ UInt64.size) :
    Sane Args (net.perform (.serve id k fresh)) := by
  simp only [Net.perform] at hids ⊢
  cases hp : net.peers id with
  | none => exact h
  | some p =>
    simp only [hp] at hids ⊢
    exact h.deliver hp hids rfl ((h.linked id p hp).serve h.grounded.sound h.grounded.home ha k rfl)

/-- A session passes on the updates queued for its client. -/
theorem Sane.flush (h : Sane Args net)
    (hids : registrations (net.perform (.flush id)).history ≤ UInt64.size) :
    Sane Args (net.perform (.flush id)) := by
  simp only [Net.perform] at hids ⊢
  cases hp : net.peers id with
  | none => exact h
  | some p =>
    simp only [hp] at hids ⊢
    exact h.deliver hp hids rfl ((h.linked id p hp).flush h.grounded.sound rfl)

/-- A client hears what has arrived, unless it has ended. -/
theorem Sane.hear (h : Sane Args net) (id : SessionId) (k : Nat) :
    Sane Args (net.perform (.hear id k)) := by
  simp only [Net.perform]
  cases hp : net.peers id with
  | none => exact h
  | some p =>
    simp only
    split
    · exact h
    · rename_i hend
      exact h.setPeer hp ((h.linked id p hp).hear (by simpa using hend) k)

/-- A client takes up what its user has chosen, unless it has ended. -/
theorem Sane.takePosted (h : Sane Args net) (id : SessionId) : Sane Args (net.perform (.act id)) := by
  simp only [Net.perform]
  cases hp : net.peers id with
  | none => exact h
  | some p =>
    simp only
    split
    · exact h
    · rename_i hend
      exact h.setPeer hp ((h.linked id p hp).takePosted (by simpa using hend))

/-- Every step that is allowed preserves what holds of a server with its clients. -/
theorem Sane.perform (h : Sane Args net) {act : Act} (ha : net.Allows Args act)
    (hids : registrations (net.perform act).history ≤ UInt64.size) : Sane Args (net.perform act) := by
  cases act with
  | connect login => exact h.connect ha hids
  | other act => exact h.beside ha hids
  | serve id k fresh => exact h.serve ha hids
  | flush id => exact h.flush hids
  | hear id k => exact h.hear id k
  | act id => exact h.takePosted id
  | post id number kind index opcode params =>
    simp only [Net.perform]
    cases hp : net.peers id with
    | none => exact h
    | some p => exact h.setPeer hp ((h.linked id p hp).post ha number kind index opcode)

theorem hub_perform (net : Net) (act : Act) :
    ((net.perform act).hub = net.hub ∧ (net.perform act).history = net.history) ∨
      ∃ act', (net.perform act).hub = (net.record act').hub ∧
        (net.perform act).history = (net.record act').history := by
  cases act with
  | connect => exact Or.inr ⟨_, rfl, rfl⟩
  | other act => exact Or.inr ⟨act, rfl, rfl⟩
  | serve id =>
    rw [Net.perform]
    split
    · exact Or.inl ⟨rfl, rfl⟩
    · exact Or.inr ⟨_, rfl, rfl⟩
  | flush id =>
    rw [Net.perform]
    split
    · exact Or.inl ⟨rfl, rfl⟩
    · exact Or.inr ⟨_, rfl, rfl⟩
  | hear id =>
    rw [Net.perform]
    split
    · exact Or.inl ⟨rfl, rfl⟩
    · split <;> exact Or.inl ⟨rfl, rfl⟩
  | act id =>
    rw [Net.perform]
    split
    · exact Or.inl ⟨rfl, rfl⟩
    · split <;> exact Or.inl ⟨rfl, rfl⟩
  | post id =>
    rw [Net.perform]
    split <;> exact Or.inl ⟨rfl, rfl⟩

theorem registrations_perform (net : Net) (act : Act) :
    registrations net.history ≤ registrations (net.perform act).history := by
  rcases net.hub_perform act with ⟨-, hh⟩ | ⟨act', -, hh⟩
  · rw [hh]
  · rw [hh, registrations_record]
    split <;> omega

theorem Reachable.users {start : Hub} (h : Reachable Args start net) : net.hub.users = start.users := by
  induction h with
  | start => rfl
  | @step net h act ha ih =>
    rcases net.hub_perform act with ⟨hhub, -⟩ | ⟨act', hhub, -⟩
    · rw [hhub, ih]
    · rw [hhub, hub_record, (Hub.version_perform net.hub act').2, ih]

theorem Reachable.sane {version : String} {users : Users} {home : Home}
    (h : Reachable Args { version, users, home } net) (hvalid : home.Valid)
    (hoffer : Line.Fits (.version version)) (hids : registrations net.history ≤ UInt64.size) :
    Sane Args net := by
  induction h with
  | start =>
    refine ⟨⟨Hub.sound_new version users home, hvalid, hoffer, by simp⟩, ?_, ?_⟩
    · intro id p hp
      cases hp
    · intro id p hp
      cases hp
  | @step net h act ha ih =>
    exact (ih (Nat.le_trans (registrations_perform net act) hids)).perform ha hids

/-- Tidy names stay tidy, so every snapshot shows the home as it is. -/
theorem Reachable.tidy {version : String} {users : Users} {home : Home}
    (h : Reachable Args { version, users, home } net) (hvalid : home.Valid) (htidy : home.Tidy)
    (hoffer : Line.Fits (.version version)) (hids : registrations net.history ≤ UInt64.size) :
    net.hub.home.Tidy ∧ ∀ r ∈ net.history, r.before.home.Tidy := by
  induction h with
  | start => exact ⟨htidy, by simp⟩
  | @step net h act ha ih =>
    have hids' := Nat.le_trans (registrations_perform net act) hids
    obtain ⟨hhome, hrecords⟩ := ih hids'
    rcases net.hub_perform act with ⟨hhub, hh⟩ | ⟨act', hhub, hh⟩
    · rw [hhub, hh]
      exact ⟨hhome, hrecords⟩
    · rw [hhub, hh, hub_record, Hub.home_perform (h.sane hvalid hoffer hids').grounded.sound]
      refine ⟨hhome.replay _, ?_⟩
      intro r hr
      rcases List.mem_append.1 hr with hr | hr
      · exact hrecords r hr
      · obtain rfl := List.mem_singleton.1 hr
        exact hhome

end Net

end HomeControl

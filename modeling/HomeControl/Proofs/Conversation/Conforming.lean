import HomeControl.Proofs.Conversation.Reachable

/-!
# Conforming peers

Clients that know their logins and ask for actions that fit a line never see an ERROR, whatever the
order of the steps and whatever anyone else says to the server, and with nothing in flight both sides
wait for the user's next action (`no_error_between_conforming_peers`). Nor does a conversation get
stuck before that: once the two have read what is there, it is at rest (`settles`).
-/

namespace HomeControl.Net

open Hub (Sound)

variable {Args : Bytes → Prop} {start : Hub} {net : Net} {id : SessionId} {p : Peer}
  {sm : ServerMachine} {ups downs : List Message} {target : Home}

/-- Nothing is on its way from a session to its client or back. -/
structure AtRest (net : Net) (id : SessionId) (p : Peer) : Prop where
  asks : p.session.machine.state = .serverAwaitsAction
  up : p.up.isIdle = true
  down : p.down.isIdle = true
  queue : net.hub.registry.queued id = []

/-! ## Coming to rest -/

/-- The net after some steps. -/
def run (net : Net) (acts : List Act) : Net :=
  acts.foldl perform net

/-- A session or its client reads, or the session passes on what is queued. -/
def Act.Moves (id : SessionId) : Act → Prop
  | .serve mover _ fresh => mover = id ∧ fresh.length = challengeLength
  | .flush mover => mover = id
  | .hear mover _ => mover = id
  | _ => False

theorem Act.Moves.allows {act : Act} (h : act.Moves id) : net.Allows Args act := by
  cases act with
  | serve mover n fresh => exact h.2
  | flush => trivial
  | hear => trivial
  | _ => cases h

theorem Reachable.run {acts : List Act} (h : Reachable Args start net)
    (hacts : ∀ act ∈ acts, ∀ net : Net, net.hub.users = start.users → net.Allows Args act) :
    Reachable Args start (net.run acts) := by
  induction acts generalizing net with
  | nil => exact h
  | cons act acts ih =>
    have hact := hacts act List.mem_cons_self net h.users
    exact ih (h.step act hact) fun act' h' => hacts act' (List.mem_cons_of_mem _ h')

theorem registrations_moves {act : Act} (h : act.Moves id) :
    registrations (net.perform act).history = registrations net.history := by
  cases act with
  | serve mover n fresh =>
    rw [perform]
    split
    · rfl
    · show registrations (net.record _).history = _
      rw [registrations_record, if_neg (by simp)]
  | flush mover =>
    rw [perform]
    split
    · rfl
    · show registrations (net.record _).history = _
      rw [registrations_record, if_neg (by simp)]
  | hear mover n =>
    rw [perform]
    split
    · rfl
    · split <;> rfl
  | _ => cases h

theorem registrations_run {acts : List Act} (hacts : ∀ act ∈ acts, act.Moves id) :
    registrations (net.run acts).history = registrations net.history := by
  induction acts generalizing net with
  | nil => rfl
  | cons act acts ih =>
    have hrest : registrations ((net.perform act).run acts).history =
        registrations (net.perform act).history :=
      ih fun act' h' => hacts act' (List.mem_cons_of_mem _ h')
    exact hrest.trans (registrations_moves (hacts act List.mem_cons_self))

theorem Sane.run {acts : List Act} (hs : Sane Args net) (hids : registrations net.history ≤ UInt64.size)
    (hacts : ∀ act ∈ acts, act.Moves id) : Sane Args (net.run acts) := by
  induction acts generalizing net with
  | nil => exact hs
  | cons act acts ih =>
    have hact := hacts act List.mem_cons_self
    have hids' : registrations (net.perform act).history ≤ UInt64.size := by
      rw [registrations_moves hact]
      exact hids
    exact ih (hs.perform hact.allows hids') hids' fun act' h' => hacts act' (List.mem_cons_of_mem _ h')

theorem serve_line {message : Message} (hs : Sane Args net)
    (hids : registrations net.history ≤ UInt64.size) (hp : net.peers id = some p)
    (ha : Alive Args net.hub net.history id p sm (message :: ups) downs target)
    (hfits : Line.Fits message) :
    ∃ act, act.Moves id ∧ Sane Args (net.perform act) ∧
      (net.hub.registry.queued id = [] → (net.perform act).hub.registry.queued id = []) ∧
      ∃ reply p' sm' target', reply.keycode.downWeight < message.keycode.upWeight ∧
        (net.perform act).peers id = some p' ∧
        Alive Args (net.perform act).hub (net.perform act).history id p' sm' ups (downs ++ [reply])
          target' := by
  obtain ⟨hf, hup⟩ := ha.up.read_all hfits
  let act : Act := .serve id p.up.inbox.length (List.replicate challengeLength 0)
  have hmoves : act.Moves id := ⟨rfl, List.length_replicate⟩
  have hsane : Sane Args (net.perform act) :=
    hs.perform hmoves.allows (by rw [registrations_moves hmoves]; exact hids)
  refine ⟨act, hmoves, hsane, ?_⟩
  have hperform : net.perform act = net.deliver id { p with up := (p.up.read p.up.inbox.length).1 }
      (.receive id none (List.replicate challengeLength 0) (.frame (.line (Line.body message)))) := by
    simp only [act, Net.perform, hp, hf, Arrival.ofRead]
  obtain ⟨reply, sm', target', hless, ha'⟩ :=
    ha.line hs.grounded.sound hs.grounded.home hup List.length_replicate rfl
  rw [hperform]
  refine ⟨fun hq => Hub.queued_receive ha.machine ha.joint.settled hq, reply, _, sm', target', hless, ?_,
    ha'⟩
  rw [deliver, peers_setPeer, if_pos rfl]

theorem hear_line {message : Message} (hs : Sane Args net)
    (hids : registrations net.history ≤ UInt64.size) (hp : net.peers id = some p)
    (ha : Alive Args net.hub net.history id p sm ups (message :: downs) target) :
    ∃ act, act.Moves id ∧ Sane Args (net.perform act) ∧
      (net.hub.registry.queued id = [] → (net.perform act).hub.registry.queued id = []) ∧
      ∃ said p', total Keycode.upWeight said < message.keycode.downWeight ∧
        (net.perform act).peers id = some p' ∧
        Alive Args (net.perform act).hub (net.perform act).history id p' sm (ups ++ said) downs
          target := by
  obtain ⟨hf, hdown⟩ := ha.down.read_all (ha.joint.plain message List.mem_cons_self).fits
  let act : Act := .hear id p.down.inbox.length
  have hmoves : act.Moves id := rfl
  have hsane : Sane Args (net.perform act) :=
    hs.perform hmoves.allows (by rw [registrations_moves hmoves]; exact hids)
  refine ⟨act, hmoves, hsane, ?_⟩
  have hperform : net.perform act = net.setPeer id ({ p with
      down := (p.down.read p.down.inbox.length).1 }.commit (p.session.onLine (Line.body message))) := by
    simp only [act, Net.perform, hp, ha.goesOn, hf, Arrival.ofRead, ClientSession.receive]
    rfl
  obtain ⟨said, hturn, hless, hj⟩ := ha.joint.hear
  rw [hperform]
  refine ⟨fun hq => hq, said, _, hless, ?_, ha.say hturn hdown hj⟩
  rw [peers_setPeer, if_pos rfl]

/-- What is in flight between a session and its client is read. -/
theorem drains (hs : Sane Args net) (hids : registrations net.history ≤ UInt64.size)
    (hp : net.peers id = some p) (ha : Alive Args net.hub net.history id p sm ups downs target)
    (hshort : ¬ Overlong Args) :
    ∃ acts, (∀ act ∈ acts, act.Moves id) ∧
      (net.hub.registry.queued id = [] → (net.run acts).hub.registry.queued id = []) ∧
      ∃ p', (net.run acts).peers id = some p' ∧ p'.up.isIdle = true ∧ p'.down.isIdle = true := by
  induction hw : weight ups downs using Nat.strongRecOn generalizing net p sm ups downs target with
  | ind w ih =>
    -- a step that leaves less to come, and then the others
    have hstep : ∀ {act : Act} {p' : Peer} {sm' : ServerMachine} {ups' downs' : List Message}
        {target' : Home}, act.Moves id → Sane Args (net.perform act) →
        (net.hub.registry.queued id = [] → (net.perform act).hub.registry.queued id = []) →
        (net.perform act).peers id = some p' →
        Alive Args (net.perform act).hub (net.perform act).history id p' sm' ups' downs' target' →
        weight ups' downs' < w →
        ∃ acts, (∀ act ∈ acts, act.Moves id) ∧
          (net.hub.registry.queued id = [] → (net.run acts).hub.registry.queued id = []) ∧
          ∃ p', (net.run acts).peers id = some p' ∧ p'.up.isIdle = true ∧ p'.down.isIdle = true := by
      intro act p' sm' ups' downs' target' hmoves hsane hqueue hp' ha' hless
      obtain ⟨acts, hacts, hqueue', hrest⟩ := ih _ hless hsane
        (by rw [registrations_moves hmoves]; exact hids) hp' ha' rfl
      exact ⟨act :: acts, List.forall_mem_cons.2 ⟨hmoves, hacts⟩, fun hq => hqueue' (hqueue hq), hrest⟩
    cases ups with
    | cons message ups =>
      have hfits : Line.Fits message := by
        by_cases hfits : Line.Fits message
        · exact hfits
        · exact absurd (ha.joint.dying hfits).1 hshort
      obtain ⟨act, hmoves, hsane, hqueue, reply, p', sm', target', hless, hp', ha'⟩ :=
        serve_line hs hids hp ha hfits
      refine hstep hmoves hsane hqueue hp' ha' ?_
      simp only [weight, total, total_append] at hw ⊢
      omega
    | nil =>
      cases downs with
      | cons message downs =>
        obtain ⟨act, hmoves, hsane, hqueue, said, p', hless, hp', ha'⟩ := hear_line hs hids hp ha
        refine hstep hmoves hsane hqueue hp' ha' ?_
        simp only [weight, total, List.nil_append] at hw ⊢
        omega
      | nil => exact ⟨[], by simp, fun hq => hq, p, hp, ha.up.isIdle_of_nil, ha.down.isIdle_of_nil⟩

/-- With nothing in flight between them both machines wait for the user's next action. -/
theorem at_rest (ha : Alive Args net.hub net.history id p sm ups downs target)
    (hup : p.up.isIdle = true) (hdown : p.down.isIdle = true) :
    sm.state = .serverAwaitsAction ∧ p.session.machine.state = .serverAwaitsAction ∧
      p.session.machine.home = some target :=
  ha.joint.stage.of_nil (ha.up.eq_nil_of_isIdle hup) (ha.down.eq_nil_of_isIdle hdown)

/-- A session and its client that go on reading, the session passing on what is queued, come to
rest. -/
theorem settles (hs : Sane Args net) (hids : registrations net.history ≤ UInt64.size)
    (hp : net.peers id = some p) (hshort : ¬ Overlong Args) :
    ∃ acts, (∀ act ∈ acts, act.Moves id) ∧
      ∃ p', (net.run acts).peers id = some p' ∧ AtRest (net.run acts) id p' := by
  obtain ⟨sm, ups, downs, target, ha⟩ := (hs.linked id p hp).alive hshort
  -- once the queue is passed on it stays empty
  let net₁ := net.perform (.flush id)
  have hflush : (Act.flush id).Moves id := rfl
  have hids₁ : registrations net₁.history ≤ UInt64.size := by
    rw [registrations_moves hflush]
    exact hids
  have hs₁ : Sane Args net₁ := hs.perform hflush.allows hids₁
  have hperform : net₁ = net.deliver id p (.flush id none) := by
    simp only [net₁, Net.perform, hp]
  have hq₁ : net₁.hub.registry.queued id = [] := by
    rw [hperform]
    exact Hub.queued_flush net.hub id none (by rw [ha.machine]; rfl)
  obtain ⟨p₁, hp₁⟩ : ∃ p₁, net₁.peers id = some p₁ := by
    rw [hperform, deliver, peers_setPeer, if_pos rfl]
    exact ⟨_, rfl⟩
  obtain ⟨sm₁, ups₁, downs₁, target₁, ha₁⟩ := (hs₁.linked id p₁ hp₁).alive hshort
  obtain ⟨acts, hacts, hqueue, p₂, hp₂, hup, hdown⟩ := drains hs₁ hids₁ hp₁ ha₁ hshort
  obtain ⟨sm₂, ups₂, downs₂, target₂, ha₂⟩ :=
    ((hs₁.run hids₁ hacts).linked id p₂ hp₂).alive hshort
  exact ⟨.flush id :: acts, List.forall_mem_cons.2 ⟨hflush, hacts⟩, p₂, hp₂,
    (at_rest ha₂ hup hdown).2.1, hup, hdown, hqueue hq₁⟩

/-! ## No errors -/

/-- **No error between conforming peers.** Take any server with a version that fits a line, clients
that know their logins, and users who ask for actions that fit a line, with any number of sessions
beside them. At any time, neither a client nor its session has ended or has written an ERROR, with
which a machine reports every violation it finds. With nothing in flight between them both machines
wait for the user's next action, and nothing is left to be answered, sent or confirmed. Should
something be in flight, then the two come to that point by going on. -/
theorem no_error_between_conforming_peers {version : String} {users : Users} {home : Home}
    (h : Reachable Args { version, users, home } net) (hvalid : home.Valid)
    (hoffer : Line.Fits (.version version)) (hshort : ∀ a : Action, Args a.params → Line.Fits (.action a))
    (hids : registrations net.history ≤ UInt64.size) (hp : net.peers id = some p) :
    (∃ sm, net.hub.machine? id = some sm ∧ p.ended = none ∧
      (∀ r ∈ net.history, ∀ m ∈ r.written id, m.keycode ≠ .error) ∧
      (∀ m ∈ p.said.filterMap Line.message?, m.keycode ≠ .error) ∧
      (p.up.isIdle = true → p.down.isIdle = true →
        sm.state = .serverAwaitsAction ∧ sm.challenge = none ∧ sm.pendingConfirm = none ∧
        p.session.machine.state = .serverAwaitsAction ∧ p.session.machine.pendingResponse = none ∧
        p.session.machine.pendingAction = none)) ∧
    ∃ acts, (∀ act ∈ acts, act.Moves id) ∧
      ∃ p', (net.run acts).peers id = some p' ∧ AtRest (net.run acts) id p' := by
  have hs := h.sane hvalid hoffer hids
  have hnone : ¬ Overlong Args := by
    rintro ⟨a, hargs, hlong⟩
    exact hlong (hshort a hargs)
  obtain ⟨sm, ups, downs, target, ha⟩ := (hs.linked id p hp).alive hnone
  refine ⟨⟨sm, ha.machine, ha.goesOn, ha.calm.server, ha.calm.client, ?_⟩,
    settles hs hids hp hnone⟩
  intro hup hdown
  obtain ⟨hsm, hcm, -⟩ := at_rest ha hup hdown
  exact ⟨hsm, ha.joint.settled.challenge_eq_none (by simp [hsm]), ha.joint.settled.confirm, hcm,
    ha.joint.response, ha.joint.pending (by simp [hcm])⟩

/-! ## A user and a lamp -/

theorem ada_works : ada.Works study.users := by
  refine ⟨by simp [ada, study, Users.secret?, Users.ofPasswords, Users.insert], by decide, ?_⟩
  intro challenge
  have hb : (Message.response (ada.responseBody challenge)).keycode.wire? = some 4 := rfl
  have hname : (Utf8.encode "ada").length = 3 := by decide
  rw [Line.fits_iff hb]
  simp [Message.response, Login.responseBody, respond, Hmac.length_digest, ada, hname]

theorem valid_study : study.home.Valid :=
  ⟨fun k => by cases k <;> decide, fun k => by cases k <;> decide⟩

theorem offer_study : Line.Fits (.version study.version) :=
  Nat.le_of_ble_eq_true rfl

/-- Actions with at most one argument fit a line. -/
theorem fits_action {a : Action} (ha : a.params.length ≤ 1) : Line.Fits (.action a) := by
  rw [Line.fits_iff (b := 6) rfl]
  simp only [Message.action, Action.target, List.length_cons]
  omega

/-- Ada logs in, and once she has been handed the home her client is at rest. -/
theorem rest_ada : ∃ net p, Reachable (fun params => params.length ≤ 1) study net ∧
    registrations net.history ≤ UInt64.size ∧ net.peers 1 = some p ∧ AtRest net 1 p := by
  let net : Net := Net.perform { hub := study } (.connect ada)
  have hconnect : Reachable (fun params => params.length ≤ 1) study net :=
    Reachable.start.step (.connect ada) ada_works
  have hids : registrations net.history ≤ UInt64.size := by decide
  have hp : net.peers 1 = some _ := rfl
  have hs := hconnect.sane valid_study offer_study hids
  obtain ⟨acts, hmoves, p, hp, hrest⟩ := settles hs hids hp
    fun ⟨a, ha, hlong⟩ => hlong (fits_action ha)
  refine ⟨net.run acts, p, hconnect.run fun act hact _ _ => (hmoves act hact).allows, ?_, hp, hrest⟩
  rw [registrations_run hmoves]
  exact hids

/-- Ada has not seen an ERROR, nor has she sent one. -/
theorem no_error_between_conforming_peers_ada :
    ∃ net p, Reachable (fun params => params.length ≤ 1) study net ∧ net.peers 1 = some p ∧
      p.session.machine.state = .serverAwaitsAction ∧ p.session.machine.pendingAction = none ∧
      (∀ r ∈ net.history, ∀ m ∈ r.written 1, m.keycode ≠ .error) ∧
      ∀ m ∈ p.said.filterMap Line.message?, m.keycode ≠ .error := by
  obtain ⟨net, p, h, hids, hp, hrest⟩ := rest_ada
  obtain ⟨⟨sm, -, -, hserver, hclient, hidle⟩, -⟩ :=
    no_error_between_conforming_peers h valid_study offer_study (fun _ => fits_action) hids hp
  obtain ⟨-, -, -, hasks, -, hnone⟩ := hidle hrest.up hrest.down
  exact ⟨net, p, h, hp, hasks, hnone, hserver, hclient⟩

end HomeControl.Net

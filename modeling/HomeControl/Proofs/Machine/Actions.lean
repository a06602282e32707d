import HomeControl.Proofs.Machine.Subscription
import HomeControl.Proofs.Protocol.Message

/-!
# What becomes of an ACTION

A machine that waits for an action and receives one either refuses to read it and goes back to `idle`
(`Refuses`), or reads it and decides it (`Decides`): then the home, the fan-out and the confirmation
agree on whether the action has been applied, and the conversation goes on. Neither depends on whether
the reply reaches the peer (`receive_within`).
-/

namespace HomeControl.ServerMachine

namespace Exchange

/-- The call gives up the attempt and touches nothing but its own subscription. -/
structure Refuses (session : SessionId) (x : Exchange) : Prop where
  reply : x.step.reply = some .errorGeneral
  idle : x.step.machine.state = .idle
  home : x.step.home = x.home
  events : x.step.events = [.unsubscribe session]

/-- The call applies `a` in full, or not at all, and says which. -/
structure Decides (session : SessionId) (a : Action) (accepted : Bool) (x : Exchange) : Prop where
  reply : x.step.reply = some (.confirm a.sequence accepted)
  machine : x.step.machine = x.machine
  verdict : accepted = true ↔ ∃ home', x.home.apply a = .ok home'
  applied : accepted = true → x.home.apply a = .ok x.step.home
  told : accepted = true → ∃ update, x.step.events = [.broadcast update session] ∧
    update.parseUpdate = .ok { a with sequence := 0 }
  kept : accepted = false → x.step.home = x.home ∧ x.step.events = []

end Exchange

variable {m : ServerMachine} {home : Home} {fresh : Bytes} {incoming : Message} {session : SessionId}
  {x : Exchange} {payload : Bytes}

/-! ## One call -/

/-- An ACTION that cannot be read ends the attempt. -/
theorem refuses_of_length_lt (hsession : x.machine.session = session)
    (hs : x.machine.state = .serverAwaitsAction)
    (hc : x.call = .process fresh { keycode := .action, payload }) (hlen : payload.length < 4) :
    x.Refuses session := by
  obtain ⟨e, he⟩ :
      ∃ e, ({ keycode := .action, payload } : Message).parseAction = .error e := by
    cases hp : ({ keycode := .action, payload } : Message).parseAction with
    | error e => exact ⟨e, rfl⟩
    | ok a =>
      have hle := Message.exists_parseAction_iff.1 ⟨a, hp⟩
      omega
  have hstep : x.step = x.machine.reject x.home (.malformed e) := by
    rw [Exchange.step, hc]
    exact process_unreadable hs rfl he
  have hevents : x.machine.resetEvents = [.unsubscribe session] := by
    simp [resetEvents, isSubscribed, hs, hsession]
  exact ⟨by rw [hstep]; rfl, by rw [hstep]; rfl, by rw [hstep]; rfl, by rw [hstep]; exact hevents⟩

/-- An ACTION that can be read is decided by the home. -/
theorem decides_of_parseAction (h : x.machine.Settled) (hsession : x.machine.session = session)
    (hs : x.machine.state = .serverAwaitsAction) (hc : x.call = .process fresh incoming) {a : Action}
    (ha : incoming.parseAction = .ok a) : ∃ accepted, x.Decides session a accepted := by
  have hk := Message.keycode_of_parseAction ha
  have hstep : x.step = x.machine.process x.home fresh incoming := by rw [Exchange.step, hc]
  cases hh : x.home.apply a with
  | ok home' =>
    rw [process_accepted h hs hk ha hh, hsession] at hstep
    refine ⟨true, ?_, ?_, ?_, ?_, ?_, by simp⟩
    · rw [hstep]
    · rw [hstep]
    · exact ⟨fun _ => ⟨home', hh⟩, fun _ => rfl⟩
    · intro _
      rw [hstep, hh]
    · intro _
      exact ⟨.update a, by rw [hstep], Message.parseUpdate_update a⟩
  | error e =>
    rw [process_denied h hs hk ha hh] at hstep
    refine ⟨false, ?_, ?_, ?_, by simp, by simp, ?_⟩
    · rw [hstep]
    · rw [hstep]
    · simp [hh]
    · intro _
      rw [hstep]
      exact ⟨rfl, rfl⟩

/-- What a line changes and asks of the fan-out is done before the reply is written: it does not
depend on how much the peer still takes. -/
theorem receive_within (h : m.Settled) (home : Home) (fresh : Bytes) {line : Bytes}
    (hl : Line.decode line = .ok incoming) (room : Option Nat) :
    let step := m.process home fresh incoming
    let turn := (m.receive home fresh (.frame (.line line))).within room
    turn.home = step.home ∧ turn.events = step.events ∧
      (turn.said = step.reply.toList ∨ turn.said = [] ∧ turn.ended ≠ none) := by
  intro step turn
  have hturn : turn = (write step endAfter).within room := by
    simp only [turn, step, receive, handleLine, hl]
  obtain ⟨reply, b, hreply, hb, -⟩ := (process_outcome h home fresh incoming).reply
  have hwritten := write_reply hreply hb endAfter
  refine ⟨?_, ?_, ?_⟩
  · rw [hturn, within_home, hwritten]
  · rw [hturn, within_events, hwritten]
  · rw [hturn, hreply]
    rcases said_within_write hreply hb endAfter room with ⟨hsaid, -⟩ | hgone
    · exact Or.inl hsaid
    · exact Or.inr hgone

/-! ## Whole runs -/

/-- **All or nothing.** Take any calls of a new machine, and one that brings an ACTION while the machine
waits for one. If its payload is shorter than four bytes, the answer is the general ERROR; the machine
is idle and no longer subscribed, and nothing else has changed. Any longer payload is read as an action
and decided: it is confirmed exactly if the home accepts it; then the home is what applying it gives,
and there is one broadcast, of that action, from this session. If it is denied, there is no broadcast,
and the home is as it was. In both cases the machine still waits for an action and is subscribed. What
is changed and broadcast does not wait for the answer to be written. -/
theorem action_all_or_nothing (session : SessionId) (version : String) (users : Users)
    (calls : List (Home × Call)) (before after : List Exchange) (x : Exchange)
    (hr : exchanges { session, version, users } calls = before ++ x :: after)
    (hs : x.machine.state = .serverAwaitsAction) (fresh payload : Bytes)
    (hc : x.call = .process fresh { keycode := .action, payload }) :
    (payload.length < 4 →
      x.Refuses session ∧ (switches (before ++ [x])).getLast? = some false) ∧
    (4 ≤ payload.length → ∃ a accepted,
      ({ keycode := .action, payload } : Message).parseAction = .ok a ∧
      x.Decides session a accepted ∧ (switches (before ++ [x])).getLast? = some true) ∧
    ∀ line room, Line.decode line = .ok { keycode := .action, payload } →
      let turn := (x.machine.receive x.home fresh (.frame (.line line))).within room
      turn.home = x.step.home ∧ turn.events = x.step.events ∧
        (turn.said = x.step.reply.toList ∨ turn.said = [] ∧ turn.ended ≠ none) := by
  have hbefore : Followed session version users before x.machine := by
    simpa using before_of_step (fun _ _ => Followed.step) (followed_new session version users) hr
  have hsession := hbefore.config.1
  have hswitches : switches (before ++ [x]) = switches before ++ x.step.events.filterMap Event.switch? := by
    simp [switches]
  refine ⟨?_, ?_, ?_⟩
  · intro hlen
    have hrefuses := refuses_of_length_lt hsession hs hc hlen
    refine ⟨hrefuses, ?_⟩
    rw [hswitches, hrefuses.events]
    simp [Event.switch?]
  · intro hlen
    obtain ⟨a, ha⟩ := Message.exists_parseAction_iff.2 hlen
    obtain ⟨accepted, hdecides⟩ := decides_of_parseAction hbefore.settled hsession hs hc ha
    refine ⟨a, accepted, ha, hdecides, hbefore.step.last.2 ?_⟩
    rw [hdecides.machine]
    exact hs
  · intro line room hl
    have hstep : x.step = x.machine.process x.home fresh { keycode := .action, payload } := by
      rw [Exchange.step, hc]
    rw [hstep]
    exact receive_within hbefore.settled x.home fresh hl room

/-- Ada dims a lamp, then sends half an action. -/
theorem action_all_or_nothing_ada :
    let study : Home := { lights := [{ kind := .light, name := "desk lamp", state := 1, params := [0] }] }
    let ada : Login := { username := "ada", password := "byron" }
    let users := Users.ofPasswords [("ada", "byron")]
    let calls := loginCalls "1" ada [7] ++
      [(study, .process [] { keycode := .action, payload := [5, 0, 0, 2, 40] }),
       (study, .process [] { keycode := .action, payload := [6, 0] })]
    ∃ before x y, exchanges { session := 1, version := "1", users } calls = before ++ [x, y] ∧
      x.machine.state = .serverAwaitsAction ∧ x.step.reply = some (.confirm 5 true) ∧
      study.apply ⟨5, 0, 0, 2, [40]⟩ = .ok x.step.home ∧
      y.machine.state = .serverAwaitsAction ∧ y.step.reply = some .errorGeneral ∧
      y.step.home = study := by
  intro study ada users calls
  obtain ⟨before, login, hr, -, hs⟩ := exchanges_loginCalls_append 1 "1" users ada
    (by simp [users, ada, Users.secret?, Users.ofPasswords, Users.insert]) (by decide) [7]
    [(study, .process [] { keycode := .action, payload := [5, 0, 0, 2, 40] }),
     (study, .process [] { keycode := .action, payload := [6, 0] })]
  rw [exchanges_cons, exchanges_cons, exchanges_nil] at hr
  set x : Exchange := { machine := login.step.machine, home := study, call := _ }
  set y : Exchange := { machine := x.step.machine, home := study, call := _ }
  have hx : exchanges { session := 1, version := "1", users } calls =
      (before ++ [login]) ++ x :: [y] := by simpa using hr
  have hy : exchanges { session := 1, version := "1", users } calls =
      (before ++ [login, x]) ++ y :: [] := by simpa using hr
  obtain ⟨-, hlong, -⟩ := action_all_or_nothing 1 "1" users calls _ _ x hx hs [] _ rfl
  obtain ⟨a, accepted, ha, hdecides, -⟩ := hlong (by decide)
  obtain rfl : ⟨5, 0, 0, 2, [40]⟩ = a := Except.ok.inj ha
  have haccepted : accepted = true := hdecides.verdict.2 ⟨_, rfl⟩
  have hwaits : y.machine.state = .serverAwaitsAction := by
    have hm : y.machine = x.machine := hdecides.machine
    rw [hm]
    exact hs
  obtain ⟨hshort, -, -⟩ := action_all_or_nothing 1 "1" users calls _ _ y hy hwaits [] _ rfl
  obtain ⟨hrefuses, -⟩ := hshort (by decide)
  refine ⟨before ++ [login], x, y, by simpa using hr, hs, ?_, hdecides.applied haccepted, hwaits,
    hrefuses.reply, hrefuses.home⟩
  rw [hdecides.reply, haccepted]

end HomeControl.ServerMachine

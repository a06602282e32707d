import HomeControl.Proofs.Login.Users
import HomeControl.Proofs.Machine.Server

/-!
# The gate in front of the home

Whatever a server's machine is called with, it hands out the home, confirms an action, subscribes its
session, broadcasts an update or changes the home only after its peer has opened a conversation,
offered the right version and answered the challenge of that very attempt, and nothing has taken the
machine back to `idle` since (`authentication_gate`). A challenge is verified in the call that follows
the one that issued it, or not at all.

The history of a machine is the list of its calls. `Trace` says what the history has to be in each
state; one call preserves it.
-/

namespace HomeControl.ServerMachine

/-- A call of a machine. -/
inductive Call where
  /-- A message arrives; `fresh` is the challenge to send if one is needed. -/
  | process (fresh : Bytes) (incoming : Message)
  /-- The session reports a violation that it has noticed itself. -/
  | reject (v : Violation)

/-- A call together with the machine and the shared home it finds. -/
structure Exchange where
  /-- The machine before the call. -/
  machine : ServerMachine
  /-- The shared home before the call. -/
  home : Home
  /-- The call. -/
  call : Call

namespace Exchange

/-- What the call comes to. -/
def step (x : Exchange) : ServerStep :=
  match x.call with
  | .process fresh incoming => x.machine.process x.home fresh incoming
  | .reject v => x.machine.reject x.home v

@[simp] theorem step_process (m : ServerMachine) (home : Home) (fresh : Bytes) (incoming : Message) :
    ({ machine := m, home, call := .process fresh incoming } : Exchange).step =
      m.process home fresh incoming := rfl

/-- The message of the call, if it has one. -/
def heard? (x : Exchange) : Option Message :=
  match x.call with
  | .process _ incoming => some incoming
  | .reject _ => none

/-- The challenge and the body that the call gives to the users for verification. -/
def verified? (x : Exchange) : Option (Bytes × Bytes) :=
  match x.call with
  | .process _ incoming =>
    if x.machine.state = .serverAwaitsResponse ∧ incoming.keycode = .response then
      x.machine.challenge.map fun c => (c, incoming.payload)
    else none
  | .reject _ => none

/-- The call does not end in `idle`. -/
def StaysOpen (x : Exchange) : Prop :=
  x.step.machine.state ≠ .idle

/-- The call opens a conversation with an empty PING. -/
def Greets (x : Exchange) : Prop :=
  x.heard? = some .ping ∧ x.StaysOpen

/-- The call offers a version and is answered with a challenge. -/
def Offers (version : String) (c : Bytes) (x : Exchange) : Prop :=
  x.heard? = some (.version version) ∧ x.step.reply = some (.challenge c) ∧ x.StaysOpen

/-- The call answers a challenge as one of the users would. -/
def Answers (users : Users) (c : Bytes) (x : Exchange) : Prop :=
  ∃ body, x.heard? = some (.response body) ∧ users.verify c body = true ∧ x.StaysOpen

/-- The call sends a challenge. -/
def Issues (c : Bytes) (x : Exchange) : Prop :=
  x.step.reply = some (.challenge c) ∧ x.StaysOpen

/-- The call does something that only a user may bring about. -/
inductive Privileged (x : Exchange) : Prop where
  /-- It hands out the home or confirms an action. -/
  | reply {answer : Message} (hr : x.step.reply = some answer)
      (hk : answer.keycode = .initial ∨ answer.keycode = .confirm)
  /-- It subscribes a session. -/
  | subscribe {session : SessionId} (he : .subscribe session ∈ x.step.events)
  /-- It broadcasts an update. -/
  | broadcast {update : Message} {origin : SessionId} (he : .broadcast update origin ∈ x.step.events)
  /-- It changes the home. -/
  | change (hh : x.step.home ≠ x.home)

end Exchange

/-- The calls of a machine, one after the other; between two calls the shared home may change. -/
def exchanges (m : ServerMachine) : List (Home × Call) → List Exchange
  | [] => []
  | (home, call) :: rest =>
    let x : Exchange := { machine := m, home, call }
    x :: exchanges x.step.machine rest

theorem exchanges_nil (m : ServerMachine) : exchanges m [] = [] := rfl

theorem exchanges_cons (m : ServerMachine) (home : Home) (call : Call) (rest : List (Home × Call)) :
    exchanges m ((home, call) :: rest) =
      { machine := m, home, call } ::
        exchanges ({ machine := m, home, call } : Exchange).step.machine rest := rfl

/-- A history in which a user has logged in, with no return to `idle` from the PING on. -/
def Admitted (version : String) (users : Users) (xs : List Exchange) : Prop :=
  ∃ earlier hello offer c answer later,
    xs = earlier ++ hello :: offer :: answer :: later ∧
      hello.Greets ∧ offer.Offers version c ∧ answer.Answers users c ∧ ∀ x ∈ later, x.StaysOpen

/-! ## The history of a machine -/

variable {version : String} {users : Users} {xs : List Exchange} {m : ServerMachine}

/-- What the history of a machine is, depending on where the machine stands. -/
structure Trace (version : String) (users : Users) (xs : List Exchange) (m : ServerMachine) :
    Prop where
  settled : m.Settled
  config : m.version = version ∧ m.users = users
  /-- It waits for a version because a conversation has just been opened. -/
  greeted : m.state = .serverAwaitsVersion → ∃ earlier hello, xs = earlier ++ [hello] ∧ hello.Greets
  /-- It holds a challenge because it has just sent it. -/
  challenged : ∀ c, m.challenge = some c → ∃ earlier hello offer,
    xs = earlier ++ [hello, offer] ∧ hello.Greets ∧ offer.Offers version c
  /-- It waits for actions because a user has logged in. -/
  admitted : m.state = .serverAwaitsAction → Admitted version users xs

/-- Any history may lead back to `idle`. -/
theorem trace_of_idle (h : m.Settled) (hm : m.version = version ∧ m.users = users)
    (hs : m.state = .idle) : Trace version users xs m := by
  have hc : m.challenge = none := h.challenge_eq_none (by simp [hs])
  exact ⟨h, hm, by simp [hs], by simp [hc], by simp [hs]⟩

/-- A call that does not end in `idle` keeps a user logged in. -/
theorem Admitted.snoc (h : Admitted version users xs) {x : Exchange} (hx : x.StaysOpen) :
    Admitted version users (xs ++ [x]) := by
  obtain ⟨earlier, hello, offer, c, answer, later, rfl, hg, ho, ha, hl⟩ := h
  refine ⟨earlier, hello, offer, c, answer, later ++ [x], by simp, hg, ho, ha, ?_⟩
  intro y hy
  rcases List.mem_append.1 hy with hy | hy
  · exact hl y hy
  · rw [List.mem_singleton.1 hy]
    exact hx

/-- A call that leaves the home alone, neither hands it out nor confirms an action, and asks of the
fan-out at most that the session be forgotten does nothing that only a user may bring about. -/
theorem not_privileged {x : Exchange} (answer : Message) (hr : x.step.reply = some answer)
    (hi : answer.keycode ≠ .initial) (hc : answer.keycode ≠ .confirm)
    (he : ∀ e ∈ x.step.events, ∃ session, e = .unsubscribe session) (hh : x.step.home = x.home) :
    ¬ x.Privileged := by
  rintro (⟨hr', hk⟩ | hs | hb | hh')
  · obtain rfl := Option.some.inj (hr.symm.trans hr')
    exact hk.elim hi hc
  · obtain ⟨_, hu⟩ := he _ hs
    cases hu
  · obtain ⟨_, hu⟩ := he _ hb
    cases hu
  · exact hh' hh

theorem eq_unsubscribe_of_mem_resetEvents {e : Event} (he : e ∈ m.resetEvents) :
    ∃ session, e = .unsubscribe session := by
  unfold resetEvents at he
  split at he
  · exact ⟨_, List.mem_singleton.1 he⟩
  · simp at he

/-- What is to be shown of a call: the history it leaves behind fits the machine it leaves behind, and what
only a user may bring about has been brought about by one. -/
structure Grows (version : String) (users : Users) (xs : List Exchange) (x : Exchange) : Prop where
  trace : Trace version users (xs ++ [x]) x.step.machine
  admitted : x.Privileged → Admitted version users (xs ++ [x])

namespace Trace

variable {x : Exchange}

/-- Giving up is the same whoever asks for it. -/
theorem gaveUp (h : Trace version users xs x.machine) (answer : Message)
    (hi : answer.keycode ≠ .initial) (hc : answer.keycode ≠ .confirm) (hs : x.step =
      { machine := x.machine.reset, home := x.home, reply := some answer,
        events := x.machine.resetEvents }) : Grows version users xs x := by
  have hn : ¬ x.Privileged := not_privileged answer (by rw [hs]) hi hc
    (by rw [hs]; exact fun e he => eq_unsubscribe_of_mem_resetEvents he) (by rw [hs])
  refine ⟨?_, fun hp => absurd hp hn⟩
  rw [hs]
  exact trace_of_idle (settled_reset x.machine) h.config rfl

/-- The PING that opens a conversation is the last call of the history. -/
theorem greets (h : Trace version users xs x.machine) (hset : x.step.machine.Settled)
    (hidle : x.machine.state = .idle) (hheard : x.heard? = some .ping) (hs : x.step =
      { machine := { x.machine with state := .serverAwaitsVersion }, home := x.home
        reply := some (.version x.machine.version) }) : Grows version users xs x := by
  have hopen : x.StaysOpen := by simp [Exchange.StaysOpen, hs]
  have hc : x.machine.challenge = none := h.settled.challenge_eq_none (by simp [hidle])
  refine ⟨⟨hset, by rw [hs]; exact h.config, ?_, by simp [hs, hc], by simp [hs]⟩, fun hp => absurd hp ?_⟩
  · exact fun _ => ⟨xs, x, rfl, hheard, hopen⟩
  · exact not_privileged (.version x.machine.version) (by rw [hs])
      (by simp [Message.version]) (by simp [Message.version]) (by simp [hs]) (by rw [hs])

/-- The offer of the right version follows that PING, and its answer is the challenge that is held. -/
theorem offers (h : Trace version users xs x.machine) (hset : x.step.machine.Settled) {fresh : Bytes}
    (hv : x.machine.state = .serverAwaitsVersion) (hheard : x.heard? = some (.version version))
    (hs : x.step =
      { machine := { x.machine with state := .serverAwaitsResponse, challenge := some fresh }
        home := x.home, reply := some (.challenge fresh) }) : Grows version users xs x := by
  have hopen : x.StaysOpen := by simp [Exchange.StaysOpen, hs]
  refine ⟨⟨hset, by rw [hs]; exact h.config, by simp [hs], ?_, by simp [hs]⟩, fun hp => absurd hp ?_⟩
  · intro c hc
    obtain rfl : fresh = c := by simpa [hs] using hc
    obtain ⟨earlier, hello, rfl, hg⟩ := h.greeted hv
    exact ⟨earlier, hello, x, by simp, hg, hheard, by rw [hs], hopen⟩
  · exact not_privileged (.challenge fresh) (by rw [hs])
      (by simp [Message.challenge]) (by simp [Message.challenge]) (by simp [hs]) (by rw [hs])

/-- A response that the users accept for the challenge that is held logs a user in. -/
theorem admits (h : Trace version users xs x.machine) (hset : x.step.machine.Settled) {c body : Bytes}
    (hc : x.machine.challenge = some c) (hheard : x.heard? = some (.response body))
    (hv : x.machine.users.verify c body = true) (hs : x.step =
      { machine := { x.machine with state := .serverAwaitsAction, challenge := none }, home := x.home
        reply := some (.initial x.home.snapshot), events := [.subscribe x.machine.session] }) :
    Grows version users xs x := by
  have hopen : x.StaysOpen := by simp [Exchange.StaysOpen, hs]
  have hadm : Admitted version users (xs ++ [x]) := by
    obtain ⟨earlier, hello, offer, rfl, hg, hof⟩ := h.challenged c hc
    exact ⟨earlier, hello, offer, c, x, [], by simp, hg, hof, ⟨body, hheard, h.config.2 ▸ hv, hopen⟩,
      by simp⟩
  exact ⟨⟨hset, by rw [hs]; exact h.config, by simp [hs], by simp [hs], fun _ => hadm⟩, fun _ => hadm⟩

/-- A machine that waits for an action goes on doing so after it has confirmed or denied one. -/
theorem confirms (h : Trace version users xs x.machine) (ha : x.machine.state = .serverAwaitsAction)
    (hm : x.step.machine = x.machine) : Grows version users xs x := by
  have hadm := (h.admitted ha).snoc (x := x) (by simp [Exchange.StaysOpen, hm, ha])
  have hc : x.machine.challenge = none := h.settled.challenge_eq_none (by simp [ha])
  refine ⟨?_, fun _ => hadm⟩
  rw [hm]
  exact ⟨h.settled, h.config, by simp [ha], by simp [hc], fun _ => hadm⟩

/-- One call of a machine whose history fits it. -/
theorem step (h : Trace version users xs x.machine) : Grows version users xs x := by
  obtain ⟨m, home, ⟨fresh, incoming⟩ | v⟩ := x
  case reject => exact h.gaveUp v.reply (by simp) (by simp) rfl
  case process =>
    obtain ⟨step, hs, ho⟩ : ∃ step, m.process home fresh incoming = step ∧
        Outcome m home fresh incoming step := ⟨_, rfl, process_outcome h.settled home fresh incoming⟩
    have hset : (m.process home fresh incoming).machine.Settled := hs ▸ ho.settled h.settled
    cases ho with
    | farewell =>
      exact h.gaveUp .terminate (by simp [Message.terminate]) (by simp [Message.terminate]) hs
    | refused v => exact h.gaveUp v.reply (by simp) (by simp) hs
    | greeted hidle hi => exact h.greets hset hidle (congrArg some hi) hs
    | challenged hv hk ht =>
      have hoffer : incoming = .version version := by
        rw [← h.config.1]
        obtain ⟨keycode, payload⟩ := incoming
        have hp : payload = Utf8.encode m.version := Utf8.decode?_eq_some_iff.1 ht
        simp_all [Message.version]
      exact h.offers hset hv (congrArg some hoffer) hs
    | admitted _ hc hk hv =>
      have hresponse : incoming = .response incoming.payload := by rw [Message.response, ← hk]
      exact h.admits hset hc (congrArg some hresponse) hv hs
    | accepted ha => exact h.confirms ha (congrArg ServerStep.machine hs)
    | denied ha => exact h.confirms ha (congrArg ServerStep.machine hs)

end Trace

/-! ## Whole runs -/

theorem trace_new (session : SessionId) (version : String) (users : Users) :
    Trace version users [] { session, version, users } :=
  trace_of_idle (settled_new session version users) ⟨rfl, rfl⟩ rfl

/-- What every call preserves of the history and the machine holds wherever a run is cut. -/
theorem before_of_step {I : List Exchange → ServerMachine → Prop}
    (hstep : ∀ xs x, I xs x.machine → I (xs ++ [x]) x.step.machine) (h : I xs m)
    {calls : List (Home × Call)} {before after : List Exchange} {x : Exchange}
    (hr : exchanges m calls = before ++ x :: after) : I (xs ++ before) x.machine := by
  induction calls generalizing m xs before with
  | nil => simp [exchanges] at hr
  | cons call calls ih =>
    cases before with
    | nil =>
      obtain ⟨rfl, -⟩ := List.cons.inj hr
      simpa using h
    | cons y before =>
      obtain ⟨rfl, hrest⟩ := List.cons.inj hr
      simpa using ih (hstep xs _ h) hrest

theorem Trace.before (h : Trace version users xs m) {calls : List (Home × Call)}
    {before after : List Exchange} {x : Exchange} (hr : exchanges m calls = before ++ x :: after) :
    Trace version users (xs ++ before) x.machine :=
  before_of_step (fun _ _ h => h.step.trace) h hr

/-- A verification finds the machine waiting for a response, with the challenge it verifies. -/
theorem challenge_of_verified {x : Exchange} {c body : Bytes} (hv : x.verified? = some (c, body)) :
    x.machine.state = .serverAwaitsResponse ∧ x.machine.challenge = some c := by
  unfold Exchange.verified? at hv
  split at hv
  · split at hv
    · rename_i hs
      obtain ⟨c', hc, he⟩ := Option.map_eq_some_iff.1 hv
      obtain ⟨rfl, -⟩ := Prod.mk.inj he
      exact ⟨hs.1, hc⟩
    · simp at hv
  · simp at hv

/-- A call that has a response verified does not send a challenge. -/
theorem not_issues_of_verified {x : Exchange} (h : x.machine.Settled) {c c' body : Bytes}
    (hv : x.verified? = some (c, body)) : ¬ x.Issues c' := by
  obtain ⟨hs, -⟩ := challenge_of_verified hv
  rintro ⟨hr, -⟩
  cases hcall : x.call with
  | reject v => simp [Exchange.verified?, hcall] at hv
  | process fresh incoming =>
    obtain ⟨step, hst, ho⟩ : ∃ step, x.step = step ∧ Outcome x.machine x.home fresh incoming step :=
      ⟨x.step, rfl, by simpa [Exchange.step, hcall] using process_outcome h x.home fresh incoming⟩
    rw [hst] at hr
    cases ho with
    | farewell => simp [Message.terminate, Message.challenge] at hr
    | greeted hidle => simp [hs] at hidle
    | challenged hver => simp [hs] at hver
    | admitted => simp [Message.initial, Message.challenge] at hr
    | accepted hact => simp [hs] at hact
    | denied hact => simp [hs] at hact
    | refused v =>
      have hk : v.reply.keycode = .challenge := by rw [Option.some.inj hr]; rfl
      simp at hk

/-- The challenge of a verification has been sent by the call right before it. -/
theorem Trace.issued_of_verified {x : Exchange} (h : Trace version users xs x.machine) {c body : Bytes}
    (hv : x.verified? = some (c, body)) : ∃ earlier y, xs = earlier ++ [y] ∧ y.Issues c := by
  obtain ⟨earlier, hello, offer, rfl, -, ho⟩ := h.challenged c (challenge_of_verified hv).2
  exact ⟨earlier ++ [hello], offer, by simp, ho.2⟩

/-- The calls of an honest login, with a challenge. -/
def loginCalls (version : String) (login : Login) (challenge : Bytes) : List (Home × Call) :=
  [({}, .process [] .ping), ({}, .process challenge (.version version)),
   ({}, .process [] (.response (login.responseBody challenge)))]

/-- After an honest login a machine waits for an action. -/
theorem exchanges_loginCalls_append (session : SessionId) (version : String) (users : Users)
    (login : Login) (hs : users.secret? login.username = some (deriveSecret login.password))
    (hn : ';' ∉ login.username.toList) (challenge : Bytes) (rest : List (Home × Call)) :
    ∃ before x, exchanges { session, version, users } (loginCalls version login challenge ++ rest) =
        before ++ x :: exchanges x.step.machine rest ∧
      x.step.reply = some (.initial ({} : Home).snapshot) ∧
      x.step.machine.state = .serverAwaitsAction := by
  let m₀ : ServerMachine := { session, version, users }
  let m₁ : ServerMachine := { m₀ with state := .serverAwaitsVersion }
  let m₂ : ServerMachine := { m₁ with state := .serverAwaitsResponse, challenge := some challenge }
  have h₁ : m₀.process {} [] .ping =
      { machine := m₁, home := {}, reply := some (.version version) } := process_ping rfl
  have h₂ : m₁.process {} challenge (.version version) =
      { machine := m₂, home := {}, reply := some (.challenge challenge) } :=
    process_version rfl rfl (Utf8.decode?_encode version)
  have h₃ : m₂.process {} [] (.response (login.responseBody challenge)) =
      { machine := { m₂ with state := .serverAwaitsAction, challenge := none }, home := {}
        reply := some (.initial ({} : Home).snapshot), events := [.subscribe session] } :=
    process_response rfl rfl rfl (Users.verify_responseBody hs hn challenge)
  refine ⟨[{ machine := m₀, home := {}, call := .process [] .ping },
      { machine := m₁, home := {}, call := .process challenge (.version version) }],
    { machine := m₂, home := {}, call := .process [] (.response (login.responseBody challenge)) },
    ?_, by rw [Exchange.step_process, h₃], by rw [Exchange.step_process, h₃]⟩
  simp only [loginCalls, List.cons_append, List.nil_append]
  rw [exchanges_cons, Exchange.step_process, h₁, exchanges_cons, Exchange.step_process, h₂,
    exchanges_cons]

/-- The gate opens: whoever knows a password is handed the home. -/
theorem exchanges_loginCalls (session : SessionId) (version : String) (users : Users) (login : Login)
    (hs : users.secret? login.username = some (deriveSecret login.password))
    (hn : ';' ∉ login.username.toList) (challenge : Bytes) :
    ∃ before x, exchanges { session, version, users } (loginCalls version login challenge) =
      before ++ [x] ∧ x.step.reply = some (.initial ({} : Home).snapshot) := by
  obtain ⟨before, x, hr, hreply, -⟩ :=
    exchanges_loginCalls_append session version users login hs hn challenge []
  rw [List.append_nil] at hr
  exact ⟨before, x, hr, hreply⟩

/-- **The gate.** Take any calls of a new machine. What only a user may bring about comes after an
empty PING, an offer of the right version and a response that its users accept for the challenge of
that attempt, with no return to `idle` in between. A verification is about the challenge that the
call right before it has sent without going back to `idle`, so no challenge is verified after a return
to `idle`, and between two verifications a new challenge is sent. -/
theorem authentication_gate (session : SessionId) (version : String) (users : Users)
    (calls : List (Home × Call)) (before after : List Exchange) (x : Exchange)
    (hr : exchanges { session, version, users } calls = before ++ x :: after) :
    (x.Privileged → Admitted version users (before ++ [x])) ∧
      (∀ c body, x.verified? = some (c, body) →
        ∃ earlier y, before = earlier ++ [y] ∧ y.Issues c) ∧
      (∀ c body, x.verified? = some (c, body) → ∀ between y later, after = between ++ y :: later →
        ∀ c' body', y.verified? = some (c', body') →
          ∃ between' z, between = between' ++ [z] ∧ z.Issues c') := by
  have htrace : Trace version users before x.machine := by
    simpa using (trace_new session version users).before hr
  refine ⟨htrace.step.admitted, ?_, ?_⟩
  · intro c body hv
    exact htrace.issued_of_verified hv
  · intro c body hv between y later hafter c' body' hv'
    have hcut : exchanges { session, version, users } calls =
        (before ++ x :: between) ++ y :: later := by simp [hr, hafter]
    have htrace' : Trace version users (before ++ x :: between) y.machine := by
      simpa using (trace_new session version users).before hcut
    obtain ⟨earlier, z, hz, hiss⟩ := htrace'.issued_of_verified hv'
    rcases List.eq_nil_or_concat between with rfl | ⟨between', z', rfl⟩
    · -- the verification itself sends no challenge
      obtain ⟨-, hxz⟩ := List.append_inj' hz rfl
      obtain rfl : x = z := List.singleton_inj.1 hxz
      exact absurd hiss (not_issues_of_verified htrace.settled hv)
    · have hlast : (before ++ x :: between') ++ [z'] = earlier ++ [z] := by simpa using hz
      obtain ⟨-, hz'⟩ := List.append_inj' hlast rfl
      obtain rfl : z' = z := List.singleton_inj.1 hz'
      exact ⟨between', z', by simp, hiss⟩

/-- Ada is let in, so she may bring about what only a user may. -/
theorem authentication_gate_ada :
    ∃ before x,
      exchanges { session := 1, version := "1", users := .ofPasswords [("ada", "byron")] }
        (loginCalls "1" { username := "ada", password := "byron" } [7]) = before ++ [x] ∧
      x.Privileged ∧ Admitted "1" (.ofPasswords [("ada", "byron")]) (before ++ [x]) := by
  obtain ⟨before, x, hr, hx⟩ := exchanges_loginCalls 1 "1" (.ofPasswords [("ada", "byron")])
    { username := "ada", password := "byron" }
    (by simp [Users.secret?, Users.ofPasswords, Users.insert]) (by decide) [7]
  have hp : x.Privileged := .reply hx (Or.inl rfl)
  exact ⟨before, x, hr, hp, (authentication_gate 1 "1" _ _ before [] x hr).1 hp⟩

end HomeControl.ServerMachine

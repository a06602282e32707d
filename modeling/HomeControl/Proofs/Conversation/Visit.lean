import HomeControl.Proofs.Client.Farewell
import HomeControl.Proofs.Conversation.Net

/-!
# Leaving a server

One client of a server, from its connection to its end, while everybody else does what they like. Its
user, its flag or a script that runs out may have it say TERMINATE at any time. From then on it waits
for the server to say the same, or to end the stream.

The server may have written something else before it gets to read the TERMINATE. Then the client takes
that for a violation: it ends as it wants to exactly if the first message that it has not read yet, now
or later, is the server's TERMINATE (`after_terminate`, `crossing_reported`).
-/

namespace HomeControl

/-- A client of a server. -/
structure Visit where
  /-- The server. -/
  hub : Hub
  /-- The number of the client's session. -/
  id : SessionId
  /-- The client, with the streams that join it to its session. -/
  peer : Peer
  /-- The messages that the session has written. -/
  told : List Message := []
  /-- Whether the session has ended, and with it the stream to the client. -/
  closed : Bool := false

namespace Visit

/-- A step. -/
inductive Act where
  /-- The server takes a step that is not one of the client's session. -/
  | server (act : Hub.Act)
  /-- The session reads at most `n` bytes and answers the line that is complete, if there is one. -/
  | serve (n : Nat) (fresh : Bytes)
  /-- The session looks at its flag. -/
  | obey (fresh : Bytes)
  /-- The session passes on the updates queued for it. -/
  | flush
  /-- The client reads at most `n` bytes and answers the line that is complete, if there is one. -/
  | hear (n : Nat)
  /-- The client looks at its flag or at what its user has posted, or its user posts something. -/
  | look (input : ClientSession.Input)
  /-- The client finds that the stream has ended. -/
  | lose

/-- The session takes a step, and what it writes is in flight to the client. -/
def tell (v : Visit) (act : Hub.Act) : Visit :=
  { v with
    hub := (v.hub.perform act).1
    peer := { v.peer with down := v.peer.down.write (v.hub.perform act).2.lines }
    told := v.told ++ (v.hub.perform act).2.lines.filterMap Line.message?
    closed := (v.hub.perform act).2.ended.isSome }

/-- The client does something. -/
def move (v : Visit) (down : Pipe) (input : ClientSession.Input) : Visit :=
  { v with peer := { v.peer with down }.commit (v.peer.session.react input) }

/-- What a step does. -/
def perform (v : Visit) : Act → Visit
  | .server act => { v with hub := (v.hub.perform act).1 }
  | .serve n fresh =>
    tell { v with peer := { v.peer with up := (v.peer.up.read n).1 } }
      (.receive v.id none fresh (.ofRead (v.peer.up.read n).2))
  | .obey fresh => v.tell (.obeyFlag v.id none fresh)
  | .flush => v.tell (.flush v.id none)
  | .hear n => v.move (v.peer.down.read n).1 (.arrive (.ofRead (v.peer.down.read n).2))
  | .look input => v.move v.peer.down input
  | .lose => v.move v.peer.down (.arrive .closed)

/-- Whether a step may be taken. -/
def Due (v : Visit) : Act → Prop
  | .server act => v.hub.Permits act ∧ act.session? ≠ some v.id
  | .serve _ _ => v.closed = false
  | .obey _ => v.closed = false
  | .flush => v.closed = false
  | .hear _ => v.peer.ended = none
  | .look input => v.peer.ended = none ∧ ∀ arrival, input ≠ .arrive arrival
  | .lose => v.peer.ended = none ∧ v.closed = true ∧ v.peer.down.isIdle = true

/-- A client with a version and a login connects to a server and opens the conversation. -/
def connect (hub : Hub) (version : String) (login : Login) : Visit :=
  let peer : Peer := { session := ClientSession.make version login }
  { hub := hub.accept.2, id := hub.registry.ids.value, peer := peer.commit peer.session.opening }

/-- What can become of a client. -/
inductive Leads (v : Visit) : Visit → Prop where
  /-- Nothing happens. -/
  | refl : Leads v v
  /-- A step is taken. -/
  | step {w : Visit} (h : Leads v w) (act : Act) (ha : w.Due act) : Leads v (w.perform act)

variable {v w : Visit} {act : Act} {ms : List Message} {said : List Bytes}

/-- What a session's step writes joins what is in flight. -/
theorem tell_spoken (v : Visit) (act : Hub.Act) :
    ∃ new : List Message, (v.tell act).told = v.told ++ new ∧
      (v.tell act).peer = { v.peer with down := v.peer.down.write (new.map Line.ofMessage) } ∧
      ∀ m ∈ new, ∃ b, m.keycode.wire? = some b := by
  obtain ⟨new, hlines, hwire⟩ := Hub.spoken_perform v.hub act
  refine ⟨new, ?_, ?_, hwire⟩
  · rw [tell, hlines, Line.filterMap_message? hwire]
  · rw [tell, hlines]

/-! ## Up to the client's end -/

/-- What holds of a client until it ends. -/
structure Orderly (v : Visit) : Prop where
  down : v.peer.ended = none →
    ∃ ms, v.peer.down.Carries ms ∧ ∀ m ∈ ms, ∃ b, m.keycode.wire? = some b
  parted : v.peer.ended = none → v.peer.session.terminateSent = true → v.peer.session.Parted

theorem orderly_connect (hub : Hub) (version : String) (login : Login) :
    (connect hub version login).Orderly := by
  refine ⟨fun _ => ⟨[], Pipe.carries_new, by simp⟩, ?_⟩
  intro _ hs
  simp [connect, Peer.commit, ClientSession.opening_make] at hs

theorem Orderly.tell (h : v.Orderly) (act : Hub.Act) : (v.tell act).Orderly := by
  obtain ⟨new, -, hpeer, hnew⟩ := v.tell_spoken act
  refine ⟨?_, ?_⟩ <;> rw [hpeer]
  · intro he
    obtain ⟨ms, hc, hms⟩ := h.down he
    refine ⟨ms ++ new, hc.write new, ?_⟩
    intro m hm
    exact (List.mem_append.1 hm).elim (hms m) (hnew m)
  · exact h.parted

theorem Orderly.move (h : v.Orderly) (he : v.peer.ended = none) {down : Pipe}
    {input : ClientSession.Input}
    (hd : (v.peer.session.react input).ended = none →
      ∃ ms, down.Carries ms ∧ ∀ m ∈ ms, ∃ b, m.keycode.wire? = some b) :
    (v.move down input).Orderly :=
  ⟨hd, fun hgoing hs => ClientSession.parted_react (h.parted he) hgoing hs⟩

theorem Orderly.step (h : v.Orderly) (ha : v.Due act) : (v.perform act).Orderly := by
  cases act with
  | server act => exact ⟨h.down, h.parted⟩
  | serve n fresh =>
    have hread : ({ v with peer := { v.peer with up := (v.peer.up.read n).1 } } : Visit).Orderly :=
      ⟨h.down, h.parted⟩
    exact hread.tell _
  | obey fresh => exact h.tell _
  | flush => exact h.tell _
  | hear n =>
    refine h.move ha fun hgoing => ?_
    obtain ⟨ms, hc, hms⟩ := h.down ha
    rcases hc.read n with ⟨-, hc'⟩ | ⟨m, rest, rfl, -, -, hc'⟩ | ⟨m, rest, -, -, hf⟩
    · exact ⟨ms, hc', hms⟩
    · exact ⟨rest, hc', fun m' hm' => hms m' (List.mem_cons_of_mem _ hm')⟩
    · rw [hf] at hgoing
      cases hgoing
  | look input => exact h.move ha.1 fun _ => h.down ha.1
  | lose => exact h.move ha.1 fun _ => h.down ha.1

theorem Orderly.leads (h : v.Orderly) (hl : Leads v w) : w.Orderly := by
  induction hl with
  | refl => exact h
  | step _ act ha ih => exact ih.step ha

/-! ## From TERMINATE on -/

/-- What can have become of a client that had written the lines when it had said TERMINATE, if the
messages are those that it had not read by then and those that its session has written since. -/
inductive Fate (said : List Bytes) (ms : List Message) (w : Visit) : Prop where
  /-- It waits. -/
  | waiting (hended : w.peer.ended = none) (hparted : w.peer.session.Parted) (hsaid : w.peer.said = said)
      (hdown : w.peer.down.Carries ms)
  /-- The first message has ended it. -/
  | met {m : Message} {rest : List Message} (hms : ms = m :: rest)
      (hended : w.peer.ended = some m.verdict) (hsaid : w.peer.said = said ++ m.parting)
  /-- There was no message before the stream ended. -/
  | lost (hms : ms = []) (hclosed : w.closed = true) (hended : w.peer.ended = some .terminated)
      (hsaid : w.peer.said = said)

/-- Only the client matters, and whether the stream has ended. -/
theorem Fate.congr {w' : Visit} (h : Fate said ms w) (hsession : w'.peer.session = w.peer.session)
    (hdown : w'.peer.down = w.peer.down) (hsaid : w'.peer.said = w.peer.said)
    (hended : w'.peer.ended = w.peer.ended) (hclosed : w'.closed = w.closed) : Fate said ms w' := by
  cases h with
  | waiting he hp hs hd =>
    exact .waiting (hended.trans he) (hsession ▸ hp) (hsaid.trans hs) (hdown ▸ hd)
  | met hms he hs => exact .met hms (hended.trans he) (hsaid.trans hs)
  | lost hms hc he hs => exact .lost hms (hclosed.trans hc) (hended.trans he) (hsaid.trans hs)

theorem Fate.tell (h : Fate said ms w) (hopen : w.closed = false) (act : Hub.Act) :
    ∃ new, (w.tell act).told = w.told ++ new ∧ (∀ m ∈ new, ∃ b, m.keycode.wire? = some b) ∧
      Fate said (ms ++ new) (w.tell act) := by
  obtain ⟨new, htold, hpeer, hnew⟩ := w.tell_spoken act
  refine ⟨new, htold, hnew, ?_⟩
  cases h with
  | waiting hended hparted hsaid hdown =>
    refine .waiting ?_ ?_ ?_ ?_ <;> rw [hpeer]
    · exact hended
    · exact hparted
    · exact hsaid
    · exact hdown.write new
  | @met m rest hms hended hsaid =>
    have hmore : ms ++ new = m :: (rest ++ new) := by rw [hms, List.cons_append]
    refine .met hmore ?_ ?_ <;> rw [hpeer]
    · exact hended
    · exact hsaid
  | lost _ hclosed =>
    rw [hopen] at hclosed
    cases hclosed

/-- A client that has said TERMINATE reads nothing, or the first message ends it. -/
theorem hear_parted (hparted : w.peer.session.Parted) (hdown : w.peer.down.Carries ms)
    (hwire : ∀ m ∈ ms, ∃ b, m.keycode.wire? = some b) (n : Nat) :
    ((w.peer.down.read n).2 = none ∧ (w.peer.down.read n).1.Carries ms ∧
        w.peer.session.react (.arrive (.ofRead (w.peer.down.read n).2)) =
          { session := w.peer.session }) ∨
      ∃ m rest, ms = m :: rest ∧ (w.perform (.hear n)).peer.ended = some m.verdict ∧
        (w.perform (.hear n)).peer.said = w.peer.said ++ m.parting := by
  rcases hdown.read n with ⟨hf, hc⟩ | ⟨m, rest, rfl, hfits, hf, -⟩ | ⟨m, rest, rfl, hlong, hf⟩
  · refine Or.inl ⟨hf, hc, ?_⟩
    rw [hf]
    rfl
  · obtain ⟨b, hb⟩ := hwire m List.mem_cons_self
    obtain ⟨hlines, hended⟩ := hparted.hear hb hfits
    have hreact : w.peer.session.react (.arrive (.ofRead (w.peer.down.read n).2)) =
        w.peer.session.onLine (Line.body m) := by
      rw [hf]
      rfl
    refine Or.inr ⟨m, rest, rfl, ?_, ?_⟩ <;> simp only [perform, move, Peer.commit, hreact]
    · exact hended
    · rw [hlines]
  · obtain ⟨hlines, hended⟩ := ClientSession.Parted.tooLong w.peer.session hlong
    have hreact : w.peer.session.react (.arrive (.ofRead (w.peer.down.read n).2)) =
        w.peer.session.receive (.frame .tooLong) := by
      rw [hf]
      rfl
    refine Or.inr ⟨m, rest, rfl, ?_, ?_⟩ <;> simp only [perform, move, Peer.commit, hreact]
    · exact hended
    · rw [hlines]

theorem Fate.hear (h : Fate said ms w) (hwire : ∀ m ∈ ms, ∃ b, m.keycode.wire? = some b)
    (ha : w.peer.ended = none) (n : Nat) : Fate said ms (w.perform (.hear n)) := by
  cases h with
  | met _ hended => simp [ha] at hended
  | lost _ _ hended => simp [ha] at hended
  | waiting _ hparted hsaid hdown =>
    rcases hear_parted hparted hdown hwire n with ⟨-, hc, hreact⟩ | ⟨m, rest, hms, hended, hlines⟩
    · refine .waiting ?_ ?_ ?_ ?_ <;> simp only [perform, move, Peer.commit, hreact]
      · exact hparted
      · simpa using hsaid
      · exact hc
    · exact .met hms hended (by rw [hlines, hsaid])

/-- The end of the stream ends a client that has said TERMINATE the way it wants to. -/
theorem lose_parted (hparted : w.peer.session.Parted) :
    (w.perform .lose).peer.ended = some .terminated ∧ (w.perform .lose).peer.said = w.peer.said := by
  simp [perform, move, Peer.commit, ClientSession.react, ClientSession.receive, ClientSession.finish,
    hparted.said]

theorem Fate.step (h : Fate said ms w) (hwire : ∀ m ∈ ms, ∃ b, m.keycode.wire? = some b)
    (ha : w.Due act) :
    ∃ new, (w.perform act).told = w.told ++ new ∧ (∀ m ∈ new, ∃ b, m.keycode.wire? = some b) ∧
      Fate said (ms ++ new) (w.perform act) := by
  -- Only the client's session adds to what has been written.
  have hsilent {w' : Visit} (htold : w'.told = w.told) (hw : Fate said ms w') :
      ∃ new, w'.told = w.told ++ new ∧ (∀ m ∈ new, ∃ b, m.keycode.wire? = some b) ∧
        Fate said (ms ++ new) w' :=
    ⟨[], by simp [htold], by simp, by simpa using hw⟩
  cases act with
  | server act => exact hsilent rfl (h.congr rfl rfl rfl rfl rfl)
  | serve n fresh =>
    have hread : Fate said ms { w with peer := { w.peer with up := (w.peer.up.read n).1 } } :=
      h.congr rfl rfl rfl rfl rfl
    exact hread.tell ha _
  | obey fresh => exact h.tell ha _
  | flush => exact h.tell ha _
  | hear n => exact hsilent rfl (h.hear hwire ha n)
  | look input =>
    refine hsilent rfl ?_
    obtain ⟨he, hi⟩ := ha
    cases h with
    | met _ hended => simp [he] at hended
    | lost _ _ hended => simp [he] at hended
    | waiting _ hparted hsaid hdown =>
      refine .waiting ?_ ?_ ?_ ?_ <;> simp only [perform, move, Peer.commit, hparted.react hi]
      · exact hparted
      · simpa using hsaid
      · exact hdown
  | lose =>
    refine hsilent rfl ?_
    obtain ⟨he, hclosed, hidle⟩ := ha
    cases h with
    | met _ hended => simp [he] at hended
    | lost _ _ hended => simp [he] at hended
    | waiting _ hparted hsaid hdown =>
      obtain ⟨hended, hsame⟩ := lose_parted hparted
      exact .lost (hdown.eq_nil_of_isIdle hidle) hclosed hended (hsame.trans hsaid)

theorem Fate.leads (h : Fate said ms v) (hwire : ∀ m ∈ ms, ∃ b, m.keycode.wire? = some b)
    (hl : Leads v w) : ∃ since, w.told = v.told ++ since ∧
      (∀ m ∈ ms ++ since, ∃ b, m.keycode.wire? = some b) ∧ Fate said (ms ++ since) w := by
  induction hl with
  | refl => exact ⟨[], by simp, by simpa using hwire, by simpa using h⟩
  | step _ act ha ih =>
    obtain ⟨since, htold, hall, hfate⟩ := ih
    obtain ⟨new, htold', hnew, hfate'⟩ := hfate.step hall ha
    refine ⟨since ++ new, by rw [htold', htold, List.append_assoc], ?_, ?_⟩ <;>
      rw [← List.append_assoc]
    · intro m hm
      exact (List.mem_append.1 hm).elim (hall m) (hnew m)
    · exact hfate'

/-- The server's own TERMINATE is what the client waits for. -/
theorem not_crosses_terminate : ¬ Message.terminate.Crosses := by
  decide

/-- **After TERMINATE.** Take a client of any server, with any version and login, that has said
TERMINATE and goes on, and look at it again at any later time. What counts are the messages that were in
flight to it when it said TERMINATE and those that its session has written since. As long as the client
goes on it has written nothing more. It ends with the first of these messages, as soon as it reads it,
or, if there is none, when it finds that the stream has ended. If they are nothing but the server's
TERMINATE, or if there are none, then it writes nothing more at all and ends the way it wants to. If the
first of them is anything else, and no ERROR, then it writes an ERROR and ends with a violation. -/
theorem after_terminate {hub : Hub} {version : String} {login : Login} {v w : Visit}
    (h : Leads (connect hub version login) v) (hgoing : v.peer.ended = none)
    (hsaid : v.peer.session.terminateSent = true) (hl : Leads v w) :
    ∃ unread since, v.peer.down.Carries unread ∧ w.told = v.told ++ since ∧
      (w.peer.ended = none → w.peer.said = v.peer.said ∧
        (∀ m rest, unread ++ since = m :: rest →
          ∃ n, (w.perform (.hear n)).peer.ended = some m.verdict) ∧
        (unread ++ since = [] → w.closed = true →
          w.Due .lose ∧ (w.perform .lose).peer.ended = some .terminated)) ∧
      (∀ reason, w.peer.ended = some reason →
        (∃ m rest, unread ++ since = m :: rest ∧ reason = m.verdict ∧
          w.peer.said = v.peer.said ++ m.parting) ∨
        (unread ++ since = [] ∧ w.closed = true ∧ reason = .terminated ∧
          w.peer.said = v.peer.said)) ∧
      ((∀ m ∈ unread ++ since, m = .terminate) → w.peer.said = v.peer.said ∧
        (w.peer.ended = none ∨ w.peer.ended = some .terminated)) := by
  have ho := (orderly_connect hub version login).leads h
  obtain ⟨unread, hdown, hwire⟩ := ho.down hgoing
  have hfate : Fate v.peer.said unread v := .waiting hgoing (ho.parted hgoing hsaid) rfl hdown
  obtain ⟨since, htold, hall, hw⟩ := hfate.leads hwire hl
  refine ⟨unread, since, hdown, htold, ?_⟩
  cases hw with
  | waiting hended hparted hsame hcarries =>
    refine ⟨fun _ => ⟨hsame, ?_, ?_⟩, by simp [hended], fun _ => ⟨hsame, Or.inl hended⟩⟩
    · intro m rest hms
      rw [hms] at hcarries hall
      -- Reading all that is in flight makes at least one line complete.
      refine ⟨w.peer.down.inbox.length, ?_⟩
      rcases hear_parted hparted hcarries hall w.peer.down.inbox.length with
        ⟨hnone, -⟩ | ⟨m', rest', hms', hended', -⟩
      · exact absurd hnone hcarries.read_ne_none
      · obtain ⟨rfl, rfl⟩ := List.cons.inj hms'
        exact hended'
    · intro hms hclosed
      rw [hms] at hcarries
      exact ⟨⟨hended, hclosed, hcarries.isIdle_of_nil⟩, (lose_parted hparted).1⟩
  | @met m rest hms hended hsame =>
    refine ⟨by simp [hended], ?_, ?_⟩
    · intro reason hr
      obtain rfl : m.verdict = reason := Option.some.inj (hended.symm.trans hr)
      exact Or.inl ⟨m, rest, hms, rfl, hsame⟩
    · intro hbye
      obtain rfl : m = .terminate := hbye m (by rw [hms]; exact List.mem_cons_self)
      rw [Message.parting, if_neg not_crosses_terminate, List.append_nil] at hsame
      rw [Message.verdict, if_neg not_crosses_terminate] at hended
      exact ⟨hsame, Or.inr hended⟩
  | lost hms hclosed hended hsame =>
    refine ⟨by simp [hended], ?_, fun _ => ⟨hsame, Or.inr hended⟩⟩
    intro reason hr
    obtain rfl : ClientEnd.terminated = reason := Option.some.inj (hended.symm.trans hr)
    exact Or.inr ⟨hms, hclosed, rfl, hsame⟩

/-! ## Two clients that say TERMINATE -/

/-- A server that knows Ada. -/
def parlour : Hub :=
  { version := "1", users := .ofPasswords [("ada", "byron")], home := Home.empty }

/-- The server shuts down while Ada's client says TERMINATE: each takes the other's for the answer. -/
theorem after_terminate_ada :
    let start := connect parlour "1" { username := "ada", password := "byron" }
    let v := [.server .shutdown, .obey [], .look (.check false)].foldl perform start
    v.peer.session.terminateSent = true ∧ Leads v (v.perform (.hear 100)) ∧
      (v.perform (.hear 100)).peer.ended = some .terminated ∧
      (v.perform (.hear 100)).peer.said = v.peer.said := by
  intro start v
  have hdown : Leads start (start.perform (.server .shutdown)) :=
    Leads.refl.step (.server .shutdown) ⟨by simp [Hub.Permits], by simp [Hub.Act.session?]⟩
  have hobeyed : Leads start ((start.perform (.server .shutdown)).perform (.obey [])) :=
    hdown.step (.obey []) (show start.closed = false from rfl)
  have h : Leads start v := hobeyed.step (.look (.check false)) ⟨rfl, by simp⟩
  have hgoing : v.peer.ended = none := by decide +kernel
  have hsaid : v.peer.session.terminateSent = true := by decide +kernel
  have hl : Leads v (v.perform (.hear 100)) := Leads.refl.step (.hear 100) hgoing
  have hended : (v.perform (.hear 100)).peer.ended = some .terminated := by decide +kernel
  refine ⟨hsaid, hl, hended, ?_⟩
  obtain ⟨unread, since, -, -, -, hreason, -⟩ := after_terminate h hgoing hsaid hl
  rcases hreason .terminated hended with ⟨m, rest, -, hverdict, hsame⟩ | ⟨-, -, -, hsame⟩
  · have hc : ¬ m.Crosses := fun hc => by simp [Message.verdict, hc] at hverdict
    simpa [Message.parting, hc] using hsame
  · exact hsame

/-- A client that says TERMINATE right after its PING takes the server's version for a violation. -/
theorem crossing_reported :
    ∃ v w, Leads (connect parlour "1" { username := "ada", password := "byron" }) v ∧
      v.peer.session.terminateSent = true ∧ v.peer.ended = none ∧ Leads v w ∧
      w.peer.said = v.peer.said ++ [Line.ofMessage .errorGeneral] ∧
      w.peer.ended = some (.protocolError "General error") := by
  let start := connect parlour "1" { username := "ada", password := "byron" }
  let v := [.serve 100 [], .look (.check false)].foldl perform start
  have hserved : Leads start (start.perform (.serve 100 [])) :=
    Leads.refl.step (.serve 100 []) (show start.closed = false from rfl)
  have h : Leads start v := hserved.step (.look (.check false)) ⟨by decide +kernel, by simp⟩
  have hgoing : v.peer.ended = none := by decide +kernel
  refine ⟨v, v.perform (.hear 100), h, ?_, hgoing, Leads.refl.step (.hear 100) hgoing, ?_, ?_⟩
  · decide +kernel
  · decide +kernel
  · decide +kernel

end Visit

end HomeControl

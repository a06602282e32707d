import HomeControl.Proofs.Client.Session
import HomeControl.Proofs.Conversation.Stage

/-!
# A client session and its peer

`Joint` is what holds of a client session, of the server's machine for it and of the messages in
flight between them, and every step that either of them takes preserves it. Only an action that does
not fit a line ends this: the server's session answers it with an ERROR and is gone, and the client,
`Dying` until the ERROR reaches it, ends as well.
-/

namespace HomeControl

/-- What holds of a client session and the server's machine for it. -/
structure Joint (Args : Bytes → Prop) (sm : ServerMachine) (s : ClientSession)
    (ups downs : List Message) (target : Home) : Prop where
  settled : sm.Settled
  version : sm.version = s.machine.version
  offer : Line.Fits (.version sm.version)
  login : s.machine.login.Works sm.users
  response : s.machine.pendingResponse = none
  /-- An action is pending only while its confirmation is waited for. -/
  pending : s.machine.state ≠ .clientAwaitsConfirm → s.machine.pendingAction = none
  /-- The user is asked for actions exactly while the server waits for one. -/
  question : s.collection.isSome ↔ s.machine.state = .serverAwaitsAction
  posted : ∀ c request, s.collection = some c → c.posted = some request →
    ∃ kind index opcode params, request = some (.act kind index opcode params) ∧ Args params
  plain : ∀ m ∈ downs, m.Plain
  stage : Stage Args sm s.machine ups downs target

/-- A turn in which a client says some messages, none of them an ERROR, and goes on. -/
structure Says (t : ClientTurn) (said : List Message) : Prop where
  goesOn : t.ended = none
  lines : t.lines = said.map Line.ofMessage
  wire : ∀ m ∈ said, ∃ b, m.keycode.wire? = some b
  noError : ∀ m ∈ said, m.keycode ≠ .error

theorem Says.nothing (s : ClientSession) : Says { session := s } [] :=
  ⟨rfl, rfl, by simp, by simp⟩

theorem Says.single {t : ClientTurn} {m : Message} {b : UInt8} (hend : t.ended = none)
    (hlines : t.lines = [Line.ofMessage m]) (hb : m.keycode.wire? = some b)
    (he : m.keycode ≠ .error) : Says t [m] := by
  refine ⟨hend, hlines, ?_, ?_⟩
  · intro m' hm
    obtain rfl := List.mem_singleton.1 hm
    exact ⟨b, hb⟩
  · intro m' hm
    obtain rfl := List.mem_singleton.1 hm
    exact he

/-- What holds of a client whose session at the server has ended with an ERROR. -/
structure Dying (s : ClientSession) (downs : List Message) : Prop where
  waiting : s.machine.state = .clientAwaitsConfirm
  question : s.collection = none
  /-- Updates are in flight to it, and then the ERROR. -/
  flight : ∃ as : List Action, downs = as.map .update ++ [.errorGeneral]
  fits : ∀ m ∈ downs, Line.Fits m

namespace Joint

variable {Args : Bytes → Prop} {sm : ServerMachine} {s : ClientSession} {home target : Home}
  {fresh : Bytes} {message : Message} {ups downs : List Message}

/-- A client has just opened the conversation. -/
theorem opening {version : String} {login : Login} {id : SessionId} {users : Users}
    (hversion : Line.Fits (.version version)) (hlogin : login.Works users) (target : Home) :
    Says (ClientSession.make version login).opening [.ping] ∧
      Joint Args { session := id, version, users } (ClientSession.make version login).opening.session
        [.ping] [] target := by
  rw [ClientSession.opening_make]
  constructor
  · exact .single (b := 0) rfl rfl rfl (by simp [Message.ping])
  · exact ⟨ServerMachine.settled_new _ _ _, rfl, hversion, hlogin, rfl, fun _ => rfl, by simp, by simp,
      by simp, .opened rfl rfl target⟩

/-- The server answers the client's first message, and both remain in step. -/
theorem answer (h : Joint Args sm s (message :: ups) downs target) (hvalid : home.Valid)
    (hfresh : fresh.length = challengeLength) :
    ∃ reply, (sm.process home fresh message).reply = some reply ∧ reply.Plain ∧
      reply.keycode.downWeight < message.keycode.upWeight ∧
      Joint Args (sm.process home fresh message).machine s ups (downs ++ [reply])
        (Stage.retarget sm home message target) := by
  obtain ⟨reply, hreply, hplain, hless, hstage⟩ :=
    h.stage.answer h.settled h.version h.offer h.login hvalid hfresh
  have ho := ServerMachine.process_outcome h.settled home fresh message
  obtain ⟨-, hversion, husers⟩ := ho.config
  refine ⟨reply, hreply, hplain, hless, ho.settled h.settled, ?_, ?_, ?_, h.response, h.pending,
    h.question, h.posted, ?_, hstage⟩
  · rw [hversion, h.version]
  · rw [hversion]
    exact h.offer
  · rw [husers]
    exact h.login
  · intro m hm
    rcases List.mem_append.1 hm with hm | hm
    · exact h.plain m hm
    · obtain rfl := List.mem_singleton.1 hm
      exact hplain

/-- Updates that the server passes on join what the client has still to hear. -/
theorem flush (h : Joint Args sm s ups downs target) (hs : sm.state = .serverAwaitsAction)
    {news : List Action} (hnews : ∀ a ∈ news, (Message.update a).Plain) :
    Joint Args sm s ups (downs ++ news.map .update) (target.replay news) := by
  refine { h with plain := ?_, stage := h.stage.flush hs news }
  intro m hm
  rcases List.mem_append.1 hm with hm | hm
  · exact h.plain m hm
  · obtain ⟨a, ha, rfl⟩ := List.mem_map.1 hm
    exact hnews a ha

/-- The client hears the server's first message, and what it says to that joins what the server has still
to hear. -/
theorem hear (h : Joint Args sm s ups (message :: downs) target) :
    ∃ said, Says (s.onLine (Line.body message)) said ∧
      total Keycode.upWeight said < message.keycode.downWeight ∧
      Joint Args sm (s.onLine (Line.body message)).session (ups ++ said) downs target := by
  obtain ⟨said, hheard⟩ := h.stage.hear h.version h.response h.pending
  have hplain := h.plain message List.mem_cons_self
  have hrest : ∀ m ∈ downs, m.Plain := fun m hm => h.plain m (List.mem_cons_of_mem _ hm)
  obtain ⟨b, hb⟩ := hplain.wire
  rw [ClientSession.onLine_body hb hplain.noFarewell hplain.noError, ClientSession.feed]
  generalize s.machine.process message = out at hheard
  obtain ⟨cm, output⟩ := out
  obtain ⟨hversion, hlogin, hresponse, hpending, hreaction, hless, hstage⟩ := hheard
  simp only at hversion hlogin hresponse hpending hreaction hless hstage ⊢
  have hversion' : sm.version = cm.version := h.version.trans hversion.symm
  have hlogin' : cm.login.Works sm.users := hlogin ▸ h.login
  cases hreaction with
  | quiet hs =>
    rw [ClientSession.dispatch_none]
    refine ⟨[], .nothing _, hless, h.settled, hversion', h.offer, hlogin', hresponse, hpending, ?_,
      h.posted, hrest, hstage⟩
    show s.collection.isSome ↔ cm.state = .serverAwaitsAction
    rw [hs]
    exact h.question
  | asks hs =>
    rw [ClientSession.dispatch_waitUserInput, ClientSession.collect]
    refine ⟨[], ⟨rfl, rfl, by simp, by simp⟩, hless, h.settled, hversion', h.offer, hlogin', hresponse,
      hpending, by simp [hs], ?_, hrest, hstage⟩
    rintro c request hc hp
    obtain rfl := Option.some.inj hc
    cases hp
  | @replies reply b' hb' he hs hs' =>
    rw [ClientSession.dispatch_message hb' he]
    refine ⟨[reply], .single rfl rfl hb' he, hless, h.settled, hversion', h.offer, hlogin',
      hresponse, hpending, ?_, h.posted, hrest, hstage⟩
    show s.collection.isSome ↔ cm.state = .serverAwaitsAction
    rw [h.question]
    exact iff_of_false hs hs'

/-- The client acts on an answer of its user's, or there is none. -/
theorem act (h : Joint Args sm s ups downs target) :
    ∃ said, Says s.takePosted said ∧ Joint Args sm s.takePosted.session (ups ++ said) downs target := by
  by_cases hnone : ∀ c, s.collection = some c → c.posted = none
  · rw [ClientSession.takePosted_of_none hnone]
    exact ⟨[], .nothing s, by simpa using h⟩
  · obtain ⟨c, hc, request, hp⟩ : ∃ c, s.collection = some c ∧ ∃ request, c.posted = some request := by
      simpa [Option.ne_none_iff_exists'] using hnone
    obtain ⟨kind, index, opcode, params, rfl, hargs⟩ := h.posted c request hc hp
    have hs : s.machine.state = .serverAwaitsAction := h.question.1 (by rw [hc]; rfl)
    obtain ⟨a, sequence, rfl, hturn⟩ := ClientSession.takePosted_act hc hp hs
    have hstage := h.stage.ask hs hargs
    rw [hturn]
    rw [ClientMachine.process_action hs] at hstage ⊢
    refine ⟨[.action a], .single (b := 6) rfl rfl rfl (by simp [Message.action]), h.settled,
      h.version, h.offer, h.login, h.response, fun hne => absurd rfl hne, ?_, ?_, h.plain, hstage⟩
    · simp [ClientSession.withdraw]
    · simp [ClientSession.withdraw]

theorem post (h : Joint Args sm s ups downs target) {params : Bytes} (hargs : Args params)
    (number : Nat) (kind : Kind) (index opcode : UInt8) :
    Joint Args sm (s.post number (some (.act kind index opcode params))) ups downs target := by
  rcases s.post_cases number (some (.act kind index opcode params)) with hs | ⟨c, hc, -, hs⟩
  · rw [hs]
    exact h
  · rw [hs]
    refine { h with question := ?_, posted := ?_ }
    · rw [← h.question, hc]
      simp
    · intro c' request hc' hp
      obtain rfl := Option.some.inj hc'
      obtain rfl := Option.some.inj hp
      exact ⟨kind, index, opcode, params, rfl, hargs⟩

/-- An action that does not fit a line ends the session at the server. -/
theorem dying (h : Joint Args sm s (message :: ups) downs target) (hlong : ¬ Line.Fits message) :
    (∃ a : Action, Args a.params ∧ ¬ Line.Fits (.action a)) ∧ Dying s (downs ++ [.errorGeneral]) := by
  obtain ⟨a, as, rfl, hargs, hs, rfl⟩ := h.stage.action_of_not_fits h.offer h.login hlong
  refine ⟨⟨a, hargs, hlong⟩, hs, ?_, ⟨as, rfl⟩, ?_⟩
  · have hq : ¬ s.collection.isSome := by
      rw [h.question, hs]
      simp
    simpa using hq
  · intro m hm
    rcases List.mem_append.1 hm with hm | hm
    · exact (h.plain m hm).fits
    · obtain rfl := List.mem_singleton.1 hm
      exact Nat.le_of_ble_eq_true rfl

end Joint

namespace Dying

variable {s : ClientSession} {message : Message} {downs : List Message}

/-- A dying client says nothing to what it hears, and is at rest if that ends it. -/
theorem hear (h : Dying s (message :: downs)) :
    (s.onLine (Line.body message)).lines = [] ∧
      ((s.onLine (Line.body message)).ended = none ∧
          Dying (s.onLine (Line.body message)).session downs ∨
        (s.onLine (Line.body message)).ended ≠ none ∧
          (s.onLine (Line.body message)).session.machine.state = .idle) := by
  obtain ⟨as, has⟩ := h.flight
  cases as with
  | nil =>
    obtain ⟨rfl, rfl⟩ := List.cons.inj has
    rw [Message.errorGeneral, ClientSession.onLine_error]
    exact ⟨rfl, Or.inr ⟨by simp [ClientSession.finish], rfl⟩⟩
  | cons a as =>
    obtain ⟨rfl, rfl⟩ := List.cons.inj has
    have hproc := ClientMachine.process_update_confirming h.waiting a
    rw [ClientSession.onLine_body (b := 8) rfl (by simp [Message.update]) (by simp [Message.update]),
      ClientSession.feed, hproc]
    refine ⟨rfl, Or.inl ⟨rfl, h.waiting, h.question, ⟨as, rfl⟩, ?_⟩⟩
    exact fun m hm => h.fits m (List.mem_cons_of_mem _ hm)

/-- Nor does it act on an answer. -/
theorem takePosted (h : Dying s downs) : s.takePosted = { session := s } := by
  refine ClientSession.takePosted_of_none ?_
  intro c hc
  rw [h.question] at hc
  cases hc

theorem post (h : Dying s downs) (number : Nat) (request : Option Request) :
    s.post number request = s := by
  simp only [ClientSession.post, h.question]

end Dying

end HomeControl

import HomeControl.Proofs.Client.Session

/-!
# Runs of a client session

Once the conversation is open, four kinds of things happen to a session: something arrives, the
session looks whether it is to go on, its user posts an answer to a question, and the session takes
what has been posted. A round of its loop is the first, the second and the last of them, one after the
other (`turn_eq`), and posts may come at any time. Here they happen in any order, until the session
ends.
-/

namespace HomeControl.ClientSession

/-- Something that happens to a session. -/
inductive Input where
  /-- Something arrives from the server, or the time is up. -/
  | arrive (arrival : Arrival)
  /-- The session looks whether it is to go on. -/
  | check (running : Bool)
  /-- The user posts an answer to a question. -/
  | post (number : Nat) (request : Option Request)
  /-- The session takes what has been posted. -/
  | take

/-- What the session makes of it. -/
def react (s : ClientSession) : Input → ClientTurn
  | .arrive arrival => s.receive arrival
  | .check running => s.obey running
  | .post number request => { session := s.post number request }
  | .take => s.takePosted

/-- A turn is three reactions, of which each comes only if the session has not ended before. -/
theorem turn_eq (s : ClientSession) (running : Bool) (arrival : Arrival) :
    s.turn running arrival =
      andThen (andThen (s.react (.arrive arrival)) fun s => s.react (.check running))
        fun s => s.react .take := rfl

/-- An input together with the session that it finds. -/
structure Moment where
  /-- The session before the input. -/
  session : ClientSession
  /-- The input. -/
  input : Input

/-- What the input comes to. -/
def Moment.turn (x : Moment) : ClientTurn :=
  x.session.react x.input

/-- The moments of a session, up to its end. -/
def moments (s : ClientSession) : List Input → List Moment
  | [] => []
  | input :: rest =>
    let x : Moment := { session := s, input }
    match x.turn.ended with
    | some _ => [x]
    | none => x :: moments x.turn.session rest

/-- The moments of a new session, once it has opened the conversation. -/
def run (version : String) (login : Login) (inputs : List Input) : List Moment :=
  (make version login).opening.session.moments inputs

variable {s : ClientSession} {input : Input} {inputs : List Input}

/-- The first moment of a run is the session with the first input; more follow if it goes on. -/
theorem moments_cons (s : ClientSession) (input : Input) (inputs : List Input) :
    ∃ rest, s.moments (input :: inputs) = { session := s, input } :: rest ∧
      ((s.react input).ended = none ∧ rest = (s.react input).session.moments inputs ∨
        (s.react input).ended ≠ none ∧ rest = []) := by
  rw [moments]
  cases he : (s.react input).ended with
  | none => exact ⟨_, by simp [Moment.turn, he], Or.inl ⟨rfl, rfl⟩⟩
  | some reason => exact ⟨[], by simp [Moment.turn, he], Or.inr ⟨by simp, rfl⟩⟩

/-- What every moment preserves of the history and the session holds wherever a run is cut. -/
theorem moments_induction {I : List Moment → ClientSession → Prop} (past : List Moment) (h : I past s)
    {before after : List Moment} {x : Moment} (hr : s.moments inputs = before ++ x :: after)
    (hstep : ∀ xs, ∀ y ∈ before, I xs y.session → y.turn.ended = none → I (xs ++ [y]) y.turn.session) :
    I (past ++ before) x.session := by
  induction inputs generalizing s past before with
  | nil => simp [moments] at hr
  | cons input inputs ih =>
    obtain ⟨rest, hm, hrest⟩ := moments_cons s input inputs
    rw [hm] at hr
    cases before with
    | nil =>
      obtain ⟨rfl, -⟩ := List.cons.inj hr
      simpa using h
    | cons y before =>
      obtain ⟨rfl, rfl⟩ := List.cons.inj hr
      rcases hrest with ⟨he, hrest⟩ | ⟨-, hrest⟩
      · have hnext := hstep past ⟨s, input⟩ List.mem_cons_self h he
        simpa using ih _ hnext hrest.symm fun xs y hy => hstep xs y (List.mem_cons_of_mem _ hy)
      · simp at hrest

/-- What follows a moment are the moments of the session that it leaves behind. -/
theorem moments_after {before after : List Moment} {x : Moment}
    (hr : s.moments inputs = before ++ x :: after) :
    ∃ rest, after = x.turn.session.moments rest := by
  induction inputs generalizing s before with
  | nil => simp [moments] at hr
  | cons input inputs ih =>
    obtain ⟨rest, hm, hrest⟩ := moments_cons s input inputs
    rw [hm] at hr
    cases before with
    | nil =>
      obtain ⟨rfl, rfl⟩ := List.cons.inj hr
      rcases hrest with ⟨-, rfl⟩ | ⟨-, rfl⟩
      · exact ⟨inputs, rfl⟩
      · exact ⟨[], rfl⟩
    | cons y before =>
      obtain ⟨-, rfl⟩ := List.cons.inj hr
      rcases hrest with ⟨-, hrest⟩ | ⟨-, hrest⟩
      · exact ih hrest.symm
      · simp at hrest

/-- What every input preserves holds at every moment, and what follows a moment are the moments of the
session that it leaves behind. -/
theorem moments_split {P : ClientSession → Prop}
    (hstep : ∀ x : Moment, P x.session → x.turn.ended = none → P x.turn.session) (hs : P s)
    {before after : List Moment} {x : Moment} (hr : s.moments inputs = before ++ x :: after) :
    P x.session ∧ ∃ rest, after = x.turn.session.moments rest := by
  have hx := moments_induction (I := fun _ => P) [] hs hr fun _ y _ => hstep y
  exact ⟨hx, moments_after hr⟩

/-! ## What a moment comes to -/

@[simp] theorem dispatch_machine (s : ClientSession) (output : Option Message) :
    (s.dispatch output).session.machine = s.machine := by
  unfold dispatch
  repeat' split
  all_goals rfl

@[simp] theorem dispatch_terminateSent (s : ClientSession) (output : Option Message) :
    (s.dispatch output).session.terminateSent = s.terminateSent := by
  unfold dispatch
  repeat' split
  all_goals rfl

@[simp] theorem post_terminateSent (s : ClientSession) (number : Nat) (request : Option Request) :
    (s.post number request).terminateSent = s.terminateSent := by
  rcases s.post_cases number request with hs | ⟨c, -, -, hs⟩
  · rw [hs]
  · rw [hs]

/-- Nothing that arrives opens the conversation anew. -/
theorem keycode_of_message? {line : Bytes} {message : Message}
    (hd : Line.message? line = some message) : message.keycode ≠ .internal := by
  obtain ⟨b, hb⟩ := Line.wire_of_decode (Line.decode_of_message? hd)
  intro hk
  rw [hk] at hb
  cases hb

@[simp] theorem withdraw_machine (s : ClientSession) : s.withdraw.machine = s.machine := rfl

@[simp] theorem withdraw_collection (s : ClientSession) : s.withdraw.collection = none := rfl

@[simp] theorem withdraw_terminateSent (s : ClientSession) :
    s.withdraw.terminateSent = s.terminateSent := rfl

/-- What the session takes from its user when it next looks. -/
def offered? (s : ClientSession) : Option (Option Request) :=
  s.collection.bind (·.posted)

/-- The action that the session would make of a request. -/
def number? (s : ClientSession) (request : Request) : Option Action :=
  request.toAction? s.sequence.nextByte.1

/-- The input asks the session to stop. -/
inductive Stops (s : ClientSession) : Input → Prop where
  /-- The client is not to run any longer. -/
  | flag : Stops s (.check false)
  /-- The user has nothing more to ask for. -/
  | exhausted (ho : s.offered? = some none) : Stops s .take
  /-- The user wants the session to end. -/
  | request (ho : s.offered? = some (some .terminate)) : Stops s .take

/-- The end of a session that gives up because of a violation. -/
def giveUp (s : ClientSession) (v : Violation) : ClientTurn :=
  ({ s with machine := s.machine.reset } : ClientSession).finish [Line.ofMessage v.reply]
    (.protocolError v.reply.lossyText)

/-- What a moment can come to. -/
inductive Reaction (s : ClientSession) : Input → ClientTurn → Prop where
  /-- Nothing has arrived. -/
  | elapsed : Reaction s (.arrive .elapsed) { session := s }
  /-- The stream has ended. -/
  | closed : Reaction s (.arrive .closed)
      (s.finish [] (if s.terminateSent then .terminated else .connectionLost))
  /-- What has arrived is no message. -/
  | unreadable {frame : Frame} {v : Violation}
      (hf : ∀ line, frame = .line line → Line.message? line = none) :
      Reaction s (.arrive (.frame frame)) (s.giveUp v)
  /-- The server says TERMINATE. -/
  | farewell {line : Bytes} {message : Message} (hd : Line.message? line = some message)
      (hk : message.keycode = .terminate) :
      Reaction s (.arrive (.frame (.line line)))
        (({ s with machine := { s.machine with state := .idle } } : ClientSession).finish []
          (if s.terminateSent then .terminated else .serverTerminated))
  /-- The server reports an error. -/
  | error {line : Bytes} {message : Message} (hd : Line.message? line = some message)
      (hk : message.keycode = .error) :
      Reaction s (.arrive (.frame (.line line)))
        (({ s with machine := s.machine.reset } : ClientSession).finish []
          (.serverError message.lossyText))
  /-- The machine takes a message of the server. -/
  | heard {line : Bytes} {message : Message} (hd : Line.message? line = some message)
      (ht : message.keycode ≠ .terminate) (he : message.keycode ≠ .error) :
      Reaction s (.arrive (.frame (.line line))) (s.feed message)
  /-- The client goes on. -/
  | running : Reaction s (.check true) { session := s }
  /-- TERMINATE is said. -/
  | stopped {input : Input} (hi : s.Stops input) (hs : s.terminateSent = false)
      {events : List CollectionEvent} :
      Reaction s input
        { session :=
            { s.withdraw with
              machine := { s.machine with state := .idle }, terminateSent := true }
          lines := [Line.ofMessage .terminate], events }
  /-- TERMINATE has been said. -/
  | already {input : Input} (hi : s.Stops input) (hs : s.terminateSent = true) {s' : ClientSession}
      (hs' : s' = s ∨ s' = s.withdraw) {events : List CollectionEvent} :
      Reaction s input { session := s', events }
  /-- The user answers a question. -/
  | posted {number : Nat} {request : Option Request} :
      Reaction s (.post number request) { session := s.post number request }
  /-- Nothing has been posted. -/
  | unposted (ho : s.offered? = none) : Reaction s .take { session := s }
  /-- The machine takes an action of the user. -/
  | acted {request : Request} {a : Action} (ho : s.offered? = some (some request))
      (ha : s.number? request = some a) {events : List CollectionEvent} :
      Reaction s .take
        { ({ s.withdraw with sequence := s.sequence.next.2 } : ClientSession).feed (.action a) with
          events }

/-- A machine that replies with an ERROR ends the session. -/
theorem dispatch_reply (s : ClientSession) (v : Violation) :
    s.dispatch (some v.reply) =
      s.finish [Line.ofMessage v.reply] (.protocolError v.reply.lossyText) := by
  have hb : v.reply.keycode.wire? = some 2 := by rw [v.reply_keycode]; rfl
  simp [dispatch, Line.encode_of_wire hb]

/-- What the session rejects itself ends it the same way. -/
theorem reject_eq (s : ClientSession) (v : Violation) : s.reject v = s.giveUp v :=
  dispatch_reply _ v

/-- The first time TERMINATE is said, the machine goes to rest. -/
theorem sendTerminate_eq (hs : s.terminateSent = false) :
    s.sendTerminate =
      { session :=
          { s.withdraw with machine := { s.machine with state := .idle }, terminateSent := true }
        lines := [Line.ofMessage .terminate], events := s.withdrawal } := by
  have hp : s.machine.process .terminate = ({ s.machine with state := .idle }, some .terminate) := by
    simp [ClientMachine.process, Message.terminate]
  have hl : Line.encode .terminate = .ok (Line.ofMessage .terminate) :=
    Line.encode_of_wire (b := 9) rfl
  simp [sendTerminate, hs, hp, hl, withdraw]

theorem sendTerminate_again (hs : s.terminateSent = true) : s.sendTerminate = { session := s } :=
  if_pos hs

/-- A request for an action is numbered and fed to the machine. -/
theorem act_action {request : Request} {a : Action} (ha : s.number? request = some a) :
    s.act (some request) = { s with sequence := s.sequence.next.2 }.feed (.action a) := by
  have ha : request.toAction? s.sequence.nextByte.1 = some a := ha
  simp only [act, ha]
  rfl

theorem number?_eq_none {request : Request} : s.number? request = none ↔ request = .terminate := by
  cases request <;> simp [number?, Request.toAction?]

theorem onLine_reaction (s : ClientSession) (line : Bytes) :
    Reaction s (.arrive (.frame (.line line))) (s.onLine line) := by
  unfold onLine
  cases hd : Line.decode line with
  | error e =>
    simp only [reject_eq]
    refine .unreadable ?_
    rintro _ hl
    obtain rfl := Frame.line.inj hl
    rw [Line.message?, hd]
    rfl
  | ok message =>
    have hm : Line.message? line = some message := by
      rw [Line.message?, hd]
      rfl
    by_cases ht : message.keycode = .terminate
    · have hp : (s.machine.process message).1 = { s.machine with state := .idle } := by
        rw [ClientMachine.process, if_pos ht]
      simp only [ht, if_true, hp]
      exact .farewell hm ht
    by_cases he : message.keycode = .error
    · have hp : (s.machine.process message).1 = s.machine.reset := by
        rw [ClientMachine.process, if_neg ht, if_pos he]
      simp only [he, reduceCtorEq, if_false, if_true, hp]
      exact .error hm he
    · simp only [ht, he, if_false]
      exact .heard hm ht he

/-- Who asks a session to stop gets it to say TERMINATE if it has not. -/
theorem sendTerminate_reaction (hi : s.Stops input) : Reaction s input s.sendTerminate := by
  cases hs : s.terminateSent with
  | false =>
    rw [sendTerminate_eq hs]
    exact .stopped hi hs
  | true =>
    rw [sendTerminate_again hs]
    exact .already hi hs (Or.inl rfl)

theorem takePosted_of_not_offered (ho : s.offered? = none) : s.takePosted = { session := s } := by
  refine takePosted_of_none ?_
  intro c hc
  simpa [offered?, hc] using ho

/-- An answer is taken by withdrawing the collection it answers, and acted on. -/
theorem takePosted_of_offered {request : Option Request} (ho : s.offered? = some request) :
    s.takePosted = { s.withdraw.act request with events := s.withdrawal ++ (s.withdraw.act request).events } := by
  obtain ⟨c, hc, hp⟩ := Option.bind_eq_some_iff.1 ho
  simp only [takePosted, hc, hp]

theorem takePosted_reaction (s : ClientSession) : Reaction s .take s.takePosted := by
  have hstop (hi : s.Stops .take) : Reaction s .take
      { s.withdraw.sendTerminate with events := s.withdrawal ++ s.withdraw.sendTerminate.events } := by
    cases hs : s.terminateSent with
    | false =>
      rw [sendTerminate_eq (s := s.withdraw) hs]
      exact .stopped hi hs
    | true =>
      rw [sendTerminate_again (s := s.withdraw) hs]
      exact .already hi hs (Or.inr rfl)
  rcases ho : s.offered? with _ | _ | request
  · rw [takePosted_of_not_offered ho]
    exact .unposted ho
  · rw [takePosted_of_offered ho]
    exact hstop (.exhausted ho)
  · rw [takePosted_of_offered ho]
    cases ha : s.number? request with
    | none =>
      obtain rfl := number?_eq_none.1 ha
      exact hstop (.request ho)
    | some a =>
      rw [act_action (s := s.withdraw) ha]
      exact .acted ho ha

/-- What any input comes to is a reaction. -/
theorem react_reaction (s : ClientSession) (input : Input) : Reaction s input (s.react input) := by
  cases input with
  | arrive arrival =>
    cases arrival with
    | frame frame =>
      cases frame with
      | line line => exact onLine_reaction s line
      | tooLong =>
        rw [react, receive, reject_eq]
        exact .unreadable (by simp)
    | elapsed => exact .elapsed
    | closed => exact .closed
  | check running =>
    cases running with
    | true => exact .running
    | false => exact sendTerminate_reaction .flag
  | post number request => exact .posted
  | take => exact takePosted_reaction s

end HomeControl.ClientSession

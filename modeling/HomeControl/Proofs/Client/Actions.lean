import HomeControl.Proofs.Client.Run

/-!
# The actions of a client session

A session is to write its user's actions as ACTIONs, each once, in order and numbered from zero, and
never a second one before the first has been confirmed. The second half always holds, the first with
one exception (`actions_of_user`): the machine passes on every ACTION it is handed between two actions,
so a server that sends one has it *echoed*, and the session then waits for a confirmation of something
its user never asked for (`action_echoed`).
-/

namespace HomeControl

/-- The ACTIONs that a part of a session's turn writes. -/
def ClientTurn.actions (t : ClientTurn) : List Message :=
  (t.lines.filterMap Line.message?).filter fun m => m.keycode = .action

namespace ClientSession

variable {s : ClientSession} {input : Input} {inputs : List Input} {message : Message}

theorem actions_of_lines {t : ClientTurn} {m : Message} {b : UInt8} (hl : t.lines = [Line.ofMessage m])
    (hb : m.keycode.wire? = some b) : t.actions = if m.keycode = .action then [m] else [] := by
  simp [ClientTurn.actions, hl, Line.message?_ofMessage hb, List.filter_cons]

theorem actions_giveUp (s : ClientSession) (v : Violation) : (s.giveUp v).actions = [] := by
  have hb : v.reply.keycode.wire? = some 2 := by rw [v.reply_keycode]; rfl
  rw [actions_of_lines (t := s.giveUp v) rfl hb, if_neg (by simp)]

/-! ## What the machine makes of a message -/

/-- The message confirms the action that waits. -/
def Settles (s : ClientSession) (message : Message) : Prop :=
  ∃ a accepted, s.machine.pendingAction = some a ∧ message = .confirm a.sequence accepted

/-- What a session makes of a message that is neither TERMINATE nor ERROR. -/
inductive Fed (s : ClientSession) (message : Message) : ClientTurn → Prop where
  /-- The handshake goes on. -/
  | advanced {m : ClientMachine} {reply : Message} {b : UInt8}
      (hs : s.machine.state ≠ .serverAwaitsAction ∧ s.machine.state ≠ .clientAwaitsConfirm)
      (hi : s.machine.state = .idle → message.keycode = .internal)
      (hb : reply.keycode.wire? = some b) (hk : reply.keycode ≠ .action) :
      Fed s message { session := { s with machine := m }, lines := [Line.ofMessage reply] }
  /-- The user is asked. -/
  | asked {m : ClientMachine} (hi : s.machine.state ≠ .idle)
      (hc : s.machine.state = .clientAwaitsConfirm → s.Settles message)
      (hm : m.state = .serverAwaitsAction) :
      Fed s message ({ s with machine := m } : ClientSession).collect
  /-- An ACTION is passed on. -/
  | sent (hs : s.machine.state = .serverAwaitsAction) {a : Action} (hm : message = .action a) :
      Fed s message
        { session :=
            { s with machine := { s.machine with state := .clientAwaitsConfirm, pendingAction := some a } }
          lines := [Line.ofMessage (.action a)] }
  /-- The mirror follows an update while an action waits. -/
  | kept (hs : s.machine.state = .clientAwaitsConfirm) {a : Action} :
      Fed s message { session := { s with machine := s.machine.mirror a } }
  /-- The attempt is given up. -/
  | refused {v : Violation} : Fed s message (s.giveUp v)

/-- What any message but TERMINATE and ERROR comes to. -/
theorem feed_fed (h : s.machine.Settled) (ht : message.keycode ≠ .terminate)
    (he : message.keycode ≠ .error) : Fed s message (s.feed message) := by
  obtain ⟨out, hout, ho⟩ : ∃ out, s.machine.process message = out ∧
      ClientMachine.Outcome s.machine message out := ⟨_, rfl, ClientMachine.process_outcome h message⟩
  rw [feed, hout]
  cases ho with
  | farewell hk => exact absurd hk ht
  | dismissed hk => exact absurd hk he
  | opened hs hk =>
    simp only
    rw [dispatch_message (b := 0) rfl (by simp [Message.ping])]
    exact .advanced (b := 0) (by simp [hs]) (fun _ => hk) rfl (by simp [Message.ping])
  | offered hs =>
    simp only
    rw [dispatch_message (b := 1) rfl (by simp [Message.version])]
    exact .advanced (b := 1) (by simp [hs]) (by simp [hs]) rfl (by simp [Message.version])
  | answered hs =>
    simp only
    rw [dispatch_message (b := 4) rfl (by simp [Message.response])]
    exact .advanced (b := 4) (by simp [hs]) (by simp [hs]) rfl (by simp [Message.response])
  | admitted hs =>
    simp only [dispatch_waitUserInput]
    exact .asked (by simp [hs]) (by simp [hs]) rfl
  | asked hs =>
    simp only [dispatch_waitUserInput]
    exact .asked (by simp [hs]) (by simp [hs]) hs
  | followed hs =>
    simp only [dispatch_waitUserInput]
    exact .asked (by simp [hs]) (by simp [hs]) hs
  | sent hs ha =>
    obtain rfl := Message.eq_action_of_parseAction ha
    simp only
    rw [dispatch_message (b := 6) rfl (by simp [Message.action])]
    exact .sent hs rfl
  | kept hs => exact .kept hs
  | @confirmed hs a hp c hc hn =>
    simp only [dispatch_waitUserInput]
    refine .asked (by simp [hs]) (fun _ => ⟨a, c.accepted, hp, ?_⟩) rfl
    rw [← hn]
    exact Message.eq_confirm_of_parseConfirm hc
  | refused v =>
    simp only [dispatch_reply]
    exact .refused

/-! ## Moments -/

theorem settled_feed (h : s.machine.Settled) (message : Message) :
    (s.feed message).session.machine.Settled := by
  simpa [feed] using (ClientMachine.process_outcome h message).settled h

/-- Between two inputs the machine is between two calls. -/
theorem settled_react (h : s.machine.Settled) (input : Input) :
    (s.react input).session.machine.Settled := by
  have hidle : ({ s.machine with state := .idle } : ClientMachine).Settled := h.idle
  obtain ⟨t, ht, hr⟩ : ∃ t, s.react input = t ∧ Reaction s input t := ⟨_, rfl, react_reaction s input⟩
  rw [ht]
  cases hr with
  | elapsed => exact h
  | closed => exact h
  | unreadable => exact ClientMachine.settled_reset s.machine
  | farewell => exact hidle
  | error => exact ClientMachine.settled_reset s.machine
  | @heard line message => exact settled_feed h message
  | running => exact h
  | stopped => exact hidle
  | already _ _ hs' =>
    rcases hs' with rfl | rfl
    · exact h
    · exact h
  | posted => simpa using h
  | unposted => exact h
  | @acted request a =>
    exact settled_feed (s := { s.withdraw with sequence := s.sequence.next.2 }) h (.action a)

namespace Moment

/-- The message that arrives from the server. -/
def heard? (x : Moment) : Option Message :=
  match x.input with
  | .arrive (.frame (.line line)) => Line.message? line
  | _ => none

/-- The action that the session takes from its user. -/
def chosen? (x : Moment) : Option Request :=
  match x.input with
  | .take => x.session.offered?.join.filter fun r => r ≠ .terminate
  | _ => none

/-- The server sends an ACTION while the user may be asked for one. -/
def Echoes (x : Moment) : Prop :=
  x.session.machine.state = .serverAwaitsAction ∧ ∃ a, x.heard? = some (.action a)

/-- The server answers the action with a number. -/
def Confirms (sequence : UInt8) (x : Moment) : Prop :=
  ∃ accepted, x.heard? = some (.confirm sequence accepted)

end Moment

/-- All ACTIONs of a run. -/
def actions (xs : List Moment) : List Message :=
  xs.flatMap fun x => x.turn.actions

/-- All actions of its user, from the number `n` on. -/
def AsChosen (n : Nat) (xs : List Moment) : Prop :=
  (actions xs).map some =
    (xs.filterMap Moment.chosen?).mapIdx fun k r =>
      (r.toAction? (UInt8.ofNat (n + k))).map Message.action

variable {n : Nat} {x y : Moment} {xs before after : List Moment}

/-! ## The user's actions -/

/-- A session that has numbered its user's first `n` actions and asks for the next only if there is
none to be confirmed. -/
structure Tracked (n : Nat) (s : ClientSession) : Prop where
  settled : s.machine.Settled
  asking : s.collection.isSome → s.machine.state = .serverAwaitsAction
  number : s.sequence.value = UInt64.ofNat n

/-- A message of the server is written only if it echoes. -/
theorem Tracked.feed (h : Tracked n s) (ht : message.keycode ≠ .terminate)
    (he : message.keycode ≠ .error)
    (hecho : s.machine.state = .serverAwaitsAction → ∀ a, message ≠ .action a) :
    (s.feed message).actions = [] ∧
      ((s.feed message).ended = none → Tracked n (s.feed message).session) := by
  have hset := settled_feed h.settled message
  obtain ⟨t, hfeed, hf⟩ : ∃ t, s.feed message = t ∧ Fed s message t := ⟨_, rfl, feed_fed h.settled ht he⟩
  rw [hfeed] at hset ⊢
  cases hf with
  | advanced hs hi hb hk =>
    refine ⟨by rw [actions_of_lines rfl hb, if_neg hk], fun _ => ⟨hset, ?_, h.number⟩⟩
    exact fun hc => absurd (h.asking hc) hs.1
  | asked hi hc hm => exact ⟨rfl, fun _ => ⟨hset, fun _ => hm, h.number⟩⟩
  | sent hs hm => exact absurd hm (hecho hs _)
  | kept hs =>
    refine ⟨rfl, fun _ => ⟨hset, ?_, h.number⟩⟩
    intro hc
    have hs' := h.asking hc
    rw [hs] at hs'
    cases hs'
  | refused => exact ⟨actions_giveUp _ _, by simp [giveUp, finish]⟩

/-- An answer that asks for an action is sent with the next number. -/
theorem Tracked.act (h : Tracked n s) {request : Request} (ho : s.offered? = some (some request))
    (a : Action) :
    ∃ s', ({ s.withdraw with sequence := s.sequence.next.2 } : ClientSession).feed (.action a) =
        { session := s', lines := [Line.ofMessage (.action a)] } ∧ Tracked (n + 1) s' := by
  have hasking : s.machine.state = .serverAwaitsAction := by
    refine h.asking ?_
    obtain ⟨c, hc, -⟩ := Option.bind_eq_some_iff.1 ho
    simp [hc]
  have hfeed := feed_action (s := { s.withdraw with sequence := s.sequence.next.2 }) hasking a
  have hset := settled_feed (s := { s.withdraw with sequence := s.sequence.next.2 }) h.settled (.action a)
  rw [hfeed] at hset
  have hnumber : s.sequence.next.2.value = UInt64.ofNat (n + 1) := by
    simp [Counter.next, h.number]
  exact ⟨_, hfeed, hset, by simp, hnumber⟩

/-- The numbers of the actions count them. -/
theorem number?_of_tracked (h : Tracked n s) (request : Request) :
    s.number? request = request.toAction? (UInt8.ofNat n) := by
  simp [number?, Counter.nextByte, h.number]

theorem Tracked.post (h : Tracked n s) (number : Nat) (request : Option Request) :
    Tracked n (s.post number request) := by
  rcases s.post_cases number request with hs | ⟨c, hc, -, hs⟩
  · rw [hs]
    exact h
  · rw [hs]
    exact ⟨h.settled, fun _ => h.asking (by simp [hc]), h.number⟩

theorem chosen?_eq_some_iff {request : Request} : x.chosen? = some request ↔
    x.input = .take ∧ x.session.offered? = some (some request) ∧ request ≠ .terminate := by
  obtain ⟨s, input⟩ := x
  cases input <;> simp [Moment.chosen?, Option.filter_eq_some_iff, Option.join_eq_some_iff]

theorem chosen?_of_stops (hi : s.Stops input) : Moment.chosen? ⟨s, input⟩ = none := by
  cases hi with
  | flag => rfl
  | exhausted ho => simp [Moment.chosen?, ho]
  | request ho => simp [Moment.chosen?, ho]

/-- In a moment without an echo, the ACTION written is the one chosen, with the next number. -/
theorem Tracked.step (h : Tracked n x.session) (he : ¬ x.Echoes) :
    x.turn.actions.map some =
        x.chosen?.toList.map (fun r => (r.toAction? (UInt8.ofNat n)).map Message.action) ∧
      (x.turn.ended = none → Tracked (n + x.chosen?.toList.length) x.turn.session) := by
  obtain ⟨s, input⟩ := x
  obtain ⟨t, ht, hr⟩ : ∃ t, Moment.turn ⟨s, input⟩ = t ∧ Reaction s input t :=
    ⟨_, rfl, react_reaction s input⟩
  rw [ht]
  cases hr with
  | elapsed => exact ⟨rfl, fun _ => h⟩
  | closed => exact ⟨rfl, by simp [finish]⟩
  | unreadable => exact ⟨by rw [actions_giveUp]; rfl, by simp [giveUp, finish]⟩
  | farewell => exact ⟨rfl, by simp [finish]⟩
  | error => exact ⟨rfl, by simp [finish]⟩
  | @heard line message hd hterminate herror =>
    have hecho (hs : s.machine.state = .serverAwaitsAction) (a : Action) :
        message ≠ .action a :=
      fun hm => he ⟨hs, a, hm ▸ hd⟩
    obtain ⟨hnone, hnext⟩ := Tracked.feed h hterminate herror hecho
    exact ⟨by rw [hnone]; rfl, hnext⟩
  | running => exact ⟨rfl, fun _ => h⟩
  | stopped hi =>
    rw [chosen?_of_stops hi, actions_of_lines (m := .terminate) rfl (b := 9) rfl]
    have hidle : ({ s.machine with state := .idle } : ClientMachine).Settled :=
      h.settled.idle
    exact ⟨rfl, fun _ => ⟨hidle, by simp, h.number⟩⟩
  | already hi _ hs' =>
    rw [chosen?_of_stops hi]
    rcases hs' with rfl | rfl
    · exact ⟨rfl, fun _ => h⟩
    · exact ⟨rfl, fun _ => ⟨h.settled, by simp, h.number⟩⟩
  | posted => exact ⟨rfl, fun _ => h.post _ _⟩
  | unposted ho =>
    have hnone : Moment.chosen? ⟨s, .take⟩ = none := by simp [Moment.chosen?, ho]
    rw [hnone]
    exact ⟨rfl, fun _ => h⟩
  | @acted request a ho ha =>
    obtain ⟨s', hfeed, hnext⟩ := Tracked.act h ho a
    have hact : request ≠ .terminate := fun hr => by simp [number?_eq_none.2 hr] at ha
    have hchosen := chosen?_eq_some_iff (x := ⟨s, .take⟩).2 ⟨rfl, ho, hact⟩
    rw [hfeed, hchosen, actions_of_lines (m := .action a) rfl (b := 6) rfl]
    rw [number?_of_tracked h] at ha
    refine ⟨?_, fun _ => hnext⟩
    simp [Message.action, ha]

theorem chosen_cons (x : Moment) (xs : List Moment) :
    (x :: xs).filterMap Moment.chosen? = x.chosen?.toList ++ xs.filterMap Moment.chosen? := by
  cases hc : x.chosen? <;> simp [hc]

theorem asChosen_cons
    (hx : x.turn.actions.map some =
      x.chosen?.toList.map fun r => (r.toAction? (UInt8.ofNat n)).map Message.action)
    (h : AsChosen (n + x.chosen?.toList.length) xs) : AsChosen n (x :: xs) := by
  rw [AsChosen, actions, List.flatMap_cons, List.map_append, hx, chosen_cons, List.mapIdx_append]
  rw [AsChosen, actions] at h
  rw [h]
  cases x.chosen? with
  | none => simp
  | some r => simp [Nat.add_assoc, Nat.add_comm 1]

/-- As long as the server has no ACTION echoed, all that is written is what the user has chosen. -/
theorem Tracked.asChosen (h : Tracked n s) (hr : s.moments inputs = before ++ after)
    (he : ∀ x ∈ before, ¬ x.Echoes) : AsChosen n before := by
  -- The number of the next action goes along, since only some of the moments take one.
  induction inputs generalizing s n before with
  | nil =>
    obtain ⟨rfl, -⟩ := List.append_eq_nil_iff.1 hr.symm
    rfl
  | cons input inputs ih =>
    obtain ⟨rest, hm, hrest⟩ := moments_cons s input inputs
    rw [hm] at hr
    cases before with
    | nil => rfl
    | cons x before =>
      obtain ⟨rfl, hafter⟩ := List.cons.inj hr
      obtain ⟨hx, hnext⟩ := Tracked.step (x := ⟨s, input⟩) h (he _ List.mem_cons_self)
      refine asChosen_cons hx ?_
      rcases hrest with ⟨hended, rfl⟩ | ⟨-, rfl⟩
      · exact ih (hnext hended) hafter fun y hy => he y (List.mem_cons_of_mem _ hy)
      · obtain ⟨rfl, -⟩ := List.append_eq_nil_iff.1 hafter.symm
        rfl

/-! ## Echoes -/

/-- A moment with an echo writes the ACTION that has come in, though nothing is chosen. -/
theorem Moment.Echoes.turn_eq (he : x.Echoes) : x.chosen? = none ∧ ∃ a, x.turn =
    { session :=
        { x.session with
          machine := { x.session.machine with state := .clientAwaitsConfirm, pendingAction := some a } }
      lines := [Line.ofMessage (.action a)] } := by
  obtain ⟨s, input⟩ := x
  obtain ⟨hs, a, hheard⟩ := he
  unfold heard? at hheard
  split at hheard
  case h_2 => cases hheard
  next line hinput =>
    obtain rfl : input = .arrive (.frame (.line line)) := hinput
    have hturn : Moment.turn ⟨s, .arrive (.frame (.line line))⟩ = s.feed (.action a) :=
      onLine_message hheard (by simp [Message.action]) (by simp [Message.action])
    exact ⟨rfl, a, hturn.trans (feed_action hs a)⟩

/-- An echo writes an ACTION that nobody has chosen. -/
theorem Moment.Echoes.writes (he : x.Echoes) : x.turn.actions.length = 1 ∧ x.chosen? = none := by
  obtain ⟨hnone, a, hturn⟩ := he.turn_eq
  have hlines : x.turn.lines = [Line.ofMessage (.action a)] := by rw [hturn]
  rw [actions_of_lines hlines (b := 6) rfl]
  exact ⟨rfl, hnone⟩

/-- A server that sends no ACTION has none echoed. -/
theorem not_echoes (h : ∀ m, x.heard? = some m → m.keycode ≠ .action) : ¬ x.Echoes := by
  rintro ⟨-, a, ha⟩
  exact h _ ha rfl

/-! ## One action at a time -/

/-- A session that cannot send an action before the one with a number has been confirmed. -/
structure Barred (sequence : UInt8) (s : ClientSession) : Prop where
  settled : s.machine.Settled
  waits : s.machine.state = .idle ∨
    s.machine.state = .clientAwaitsConfirm ∧
      ∃ a, s.machine.pendingAction = some a ∧ a.sequence = sequence

/-- While a confirmation is awaited, no message makes the client write an ACTION, and only that
confirmation ends the wait. -/
theorem Barred.feed {q : UInt8} (h : Barred q s) (hi : message.keycode ≠ .internal)
    (ht : message.keycode ≠ .terminate) (he : message.keycode ≠ .error) :
    (s.feed message).actions = [] ∧
      ((s.feed message).ended = none →
        (∃ accepted, message = .confirm q accepted) ∨ Barred q (s.feed message).session) := by
  have hset := settled_feed h.settled message
  obtain ⟨t, hfeed, hf⟩ : ∃ t, s.feed message = t ∧ Fed s message t := ⟨_, rfl, feed_fed h.settled ht he⟩
  rw [hfeed] at hset ⊢
  cases hf with
  | advanced hs hidle =>
    rcases h.waits with hs' | ⟨hs', -⟩
    · exact absurd (hidle hs') hi
    · exact absurd hs' hs.2
  | asked hne hc =>
    obtain ⟨hs', a, ha, rfl⟩ := h.waits.resolve_left hne
    obtain ⟨b, accepted, hb, hm⟩ := hc hs'
    obtain rfl : a = b := Option.some.inj (ha.symm.trans hb)
    exact ⟨rfl, fun _ => Or.inl ⟨accepted, hm⟩⟩
  | sent hs =>
    rcases h.waits with hs' | ⟨hs', -⟩ <;> rw [hs] at hs' <;> cases hs'
  | kept => exact ⟨rfl, fun _ => Or.inr ⟨hset, h.waits⟩⟩
  | refused => exact ⟨actions_giveUp _ _, by simp [giveUp, finish]⟩

/-- The same holds of any input. -/
theorem Barred.step {q : UInt8} (h : Barred q x.session) :
    x.turn.actions = [] ∧ (x.turn.ended = none → x.Confirms q ∨ Barred q x.turn.session) := by
  obtain ⟨s, input⟩ := x
  have hset : (Moment.turn ⟨s, input⟩).session.machine.Settled := settled_react h.settled input
  obtain ⟨t, ht, hr⟩ : ∃ t, Moment.turn ⟨s, input⟩ = t ∧ Reaction s input t :=
    ⟨_, rfl, react_reaction s input⟩
  rw [ht] at hset ⊢
  cases hr with
  | elapsed => exact ⟨rfl, fun _ => Or.inr h⟩
  | closed => exact ⟨rfl, by simp [finish]⟩
  | unreadable => exact ⟨actions_giveUp _ _, by simp [giveUp, finish]⟩
  | farewell => exact ⟨rfl, by simp [finish]⟩
  | error => exact ⟨rfl, by simp [finish]⟩
  | heard hd hterminate herror =>
    obtain ⟨hnone, hnext⟩ := Barred.feed h (keycode_of_message? hd) hterminate herror
    refine ⟨hnone, fun he => (hnext he).imp_left ?_⟩
    rintro ⟨accepted, rfl⟩
    exact ⟨accepted, hd⟩
  | running => exact ⟨rfl, fun _ => Or.inr h⟩
  | stopped =>
    rw [actions_of_lines (m := .terminate) rfl (b := 9) rfl]
    exact ⟨rfl, fun _ => Or.inr ⟨hset, Or.inl rfl⟩⟩
  | already _ _ hs' =>
    refine ⟨rfl, fun _ => Or.inr ⟨hset, ?_⟩⟩
    rcases hs' with rfl | rfl <;> exact h.waits
  | posted => exact ⟨rfl, fun _ => Or.inr ⟨hset, by simpa using h.waits⟩⟩
  | unposted => exact ⟨rfl, fun _ => Or.inr h⟩
  | @acted request a ho ha =>
    have hw : Barred q ({ s.withdraw with sequence := s.sequence.next.2 } : ClientSession) :=
      ⟨h.settled, h.waits⟩
    have hinternal : (Message.action a).keycode ≠ .internal := by simp [Message.action]
    obtain ⟨hnone, hnext⟩ := hw.feed hinternal (by simp [Message.action]) (by simp [Message.action])
    refine ⟨hnone, fun he => Or.inr ((hnext he).resolve_left ?_)⟩
    rintro ⟨accepted, hm⟩
    simp [Message.action, Message.confirm] at hm

/-- Before the next ACTION is written, the last one has been confirmed. -/
theorem Barred.run {q : UInt8} (h : Barred q s) (hr : s.moments inputs = before ++ x :: after)
    (hx : x.turn.actions ≠ []) : ∃ z ∈ before, z.Confirms q := by
  have hstep (xs : List Moment) (y : Moment) (hy : (∃ z ∈ xs, z.Confirms q) ∨ Barred q y.session)
      (he : y.turn.ended = none) :
      (∃ z ∈ xs ++ [y], z.Confirms q) ∨ Barred q y.turn.session := by
    rcases hy with ⟨z, hz, hc⟩ | hb
    · exact Or.inl ⟨z, List.mem_append_left _ hz, hc⟩
    · rcases hb.step.2 he with hc | hb
      · exact Or.inl ⟨y, by simp, hc⟩
      · exact Or.inr hb
  have hrun := moments_induction (I := fun xs s => (∃ z ∈ xs, z.Confirms q) ∨ Barred q s) []
    (Or.inr h) hr fun xs y _ => hstep xs y
  rcases hrun with hc | hb
  · simpa using hc
  · exact absurd hb.step.1 hx

/-- Handing a message to the machine writes one ACTION at most, and bars the session. -/
theorem barred_of_feed (h : s.machine.Settled) (ht : message.keycode ≠ .terminate)
    (he : message.keycode ≠ .error) (hne : (s.feed message).actions ≠ []) :
    ∃ a, (s.feed message).actions = [.action a] ∧ (s.feed message).ended = none ∧
      Barred a.sequence (s.feed message).session := by
  have hset := settled_feed h message
  obtain ⟨t, hfeed, hf⟩ : ∃ t, s.feed message = t ∧ Fed s message t := ⟨_, rfl, feed_fed h ht he⟩
  rw [hfeed] at hset hne ⊢
  cases hf with
  | advanced hs hi hb hk => exact absurd (by rw [actions_of_lines rfl hb, if_neg hk]) hne
  | asked => exact absurd rfl hne
  | @sent hs a hm =>
    refine ⟨a, ?_, rfl, hset, Or.inr ⟨rfl, a, rfl, rfl⟩⟩
    rw [actions_of_lines (m := .action a) rfl (b := 6) rfl]
    rfl
  | kept => exact absurd rfl hne
  | refused => exact absurd (actions_giveUp _ _) hne

/-- A client that has written an ACTION awaits its confirmation. -/
theorem barred_of_writes (h : x.session.machine.Settled) (hne : x.turn.actions ≠ []) :
    ∃ a, x.turn.actions = [.action a] ∧ x.turn.ended = none ∧ Barred a.sequence x.turn.session := by
  obtain ⟨s, input⟩ := x
  obtain ⟨t, ht, hr⟩ : ∃ t, Moment.turn ⟨s, input⟩ = t ∧ Reaction s input t :=
    ⟨_, rfl, react_reaction s input⟩
  rw [ht] at hne ⊢
  cases hr with
  | heard hd hterminate herror => exact barred_of_feed h hterminate herror hne
  | @acted request a =>
    exact barred_of_feed (s := { s.withdraw with sequence := s.sequence.next.2 }) h
      (by simp [Message.action]) (by simp [Message.action]) hne
  | unreadable => exact absurd (actions_giveUp _ _) hne
  | stopped => exact absurd (actions_of_lines (m := .terminate) rfl (b := 9) rfl) hne
  | _ => exact absurd rfl hne

/-! ## All runs -/

theorem tracked_opening (version : String) (login : Login) :
    Tracked 0 (make version login).opening.session := by
  rw [opening_make]
  exact ⟨⟨by simp, rfl, by simp, by simp⟩, by simp, rfl⟩

/-- **The user's actions.** Take any client session once it has opened the conversation, and anything
that arrives, that is posted and that it looks at, in any order. At all times the ACTIONs it has
written are the actions it has taken from its user, each once and in order, numbered from zero by their
lowest byte, exactly if the server has never had an ACTION echoed. And whether or not it has: at each
moment one ACTION is written at most, and before another one is written the server has confirmed its
number. -/
theorem actions_of_user (version : String) (login : Login) (inputs : List Input) :
    ((∀ before after, run version login inputs = before ++ after → AsChosen 0 before) ↔
        ∀ x ∈ run version login inputs, ¬ x.Echoes) ∧
      ∀ before x after, run version login inputs = before ++ x :: after → x.turn.actions ≠ [] →
        ∃ a, x.turn.actions = [.action a] ∧
          ∀ between y later, after = between ++ y :: later → y.turn.actions ≠ [] →
            ∃ z ∈ between, z.Confirms a.sequence := by
  have hstart := tracked_opening version login
  have hsettled (before : List Moment) (x : Moment) (after : List Moment)
      (hr : run version login inputs = before ++ x :: after) :=
    moments_split (P := fun s => s.machine.Settled)
      (fun x hx _ => settled_react hx x.input) hstart.settled hr
  refine ⟨⟨?_, ?_⟩, ?_⟩
  · intro h x hx he
    obtain ⟨before, after, hr⟩ := List.append_of_mem hx
    have hbefore : AsChosen 0 before := h before (x :: after) hr
    have hboth : AsChosen 0 (before ++ [x]) := h (before ++ [x]) after (by simp [hr])
    -- The echo adds an ACTION to what is written and nothing to what is chosen.
    obtain ⟨hone, hnone⟩ := he.writes
    have hlength := congrArg List.length hbefore
    have hlength' := congrArg List.length hboth
    simp [actions, hnone] at hlength hlength'
    omega
  · intro h before after hr
    refine hstart.asChosen hr fun x hx => h x ?_
    rw [hr]
    exact List.mem_append_left _ hx
  · intro before x after hr hne
    obtain ⟨hset, rest, hafter⟩ := hsettled before x after hr
    obtain ⟨a, ha, -, hb⟩ := barred_of_writes hset hne
    refine ⟨a, ha, ?_⟩
    intro between y later hsplit hy
    exact hb.run (hafter.symm.trans hsplit) hy

/-- A server says these messages. -/
def saying (ms : List Message) : List Input :=
  ms.map fun m => .arrive (.frame (.line (Line.body m)))

/-- Ada logs in and turns on the first light: her client sends one ACTION, with the number zero. -/
theorem actions_of_user_ada :
    actions (run "1" { username := "ada", password := "byron" }
        (saying [.version "1", .challenge [], .initial Home.empty.snapshot] ++
          [.post 0 (some (.act .light 0 0 [])), .take])) =
      [.action { sequence := 0, kind := 0, index := 0, opcode := 0, params := [] }] := by
  generalize hr : run "1" { username := "ada", password := "byron" } _ = xs
  have hquiet : xs.all (fun x => x.heard?.all fun m => m.keycode ≠ .action) = true := by
    rw [← hr]
    decide +kernel
  have hchosen : xs.filterMap Moment.chosen? = [.act .light 0 0 []] := by
    rw [← hr]
    decide +kernel
  have hecho (x : Moment) (hx : x ∈ xs) : ¬ x.Echoes := by
    refine not_echoes fun m hm => ?_
    have h := List.all_eq_true.1 hquiet x hx
    simpa [hm] using h
  have h : AsChosen 0 xs := by
    rw [← hr] at hecho ⊢
    exact (actions_of_user "1" _ _).1.2 hecho _ [] (List.append_nil _).symm
  rw [AsChosen, hchosen] at h
  simpa [Request.toAction?, Kind.code] using h

/-- A server that asks a client for an action gets one, though Ada has chosen nothing. -/
theorem action_echoed :
    ¬ AsChosen 0 (run "1" { username := "ada", password := "byron" }
      (saying [.version "1", .challenge [], .initial Home.empty.snapshot,
        .action { sequence := 7, kind := 0, index := 0, opcode := 0, params := [] }])) := by
  generalize hr : run "1" { username := "ada", password := "byron" } _ = xs
  have hchosen : xs.filterMap Moment.chosen? = [] := by
    rw [← hr]
    decide +kernel
  have hlast : xs.getLast?.any (fun x => !x.turn.actions.isEmpty) = true := by
    rw [← hr]
    decide +kernel
  obtain ⟨x, hx, hwrites⟩ := Option.any_eq_true _ _ |>.1 hlast
  intro h
  rw [AsChosen, hchosen, List.mapIdx_nil, List.map_eq_nil_iff, actions, List.flatMap_eq_nil_iff] at h
  simp [h x (List.mem_of_getLast? hx)] at hwrites

end ClientSession

end HomeControl

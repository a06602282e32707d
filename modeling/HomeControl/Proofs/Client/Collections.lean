import HomeControl.Client.Participant
import HomeControl.Proofs.Client.Actions
import HomeControl.Proofs.Client.Farewell

/-!
# The collections of a client session

Whoever runs the collections of a session only hears of their starts and withdrawals. These follow the
machine (`collection_follows_machine`): while an action may be sent, the collection that was started
last is open and is about the present mirror; at all other times there is none, and whatever an earlier
collection still comes to is ignored. As for the user's actions, the server must not have any ACTION
echoed: that leaves a question open while a confirmation is waited for (`open_after_echo`).

`Turned` says what one input does to the collections, `Ledger` how the events so far agree with the
question that is open, and `Attended` what the inputs so far have made of a session.
-/

namespace HomeControl.ClientSession

open Participant (questionsOf)

variable {s : ClientSession} {input : Input} {inputs : List Input} {message : Message} {n k : Nat}
  {x : Moment} {xs before after : List Moment} {es : List CollectionEvent}

/-- What has been asked of whoever runs the collections. -/
def events (xs : List Moment) : List CollectionEvent :=
  xs.flatMap fun x => x.turn.events

/-- The number of the collection whose answer the session acts on. -/
def Moment.acted? (x : Moment) : Option Nat :=
  match x.input with
  | .take => (x.session.collection.filter fun c => c.posted.isSome).map (·.number)
  | _ => none

theorem acted?_eq_some_iff : x.acted? = some k ↔
    x.input = .take ∧ ∃ c, x.session.collection = some c ∧ c.posted.isSome ∧ c.number = k := by
  obtain ⟨s, input⟩ := x
  cases input <;> simp [Moment.acted?, and_assoc]

theorem events_append (xs ys : List Moment) : events (xs ++ ys) = events xs ++ events ys :=
  List.flatMap_append

theorem events_concat (xs : List Moment) (x : Moment) :
    events (xs ++ [x]) = events xs ++ x.turn.events := by
  simp [events]

theorem mem_questionsOf {home : Home} : (k, home) ∈ questionsOf es ↔ .started k home ∈ es := by
  simp only [questionsOf, List.mem_filterMap]
  constructor
  · rintro ⟨e, he, hq⟩
    cases e with
    | started number asked => cases hq; exact he
    | withdrawn number => cases hq
  · exact fun he => ⟨_, he, rfl⟩

theorem questionsOf_append (es es' : List CollectionEvent) :
    questionsOf (es ++ es') = questionsOf es ++ questionsOf es' :=
  List.filterMap_append

/-- The question that is open: its number and the home it is about. -/
def question? (s : ClientSession) : Option (Nat × Home) :=
  s.collection.map fun c => (c.number, c.home)

theorem question?_eq_some_iff {home : Home} : s.question? = some (k, home) ↔
    ∃ c, s.collection = some c ∧ c.number = k ∧ c.home = home := by
  simp [question?]

theorem question?_of_collection {c : Collection} (hc : s.collection = some c) :
    s.question? = some (c.number, c.home) := by
  rw [question?, hc, Option.map_some]

/-- To withdraw is to withdraw the open question, if there is one. -/
theorem withdrawal_eq (s : ClientSession) :
    s.withdrawal = s.question?.toList.map fun q => .withdrawn q.1 := by
  unfold withdrawal question?
  cases s.collection <;> rfl

/-! ## What an input does to the collections -/

/-- What an input does to the collections, if the session goes on. -/
inductive Turned (s : ClientSession) (input : Input) (t : ClientTurn) : Prop where
  /-- Nothing. -/
  | kept (hc : t.session.collection = s.collection) (hn : t.session.started = s.started)
      (he : t.events = [])
      (hm : t.session.machine = s.machine ∨ t.session.machine.state ≠ .serverAwaitsAction)
  /-- The open one is answered. -/
  | answered {c : Collection} {request : Option Request} (hi : input = .post c.number request)
      (hs : s.collection = some c)
      (hc : t.session.collection = some { c with posted := some request })
      (hn : t.session.started = s.started) (he : t.events = [])
      (hm : t.session.machine = s.machine)
  /-- The open one is withdrawn, and no action may be sent. -/
  | dropped (hc : t.session.collection = none) (hn : t.session.started = s.started)
      (he : t.events = s.withdrawal) (hm : t.session.machine.state ≠ .serverAwaitsAction)
  /-- A new one is started about the mirror, and the open one is withdrawn. -/
  | renewed {home : Home} (hc : t.session.collection = some { number := s.started, home })
      (hn : t.session.started = s.started + 1) (he : t.events = .started s.started home :: s.withdrawal)
      (hs : t.session.machine.state = .serverAwaitsAction) (hm : t.session.machine.home = some home)

/-- Unless the user is to be asked, a session that goes on is left as it is by what the machine says. -/
theorem dispatch_quiet {output : Option Message} (he : (s.dispatch output).ended = none)
    (hq : ∀ m, output = some m → m.keycode ≠ .waitUserInput) :
    (s.dispatch output).session = s ∧ (s.dispatch output).events = [] := by
  cases output with
  | none => exact ⟨rfl, rfl⟩
  | some m =>
    have hk := hq m rfl
    unfold dispatch at he ⊢
    simp only [hk, if_false] at he ⊢
    split at he
    · cases he
    · split at he
      · cases he
      · simp_all

/-- Handing a message to the machine starts a collection if the user is to be asked, and otherwise
leaves the collections alone. -/
theorem turned_feed (h : s.machine.Settled) (he : (s.feed message).ended = none) :
    Turned s input (s.feed message) := by
  obtain ⟨m, output, hout⟩ : ∃ m output, s.machine.process message = (m, output) := ⟨_, _, rfl⟩
  have ho : ClientMachine.Outcome s.machine message (m, output) :=
    hout ▸ ClientMachine.process_outcome h message
  have hasks := ho.asks
  have hset := ho.settled h
  have hfeed : s.feed message = ({ s with machine := m } : ClientSession).dispatch output := by
    simp only [feed, hout]
  rw [hfeed] at he ⊢
  by_cases hs : m.state = .serverAwaitsAction
  · obtain ⟨request, rfl, hk⟩ := hasks.1 hs
    obtain ⟨home, hhome⟩ : ∃ home, m.home = some home :=
      Option.isSome_iff_exists.1 (hset.home (Or.inl hs))
    have hcollect : ({ s with machine := m } : ClientSession).dispatch (some request) =
        ({ s with machine := m } : ClientSession).collect := if_pos hk
    rw [hcollect]
    refine .renewed ?_ rfl ?_ hs hhome
    · simp [collect, hhome]
    · simp [collect, hhome, withdrawal]
  · have hquiet : ∀ request, output = some request → request.keycode ≠ .waitUserInput :=
      fun request hr hk => hs (hasks.2 ⟨request, hr, hk⟩)
    obtain ⟨hsession, hevents⟩ := dispatch_quiet he hquiet
    refine .kept ?_ ?_ hevents (Or.inr ?_)
    · rw [hsession]
    · rw [hsession]
    · rw [hsession]
      exact hs

/-- An answer that is taken closes its question, and perhaps opens the next. -/
theorem turned_takePosted (h : Tracked n s) (hp : s.terminateSent = true → s.Parted) :
    Turned s input s.takePosted := by
  cases ho : s.offered? with
  | none =>
    rw [takePosted_of_not_offered ho]
    exact .kept rfl rfl rfl (Or.inl rfl)
  | some request =>
    obtain ⟨c, hc, -⟩ := Option.bind_eq_some_iff.1 ho
    -- A session that has said TERMINATE has no question left to be answered.
    have hsent : s.terminateSent = false := by
      rw [Bool.eq_false_iff]
      intro hs
      simp [(hp hs).unasked] at hc
    have hstop : Turned s input
        { s.withdraw.sendTerminate with events := s.withdrawal ++ s.withdraw.sendTerminate.events } := by
      rw [sendTerminate_eq (s := s.withdraw) hsent]
      exact .dropped rfl rfl (by simp [withdrawal]) (by simp)
    rw [takePosted_of_offered ho]
    rcases request with _ | request
    · exact hstop
    cases ha : s.number? request with
    | none =>
      obtain rfl := number?_eq_none.1 ha
      exact hstop
    | some a =>
      have hs : s.machine.state = .serverAwaitsAction := h.asking (by simp [hc])
      rw [act_action (s := s.withdraw) ha,
        feed_action (s := { s.withdraw with sequence := s.withdraw.sequence.next.2 }) hs]
      exact .dropped rfl rfl (List.append_nil _) (by simp)

/-- Whatever comes, a session that goes on has turned in one of these ways. -/
theorem turned_react (h : Tracked n s) (hp : s.terminateSent = true → s.Parted)
    (he : (s.react input).ended = none) : Turned s input (s.react input) := by
  cases input with
  | arrive arrival =>
    obtain ⟨t, ht, hr⟩ : ∃ t, s.react (.arrive arrival) = t ∧ Reaction s (.arrive arrival) t :=
      ⟨_, rfl, react_reaction s _⟩
    rw [ht] at he ⊢
    cases hr with
    | elapsed => exact .kept rfl rfl rfl (Or.inl rfl)
    | closed => cases he
    | unreadable => cases he
    | farewell => cases he
    | error => cases he
    | heard => exact turned_feed h.settled he
    | stopped hi => cases hi
    | already hi => cases hi
  | check running =>
    cases running with
    | true => exact .kept rfl rfl rfl (Or.inl rfl)
    | false =>
      rw [react, obey, if_neg (by simp)]
      cases hs : s.terminateSent with
      | true =>
        rw [sendTerminate_again hs]
        exact .kept rfl rfl rfl (Or.inl rfl)
      | false =>
        rw [sendTerminate_eq hs]
        exact .dropped rfl rfl rfl (by simp)
  | post number request =>
    rcases s.post_cases number request with hs | ⟨c, hc, rfl, hs⟩
    · rw [react, hs]
      exact .kept rfl rfl rfl (Or.inl rfl)
    · rw [react, hs]
      exact .answered rfl hc rfl rfl rfl rfl
  | take => exact turned_takePosted h hp

/-! ## What has been asked so far -/

/-- With these events `n` collections have been started, and all but the open one withdrawn. -/
structure Ledger (es : List CollectionEvent) (n : Nat) (question : Option (Nat × Home)) : Prop where
  numbers : (questionsOf es).map Prod.fst = List.range n
  last : ∀ q, question = some q → (questionsOf es).getLast? = some q
  withdrawn : ∀ k, .withdrawn k ∈ es ↔ k < n ∧ ∀ home, question ≠ some (k, home)

section Ledger

variable {question : Option (Nat × Home)} {home : Home}

theorem ledger_nil : Ledger [] 0 none :=
  ⟨rfl, by simp, by simp⟩

/-- The number of a collection is less than how many have been started. -/
theorem Ledger.started_of_mem (h : Ledger es n question) (hm : .started k home ∈ es) : k < n := by
  have hk : k ∈ (questionsOf es).map Prod.fst :=
    List.mem_map.2 ⟨(k, home), mem_questionsOf.2 hm, rfl⟩
  rw [h.numbers] at hk
  exact List.mem_range.1 hk

theorem Ledger.started_of_open (h : Ledger es n (some (k, home))) : .started k home ∈ es :=
  mem_questionsOf.1 (List.mem_of_getLast? (h.last _ rfl))

/-- With the open collection withdrawn, all of them are. -/
theorem Ledger.drop (h : Ledger es n question) :
    Ledger (es ++ question.toList.map fun q => .withdrawn q.1) n none := by
  -- Withdrawals ask nothing, so only the last field has to be looked at.
  have hquestions : questionsOf (es ++ question.toList.map fun q => .withdrawn q.1) =
      questionsOf es := by
    rw [questionsOf_append]
    cases question <;> simp [questionsOf]
  refine ⟨by rw [hquestions, h.numbers], by simp, ?_⟩
  intro k
  rw [List.mem_append, h.withdrawn]
  constructor
  · rintro (⟨hk, -⟩ | hk)
    · exact ⟨hk, by simp⟩
    · obtain ⟨⟨k', home⟩, hq, hw⟩ := List.mem_map.1 hk
      obtain rfl : k' = k := CollectionEvent.withdrawn.inj hw
      obtain rfl := Option.mem_toList.1 hq
      exact ⟨h.started_of_mem h.started_of_open, by simp⟩
  · rintro ⟨hk, -⟩
    by_cases hopen : ∃ home, question = some (k, home)
    · obtain ⟨home, rfl⟩ := hopen
      exact Or.inr (by simp)
    · exact Or.inl ⟨hk, fun home hq => hopen ⟨home, hq⟩⟩

/-- A new collection takes the place of the open one. -/
theorem Ledger.renew (h : Ledger es n question) (home : Home) :
    Ledger (es ++ .started n home :: question.toList.map fun q => .withdrawn q.1) (n + 1)
      (some (n, home)) := by
  have hquestions : questionsOf (es ++ .started n home :: question.toList.map fun q => .withdrawn q.1) =
      questionsOf es ++ [(n, home)] := by
    rw [questionsOf_append]
    cases question <;> simp [questionsOf]
  refine ⟨?_, ?_, ?_⟩
  · rw [hquestions, List.map_append, h.numbers, List.range_succ]
    rfl
  · intro q hq
    rw [hquestions, List.getLast?_concat, hq]
  · intro k
    have hall := h.drop.withdrawn k
    have hmem : .withdrawn k ∈ es ++ .started n home :: question.toList.map (fun q => .withdrawn q.1) ↔
        k < n := by
      simpa using hall
    rw [hmem]
    constructor
    · intro hk
      refine ⟨by omega, ?_⟩
      intro home' hq
      obtain ⟨rfl, -⟩ := Prod.mk.inj (Option.some.inj hq)
      omega
    · rintro ⟨hk, hne⟩
      have hkn : k ≠ n := by
        rintro rfl
        exact hne home rfl
      omega

end Ledger

/-! ## What the inputs so far have made of a session -/

/-- A session after some inputs. -/
structure Attended (xs : List Moment) (s : ClientSession) : Prop where
  tracked : ∃ n, Tracked n s
  parted : s.terminateSent = true → s.Parted
  /-- While an action may be sent, the user is asked about the present mirror. -/
  waits : s.machine.state = .serverAwaitsAction → s.collection.isSome
  current : ∀ c, s.collection = some c → s.machine.home = some c.home
  ledger : Ledger (events xs) s.started s.question?
  /-- What has been posted to the open collection has been posted under its number. -/
  posted : ∀ c request, s.collection = some c → c.posted = some request →
    ∃ y ∈ xs, y.input = .post c.number request

theorem attended_opening (version : String) (login : Login) :
    Attended [] (make version login).opening.session := by
  have htracked := tracked_opening version login
  rw [opening_make] at htracked ⊢
  exact ⟨⟨0, htracked⟩, by simp, by simp, by simp, ledger_nil, by simp⟩

/-- The collection that is open has been started, about the home that it shows. -/
theorem Attended.started_of_open {c : Collection} (h : Attended xs s) (hc : s.collection = some c) :
    .started c.number c.home ∈ events xs := by
  have hledger := h.ledger
  rw [question?_of_collection hc] at hledger
  exact hledger.started_of_open

/-- However a session turns, its events account for the question that is open. -/
theorem Turned.ledger {t : ClientTurn} (ht : Turned s input t)
    (h : Ledger es s.started s.question?) :
    Ledger (es ++ t.events) t.session.started t.session.question? := by
  cases ht with
  | kept hc hn he =>
    have hquestion : t.session.question? = s.question? := by rw [question?, hc, question?]
    rwa [he, List.append_nil, hn, hquestion]
  | answered hi hs hc hn he =>
    rw [question?_of_collection hs] at h
    rwa [he, List.append_nil, hn, question?_of_collection hc]
  | dropped hc hn he =>
    have hquestion : t.session.question? = none := by rw [question?, hc, Option.map_none]
    rw [he, withdrawal_eq, hn, hquestion]
    exact h.drop
  | @renewed home hc hn he =>
    rw [he, withdrawal_eq, hn, question?_of_collection hc]
    exact h.renew home

/-- A moment without an echo keeps all this. -/
theorem Attended.step (h : Attended xs x.session) (hq : ¬ x.Echoes) (he : x.turn.ended = none) :
    Attended (xs ++ [x]) x.turn.session := by
  obtain ⟨n, hn⟩ := h.tracked
  have htracked := (Tracked.step hn hq).2 he
  have hparted : x.turn.session.terminateSent = true → x.turn.session.Parted :=
    parted_react h.parted he
  have hturned : Turned x.session x.input x.turn := turned_react hn h.parted he
  have hledger := hturned.ledger h.ledger
  rw [← events_concat] at hledger
  cases hturned with
  | kept hc _ _ hm =>
    -- A machine that has moved on without starting a collection has none to move on with.
    refine ⟨⟨_, htracked⟩, hparted, ?_, ?_, hledger, ?_⟩
    · intro hs
      rcases hm with hm | hm
      · rw [hc]
        exact h.waits (hm ▸ hs)
      · exact absurd hs hm
    · intro c hopen
      rcases hm with hm | hm
      · rw [hm]
        exact h.current c (hc ▸ hopen)
      · exact absurd (htracked.asking (by simp [hopen])) hm
    · rw [hc]
      intro c request hopen hposted
      obtain ⟨y, hy, hi⟩ := h.posted c request hopen hposted
      exact ⟨y, List.mem_append_left _ hy, hi⟩
  | @answered c request hi hopen hc _ _ hm =>
    refine ⟨⟨_, htracked⟩, hparted, by simp [hc], ?_, hledger, ?_⟩
    · intro c' hc'
      obtain rfl := Option.some.inj (hc.symm.trans hc')
      rw [hm]
      exact h.current c hopen
    · intro c' request' hc' hposted
      obtain rfl := Option.some.inj (hc.symm.trans hc')
      obtain rfl := Option.some.inj hposted
      exact ⟨x, by simp, hi⟩
  | dropped hc _ _ hm =>
    exact ⟨⟨_, htracked⟩, hparted, fun hs => absurd hs hm, by simp [hc], hledger, by simp [hc]⟩
  | renewed hc _ _ hs hm =>
    refine ⟨⟨_, htracked⟩, hparted, by simp [hc], ?_, hledger, ?_⟩
    · intro c hopen
      obtain rfl := Option.some.inj (hc.symm.trans hopen)
      exact hm
    · intro c request hopen hposted
      obtain rfl := Option.some.inj (hc.symm.trans hopen)
      cases hposted

/-- What has been withdrawn is not acted on. -/
theorem Attended.not_acted (h : Attended xs x.session) (hw : .withdrawn k ∈ events xs) :
    x.acted? ≠ some k := by
  intro hk
  obtain ⟨-, c, hc, -, rfl⟩ := acted?_eq_some_iff.1 hk
  exact ((h.ledger.withdrawn c.number).1 hw).2 c.home (question?_of_collection hc)

/-- What is acted on has been withdrawn. -/
theorem withdrawn_of_acted (hk : x.acted? = some k) : .withdrawn k ∈ x.turn.events := by
  obtain ⟨s, input⟩ := x
  obtain ⟨rfl, c, hc, hposted, rfl⟩ := acted?_eq_some_iff.1 hk
  obtain ⟨request, hr⟩ := Option.isSome_iff_exists.1 hposted
  have ho : s.offered? = some request := Option.bind_eq_some_iff.2 ⟨c, hc, hr⟩
  have hturn : Moment.turn ⟨s, .take⟩ = s.takePosted := rfl
  have hw : .withdrawn c.number ∈ s.withdrawal := by
    simp [withdrawal_eq, question?_of_collection hc]
  rw [hturn, takePosted_of_offered ho]
  exact List.mem_append_left _ hw

theorem toAction?_of_eq_some {request : Request} {q : UInt8} {a : Action}
    (h : request.toAction? q = some a) : request.toAction? a.sequence = some a := by
  cases request with
  | act kind index opcode params =>
    obtain rfl := Option.some.inj h
    rfl
  | terminate => cases h

/-- An ACTION is written for an answer to the open collection, which is about the present mirror. -/
theorem Attended.chosen (h : Attended xs x.session) (hq : ¬ x.Echoes) (hne : x.turn.actions ≠ []) :
    ∃ number home request a, x.acted? = some number ∧ .started number home ∈ events xs ∧
      (∃ y ∈ xs, y.input = .post number (some request)) ∧
      x.session.machine.home = some home ∧ x.turn.session.machine.home = some home ∧
      request.toAction? a.sequence = some a ∧ x.turn.actions = [.action a] := by
  obtain ⟨n, hn⟩ := h.tracked
  have hwritten := (Tracked.step hn hq).1
  obtain ⟨request, hchosen⟩ : ∃ request, x.chosen? = some request := by
    refine Option.ne_none_iff_exists'.1 ?_
    intro hnone
    rw [hnone] at hwritten
    exact hne (List.map_eq_nil_iff.1 hwritten)
  obtain ⟨s, input⟩ := x
  obtain ⟨rfl, ho, hact⟩ := chosen?_eq_some_iff.1 hchosen
  obtain ⟨c, hc, hposted⟩ := Option.bind_eq_some_iff.1 ho
  obtain ⟨a, ha⟩ : ∃ a, s.number? request = some a :=
    Option.ne_none_iff_exists'.1 fun hnone => hact (number?_eq_none.1 hnone)
  have hs : s.machine.state = .serverAwaitsAction := hn.asking (Option.isSome_iff_exists.2 ⟨c, hc⟩)
  have hfeed := feed_action (s := { s.withdraw with sequence := s.withdraw.sequence.next.2 }) hs a
  have hturn : Moment.turn ⟨s, .take⟩ = s.takePosted := rfl
  rw [takePosted_of_offered ho, act_action (s := s.withdraw) ha, hfeed] at hturn
  refine ⟨c.number, c.home, request, a, ?_, h.started_of_open hc, h.posted c _ hc hposted,
    h.current c hc, ?_, toAction?_of_eq_some ha, ?_⟩
  · exact acted?_eq_some_iff.2 ⟨rfl, c, hc, by simp [hposted], rfl⟩
  · rw [hturn]
    exact h.current c hc
  · have hlines : (Moment.turn ⟨s, .take⟩).lines = [Line.ofMessage (.action a)] := by rw [hturn]
    rw [actions_of_lines hlines (b := 6) rfl]
    rfl

/-- An echo leaves the user with a question whose answer cannot be sent. -/
theorem Attended.open_after_echo (h : Attended xs x.session) (he : x.Echoes) :
    x.turn.ended = none ∧ x.turn.session.collection.isSome ∧
      x.turn.session.machine.state = .clientAwaitsConfirm := by
  obtain ⟨-, a, hturn⟩ := he.turn_eq
  have hopen := h.waits he.1
  rw [hturn]
  exact ⟨rfl, hopen, rfl⟩

/-! ## All runs -/

/-- **The collections follow the machine.** Take any client session once it has opened the
conversation, and anything that arrives, that is posted and that it looks at, in any order, as long as
the server has no ACTION echoed. After each input with which the session goes on, its collections have
been numbered as they were started; one is open exactly while the machine waits for an action; the open
one was started last, has not been withdrawn and was given the present mirror; any other has been
withdrawn and will not be acted on. An ACTION is written only to act on the answer that was posted to a
collection about the mirror as it is. No collection is acted on twice. -/
theorem collection_follows_machine (version : String) (login : Login) (inputs : List Input)
    (hquiet : ∀ x ∈ run version login inputs, ¬ x.Echoes) (before after : List Moment) (x : Moment)
    (hr : run version login inputs = before ++ x :: after) :
    (x.turn.ended = none →
      let s := x.turn.session
      let told := events (before ++ [x])
      (questionsOf told).map Prod.fst = List.range s.started ∧
      (s.collection.isSome ↔ s.machine.state = .serverAwaitsAction) ∧
      (∀ c, s.collection = some c → (questionsOf told).getLast? = some (c.number, c.home) ∧
        .withdrawn c.number ∉ told ∧ s.machine.home = some c.home) ∧
      ∀ number home, .started number home ∈ told →
        (∀ c, s.collection = some c → c.number ≠ number) →
        .withdrawn number ∈ told ∧ ∀ y ∈ after, y.acted? ≠ some number) ∧
    (x.turn.actions ≠ [] → ∃ number home request a,
      x.acted? = some number ∧ .started number home ∈ events before ∧
      (∃ y ∈ before, y.input = .post number (some request)) ∧
      x.session.machine.home = some home ∧ x.turn.session.machine.home = some home ∧
      request.toAction? a.sequence = some a ∧ x.turn.actions = [.action a]) ∧
    ∀ number, x.acted? = some number → ∀ y ∈ after, y.acted? ≠ some number := by
  have hattended (before : List Moment) (x : Moment) (after : List Moment)
      (hr : run version login inputs = before ++ x :: after) : Attended before x.session := by
    refine moments_induction [] (attended_opening version login) hr ?_
    intro xs y hy h he
    exact h.step (hquiet y (hr ▸ List.mem_append_left _ hy)) he
  have hx := hattended before x after hr
  have hecho : ¬ x.Echoes := hquiet x (by simp [hr])
  -- What has been withdrawn by now is not acted on any more.
  have hlater (number : Nat) (hw : .withdrawn number ∈ events (before ++ [x])) :
      ∀ y ∈ after, y.acted? ≠ some number := by
    intro y hy
    obtain ⟨between, later, rfl⟩ := List.append_of_mem hy
    have hy := hattended ((before ++ [x]) ++ between) y later (by simp [hr])
    refine hy.not_acted ?_
    rw [events_append]
    exact List.mem_append_left _ hw
  refine ⟨?_, hx.chosen hecho, ?_⟩
  · intro he
    have h := hx.step hecho he
    obtain ⟨n, hn⟩ := h.tracked
    refine ⟨h.ledger.numbers, ⟨hn.asking, h.waits⟩, ?_, ?_⟩
    · intro c hc
      have hquestion := question?_of_collection hc
      have hopen : .withdrawn c.number ∉ events (before ++ [x]) :=
        fun hw => ((h.ledger.withdrawn _).1 hw).2 c.home hquestion
      exact ⟨h.ledger.last _ hquestion, hopen, h.current c hc⟩
    · intro number home hstarted hother
      have hclosed (home : Home) : x.turn.session.question? ≠ some (number, home) := by
        intro hq
        obtain ⟨c, hc, hk, -⟩ := question?_eq_some_iff.1 hq
        exact hother c hc hk
      have hw := (h.ledger.withdrawn number).2 ⟨h.ledger.started_of_mem hstarted, hclosed⟩
      exact ⟨hw, hlater number hw⟩
  · intro number hacted
    refine hlater number ?_
    rw [events_concat]
    exact List.mem_append_right _ (withdrawn_of_acted hacted)

/-- Ada is asked about her lamp, and again when someone else has turned it on. Her client acts on her
second answer, not on her first. -/
theorem collection_follows_machine_ada :
    let lamp : Device := { kind := .light, name := "desk lamp", state := 0, params := [0] }
    let lit : Home := { lights := [{ lamp with state := 1 }] }
    ∃ before x, run "1" { username := "ada", password := "byron" }
        (saying [.version "1", .challenge [], .initial ({ lights := [lamp] } : Home).snapshot,
            .update ⟨0, 0, 0, 0, []⟩] ++
          [.post 0 (some (.act .light 0 0 [])), .post 1 (some (.act .light 0 2 [40])), .take]) =
        before ++ [x] ∧
      x.acted? = some 1 ∧ .started 1 lit ∈ events before ∧
      x.turn.actions = [.action ⟨0, 0, 0, 2, [40]⟩] := by
  intro lamp lit
  obtain ⟨xs, hxs⟩ : ∃ xs, run "1" { username := "ada", password := "byron" }
      (saying [.version "1", .challenge [], .initial ({ lights := [lamp] } : Home).snapshot,
          .update ⟨0, 0, 0, 0, []⟩] ++
        [.post 0 (some (.act .light 0 0 [])), .post 1 (some (.act .light 0 2 [40])), .take]) = xs :=
    ⟨_, rfl⟩
  have hquiet : xs.all (fun x => x.heard?.all fun m => m.keycode ≠ .action) = true := by
    rw [← hxs]
    decide +kernel
  have hlast : xs.getLast?.any (fun x => x.session.machine.home = some lit ∧ x.acted? = some 1 ∧
      x.turn.actions = [.action ⟨0, 0, 0, 2, [40]⟩]) = true := by
    rw [← hxs]
    decide +kernel
  have hecho (x : Moment) (hx : x ∈ xs) : ¬ x.Echoes := by
    refine not_echoes fun m hm => ?_
    have h := List.all_eq_true.1 hquiet x hx
    simpa [hm] using h
  obtain ⟨x, hx, hfacts⟩ := Option.any_eq_true _ _ |>.1 hlast
  obtain ⟨hmirror, hacted, hactions⟩ := of_decide_eq_true hfacts
  obtain ⟨before, rfl⟩ := List.getLast?_eq_some_iff.1 hx
  rw [← hxs] at hecho
  obtain ⟨-, hchosen, -⟩ := collection_follows_machine "1" _ _ hecho before [] x hxs
  obtain ⟨number, home, request, a, hnumber, hstarted, -, hhome, -⟩ := hchosen (by simp [hactions])
  obtain rfl : 1 = number := Option.some.inj (hacted.symm.trans hnumber)
  obtain rfl : lit = home := Option.some.inj (hmirror.symm.trans hhome)
  exact ⟨before, x, hxs, hacted, hstarted, hactions⟩

end HomeControl.ClientSession

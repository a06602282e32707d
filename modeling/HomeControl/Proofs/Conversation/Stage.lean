import HomeControl.Login.Challenge
import HomeControl.Proofs.Home.Order
import HomeControl.Proofs.Login.Users
import HomeControl.Proofs.Machine.Client
import HomeControl.Proofs.Server.Sound

/-!
# Stages of a conversation

How far a client that knows its login and the server's machine for it have come, together with what
is in flight between them. `Stage.answer` is what happens when the server's machine takes the next
message, `Stage.hear` when the client's does; either way the two are at a stage again, and neither
has anything to object to.

Every stage tells what the client's mirror will be once it has heard all that is in flight to it, its
*target*.
-/

namespace HomeControl

/-- A message whose line a reader takes. -/
def Line.Fits (m : Message) : Prop :=
  (Line.body m).length ≤ maxLineLength

/-- A line has two digits for each byte, and two for the keycode. -/
theorem Line.fits_iff {m : Message} {b : UInt8} (hb : m.keycode.wire? = some b) :
    Line.Fits m ↔ m.payload.length < 32768 := by
  rw [Line.Fits, Line.length_body hb, maxLineLength]
  omega

/-- A message that is neither an ERROR nor a farewell and whose line a reader takes. -/
structure Message.Plain (m : Message) : Prop where
  wire : ∃ b, m.keycode.wire? = some b
  noError : m.keycode ≠ .error
  noFarewell : m.keycode ≠ .terminate
  fits : Line.Fits m

theorem Message.Plain.endAfter {m : Message} (h : m.Plain) :
    ServerMachine.endAfter (some m) = none := by
  have hne : m ≠ .errorAuth := by
    rintro rfl
    exact h.noError rfl
  simp [ServerMachine.endAfter, h.noFarewell, hne]

/-- A login with which a client is let in. -/
structure Login.Works (login : Login) (users : Users) : Prop where
  known : users.secret? login.username = some (deriveSecret login.password)
  plain : ';' ∉ login.username.toList
  short : ∀ challenge, Line.Fits (.response (login.responseBody challenge))

/-- How far a conversation has come: the two machines, the messages in flight to the server and to
the client, and the client's target. Actions of the user satisfy `Args`. -/
inductive Stage (Args : Bytes → Prop) (sm : ServerMachine) (cm : ClientMachine) :
    List Message → List Message → Home → Prop where
  /-- The client has said PING. -/
  | opened (hs : sm.state = .idle) (hc : cm.state = .clientAwaitsVersion) (target : Home) :
      Stage Args sm cm [.ping] [] target
  /-- The server has offered its version. -/
  | greeted (hs : sm.state = .serverAwaitsVersion) (hc : cm.state = .clientAwaitsVersion)
      (target : Home) : Stage Args sm cm [] [.version cm.version] target
  /-- The client has offered its own. -/
  | offered (hs : sm.state = .serverAwaitsVersion) (hc : cm.state = .clientAwaitsChallenge)
      (target : Home) : Stage Args sm cm [.version sm.version] [] target
  /-- The server has sent a challenge. -/
  | challenged {c : Bytes} (hs : sm.state = .serverAwaitsResponse) (hh : sm.challenge = some c)
      (hc : cm.state = .clientAwaitsChallenge) (target : Home) :
      Stage Args sm cm [] [.challenge c] target
  /-- The client has answered it. -/
  | answered {c : Bytes} (hs : sm.state = .serverAwaitsResponse) (hh : sm.challenge = some c)
      (hc : cm.state = .clientAwaitsInit) (target : Home) :
      Stage Args sm cm [.response (cm.login.responseBody c)] [] target
  /-- The server has handed over the home, and maybe some updates. -/
  | admitted {snapshot : Bytes} {base : Home} {as : List Action}
      (hs : sm.state = .serverAwaitsAction) (hc : cm.state = .clientAwaitsInit)
      (hb : Home.ofSnapshot snapshot = .ok base) :
      Stage Args sm cm [] (.initial snapshot :: as.map .update) (base.replay as)
  /-- The client has a home and nothing to confirm. -/
  | resting {mirror : Home} {as : List Action} (hs : sm.state = .serverAwaitsAction)
      (hc : cm.state = .serverAwaitsAction) (hm : cm.home = some mirror) :
      Stage Args sm cm [] (as.map .update) (mirror.replay as)
  /-- The client has asked for an action. -/
  | asking {mirror : Home} {a : Action} {as : List Action} (hs : sm.state = .serverAwaitsAction)
      (hc : cm.state = .clientAwaitsConfirm) (hm : cm.home = some mirror)
      (ha : cm.pendingAction = some a) (hargs : Args a.params) :
      Stage Args sm cm [.action a] (as.map .update) (mirror.replay as)
  /-- The server has settled it. -/
  | confirming {mirror : Home} {a : Action} {accepted : Bool} {as bs : List Action}
      (hs : sm.state = .serverAwaitsAction) (hc : cm.state = .clientAwaitsConfirm)
      (hm : cm.home = some mirror) (ha : cm.pendingAction = some a) :
      Stage Args sm cm [] (as.map .update ++ .confirm a.sequence accepted :: bs.map .update)
        (((mirror.replay as).replay (if accepted then [a] else [])).replay bs)

/-- The steps that a message to the server brings about, itself included. -/
def Keycode.upWeight : Keycode → Nat
  | ping => 7
  | version => 5
  | response => 3
  | _ => 2

/-- The steps that a message to the client brings about, itself included. -/
def Keycode.downWeight : Keycode → Nat
  | version => 6
  | challenge => 4
  | _ => 1

/-- The weights of messages taken together. -/
def total (weight : Keycode → Nat) : List Message → Nat
  | [] => 0
  | m :: ms => weight m.keycode + total weight ms

theorem total_append (weight : Keycode → Nat) (ms ms' : List Message) :
    total weight (ms ++ ms') = total weight ms + total weight ms' := by
  induction ms with
  | nil => rw [List.nil_append, total, Nat.zero_add]
  | cons m ms ih => rw [List.cons_append, total, total, ih, Nat.add_assoc]

/-- The steps that messages in flight bring about. -/
def weight (ups downs : List Message) : Nat :=
  total Keycode.upWeight ups + total Keycode.downWeight downs

/-- What a client makes of a message: it says nothing, or asks its user, or says something. -/
inductive Reaction (cm cm' : ClientMachine) : Option Message → List Message → Prop where
  /-- It goes on waiting. -/
  | quiet (h : cm'.state = cm.state) : Reaction cm cm' none []
  /-- It asks its user. -/
  | asks (h : cm'.state = .serverAwaitsAction) : Reaction cm cm' (some .waitUserInput) []
  /-- It says something. -/
  | replies {message : Message} {b : UInt8} (hb : message.keycode.wire? = some b)
      (he : message.keycode ≠ .error) (h : cm.state ≠ .serverAwaitsAction)
      (h' : cm'.state ≠ .serverAwaitsAction) : Reaction cm cm' (some message) [message]

namespace Stage

variable {Args : Bytes → Prop} {sm : ServerMachine} {cm : ClientMachine} {home target : Home}
  {fresh : Bytes} {message : Message} {ups downs : List Message}

/-! ## The server's next message -/

theorem plain_of {b : UInt8} (hb : message.keycode.wire? = some b)
    (ht : message.keycode ≠ .terminate) (he : message.keycode ≠ .error)
    (hf : message.payload.length < 32768) : message.Plain := by
  exact ⟨⟨b, hb⟩, he, ht, (Line.fits_iff hb).2 hf⟩

/-- A version that fits a line does so for both sides. -/
theorem length_of_fits_version {version : String} (h : Line.Fits (.version version)) :
    (Message.version version).payload.length < 32768 :=
  (Line.fits_iff (b := 1) rfl).1 h

/-- The target after the server has taken a message. -/
def retarget (sm : ServerMachine) (home : Home) (message : Message) (target : Home) : Home :=
  if sm.state = .serverAwaitsResponse then home.shown
  else target.replay (sm.accepts? home message).toList

/-- What the server's machine comes to when it takes a message: its reply and the stage after it. -/
structure Replied (Args : Bytes → Prop) (sm : ServerMachine) (cm : ClientMachine)
    (message reply : Message) (ups downs : List Message) (target : Home) : Prop where
  plain : reply.Plain
  /-- The reply brings about less than what it replies to. -/
  less : reply.keycode.downWeight < message.keycode.upWeight
  stage : Stage Args sm cm ups (downs ++ [reply]) target

/-- A PING is answered with the version. -/
theorem answer_ping (hs : sm.state = .idle) (hc : cm.state = .clientAwaitsVersion)
    (hversion : sm.version = cm.version) (hoffer : Line.Fits (.version sm.version)) (target : Home) :
    ∃ reply, (sm.process home fresh .ping).reply = some reply ∧
      Replied Args (sm.process home fresh .ping).machine cm .ping reply [] [] target := by
  rw [ServerMachine.process_ping hs]
  refine ⟨.version sm.version, rfl, plain_of (b := 1) rfl (by simp [Message.version])
    (by simp [Message.version]) (length_of_fits_version hoffer), Nat.le_of_ble_eq_true rfl, ?_⟩
  rw [hversion]
  exact .greeted rfl hc _

/-- The right version is answered with a challenge. -/
theorem answer_version (hs : sm.state = .serverAwaitsVersion) (hc : cm.state = .clientAwaitsChallenge)
    (hfresh : fresh.length = challengeLength) (target : Home) :
    ∃ reply, (sm.process home fresh (.version sm.version)).reply = some reply ∧
      Replied Args (sm.process home fresh (.version sm.version)).machine cm (.version sm.version) reply
        [] [] target := by
  have ht : (Message.version sm.version).text? = some sm.version := Utf8.decode?_encode sm.version
  rw [ServerMachine.process_version hs rfl ht]
  refine ⟨.challenge fresh, rfl, plain_of (b := 3) rfl (by simp [Message.challenge])
    (by simp [Message.challenge]) ?_, Nat.le_of_ble_eq_true rfl, .challenged rfl rfl hc _⟩
  show fresh.length < 32768
  rw [hfresh, challengeLength]
  omega

/-- The right response is answered with the home, which is the target from then on. -/
theorem answer_response {c : Bytes} (hs : sm.state = .serverAwaitsResponse) (hh : sm.challenge = some c)
    (hc : cm.state = .clientAwaitsInit) (hlogin : cm.login.Works sm.users) (hvalid : home.Valid) :
    ∃ reply, (sm.process home fresh (.response (cm.login.responseBody c))).reply = some reply ∧
      Replied Args (sm.process home fresh (.response (cm.login.responseBody c))).machine cm
        (.response (cm.login.responseBody c)) reply [] [] home.shown := by
  have hv := Users.verify_responseBody hlogin.known hlogin.plain c
  rw [ServerMachine.process_response hs hh rfl hv]
  refine ⟨.initial home.snapshot, rfl, plain_of (b := 5) rfl (by simp [Message.initial])
    (by simp [Message.initial]) ?_, Nat.le_of_ble_eq_true rfl,
    @admitted _ _ _ _ _ [] rfl hc (Home.ofSnapshot_snapshot hvalid)⟩
  show home.snapshot.length < 32768
  have hle := Home.length_snapshot_le hvalid
  omega

/-- An action is answered with its confirmation, and the target takes part in it if it is accepted. -/
theorem answer_action {mirror : Home} {a : Action} {as : List Action} (hset : sm.Settled)
    (hs : sm.state = .serverAwaitsAction) (hc : cm.state = .clientAwaitsConfirm)
    (hm : cm.home = some mirror) (ha : cm.pendingAction = some a) :
    ∃ reply, (sm.process home fresh (.action a)).reply = some reply ∧
      Replied Args (sm.process home fresh (.action a)).machine cm (.action a) reply [] (as.map .update)
        ((mirror.replay as).replay (sm.accepts? home (.action a)).toList) := by
  have hpa : (Message.action a).parseAction = .ok a := Message.parseAction_action a
  have hplain : ∀ accepted, (Message.confirm a.sequence accepted).Plain := fun _ =>
    plain_of (b := 7) rfl (by simp [Message.confirm]) (by simp [Message.confirm])
      (by simp [Message.confirm])
  have hless : ∀ accepted, (Message.confirm a.sequence accepted).keycode.downWeight <
      (Message.action a).keycode.upWeight := fun _ => Nat.lt_add_one 1
  cases hh : home.apply a with
  | ok home' =>
    have hacc : sm.accepts? home (.action a) = some a :=
      Hub.accepts?_eq_some.2 ⟨hs, hpa, home', hh⟩
    rw [ServerMachine.process_accepted hset hs rfl hpa hh, hacc]
    exact ⟨.confirm a.sequence true, rfl, hplain true, hless true,
      @confirming _ _ _ _ _ true as [] hs hc hm ha⟩
  | error e =>
    have hacc : sm.accepts? home (.action a) = none := by
      refine Option.eq_none_iff_forall_ne_some.2 fun a' hacc => ?_
      obtain ⟨-, hpa', home', hh'⟩ := Hub.accepts?_eq_some.1 hacc
      obtain rfl := Except.ok.inj (hpa.symm.trans hpa')
      rw [hh] at hh'
      cases hh'
    rw [ServerMachine.process_denied hset hs rfl hpa hh, hacc]
    exact ⟨.confirm a.sequence false, rfl, hplain false, hless false,
      @confirming _ _ _ _ _ false as [] hs hc hm ha⟩

/-- The server's machine has a plain reply to whatever comes next, and the two are at a stage again. -/
theorem answer (h : Stage Args sm cm (message :: ups) downs target) (hset : sm.Settled)
    (hversion : sm.version = cm.version) (hoffer : Line.Fits (.version sm.version))
    (hlogin : cm.login.Works sm.users) (hvalid : home.Valid) (hfresh : fresh.length = challengeLength) :
    ∃ reply, (sm.process home fresh message).reply = some reply ∧
      Replied Args (sm.process home fresh message).machine cm message reply ups downs
        (retarget sm home message target) := by
  cases h with
  | opened hs hc => exact answer_ping hs hc hversion hoffer _
  | offered hs hc => exact answer_version hs hc hfresh _
  | answered hs hh hc =>
    rw [retarget, if_pos hs]
    exact answer_response hs hh hc hlogin hvalid
  | asking hs hc hm ha =>
    rw [retarget, if_neg (by simp [hs])]
    exact answer_action hset hs hc hm ha

/-! ## The client's next message -/

/-- What the client's machine comes to when it hears a message. -/
structure Heard (Args : Bytes → Prop) (sm : ServerMachine) (cm cm' : ClientMachine)
    (message : Message) (output : Option Message) (ups downs : List Message) (target : Home)
    (said : List Message) : Prop where
  version : cm'.version = cm.version
  login : cm'.login = cm.login
  response : cm'.pendingResponse = none
  pending : cm'.state ≠ .clientAwaitsConfirm → cm'.pendingAction = none
  reaction : Reaction cm cm' output said
  /-- What it says brings about less than what it has heard. -/
  less : total Keycode.upWeight said < message.keycode.downWeight
  stage : Stage Args sm cm' (ups ++ said) downs target

/-- The mirror does not look at the numbers of updates. -/
theorem mirror_update {mirror : Home} (hm : cm.home = some mirror) (a : Action) :
    (cm.mirror { a with sequence := 0 }).home = some (mirror.applyOrKeep a) := by
  rw [ClientMachine.mirror, hm, Option.map_some, Home.applyOrKeep_sequence]

/-- An update reaches a client that rests: it follows, and asks its user anew. -/
theorem hear_update_resting {mirror : Home} {as : List Action} (a : Action)
    (hs : sm.state = .serverAwaitsAction) (hc : cm.state = .serverAwaitsAction)
    (hm : cm.home = some mirror) (hresponse : cm.pendingResponse = none)
    (hpending : cm.pendingAction = none) :
    Heard Args sm cm (cm.process (.update a)).1 (.update a) (cm.process (.update a)).2 []
      (as.map .update) (mirror.replay (a :: as)) [] := by
  rw [ClientMachine.process_update_resting hc]
  exact ⟨rfl, rfl, hresponse, fun _ => hpending, .asks hc, Nat.le_of_ble_eq_true rfl,
    .resting hs hc (mirror_update hm a)⟩

/-- An update reaches a client whose action the server has not seen yet: it follows, and goes on waiting. -/
theorem hear_update_asking {mirror : Home} {a : Action} {as : List Action} (b : Action)
    (hs : sm.state = .serverAwaitsAction) (hc : cm.state = .clientAwaitsConfirm)
    (hm : cm.home = some mirror) (ha : cm.pendingAction = some a) (hargs : Args a.params)
    (hresponse : cm.pendingResponse = none) :
    Heard Args sm cm (cm.process (.update b)).1 (.update b) (cm.process (.update b)).2 [.action a]
      (as.map .update) (mirror.replay (b :: as)) [] := by
  rw [ClientMachine.process_update_confirming hc]
  exact ⟨rfl, rfl, hresponse, fun hne => absurd hc hne, .quiet rfl, Nat.le_of_ble_eq_true rfl,
    .asking hs hc (mirror_update hm b) ha hargs⟩

/-- An update comes before the answer to the client's action: it follows, and goes on waiting. -/
theorem hear_update_confirming {mirror : Home} {a : Action} {accepted : Bool} {as bs : List Action}
    (b : Action) (hs : sm.state = .serverAwaitsAction) (hc : cm.state = .clientAwaitsConfirm)
    (hm : cm.home = some mirror) (ha : cm.pendingAction = some a)
    (hresponse : cm.pendingResponse = none) :
    Heard Args sm cm (cm.process (.update b)).1 (.update b) (cm.process (.update b)).2 []
      (as.map .update ++ .confirm a.sequence accepted :: bs.map .update)
      (((mirror.replay (b :: as)).replay (if accepted then [a] else [])).replay bs) [] := by
  rw [ClientMachine.process_update_confirming hc]
  exact ⟨rfl, rfl, hresponse, fun hne => absurd hc hne, .quiet rfl, Nat.le_of_ble_eq_true rfl,
    .confirming hs hc (mirror_update hm b) ha⟩

/-- The answer to its action brings the client to rest, with the action in its mirror if it was accepted. -/
theorem hear_confirm {mirror : Home} {a : Action} {bs : List Action} (accepted : Bool)
    (hs : sm.state = .serverAwaitsAction) (hc : cm.state = .clientAwaitsConfirm)
    (hm : cm.home = some mirror) (ha : cm.pendingAction = some a)
    (hresponse : cm.pendingResponse = none) :
    Heard Args sm cm (cm.process (.confirm a.sequence accepted)).1 (.confirm a.sequence accepted)
      (cm.process (.confirm a.sequence accepted)).2 [] (bs.map .update)
      ((mirror.replay (if accepted then [a] else [])).replay bs) [] := by
  rw [ClientMachine.process_confirm hc ha]
  cases accepted with
  | false => exact ⟨rfl, rfl, hresponse, fun _ => rfl, .asks rfl, Nat.one_pos, .resting hs rfl hm⟩
  | true =>
    have hm' : (cm.mirror a).home = some (mirror.applyOrKeep a) := by
      rw [ClientMachine.mirror, hm, Option.map_some]
    exact ⟨rfl, rfl, hresponse, fun _ => rfl, .asks rfl, Nat.one_pos, .resting hs rfl hm'⟩

/-- The version of the server is answered in kind. -/
theorem hear_version (hs : sm.state = .serverAwaitsVersion) (hc : cm.state = .clientAwaitsVersion)
    (hversion : sm.version = cm.version) (hresponse : cm.pendingResponse = none)
    (hpending : cm.pendingAction = none) (target : Home) :
    Heard Args sm cm (cm.process (.version cm.version)).1 (.version cm.version)
      (cm.process (.version cm.version)).2 [] [] target [.version cm.version] := by
  rw [ClientMachine.process_version hc]
  refine ⟨rfl, rfl, hresponse, fun _ => hpending, ?_, Nat.le_of_ble_eq_true rfl, ?_⟩
  · exact .replies (b := 1) rfl (by simp [Message.version]) (by simp [hc]) (by simp)
  · rw [← hversion]
    exact .offered hs rfl _

/-- A challenge is answered with the response of the client's login. -/
theorem hear_challenge {c : Bytes} (hs : sm.state = .serverAwaitsResponse) (hh : sm.challenge = some c)
    (hc : cm.state = .clientAwaitsChallenge) (hpending : cm.pendingAction = none) (target : Home) :
    Heard Args sm cm (cm.process (.challenge c)).1 (.challenge c) (cm.process (.challenge c)).2 [] []
      target [.response (cm.login.responseBody c)] := by
  rw [ClientMachine.process_challenge hc]
  refine ⟨rfl, rfl, rfl, fun _ => hpending, ?_, Nat.le_of_ble_eq_true rfl, .answered hs hh rfl _⟩
  exact .replies (b := 4) rfl (by simp [Message.response]) (by simp [hc]) (by simp)

/-- The client's machine takes whatever comes next, and the two are at a stage again. -/
theorem hear (h : Stage Args sm cm ups (message :: downs) target) (hversion : sm.version = cm.version)
    (hresponse : cm.pendingResponse = none)
    (hpending : cm.state ≠ .clientAwaitsConfirm → cm.pendingAction = none) :
    ∃ said, Heard Args sm cm (cm.process message).1 message (cm.process message).2 ups downs target
      said := by
  generalize hd : message :: downs = flight at h
  -- the stage says which message is next; updates may come before the answer to an action
  cases h with
  | opened hs hc => cases hd
  | offered hs hc => cases hd
  | answered hs hh hc => cases hd
  | greeted hs hc =>
    obtain ⟨rfl, rfl⟩ := List.cons.inj hd
    exact ⟨_, hear_version hs hc hversion hresponse (hpending (by simp [hc])) _⟩
  | challenged hs hh hc =>
    obtain ⟨rfl, rfl⟩ := List.cons.inj hd
    exact ⟨_, hear_challenge hs hh hc (hpending (by simp [hc])) _⟩
  | admitted hs hc hb =>
    obtain ⟨rfl, rfl⟩ := List.cons.inj hd
    rw [ClientMachine.process_initial hc hb]
    exact ⟨[], rfl, rfl, hresponse, fun _ => hpending (by simp [hc]), .asks rfl,
      Nat.le_of_ble_eq_true rfl, .resting hs rfl rfl⟩
  | @resting mirror as hs hc hm =>
    cases as with
    | nil => cases hd
    | cons a as =>
      obtain ⟨rfl, rfl⟩ := List.cons.inj hd
      exact ⟨[], hear_update_resting a hs hc hm hresponse (hpending (by simp [hc]))⟩
  | @asking mirror a as hs hc hm ha hargs =>
    cases as with
    | nil => cases hd
    | cons b as =>
      obtain ⟨rfl, rfl⟩ := List.cons.inj hd
      exact ⟨[], hear_update_asking b hs hc hm ha hargs hresponse⟩
  | @confirming mirror a accepted as bs hs hc hm ha =>
    cases as with
    | nil =>
      obtain ⟨rfl, rfl⟩ := List.cons.inj hd
      exact ⟨[], hear_confirm accepted hs hc hm ha hresponse⟩
    | cons b as =>
      obtain ⟨rfl, rfl⟩ := List.cons.inj hd
      exact ⟨[], hear_update_confirming b hs hc hm ha hresponse⟩

/-! ## Updates and actions -/

theorem flush (h : Stage Args sm cm ups downs target) (hs : sm.state = .serverAwaitsAction)
    (news : List Action) : Stage Args sm cm ups (downs ++ news.map .update) (target.replay news) := by
  cases h with
  | opened hs' => simp [hs] at hs'
  | greeted hs' => simp [hs] at hs'
  | offered hs' => simp [hs] at hs'
  | challenged hs' => simp [hs] at hs'
  | answered hs' => simp [hs] at hs'
  | @admitted snapshot base as hs hc hb =>
    rw [List.cons_append, ← List.map_append, ← Home.replay_append]
    exact .admitted hs hc hb
  | resting hs hc hm =>
    rw [← List.map_append, ← Home.replay_append]
    exact .resting hs hc hm
  | asking hs hc hm ha hargs =>
    rw [← List.map_append, ← Home.replay_append]
    exact .asking hs hc hm ha hargs
  | confirming hs hc hm ha =>
    rw [List.append_assoc, List.cons_append, ← List.map_append, ← Home.replay_append]
    exact .confirming hs hc hm ha

theorem wire (h : Stage Args sm cm (message :: ups) downs target) :
    ∃ b, message.keycode.wire? = some b := by
  cases h with
  | opened => exact ⟨0, rfl⟩
  | offered => exact ⟨1, rfl⟩
  | answered => exact ⟨4, rfl⟩
  | asking => exact ⟨6, rfl⟩

/-- A client that asks its user has nothing in flight to the server. -/
theorem of_resting (h : Stage Args sm cm ups downs target) (hc : cm.state = .serverAwaitsAction) :
    ∃ mirror as, sm.state = .serverAwaitsAction ∧ cm.home = some mirror ∧ ups = [] ∧
      downs = as.map .update ∧ target = Home.replay mirror as := by
  cases h with
  | opened hs hc' => simp [hc] at hc'
  | greeted hs hc' => simp [hc] at hc'
  | offered hs hc' => simp [hc] at hc'
  | challenged hs hh hc' => simp [hc] at hc'
  | answered hs hh hc' => simp [hc] at hc'
  | admitted hs hc' => simp [hc] at hc'
  | @resting mirror as hs hc' hm => exact ⟨mirror, as, hs, hm, rfl, rfl, rfl⟩
  | asking hs hc' => simp [hc] at hc'
  | confirming hs hc' => simp [hc] at hc'

theorem ask (h : Stage Args sm cm ups downs target) (hc : cm.state = .serverAwaitsAction)
    {a : Action} (hargs : Args a.params) :
    Stage Args sm (cm.process (.action a)).1 (ups ++ [.action a]) downs target := by
  obtain ⟨mirror, as, hs, hm, rfl, rfl, rfl⟩ := h.of_resting hc
  rw [ClientMachine.process_action hc]
  exact .asking hs rfl hm rfl hargs

/-- A message to the server that does not fit a line asks for an action. -/
theorem action_of_not_fits (h : Stage Args sm cm (message :: ups) downs target)
    (hversion : Line.Fits (.version sm.version)) (hlogin : cm.login.Works sm.users)
    (hlong : ¬ Line.Fits message) :
    ∃ (a : Action) (as : List Action), message = .action a ∧ Args a.params ∧
      cm.state = .clientAwaitsConfirm ∧ downs = as.map .update := by
  cases h with
  | opened => exact absurd (Nat.le_of_ble_eq_true rfl) hlong
  | offered => exact absurd hversion hlong
  | @answered c hs hh hc => exact absurd (hlogin.short c) hlong
  | @asking mirror a as hs hc hm ha hargs => exact ⟨a, as, rfl, hargs, hc, rfl⟩

theorem of_nil (h : Stage Args sm cm ups downs target) (hu : ups = []) (hd : downs = []) :
    sm.state = .serverAwaitsAction ∧ cm.state = .serverAwaitsAction ∧ cm.home = some target := by
  cases h with
  | opened => cases hu
  | offered => cases hu
  | answered => cases hu
  | asking => cases hu
  | greeted => cases hd
  | challenged => cases hd
  | admitted => cases hd
  | @resting mirror as hs hc hm =>
    obtain rfl := List.map_eq_nil_iff.1 hd
    exact ⟨hs, hc, hm⟩
  | confirming => simp at hd

end Stage

end HomeControl

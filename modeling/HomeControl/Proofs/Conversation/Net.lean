import HomeControl.Client.Session
import HomeControl.Login.Challenge
import HomeControl.Proofs.Conversation.Joint
import HomeControl.Proofs.Conversation.Told
import HomeControl.Proofs.Protocol.Pipe

/-!
# Clients of one server

A server and any number of clients that know their logins, each joined to its session by two streams
of bytes. Sessions and clients take their steps in any order, and a step that reads takes as many
bytes as it likes. Beside the clients, anyone may connect to the server and say anything.

Nobody says TERMINATE here: the server is not shut down, and users only ask for actions.
-/

namespace HomeControl

/-- A client with the streams that join it to its session. -/
structure Peer where
  /-- The client session. -/
  session : ClientSession
  /-- What is in flight to the server. -/
  up : Pipe := {}
  /-- What is in flight to the client. -/
  down : Pipe := {}
  /-- The lines the client has written. -/
  said : List Bytes := []
  /-- Why the client has ended, if it has. -/
  ended : Option ClientEnd := none

/-- Takes over what a part of a client's turn has changed. -/
def Peer.commit (p : Peer) (t : ClientTurn) : Peer :=
  { p with session := t.session, up := p.up.write t.lines, said := p.said ++ t.lines, ended := t.ended }

/-- What a read comes to. -/
def Arrival.ofRead : Option Frame → Arrival
  | some f => .frame f
  | none => .elapsed

/-- A server with its clients. -/
structure Net where
  /-- The server. -/
  hub : Hub
  /-- The clients, by the numbers of their sessions. -/
  peers : SessionId → Option Peer := fun _ => none
  /-- The steps of the server so far. -/
  history : List Record := []

namespace Net

/-- A step. -/
inductive Act where
  /-- A client connects and opens the conversation. -/
  | connect (login : Login)
  /-- The server takes a step that has nothing to do with any client. -/
  | other (act : Hub.Act)
  /-- A session reads at most `n` bytes from its client and answers the line that is complete, if
  there is one; `fresh` is the challenge it would send. -/
  | serve (id : SessionId) (n : Nat) (fresh : Bytes)
  /-- A session passes on the updates queued for it. -/
  | flush (id : SessionId)
  /-- A client reads at most `n` bytes from its session and answers the line that is complete, if
  there is one. -/
  | hear (id : SessionId) (n : Nat)
  /-- A client acts on what its user has posted. -/
  | act (id : SessionId)
  /-- The user of a client answers a question with an action. -/
  | post (id : SessionId) (number : Nat) (kind : Kind) (index opcode : UInt8) (params : Bytes)

/-- The client of a session changes. -/
def setPeer (net : Net) (id : SessionId) (p : Peer) : Net :=
  { net with peers := fun other => if other = id then some p else net.peers other }

/-- The server takes a step. -/
def record (net : Net) (act : Hub.Act) : Net :=
  { net with
    hub := (net.hub.perform act).1, history := net.history ++ [{ before := net.hub, act }] }

/-- A session takes a step and what it writes is in flight to its client. -/
def deliver (net : Net) (id : SessionId) (p : Peer) (act : Hub.Act) : Net :=
  (net.record act).setPeer id { p with down := p.down.write (net.hub.perform act).2.lines }

/-- What a step does. -/
def perform (net : Net) : Act → Net
  | .connect login =>
    let p : Peer := { session := ClientSession.make net.hub.version login }
    (net.record .accept).setPeer net.hub.registry.ids.value (p.commit p.session.opening)
  | .other act => net.record act
  | .serve id n fresh =>
    match net.peers id with
    | none => net
    | some p =>
      let (up, frame) := p.up.read n
      net.deliver id { p with up } (.receive id none fresh (.ofRead frame))
  | .flush id =>
    match net.peers id with
    | none => net
    | some p => net.deliver id p (.flush id none)
  | .hear id n =>
    match net.peers id with
    | none => net
    | some p =>
      if p.ended.isSome then net
      else
        let (down, frame) := p.down.read n
        net.setPeer id ({ p with down }.commit (p.session.receive (.ofRead frame)))
  | .act id =>
    match net.peers id with
    | none => net
    | some p =>
      if p.ended.isSome then net else net.setPeer id (p.commit p.session.takePosted)
  | .post id number kind index opcode params =>
    match net.peers id with
    | none => net
    | some p =>
      net.setPeer id
        { p with session := p.session.post number (some (.act kind index opcode params)) }

/-- Whether a step may be taken. The arguments of the actions that users post satisfy `Args`. -/
def Allows (Args : Bytes → Prop) (net : Net) : Act → Prop
  | .connect login => login.Works net.hub.users
  | .other act =>
    net.hub.Permits act ∧ act ≠ .shutdown ∧ ∀ id, act.session? = some id → net.peers id = none
  | .serve _ _ fresh => fresh.length = challengeLength
  | .post _ _ _ _ _ params => Args params
  | _ => True

/-- What can become of a server to which nobody has connected yet. -/
inductive Reachable (Args : Bytes → Prop) (start : Hub) : Net → Prop where
  /-- Nothing has happened yet. -/
  | start : Reachable Args start { hub := start }
  /-- A step is taken. -/
  | step {net : Net} (h : Reachable Args start net) (act : Act) (ha : net.Allows Args act) :
      Reachable Args start (net.perform act)

/-! ## The parts of a step -/

variable {net : Net} {id other : SessionId} {p : Peer}

@[simp] theorem hub_setPeer (net : Net) (id : SessionId) (p : Peer) : (net.setPeer id p).hub = net.hub :=
  rfl

@[simp] theorem history_setPeer (net : Net) (id : SessionId) (p : Peer) :
    (net.setPeer id p).history = net.history := rfl

/-- Of the peers only that one changes. -/
theorem peers_setPeer (net : Net) (id : SessionId) (p : Peer) (other : SessionId) :
    (net.setPeer id p).peers other = if other = id then some p else net.peers other := rfl

/-- After the client of a session has changed, a client is that one or as it was. -/
theorem peers_setPeer_cases {q : Peer} (h : (net.setPeer id p).peers other = some q) :
    other = id ∧ q = p ∨ other ≠ id ∧ net.peers other = some q := by
  rw [peers_setPeer] at h
  by_cases ho : other = id
  · rw [if_pos ho] at h
    exact Or.inl ⟨ho, (Option.some.inj h).symm⟩
  · rw [if_neg ho] at h
    exact Or.inr ⟨ho, h⟩

@[simp] theorem hub_record (net : Net) (act : Hub.Act) :
    (net.record act).hub = (net.hub.perform act).1 := rfl

@[simp] theorem peers_record (net : Net) (act : Hub.Act) : (net.record act).peers = net.peers := rfl

/-- A step of the server is noted with the server that took it. -/
@[simp] theorem history_record (net : Net) (act : Hub.Act) :
    (net.record act).history = net.history ++ [{ before := net.hub, act }] := rfl

end Net

end HomeControl

import HomeControl.Network.Link
import HomeControl.Network.Loopback

/-!
# Services

A server that listens, and the clients that try to reach it. A client that cannot connect ends before
its user is asked anything. Whatever is asked of a service is carried out to its end: clients that
need not wait have ended, and the others wait with every request answered.
-/

namespace HomeControl

/-- What became of a client's attempt to connect. -/
inductive Visitor where
  /-- It is the member at a position of the network. -/
  | member (index : Nat)
  /-- It could not connect, and its script stays as it was. -/
  | turnedAway (script : Script) (cause : ConnectError)

/-- A server and its clients. -/
structure Service where
  /-- The state of the machine's network. -/
  link : Link
  /-- The server's side and the clients that could connect. -/
  net : Loopback
  /-- Whether the server accepts connections. -/
  listening : Bool := true
  /-- All clients, in the order of their starts. -/
  visitors : List Visitor := []

namespace Service

/-- Whether a connection can be made. -/
def reach (s : Service) : Except ConnectError Unit :=
  match s.link, s.listening with
  | .down, _ => .error .unreachable
  | .up, false => .error .refused
  | .up, true => .ok ()

/-- Starts a client. -/
def start (s : Service) (login : Login) (script : Script) : Service :=
  match s.reach with
  | .error cause => { s with visitors := s.visitors ++ [.turnedAway script cause] }
  | .ok () =>
    { s with
      net := (s.net.connect login script).settle
      visitors := s.visitors ++ [.member s.net.members.length] }

/-- The user of a client asks it to stop. -/
def stop (s : Service) (client : Nat) : Service :=
  match s.visitors[client]? with
  | some (.member index) => { s with net := (s.net.stop index).settle }
  | _ => s

/-- A peer that is no client sends bytes and ends its stream; returns the lines it is sent. -/
def visit (s : Service) (bytes : Bytes) : Except ConnectError (Service × List Bytes) := do
  s.reach
  let (net, lines) := s.net.visit bytes
  return ({ s with net }, lines)

/-- Shuts the server down. -/
def shutdown (s : Service) : Service :=
  { s with listening := false, net := s.net.shutdown.settle }

/-- Why a client has ended. -/
inductive Farewell where
  /-- Its session has. -/
  | session (reason : ClientEnd)
  /-- It never had one. -/
  | noConnection (cause : ConnectError)

/-- The script of a client. -/
def script? (s : Service) : Visitor → Option Script
  | .member index => s.net.members[index]?.map fun m => m.client.script
  | .turnedAway script _ => some script

/-- Why a client has ended, if it has. -/
def farewell? (s : Service) : Visitor → Option Farewell
  | .member index => do return .session (← (← s.net.members[index]?).client.ended)
  | .turnedAway _ cause => some (.noConnection cause)

end Service

end HomeControl

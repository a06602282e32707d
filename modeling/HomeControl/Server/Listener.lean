import HomeControl.Server.Hub

/-!
# Listeners

The loop of a server. It looks whether the server is to go on, waits some time for a connection, and
looks again. Once the server is to stop, the loop accepts no more connections: it asks every session
to end and waits until the last one has left.
-/

namespace HomeControl

namespace Listener

/-- What the loop does next. -/
inductive Stage where
  /-- It looks whether the server is to go on. -/
  | looking
  /-- It waits for a connection. -/
  | listening
  /-- It asks every session to end. -/
  | closing
  /-- It waits for the sessions to leave. -/
  | draining
  /-- It has come to its end. -/
  | done
  deriving DecidableEq

end Listener

/-- A server with its loop. -/
structure Listener where
  /-- The server. -/
  hub : Hub
  /-- Whether the server is to go on. -/
  running : Bool := true
  /-- What the loop does next. -/
  stage : Listener.Stage := .looking
  deriving DecidableEq

namespace Listener

/-- Asks the server to stop. -/
def stop (l : Listener) : Listener :=
  { l with running := false }

/-- Takes the next step of the loop; `connected` says whether a connection has come, which matters
only while one is waited for. Returns the number of the session that has been registered, if one
has. -/
def step (l : Listener) (connected : Bool) : Option SessionId × Listener :=
  match l.stage with
  | .looking => (none, { l with stage := if l.running then .listening else .closing })
  | .listening =>
    if connected then
      let (id, hub) := l.hub.accept
      (some id, { l with hub, stage := .looking })
    else (none, { l with stage := .looking })
  | .closing => (none, { l with hub := l.hub.shutdown, stage := .draining })
  | .draining => (none, if l.hub.isDrained then { l with stage := .done } else l)
  | .done => (none, l)

end Listener

end HomeControl

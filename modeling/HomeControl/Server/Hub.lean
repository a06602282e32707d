import HomeControl.Server.Registry
import HomeControl.Server.Session

/-!
# Hubs

A server without its sockets: one home, the users, the registry and the machines of the sessions that
are running. Every step is taken by one session; what the sessions share changes only in their steps,
so the order of the steps is the order in which the home changes.
-/

namespace HomeControl

/-- The state of a server. -/
structure Hub where
  /-- The version offered to clients and required of them. -/
  version : String
  /-- Who may log in. -/
  users : Users
  /-- The home all sessions share. -/
  home : Home
  /-- The registered sessions. -/
  registry : Registry := {}
  /-- The machines of the running sessions. -/
  machines : List ServerMachine := []
  deriving DecidableEq

namespace Hub

/-- What a step shows to the session's peer. -/
structure Output where
  /-- The lines written, in order. -/
  lines : List Bytes := []
  /-- Why the session ended, if it did. -/
  ended : Option SessionEnd := none

/-- Registers a session and starts its machine; returns its number. -/
def accept (hub : Hub) : SessionId × Hub :=
  let (id, registry) := hub.registry.register
  let machine : ServerMachine := { session := id, version := hub.version, users := hub.users }
  (id, { hub with registry, machines := hub.machines ++ [machine] })

/-- The machine of a running session. -/
def machine? (hub : Hub) (id : SessionId) : Option ServerMachine :=
  hub.machines.find? fun m => m.session == id

/-- Ends a session: its machine is gone and its seat is given up. Its entry stays until the registry
is told. -/
def retire (hub : Hub) (id : SessionId) : Hub :=
  { hub with
    registry := hub.registry.leaveSeat id
    machines := hub.machines.filter fun m => m.session != id }

/-- Tells the registry that a session has ended. -/
def deregister (hub : Hub) (id : SessionId) : Hub :=
  { hub with registry := hub.registry.deregister id }

/-- Removes a session that has ended. -/
def leave (hub : Hub) (id : SessionId) : Hub :=
  (hub.retire id).deregister id

/-- Takes over what a part of a turn has changed. -/
def commit (hub : Hub) (id : SessionId) (turn : ServerMachine.Turn) : Hub × Output :=
  let hub :=
    { hub with
      home := turn.home
      registry := hub.registry.handleAll turn.events
      machines := hub.machines.map fun m => if m.session = id then turn.machine else m }
  let output := { lines := turn.lines, ended := turn.ended }
  match turn.ended with
  | some _ => (hub.retire id, output)
  | none => (hub, output)

/-- A session answers what has arrived. -/
def receive (hub : Hub) (id : SessionId) (room : Option Nat) (fresh : Bytes)
    (arrival : Arrival) : Hub × Output :=
  match hub.machine? id with
  | none => (hub, {})
  | some m => hub.commit id ((m.receive hub.home fresh arrival).within room)

/-- A session that has been asked to end does so. -/
def obeyFlag (hub : Hub) (id : SessionId) (room : Option Nat) (fresh : Bytes) : Hub × Output :=
  match hub.machine? id with
  | none => (hub, {})
  | some m =>
    if hub.registry.isFlagged id then hub.commit id ((m.obeyFlag hub.home fresh).within room)
    else (hub, {})

/-- A session passes on the updates queued for it. -/
def flush (hub : Hub) (id : SessionId) (room : Option Nat) : Hub × Output :=
  match hub.machine? id with
  | none => (hub, {})
  | some m =>
    let (queue, registry) := hub.registry.drain id
    { hub with registry }.commit id ((m.flush hub.home queue).within room)

/-- Goes on with the next part unless the session has ended. -/
def andThen (first : Hub × Output) (next : Hub → Hub × Output) : Hub × Output :=
  match first.2.ended with
  | some _ => first
  | none =>
    let second := next first.1
    (second.1, { lines := first.2.lines ++ second.2.lines, ended := second.2.ended })

/-- One round of a session's loop; a session that has ended is removed. -/
def turn (hub : Hub) (id : SessionId) (fresh : Bytes) (arrival : Arrival) : Hub × Output :=
  let (hub, output) :=
    andThen (andThen (hub.receive id none fresh arrival) fun hub => hub.obeyFlag id none fresh)
      fun hub => hub.flush id none
  match output.ended with
  | some _ => (hub.deregister id, output)
  | none => (hub, output)

/-- Asks every session to end. -/
def shutdown (hub : Hub) : Hub :=
  { hub with registry := hub.registry.terminateAll }

/-- Whether every session has ended. -/
def isDrained (hub : Hub) : Bool :=
  hub.registry.entries.isEmpty

end Hub

end HomeControl

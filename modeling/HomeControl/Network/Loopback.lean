import HomeControl.Client.Participant
import HomeControl.Server.Host

/-!
# Loopback networks

A host and clients on one machine. The clients' streams are joined to those of their sessions, and a
round carries everything that has been written to the other end and lets both ends settle. A network
is settled once a round carries nothing.
-/

namespace HomeControl

/-- A client and the session it talks to. -/
structure Member where
  /-- The session at the other end. -/
  id : SessionId
  /-- The client. -/
  client : Participant

/-- A host with its clients. -/
structure Loopback where
  /-- The host. -/
  host : Host
  /-- The clients, in the order of their starts. -/
  members : List Member := []

namespace Loopback

/-- Starts a client on a new connection. -/
def connect (net : Loopback) (login : Login) (script : Script) : Loopback :=
  let (id, host) := net.host.accept
  let session := ClientSession.make host.hub.version login
  let (client, lines) := Participant.start session script true
  { host := host.deliver id lines.flatten, members := net.members ++ [{ id, client }] }

/-- Carries what a session wrote to its client, and lets the client settle; returns what the client
wrote. A client that has ended has gone from its end of the connection. -/
def carry (host : Host) (written : Written) (m : Member) : Host × Member × Bool :=
  let lines := written.of m.id
  let client := m.client.deliver lines.flatten
  let client := if host.ends.any fun e => e.1 == m.id then client.close else client
  let (client, answers) := if client.ended.isSome then (client, []) else client.settle
  let host := host.deliver m.id answers.flatten
  let host := if client.ended.isSome then host.hangUp m.id else host
  (host, { m with client }, !(lines.isEmpty && answers.isEmpty))

/-- Carries to every client in turn. -/
def carryAll (written : Written) : List Member → Host → Host × List Member × Bool
  | [], host => (host, [], false)
  | m :: ms, host =>
    let (host, m, moved) := carry host written m
    let (host, ms, others) := carryAll written ms host
    (host, m :: ms, moved || others)

/-- One round; also says whether anything was carried or any session ended. -/
def round (net : Loopback) : Loopback × Bool :=
  let ended := net.host.ends.length
  let (host, written) := net.host.settle
  let (host, members, moved) := carryAll written net.members host
  ({ host, members }, moved || host.ends.length != ended)

/-- At most so many rounds, up to one that carries nothing. -/
def rounds : Nat → Loopback → Loopback
  | 0, net => net
  | n + 1, net =>
    let (net, moved) := net.round
    if moved then rounds n net else net

/-- Settles the network. A handshake and a farewell take a fixed number of rounds and every request
takes at most two. -/
def settle (net : Loopback) : Loopback :=
  let requests := net.members.foldl (fun n m => n + m.client.script.requests.length) 0
  rounds (16 + 2 * requests) net

/-- The user of a client asks it to stop. -/
def stop (net : Loopback) (index : Nat) : Loopback :=
  { net with
    members := net.members.mapIdx fun i m =>
      if i = index then { m with client := m.client.stop } else m }

/-- A peer that is no client sends bytes over a new connection and ends its stream; returns the lines
it is sent. -/
def visit (net : Loopback) (bytes : Bytes) : Loopback × List Bytes :=
  let (id, host) := net.host.accept
  let (host, written) := ((host.deliver id bytes).close id).settle
  let (host, members, _) := carryAll written net.members host
  (Loopback.settle { host, members }, written.of id)

/-- The server asks every session to end. -/
def shutdown (net : Loopback) : Loopback :=
  { net with host := { net.host with hub := net.host.hub.shutdown } }

end Loopback

end HomeControl

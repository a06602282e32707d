import HomeControl.Login.Challenge
import HomeControl.Server.Hub

/-!
# Hosts

A hub with the byte streams of its connections. Settling a host lets every session read all that has
arrived and then wait once more, after which nothing is left to do: every complete line is answered,
every flag is obeyed and every queued update is written or dropped.
-/

namespace HomeControl

/-- The stream from a peer. -/
structure Inlet where
  /-- The session that reads it. -/
  id : SessionId
  /-- The reader of the session. -/
  reader : LineReader := {}
  /-- The bytes that have arrived and not been read. -/
  inbox : Bytes := []
  /-- Whether the peer has ended the stream. -/
  closed : Bool := false
  /-- Whether the peer has stopped reading what the session writes. -/
  gone : Bool := false
  deriving DecidableEq

/-- The arrivals that the data at hand amounts to. -/
def Inlet.arrivals (i : Inlet) : Inlet × List Arrival :=
  let (reader, frames) := i.reader.frames i.inbox
  let arrivals := frames.map Arrival.frame
  if i.closed then
    let (reader, last) := reader.finish
    ({ i with reader, inbox := [] }, arrivals ++ last.toList.map Arrival.frame ++ [.closed])
  else
    ({ i with reader, inbox := [] }, arrivals)

/-- A hub with its connections. -/
structure Host where
  /-- The hub. -/
  hub : Hub
  /-- The streams from the peers of running and ended sessions. -/
  inlets : List Inlet := []
  /-- Why the sessions that have ended did so, in the order of their ends. -/
  ends : List (SessionId × SessionEnd) := []
  /-- Where challenges come from. -/
  challenges : Random.Stream

/-- What one session wrote. -/
abbrev Written := List (SessionId × List Bytes)

namespace Host

/-- Opens a connection; returns the number of its session. -/
def accept (host : Host) : SessionId × Host :=
  let (id, hub) := host.hub.accept
  (id, { host with hub, inlets := host.inlets ++ [{ id }] })

/-- Bytes arrive from the peer of a session. -/
def deliver (host : Host) (id : SessionId) (bytes : Bytes) : Host :=
  { host with
    inlets := host.inlets.map fun i =>
      if i.id = id ∧ !i.closed then { i with inbox := i.inbox ++ bytes } else i }

/-- The peer of a session ends its stream. -/
def close (host : Host) (id : SessionId) : Host :=
  { host with inlets := host.inlets.map fun i => if i.id = id then { i with closed := true } else i }

/-- The peer of a session ends its stream and stops reading. -/
def hangUp (host : Host) (id : SessionId) : Host :=
  { host with
    inlets := host.inlets.map fun i =>
      if i.id = id then { i with closed := true, gone := true } else i }

/-- Whether what a session writes reaches nobody. -/
def isGone (host : Host) (id : SessionId) : Bool :=
  host.inlets.any fun i => i.id == id && i.gone

/-- Notes why a session has ended, if it has. -/
def note (host : Host) (id : SessionId) : Option SessionEnd → Host
  | none => host
  | some reason => { host with ends := host.ends ++ [(id, reason)] }

/-- A session takes its turn with what has arrived. Writing to a peer that is gone ends the session,
whatever else it would have come to. -/
def turn (host : Host) (id : SessionId) (arrival : Arrival) : Host × List Bytes :=
  let (fresh, challenges) := Challenge.next host.challenges
  let (hub, output) := host.hub.turn id fresh arrival
  if host.isGone id && !output.lines.isEmpty then
    ({ host with hub := hub.leave id, challenges }.note id (some .peerGone), [])
  else
    ({ host with hub, challenges }.note id output.ended, output.lines)

/-- A session takes its turns with several arrivals. -/
def turns (host : Host) (id : SessionId) : List Arrival → Host × List Bytes
  | [] => (host, [])
  | arrival :: rest =>
    if (host.hub.machine? id).isNone then (host, [])
    else
      let (host, lines) := host.turn id arrival
      let (host, more) := host.turns id rest
      (host, lines ++ more)

/-- A session reads all that has arrived. -/
def poll (host : Host) (id : SessionId) : Host × List Bytes :=
  match host.inlets.find? fun i => i.id == id with
  | none => (host, [])
  | some inlet =>
    let (inlet, arrivals) := inlet.arrivals
    let inlets := host.inlets.map fun i => if i.id = id then inlet else i
    { host with inlets }.turns id arrivals

/-- Lets each of some sessions act, and collects what it wrote. -/
def each (act : Host → SessionId → Host × List Bytes) : List SessionId → Host → Host × Written
  | [], host => (host, [])
  | id :: ids, host =>
    let (host, lines) := act host id
    let (host, rest) := each act ids host
    (host, (id, lines) :: rest)

/-- Lets every session read all that has arrived and then wait once more. -/
def settle (host : Host) : Host × Written :=
  let ids := host.hub.registry.sessionIds
  let (host, answers) := each poll ids host
  let (host, updates) := each (fun host id => host.turns id [.elapsed]) ids host
  (host, answers ++ updates)

end Host

/-- What a session wrote, of all that was written. -/
def Written.of (written : Written) (id : SessionId) : List Bytes :=
  (written.filter fun w => w.1 == id).flatMap fun w => w.2

end HomeControl

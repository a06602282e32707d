import HomeControl.Machine.Server
import HomeControl.Protocol.Sequence

/-!
# The session registry

The sessions of a server and the fan-out of updates between them. Registering gives a session an
entry, which says whether it receives updates, and a seat, which holds the updates queued for it and
the flag that asks it to end. The registry owns the entries and the session owns its seat, so what is
queued survives until the session has read it, even after the entry is gone. A session may also close
its queue and keep its flag.
-/

namespace HomeControl

/-- What the registry knows of a session. -/
structure Entry where
  /-- The session's number. -/
  id : SessionId
  /-- Whether updates are queued for it. -/
  subscribed : Bool := false
  deriving DecidableEq

/-- What a session holds of the registry. -/
structure Seat where
  /-- The session's number. -/
  id : SessionId
  /-- The updates queued for it, latest first. -/
  latest : List Message := []
  /-- Whether it has been asked to end. -/
  flagged : Bool := false
  deriving DecidableEq

namespace Seat

/-- The updates queued for a session, oldest first. -/
def queue (s : Seat) : List Message :=
  s.latest.reverse

/-- Queues an update behind the others. -/
def enqueue (s : Seat) (update : Message) : Seat :=
  { s with latest := update :: s.latest }

/-- The seat with nothing queued. -/
def clear (s : Seat) : Seat :=
  { s with latest := [] }

/-- The seat with its flag set. -/
def flag (s : Seat) : Seat :=
  { s with flagged := true }

/-- A new update is the last one that the session will read. -/
@[simp]
theorem queue_enqueue (s : Seat) (update : Message) :
    (s.enqueue update).queue = s.queue ++ [update] := by
  simp [queue, enqueue]

@[simp]
theorem queue_clear (s : Seat) : s.clear.queue = [] := rfl

end Seat

/-- The sessions of a server. -/
structure Registry where
  /-- The number of the next session. -/
  ids : Counter := { value := 1 }
  /-- The registered sessions by ascending number. -/
  entries : List Entry := []
  /-- The seats that are still held. -/
  seats : List Seat := []
  /-- The seats whose queue is closed. Only their flags are still of use. -/
  closed : List Seat := []
  deriving DecidableEq

namespace Registry

/-- Puts an entry where its number belongs. -/
def insertEntry (e : Entry) : List Entry → List Entry
  | [] => [e]
  | x :: xs =>
    if e.id < x.id then e :: x :: xs
    else if e.id = x.id then e :: xs
    else x :: insertEntry e xs

/-- Registers a session that receives no updates yet; returns its number. -/
def register (r : Registry) : SessionId × Registry :=
  let (id, ids) := r.ids.next
  (id, { r with ids, entries := insertEntry { id } r.entries, seats := r.seats ++ [{ id }] })

/-- Removes the entry of a session; an unknown number changes nothing. -/
def deregister (r : Registry) (id : SessionId) : Registry :=
  { r with entries := r.entries.filter fun e => e.id != id }

/-- Gives up the seat of a session. -/
def leaveSeat (r : Registry) (id : SessionId) : Registry :=
  { r with
    seats := r.seats.filter fun s => s.id != id
    closed := r.closed.filter fun s => s.id != id }

/-- Closes the queue of a session and drops what is in it. The session can still be asked to end. -/
def closeQueue (r : Registry) (id : SessionId) : Registry :=
  { r with
    seats := r.seats.filter fun s => s.id != id
    closed := r.closed ++ (r.seats.filter fun s => s.id == id).map Seat.clear }

/-- The numbers of the registered sessions. -/
def sessionIds (r : Registry) : List SessionId :=
  r.entries.map fun e => e.id

/-- Whether a session is registered. -/
def isRegistered (r : Registry) (id : SessionId) : Bool :=
  r.entries.any fun e => e.id == id

/-- Whether a session is registered and receives updates. -/
def isSubscribed (r : Registry) (id : SessionId) : Bool :=
  r.entries.any fun e => e.id == id && e.subscribed

/-- Starts or stops queueing updates for a session. -/
def setSubscribed (r : Registry) (id : SessionId) (subscribed : Bool) : Registry :=
  { r with entries := r.entries.map fun e => if e.id = id then { e with subscribed } else e }

/-- Changes the seat of a session. -/
def mapSeat (r : Registry) (id : SessionId) (f : Seat → Seat) : Registry :=
  { r with seats := r.seats.map fun s => if s.id = id then f s else s }

/-- Queues an update for every subscribed session but the one it comes from. A session that has closed
its queue or given up its seat is passed over. -/
def broadcast (r : Registry) (update : Message) (origin : SessionId) : Registry :=
  { r with
    seats := r.seats.map fun s =>
      if s.id ≠ origin ∧ r.isSubscribed s.id then s.enqueue update else s }

/-- Asks the sessions of which `p` holds to end. -/
def ask (r : Registry) (p : SessionId → Bool) : Registry :=
  { r with
    seats := r.seats.map fun s => if p s.id then s.flag else s
    closed := r.closed.map fun s => if p s.id then s.flag else s }

/-- Asks a session to end. -/
def setFlag (r : Registry) (id : SessionId) : Registry :=
  r.ask fun other => other == id

/-- Asks every registered session to end. -/
def terminateAll (r : Registry) : Registry :=
  r.ask r.isRegistered

/-- The seat of a session, while it holds one. -/
def seat? (r : Registry) (id : SessionId) : Option Seat :=
  r.seats.find? fun s => s.id == id

/-- The updates queued for a session. -/
def queued (r : Registry) (id : SessionId) : List Message :=
  match r.seat? id with
  | some s => s.queue
  | none => []

/-- Whether a session has been asked to end. -/
def isFlagged (r : Registry) (id : SessionId) : Bool :=
  (r.seats ++ r.closed).any fun s => s.id == id && s.flagged

/-- Takes the updates queued for a session. -/
def drain (r : Registry) (id : SessionId) : List Message × Registry :=
  (r.queued id, r.mapSeat id Seat.clear)

/-- Does what a machine asks of the fan-out. -/
def handle (r : Registry) : Event → Registry
  | .broadcast update origin => r.broadcast update origin
  | .subscribe id => r.setSubscribed id true
  | .unsubscribe id => r.setSubscribed id false

/-- Does everything a call asked for, in order. -/
def handleAll (r : Registry) (events : List Event) : Registry :=
  events.foldl handle r

end Registry

end HomeControl

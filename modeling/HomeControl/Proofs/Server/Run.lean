import HomeControl.Proofs.Protocol.Line
import HomeControl.Server.Hub

/-!
# Runs of a server

A run of a server is a list of records, one for each step that some session or the server's own
upkeep takes. Every session goes through its round in order: it answers what has arrived, looks at its
flag, passes on the updates queued for it, and waits again. Between the parts of one session's round
the other sessions may do whatever they like, and a connection may fail with any line.

The second half reads a run from outside: what a session has written, what the home has accepted, and
when a session falls back to `idle` or ends.
-/

namespace HomeControl

/-- The action that the home accepts if a machine is called with a message: the machine waits for an
action, the message asks for one, and the home can apply it. -/
def ServerMachine.accepts? (m : ServerMachine) (home : Home) (incoming : Message) : Option Action :=
  if m.state = .serverAwaitsAction then
    match incoming.parseAction with
    | .error _ => none
    | .ok a =>
      match home.apply a with
      | .ok _ => some a
      | .error _ => none
  else none

namespace Hub

/-- A step of a server. A session's step may find that its peer takes only `room` more lines. -/
inductive Act where
  /-- A connection is accepted and its session registered. -/
  | accept
  /-- A session answers what has arrived. -/
  | receive (id : SessionId) (room : Option Nat) (fresh : Bytes) (arrival : Arrival)
  /-- A session looks at its flag. -/
  | obeyFlag (id : SessionId) (room : Option Nat) (fresh : Bytes)
  /-- A session passes on the updates queued for it. -/
  | flush (id : SessionId) (room : Option Nat)
  /-- The registry is told that a session has ended. -/
  | deregister (id : SessionId)
  /-- Every session is asked to end. -/
  | shutdown
  deriving DecidableEq

/-- The session that takes a step, if one does. -/
def Act.session? : Act → Option SessionId
  | .receive id _ _ _ => some id
  | .obeyFlag id _ _ => some id
  | .flush id _ => some id
  | _ => none

/-- What a step does and what it shows to the peer of its session. -/
def perform (hub : Hub) : Act → Hub × Output
  | .accept => (hub.accept.2, {})
  | .receive id room fresh arrival => hub.receive id room fresh arrival
  | .obeyFlag id room fresh => hub.obeyFlag id room fresh
  | .flush id room => hub.flush id room
  | .deregister id => (hub.deregister id, {})
  | .shutdown => (hub.shutdown, {})

/-- The registry is told that a session has ended only when it has. -/
def Permits (hub : Hub) (act : Act) : Prop :=
  ∀ id, act = .deregister id → hub.machine? id = none

end Hub

open Hub (Act)

/-- A step together with the server it finds. -/
structure Record where
  /-- The server before the step. -/
  before : Hub
  /-- The step. -/
  act : Act
  deriving DecidableEq

namespace Record

variable (r : Record) (id : SessionId)

/-- The server after the step. -/
def after : Hub :=
  (r.before.perform r.act).1

/-- The messages that the step writes to the peer of a session. -/
def written : List Message :=
  if r.act.session? = some id then
    (r.before.perform r.act).2.lines.filterMap Line.message?
  else []

/-- The updates that the step writes to the peer of a session. -/
def updates : List Message :=
  (r.written id).filter fun m => m.keycode = .update

/-- The action that the home accepts in the step, and the session it comes from. -/
def accepted? : Option (SessionId × Action) :=
  match r.act with
  | .receive id _ _ (.frame (.line line)) =>
    match Line.message? line, r.before.machine? id with
    | some message, some m => (m.accepts? r.before.home message).map fun a => (id, a)
    | _, _ => none
  | _ => none

/-- The action that the home accepts from another session than this one. -/
def foreign? : Option Action :=
  r.accepted?.bind fun (origin, a) => if origin = id then none else some a

/-- The step hands a snapshot to the peer of a session. -/
def HandsOver (snapshot : Bytes) : Prop :=
  .initial snapshot ∈ r.written id

/-- After its step the session is in `idle`, or it has ended. -/
def Leaves : Prop :=
  r.act.session? = some id ∧ ∀ m, r.after.machine? id = some m → m.state = .idle

instance (snapshot : Bytes) : Decidable (r.HandsOver id snapshot) :=
  inferInstanceAs (Decidable (_ ∈ _))

instance : Decidable (r.Leaves id) :=
  inferInstanceAs (Decidable (_ ∧ ∀ m ∈ r.after.machine? id, m.state = .idle))

end Record

/-- A part of a session's round. -/
inductive Phase where
  /-- The session waits for its peer. -/
  | waiting
  /-- It has to look at its flag. -/
  | checking
  /-- It has to pass on the updates queued for it. -/
  | flushing
  deriving DecidableEq

/-- The phase in which a session may take a step. -/
def Hub.Act.phase? : Act → Option Phase
  | .receive _ _ _ _ => some .waiting
  | .obeyFlag _ _ _ => some .checking
  | .flush _ _ => some .flushing
  | _ => none

/-- The phase that follows in a session's round. -/
def Phase.next : Phase → Phase
  | .waiting => .checking
  | .checking => .flushing
  | .flushing => .waiting

/-- A server and how far its sessions are in their rounds. -/
structure Schedule where
  /-- The server. -/
  hub : Hub
  /-- The phases of the sessions. -/
  phase : SessionId → Phase := fun _ => .waiting

namespace Schedule

/-- Whether a step may be taken now: a running session's when it is in the phase for it. -/
def Due (s : Schedule) (act : Act) : Prop :=
  s.hub.Permits act ∧
    ∀ id, act.session? = some id → (s.hub.machine? id).isSome ∧ act.phase? = some (s.phase id)

/-- The server after a step, with the session that took it in its next phase. -/
def next (s : Schedule) (act : Act) : Schedule :=
  { hub := (s.hub.perform act).1
    phase := fun id => if act.session? = some id then (s.phase id).next else s.phase id }

/-- Whether steps may be taken one after the other. -/
def Admits (s : Schedule) : List Act → Prop
  | [] => True
  | act :: rest => s.Due act ∧ (s.next act).Admits rest

/-- The records that steps leave behind. -/
def trace (s : Schedule) : List Act → List Record
  | [] => []
  | act :: rest => { before := s.hub, act } :: (s.next act).trace rest

instance (hub : Hub) : (act : Act) → Decidable (hub.Permits act)
  | .deregister id => decidable_of_iff (hub.machine? id = none) (by simp [Hub.Permits])
  | .accept => isTrue (by simp [Hub.Permits])
  | .receive _ _ _ _ => isTrue (by simp [Hub.Permits])
  | .obeyFlag _ _ _ => isTrue (by simp [Hub.Permits])
  | .flush _ _ => isTrue (by simp [Hub.Permits])
  | .shutdown => isTrue (by simp [Hub.Permits])

instance (s : Schedule) (act : Act) : Decidable (s.Due act) :=
  match h : act.session? with
  | none => decidable_of_iff (s.hub.Permits act) (by simp [Due, h])
  | some id =>
    decidable_of_iff
      (s.hub.Permits act ∧ (s.hub.machine? id).isSome ∧ act.phase? = some (s.phase id))
      (by simp [Due, h])

instance (s : Schedule) : (acts : List Act) → Decidable (s.Admits acts)
  | [] => isTrue trivial
  | act :: rest =>
    have := instDecidableAdmits (s.next act) rest
    inferInstanceAs (Decidable (s.Due act ∧ (s.next act).Admits rest))

end Schedule

/-- The runs of a server, with the records they leave behind. -/
inductive Runs (start : Hub) : List Record → Schedule → Prop where
  /-- Nothing has happened yet. -/
  | start : Runs start [] { hub := start }
  /-- A step is taken. -/
  | step {rs : List Record} {s : Schedule} (h : Runs start rs s) (act : Act) (hdue : s.Due act) :
      Runs start (rs ++ [{ before := s.hub, act }]) (s.next act)

theorem Schedule.trace_append (s : Schedule) (acts rest : List Act) :
    s.trace (acts ++ rest) = s.trace acts ++ (acts.foldl next s).trace rest := by
  induction acts generalizing s with
  | nil => rfl
  | cons act acts ih => exact congrArg (_ :: ·) (ih (s.next act))

/-- A run goes on with any steps that may be taken one after the other. -/
theorem Runs.trace {start : Hub} {rs : List Record} {s : Schedule} (h : Runs start rs s)
    {acts : List Act} (ha : s.Admits acts) :
    Runs start (rs ++ s.trace acts) (acts.foldl Schedule.next s) := by
  induction acts generalizing rs s with
  | nil => simpa [Schedule.trace] using h
  | cons act rest ih =>
    have hrest := ih (h.step act ha.1) ha.2
    rwa [List.append_assoc, List.singleton_append] at hrest

end HomeControl

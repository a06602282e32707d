import HomeControl.Client.Script
import HomeControl.Client.Session

/-!
# Participants

A client session with its byte stream and a script for its user. Settling a participant lets it read
all that has arrived and then wait once more; meanwhile every question it has asked reaches the
script, also those it has withdrawn by then.
-/

namespace HomeControl

/-- A client at work. -/
structure Participant where
  /-- The session. -/
  session : ClientSession
  /-- The script that answers its questions. -/
  script : Script
  /-- Whether the client is to go on. -/
  running : Bool := true
  /-- The reader of the session. -/
  reader : LineReader := {}
  /-- The bytes that have arrived and not been read. -/
  inbox : Bytes := []
  /-- Whether the server has ended the stream. -/
  closed : Bool := false
  /-- The questions that have not reached the script, latest first. -/
  questions : List (Nat × Home) := []
  /-- Why the session ended, if it did. -/
  ended : Option ClientEnd := none

namespace Participant

/-- The questions among what a session asks for. -/
def questionsOf (events : List CollectionEvent) : List (Nat × Home) :=
  events.filterMap fun
    | .started number home => some (number, home)
    | .withdrawn _ => none

/-- Takes over what a part of a turn has changed. -/
def commit (p : Participant) (turn : ClientTurn) : Participant × List Bytes :=
  ({ p with
      session := turn.session
      questions := (questionsOf turn.events).reverse ++ p.questions
      ended := turn.ended },
    turn.lines)

/-- Starts a client: the opening line is written at once. -/
def start (session : ClientSession) (script : Script) (running : Bool) :
    Participant × List Bytes :=
  let p : Participant := { session, script, running }
  p.commit session.opening

/-- Bytes arrive from the server. -/
def deliver (p : Participant) (bytes : Bytes) : Participant :=
  if p.closed then p else { p with inbox := p.inbox ++ bytes }

/-- The server ends its stream. -/
def close (p : Participant) : Participant :=
  { p with closed := true }

/-- The user asks the client to stop. -/
def stop (p : Participant) : Participant :=
  { p with running := false }

/-- Takes turns with several arrivals, up to the end of the session. -/
def turns (p : Participant) : List Arrival → Participant × List Bytes
  | [] => (p, [])
  | arrival :: rest =>
    if p.ended.isSome then (p, [])
    else
      let (p, lines) := p.commit (p.session.turn p.running arrival)
      let (p, more) := p.turns rest
      (p, lines ++ more)

/-- Reads all that has arrived. -/
def poll (p : Participant) : Participant × List Bytes :=
  let (reader, frames) := p.reader.frames p.inbox
  let arrivals := frames.map Arrival.frame
  if p.closed then
    let (reader, last) := reader.finish
    { p with reader, inbox := [] }.turns
      (arrivals ++ last.toList.map Arrival.frame ++ [Arrival.closed])
  else
    { p with reader, inbox := [] }.turns arrivals

/-- A question reaches the script, which may post at once. -/
def putQuestion (p : Participant) (question : Nat × Home) : Participant :=
  match p.script.ask question.2 false with
  | (script, .posted request) =>
    { p with script, session := p.session.post question.1 request }
  | (script, .waiting) => { p with script }

/-- Every question reaches the script, in the order in which they were asked. -/
def putQuestions (p : Participant) : Participant :=
  p.questions.reverse.foldl putQuestion { p with questions := [] }

/-- Reads all that has arrived and waits once more. -/
def settle (p : Participant) : Participant × List Bytes :=
  let (p, answers) := p.poll
  let (p, acts) := p.putQuestions.turns [.elapsed]
  (p, answers ++ acts)

end Participant

end HomeControl

import HomeControl.Client.Request
import HomeControl.Machine.Client
import HomeControl.Protocol.Line
import HomeControl.Protocol.LineReader
import HomeControl.Protocol.Sequence

/-!
# Client sessions

What a client does between two waits for the server. It answers what has arrived; then, if it has
been asked to stop, it says TERMINATE, once; then it acts on what the user has posted.

Asking the user takes time, so a question, here a *collection*, runs beside the session. Whenever the
machine waits for user input the session starts a collection for its present mirror and withdraws the
one before it; what a withdrawn collection posts is ignored. The session reports the starts and
withdrawals of collections; whoever runs it starts and withdraws them and posts what they come to.
-/

namespace HomeControl

/-- Why a client session ends. -/
inductive ClientEnd where
  /-- We said TERMINATE and the server confirmed it. -/
  | terminated
  /-- The server said TERMINATE of its own accord. -/
  | serverTerminated
  /-- The server reported an error. -/
  | serverError (reason : String)
  /-- We rejected what the server sent and told it so. -/
  | protocolError (reason : String)
  /-- The server closed the connection. -/
  | connectionLost
  /-- A message could not be written. -/
  | unsendable (error : ProtocolError)
  deriving DecidableEq

namespace ClientEnd

/-- Whether the session failed rather than ended. -/
def isFailure : ClientEnd → Bool
  | connectionLost => true
  | unsendable _ => true
  | _ => false

/-- The text of an end. -/
def message : ClientEnd → String
  | terminated => "terminated"
  | serverTerminated => "terminated by server"
  | serverError reason => "server error: " ++ reason
  | protocolError reason => "protocol error: " ++ reason
  | connectionLost => "server closed the connection"
  | unsendable error => "cannot encode outgoing message: " ++ error.message

end ClientEnd

/-- A question to the user. -/
structure Collection where
  /-- How many collections the session started before it. -/
  number : Nat
  /-- The home the question is about. -/
  home : Home
  /-- What the user posted, once the question is answered; `none` inside is an answer without a
  request. -/
  posted : Option (Option Request) := none
  deriving DecidableEq

/-- What a session asks of whoever runs its collections. -/
inductive CollectionEvent where
  /-- Ask the user about a home. -/
  | started (number : Nat) (home : Home)
  /-- Withdraw a question. -/
  | withdrawn (number : Nat)
  deriving DecidableEq

/-- A client session. -/
structure ClientSession where
  /-- Its machine. -/
  machine : ClientMachine
  /-- The numbers of its actions. -/
  sequence : Counter := {}
  /-- Whether TERMINATE has been said. -/
  terminateSent : Bool := false
  /-- The question that is open. -/
  collection : Option Collection := none
  /-- The number of collections started so far. -/
  started : Nat := 0
  deriving DecidableEq

/-- What a part of a session's turn comes to. -/
structure ClientTurn where
  /-- The session afterwards. -/
  session : ClientSession
  /-- The lines written, in order, with their line feeds. -/
  lines : List Bytes := []
  /-- What was asked about collections, in order. -/
  events : List CollectionEvent := []
  /-- Why the session ends here, if it does. -/
  ended : Option ClientEnd := none

namespace ClientSession

/-- The session before anything has been said. -/
def make (version : String) (login : Login) : ClientSession :=
  { machine := { version, login } }

/-- The withdrawal of the open question, if there is one. -/
def withdrawal (s : ClientSession) : List CollectionEvent :=
  match s.collection with
  | some c => [.withdrawn c.number]
  | none => []

/-- Withdraws the open question. -/
def withdraw (s : ClientSession) : ClientSession :=
  { s with collection := none }

/-- Starts a question about the present mirror and withdraws the one before it. -/
def collect (s : ClientSession) : ClientTurn :=
  let home := s.machine.home.getD Home.empty
  { session :=
      { s with collection := some { number := s.started, home }, started := s.started + 1 }
    events := .started s.started home :: s.withdrawal }

/-- Ends the session; an open question is withdrawn. -/
def finish (s : ClientSession) (lines : List Bytes) (reason : ClientEnd) : ClientTurn :=
  { session := s.withdraw, lines, events := s.withdrawal, ended := some reason }

/-- Acts on what the machine returns: a message is written, and an ERROR is the last one. -/
def dispatch (s : ClientSession) : Option Message → ClientTurn
  | none => { session := s }
  | some message =>
    if message.keycode = .waitUserInput then s.collect
    else
      match Line.encode message with
      | .error e => s.finish [] (.unsendable e)
      | .ok line =>
        if message.keycode = .error then s.finish [line] (.protocolError message.lossyText)
        else { session := s, lines := [line] }

/-- Hands a message to the machine and acts on what it returns. -/
def feed (s : ClientSession) (message : Message) : ClientTurn :=
  let (machine, output) := s.machine.process message
  { s with machine }.dispatch output

/-- Reports a violation that was noticed outside the machine. -/
def reject (s : ClientSession) (v : Violation) : ClientTurn :=
  let (machine, output) := s.machine.reject v
  { s with machine }.dispatch output

/-- Opens the conversation. -/
def opening (s : ClientSession) : ClientTurn :=
  s.feed .internal

/-- Answers a line. The server's TERMINATE and ERROR end the session without an answer. -/
def onLine (s : ClientSession) (line : Bytes) : ClientTurn :=
  match Line.decode line with
  | .error e => s.reject (.malformed e)
  | .ok message =>
    let after := { s with machine := (s.machine.process message).1 }
    if message.keycode = .terminate then
      after.finish [] (if s.terminateSent then .terminated else .serverTerminated)
    else if message.keycode = .error then after.finish [] (.serverError message.lossyText)
    else s.feed message

/-- Answers what has arrived. -/
def receive (s : ClientSession) : Arrival → ClientTurn
  | .frame (.line line) => s.onLine line
  | .frame .tooLong => s.reject (.malformed (.lineTooLong maxLineLength))
  | .elapsed => { session := s }
  | .closed => s.finish [] (if s.terminateSent then .terminated else .connectionLost)

/-- Says TERMINATE, once, and withdraws the open question. -/
def sendTerminate (s : ClientSession) : ClientTurn :=
  if s.terminateSent then { session := s }
  else
    let (machine, output) := s.machine.process .terminate
    let events := s.withdrawal
    let s := { s.withdraw with machine }
    match output with
    | none => { session := { s with terminateSent := true }, events }
    | some message =>
      match Line.encode message with
      | .ok line => { session := { s with terminateSent := true }, lines := [line], events }
      | .error e => { session := s, events, ended := some (.unsendable e) }

/-- The user posts an answer to a question; it counts if the question is still open. -/
def post (s : ClientSession) (number : Nat) (request : Option Request) : ClientSession :=
  match s.collection with
  | some c =>
    if c.number = number then { s with collection := some { c with posted := some request } } else s
  | none => s

/-- Acts on a request: an action is numbered and sent, anything else ends the conversation. -/
def act (s : ClientSession) : Option Request → ClientTurn
  | none => s.sendTerminate
  | some request =>
    let (number, sequence) := s.sequence.nextByte
    match request.toAction? number with
    | none => s.sendTerminate
    | some a => { s with sequence }.feed (.action a)

/-- Takes what the user has posted and acts on it. -/
def takePosted (s : ClientSession) : ClientTurn :=
  match s.collection with
  | none => { session := s }
  | some c =>
    match c.posted with
    | none => { session := s }
    | some request =>
      let turn := s.withdraw.act request
      { turn with events := s.withdrawal ++ turn.events }

/-- Stops if the client is not to run any longer. -/
def obey (running : Bool) (s : ClientSession) : ClientTurn :=
  if running then { session := s } else s.sendTerminate

/-- Goes on with the next part unless the session has ended. -/
def andThen (first : ClientTurn) (next : ClientSession → ClientTurn) : ClientTurn :=
  match first.ended with
  | some _ => first
  | none =>
    let second := next first.session
    { second with lines := first.lines ++ second.lines, events := first.events ++ second.events }

/-- One round of the session's loop. -/
def turn (s : ClientSession) (running : Bool) (arrival : Arrival) : ClientTurn :=
  andThen (andThen (s.receive arrival) (obey running)) takePosted

end ClientSession

end HomeControl

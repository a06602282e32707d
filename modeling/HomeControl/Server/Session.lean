import HomeControl.Machine.Server
import HomeControl.Protocol.Line
import HomeControl.Protocol.LineReader

/-!
# Server sessions

What a session does between two waits for its peer. It answers what has arrived; then, if it has been
asked to end, it says so to the peer and ends; otherwise it passes on the updates queued for it, if
the peer holds a home to apply them to, and waits again. `receive`, `obeyFlag` and `flush` are these
three parts.
-/

namespace HomeControl

/-- Why a session ends. -/
inductive SessionEnd where
  /-- The peer sent TERMINATE and it was echoed. -/
  | peerTerminated
  /-- The server is shutting down and sent TERMINATE. -/
  | serverShutdown
  /-- The peer failed the challenge. -/
  | authenticationFailed
  /-- The peer sent an over-long line. -/
  | lineTooLong
  /-- The peer closed the connection. -/
  | connectionLost
  /-- The peer is gone and what was to be written reaches nobody. -/
  | peerGone
  /-- A message could not be written. -/
  | unsendable (error : ProtocolError)
  deriving DecidableEq

namespace SessionEnd

/-- Whether the session failed rather than ended. -/
def isFailure : SessionEnd → Bool
  | connectionLost => true
  | peerGone => true
  | unsendable _ => true
  | _ => false

/-- The text of an end. -/
def message : SessionEnd → String
  | peerTerminated => "terminated by peer"
  | serverShutdown => "server shutdown"
  | authenticationFailed => "authentication failed"
  | lineTooLong => "line too long"
  | connectionLost => "peer closed the connection"
  | peerGone => "I/O error"
  | unsendable error => "cannot encode outgoing message: " ++ error.message

end SessionEnd

namespace ServerMachine

/-- What a part of a session's turn comes to. -/
structure Turn where
  /-- The session's machine afterwards. -/
  machine : ServerMachine
  /-- The shared home afterwards. -/
  home : Home
  /-- The lines written, in order, with their line feeds. -/
  lines : List Bytes := []
  /-- What was asked of the fan-out, in order. -/
  events : List Event := []
  /-- Why the session ends here, if it does. -/
  ended : Option SessionEnd := none

/-- The turn of a session whose peer takes at most `room` more lines: one line more cannot be written,
and the session ends there. -/
def Turn.within (turn : Turn) : Option Nat → Turn
  | none => turn
  | some room =>
    if room < turn.lines.length then
      { turn with lines := turn.lines.take room, ended := some .peerGone }
    else turn

/-- Writes the reply of a call, if it has one; `after` says why the session ends then. -/
def write (step : ServerStep) (after : Option Message → Option SessionEnd) : Turn :=
  let turn : Turn := { machine := step.machine, home := step.home, events := step.events }
  match step.reply with
  | none => { turn with ended := after none }
  | some reply =>
    match Line.encode reply with
    | .ok line => { turn with lines := [line], ended := after (some reply) }
    | .error e => { turn with ended := some (.unsendable e) }

/-- The replies after which a session closes. -/
def endAfter : Option Message → Option SessionEnd
  | none => none
  | some reply =>
    if reply.keycode = .terminate then some .peerTerminated
    else if reply = .errorAuth then some .authenticationFailed
    else none

/-- Hands a line to the machine. -/
def handleLine (m : ServerMachine) (home : Home) (fresh line : Bytes) : ServerStep :=
  match Line.decode line with
  | .ok message => m.process home fresh message
  | .error e => m.reject home (.malformed e)

/-- Answers what has arrived. -/
def receive (m : ServerMachine) (home : Home) (fresh : Bytes) : Arrival → Turn
  | .frame (.line line) => write (m.handleLine home fresh line) endAfter
  | .frame .tooLong =>
    write (m.reject home (.malformed (.lineTooLong maxLineLength))) fun _ => some .lineTooLong
  | .elapsed => { machine := m, home }
  | .closed => { machine := m, home, ended := some .connectionLost }

/-- Says TERMINATE to the peer and ends. -/
def obeyFlag (m : ServerMachine) (home : Home) (fresh : Bytes) : Turn :=
  write (m.process home fresh .terminate) fun _ => some .serverShutdown

/-- Writes messages one after the other, up to one that cannot be written. -/
def writeAll : List Message → List Bytes × Option SessionEnd
  | [] => ([], none)
  | message :: rest =>
    match Line.encode message with
    | .error e => ([], some (.unsendable e))
    | .ok line =>
      let (lines, ended) := writeAll rest
      (line :: lines, ended)

/-- Passes on queued updates in the state in which the peer can apply them; in any other they are
dropped. -/
def flush (m : ServerMachine) (home : Home) (queue : List Message) : Turn :=
  if m.state = .serverAwaitsAction then
    let (lines, ended) := writeAll queue
    { machine := m, home, lines, ended }
  else
    { machine := m, home }

end ServerMachine

end HomeControl

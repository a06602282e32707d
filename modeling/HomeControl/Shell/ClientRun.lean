import Std.Async.DNS
import HomeControl.Client.Prompt
import HomeControl.Client.RawConsole
import HomeControl.Client.Session
import HomeControl.Shell.ClientProgram
import HomeControl.Shell.Connection

/-!
# Running a client

A client at work. The dialog with the user is held beside the session: whenever a line is typed the
dialog is run again on all lines typed for it, and only what it has to add is shown.
-/

namespace HomeControl.ClientRun

open Std.Async Connection

/-- A dialog that is being held. -/
structure Dialog where
  /-- The number of the question. -/
  number : Nat
  /-- The home it is about. -/
  home : Home
  /-- The lines typed so far. -/
  typed : List String := []
  /-- How many characters have been shown. -/
  shown : Nat := 0

/-- A client at work. -/
structure Work where
  /-- The session. -/
  session : ClientSession
  /-- The reader of the server's stream. -/
  reader : LineReader := {}
  /-- The dialog, if a question is open. -/
  dialog : Option Dialog := none

/-- Prints at once. -/
def printNow (text : String) : IO Unit := do
  let out ← IO.getStdout
  out.putStr text
  out.flush

/-- Shows what a dialog has to add, and posts the request once it is complete. -/
def advance (w : Work) (d : Dialog) (inputEnded : Bool) : IO Work := do
  let held := Prompt.collect d.home d.typed
  printNow (String.ofList (held.text.toList.drop d.shown))
  if held.request.isSome || inputEnded then
    return { w with session := w.session.post d.number held.request, dialog := none }
  else
    return { w with dialog := some { d with shown := held.text.length } }

/-- Starts and gives up dialogs as the session asks. -/
def follow (w : Work) : List CollectionEvent → IO Work
  | [] => return w
  | .withdrawn number :: rest =>
    let dialog := w.dialog.filter fun d => d.number != number
    follow { w with dialog } rest
  | .started number home :: rest => do
    let w ← advance w { number, home } false
    follow w rest

/-- Takes over what a turn came to; returns why the session ended, if it did. -/
def commit (peer : TCP.Socket.Client) (w : Work) (turn : ClientTurn) :
    Async (Work × Option ClientEnd) := do
  let _ ← write peer turn.lines
  let w ← follow { w with session := turn.session } turn.events
  return (w, turn.ended)

/-- Takes turns with several arrivals, up to the end of the session. -/
def turns (peer : TCP.Socket.Client) (w : Work) : List Arrival → Async (Work × Option ClientEnd)
  | [] => return (w, none)
  | arrival :: rest => do
    let (w, ended) ← commit peer w (w.session.turn true arrival)
    if ended.isSome then return (w, ended) else turns peer w rest

/-- Runs a session to its end. -/
partial def session (peer : TCP.Socket.Client) (bound : UInt64) (input : Input) (w : Work) :
    Async ClientEnd := do
  let event ← wait peer (some bound) (w.dialog.map fun _ => input)
  let (w, ended) ← match event, w.dialog with
    | .received data, _ =>
      let (reader, frames) := w.reader.frames data
      turns peer { w with reader } (frames.map .frame)
    | .ended, _ =>
      let (reader, last) := w.reader.finish
      turns peer { w with reader } (last.toList.map .frame ++ [.closed])
    | .typed line, some d =>
      let w ← advance w { d with typed := d.typed ++ [line] } false
      turns peer w [.elapsed]
    | .inputEnded, some d =>
      let w ← advance w d true
      turns peer w [.elapsed]
    | _, _ => turns peer w [.elapsed]
  match ended with
  | some reason => return reason
  | none => session peer bound input w

/-- Runs the raw console to its end. -/
partial def raw (peer : TCP.Socket.Client) (input : Input) (c : RawConsole) : Async Unit := do
  match ← wait peer none (some input) with
  | .received data =>
    let (c, shown) := c.receive data
    printNow shown
    raw peer input c
  | .ended => printNow c.serverCloses.2
  | .typed line =>
    if ← write peer [c.typed line] then raw peer input c
  | .inputEnded => pure ()
  | .elapsed => raw peer input c

/-- The addresses of a machine. -/
def addresses (host : String) : Async (List IpAddress) := do
  match IpAddress.parse? host with
  | some ip => return [ip]
  | none =>
    let found ← DNS.getAddrInfo host "" none
    return found.toList.map fun
      | .v4 a => .v4 a.octets
      | .v6 a => .v6 a.segments

/-- Connects to the first of some addresses that can be reached. -/
def connectAny (port : UInt16) : List IpAddress → Async (Option TCP.Socket.Client)
  | [] => return none
  | ip :: rest => do
    let peer ← TCP.Socket.Client.mk
    let connected ← try
        peer.connect (systemAddress { ip, port })
        pure true
      catch _ => pure false
    if connected then return some peer else connectAny port rest

/-- Connects to the server. -/
def connect (o : ClientProgram.Options) : Async (Option TCP.Socket.Client) := do
  try connectAny o.port (← addresses o.host)
  catch _ => return none

/-- Runs the client to its end. -/
def run (o : ClientProgram.Options) (mode : ClientProgram.Mode) : IO Outcome := do
  let work : Async Outcome := do
    match ← connect o with
    | none => return .failure (ClientProgram.Failure.connect o.address).message
    | some peer =>
      let input ← openInput
      match mode with
      | .raw login =>
        printNow RawConsole.greeting
        raw peer input { login }
        return {}
      | .dialog login =>
        let start := ClientSession.make protocolVersion login
        let (w, ended) ← commit peer { session := start } start.opening
        let reason ← match ended with
          | some reason => pure reason
          | none => session peer o.readTimeout input w
        return if reason.isFailure then .failure reason.message else {}
  work.block

end HomeControl.ClientRun

import Std.Sync.Mutex
import HomeControl.Login.Challenge
import HomeControl.Server.Listener
import HomeControl.Shell.Connection
import HomeControl.Shell.ServerProgram

/-!
# Running a server

A server at work: connections are accepted until the console asks the server to stop; then every
session is asked to end, and the server stops when the last one has.
-/

namespace HomeControl.ServerRun

open Std.Async Connection

/-- Random bytes for a challenge. -/
partial def freshChallenge : IO Bytes := do
  let bytes := (← IO.getRandomBytes (USize.ofNat challengeLength)).toList
  if bytes.any Challenge.endsLine then freshChallenge else return bytes

/-- A session takes its turn; says whether it goes on. -/
def turn (shared : Std.Mutex Listener) (peer : TCP.Socket.Client) (id : SessionId)
    (arrival : Arrival) : Async Bool := do
  let fresh ← freshChallenge
  let output ← shared.atomically do
    let l ← get
    let (hub, output) := l.hub.turn id fresh arrival
    set { l with hub }
    return output
  let taken ← write peer output.lines
  return taken && output.ended.isNone

/-- A session takes its turns with several arrivals; says whether it goes on. -/
def turns (shared : Std.Mutex Listener) (peer : TCP.Socket.Client) (id : SessionId) :
    List Arrival → Async Bool
  | [] => return true
  | arrival :: rest => do
    if ← turn shared peer id arrival then turns shared peer id rest else return false

/-- Runs a session. -/
partial def session (shared : Std.Mutex Listener) (peer : TCP.Socket.Client) (id : SessionId)
    (bound : UInt64) (reader : LineReader) : Async Unit := do
  match ← wait peer (some bound) none with
  | .received data =>
    let (reader, frames) := reader.frames data
    if ← turns shared peer id (frames.map .frame) then session shared peer id bound reader
  | .elapsed =>
    if ← turn shared peer id .elapsed then session shared peer id bound reader
  | _ =>
    let (_, last) := reader.finish
    let _ ← turns shared peer id (last.toList.map .frame ++ [.closed])

/-- Runs a registered session on its connection, and removes it however it ends. -/
def serve (shared : Std.Mutex Listener) (bound : UInt64) (peer : TCP.Socket.Client)
    (id : SessionId) : Async Unit := do
  try
    peer.noDelay
    session shared peer id bound {}
    peer.shutdown
  catch _ => pure ()
  shared.atomically (modify fun l => { l with hub := l.hub.leave id })

/-- Waits for a connection, for at most some time; one that fails at once is none. -/
def awaitPeer (listener : TCP.Socket.Server) (bound : UInt64) : Async (Option TCP.Socket.Client) := do
  let timer ← Selector.sleep (milliseconds bound)
  try
    Selectable.one #[
      .case listener.acceptSelector fun peer => pure (some peer),
      .case timer fun _ => pure none]
  catch _ => return none

/-- Goes through the loop to its end. -/
partial def loop (listener : TCP.Socket.Server) (shared : Std.Mutex Listener)
    (settings : ListenSettings) : Async Unit := do
  let stage ← shared.atomically do return (← get).stage
  if stage != .done then
    let peer ← if stage == .listening then awaitPeer listener settings.listenTimeout else pure none
    let (id, l) ← shared.atomically do
      let (id, l) := (← get).step peer.isSome
      set l
      return (id, l)
    if let (some peer, some id) := (peer, id) then
      background (serve shared settings.readTimeout peer id)
    if l.stage == .draining then sleep 50
    loop listener shared settings

/-- Stops the server once the console asks for it. -/
def watchConsole (shared : Std.Mutex Listener) : IO Unit := do
  readLines (← IO.getStdin) fun line => do
    if Terminal.isTerminateCommand line then
      shared.atomically (modify Listener.stop)
      return false
    else return true

/-- Runs the server to its end. -/
def run (start : ServerProgram.Start) (hub : Hub) : IO Outcome := do
  let listener ← TCP.Socket.Server.mk
  try
    listener.bind (systemAddress start.address)
    listener.listen 128
  catch _ => return .failure (ServerProgram.Failure.bind start.address).message
  let shared ← Std.Mutex.new { hub : Listener }
  let _ ← IO.asTask (watchConsole shared) .dedicated
  (loop listener shared start.settings.listen).block
  return {}

end HomeControl.ServerRun

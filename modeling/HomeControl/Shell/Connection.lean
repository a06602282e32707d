import Std.Async.TCP
import Std.Async.Timer
import Std.Sync.Channel
import HomeControl.Network.Address
import HomeControl.Shell.Terminal

/-!
# Connections

The outer layer of both programs: sockets, timers and standard input. Nothing is decided here; bytes,
lines and the ends of waits are handed to the library, and what it writes is sent.
-/

namespace HomeControl.Connection

open Std.Async Std.Net

/-- A number of milliseconds as a duration. -/
def milliseconds (n : UInt64) : Std.Time.Millisecond.Offset :=
  .ofNat n.toNat

/-- An address as the system takes it. -/
def systemAddress (a : HomeControl.SocketAddress) : Std.Net.SocketAddress :=
  match a.ip with
  | .v4 bytes => .v4 { addr := { octets := bytes }, port := a.port }
  | .v6 groups => .v6 { addr := { segments := groups }, port := a.port }

/-- What a wait ends with. -/
inductive Event where
  /-- Bytes came from the peer. -/
  | received (data : Bytes)
  /-- The peer ended its stream. -/
  | ended
  /-- A line was typed. -/
  | typed (line : String)
  /-- Nothing more will be typed. -/
  | inputEnded
  /-- The time is up. -/
  | elapsed

/-- The lines typed so far and not taken. -/
abbrev Input := Std.CloseableChannel String

/-- Waits for the peer, for at most some time if there is a bound, and for a line if `input` is
given. -/
def wait (peer : TCP.Socket.Client) (bound : Option UInt64) (input : Option Input) :
    Async Event := do
  let fromPeer : Selectable Event :=
    .case (peer.recvSelector 4096) fun data =>
      pure (match data with
        | some data => .received data.toList
        | none => .ended)
  let fromInput : List (Selectable Event) := input.toList.map fun lines =>
    .case lines.recvSelector fun line =>
      pure (match line with
        | some line => .typed line
        | none => .inputEnded)
  let timer ← bound.mapM fun time => Selector.sleep (milliseconds time)
  let fromTimer : List (Selectable Event) := timer.toList.map fun timer =>
    .case timer fun _ => pure .elapsed
  try Selectable.one (fromPeer :: (fromInput ++ fromTimer)).toArray
  catch _ => return .ended

/-- Writes lines to the peer; says whether it took them. -/
def write (peer : TCP.Socket.Client) (lines : List Bytes) : Async Bool := do
  if lines.isEmpty then return true
  try
    peer.send ⟨lines.flatten.toArray⟩
    return true
  catch _ => return false

/-- Reads bytes up to a line feed; false if the input ends before one. -/
partial def readRaw (stream : IO.FS.Stream) (held : Bytes) : IO (Bytes × Bool) := do
  let data ← stream.read 1
  match data.toList with
  | [] => return (held.reverse, false)
  | b :: _ => if b == lineFeed then return (held.reverse, true) else readRaw stream (b :: held)

/-- Hands on every line of standard input, up to its end or to one that is no text. The lines of what
was read are those that the library finds in it. -/
partial def readLines (stream : IO.FS.Stream) (take : String → IO Bool) : IO Unit := do
  let (bytes, more) ← readRaw stream []
  match Terminal.lines (if more then bytes ++ [lineFeed] else bytes) with
  | [] => return
  | line :: _ =>
    if ← take line then
      if more then readLines stream take

/-- Reads standard input beside the program. -/
def openInput : IO Input := do
  let lines ← Std.CloseableChannel.new
  let stream ← IO.getStdin
  let reading : IO Unit := do
    readLines stream fun line => do
      let _ ← lines.send line
      return true
    try EIO.toIO (fun _ => IO.userError "closed") lines.close catch _ => pure ()
  let _ ← IO.asTask reading .dedicated
  return lines

end HomeControl.Connection

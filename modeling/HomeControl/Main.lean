import HomeControl.Shell.ClientRun
import HomeControl.Shell.ServerRun

/-!
# The programs

Two programs in one: the first word says whether the server or the client is to run, and the other
words are its own.
-/

namespace HomeControl

/-- What stands at a path of the machine. -/
def lookAt (path : String) : IO Stored := do
  try return .file (← IO.FS.readBinFile path).toList
  catch
    | .noFileOrDirectory .. => return .missing
    | _ => return .directory

/-- The variables of the environment that the programs look at. -/
def environment : IO (String → Option String) := do
  let names :=
    ["IOTP_CONFIG", "IOTP_PORT", "IOTP_BIND", "IOTP_HOST", "IOTP_LOGIN"]
  let values ← names.mapM fun name => do return (name, ← IO.getEnv name)
  return fun name => (values.lookup name).join

/-- Runs the server. -/
def runServer (words : List String) : IO Outcome := do
  match ServerProgram.options (← environment) words with
  | .error stop => return ServerProgram.stopped stop
  | .ok options =>
    match ← ServerProgram.prepare lookAt options with
    | .error failure => return .failure failure.message
    | .ok start =>
      match start.hub? with
      | none => return .failure "no home could be made up"
      | some hub => ServerRun.run start hub

/-- Runs the client. -/
def runClient (words : List String) : IO Outcome := do
  match ClientProgram.options (← environment) words with
  | .error stop => return ClientProgram.stopped stop
  | .ok options =>
    match options.mode with
    | .error failure => return .failure failure.message
    | .ok mode => ClientRun.run options mode

/-- Says what a run has left behind. -/
def report (outcome : Outcome) : IO UInt32 := do
  outcome.printed.forM IO.println
  outcome.complaint.toList.forM IO.eprintln
  return outcome.code.toUInt32

end HomeControl

open HomeControl in
/-- The first word is the name of a program. -/
def main (words : List String) : IO UInt32 := do
  match words with
  | "server" :: rest => report (← runServer rest)
  | "client" :: rest => report (← runClient rest)
  | _ => do
    IO.eprintln "usage: (server | client) [options]"
    return 2

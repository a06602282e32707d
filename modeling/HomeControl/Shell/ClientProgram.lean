import HomeControl.Login.Users
import HomeControl.Network.Link
import HomeControl.Shell.Outcome

/-!
# The client program

From the command line to a client that connects. The program either runs the dialog for a user, who
must have a login, or the raw console, which needs none.
-/

namespace HomeControl.ClientProgram

/-- What the command line says. -/
structure Options where
  /-- The machine of the server. -/
  host : String := "127.0.0.1"
  /-- The port of the server. -/
  port : UInt16 := 9070
  /-- The login. -/
  login : Option Login := none
  /-- Whether to run the raw console. -/
  raw : Bool := false
  /-- How long the client waits for the server before it looks at its user, in milliseconds. -/
  readTimeout : UInt64 := 1000
  /-- How much is reported. -/
  logLevel : String := "info"
  deriving DecidableEq

/-- The name of the program. -/
def name : String := "iotp-client"

/-- A login as a command line gives it: the name ends at the first colon, and neither part is
empty. -/
def login? (text : String) : Option Login :=
  let username := text.toList.takeWhile (· != ':')
  let password := (text.toList.dropWhile (· != ':')).drop 1
  if username.isEmpty || password.isEmpty then none
  else some { username := String.ofList username, password := String.ofList password }

/-- The settings of the command line. -/
def settings : List (CommandLine.Setting Options) :=
  [{ names := ["host"], variableName := some "IOTP_HOST", meaning := "Machine of the server"
     form := .value fun text o => some { o with host := text } },
   { names := ["port"], variableName := some "IOTP_PORT", meaning := "Port of the server"
     form := .value fun text o => (CommandLine.port? text).map fun port => { o with port } },
   { names := ["login"], variableName := some "IOTP_LOGIN", meaning := "Login, as user:password"
     form := .value fun text o => (login? text).map fun login => { o with login := some login } },
   { names := ["raw", "default"], meaning := "Send typed lines as they are"
     form := .flag fun o => { o with raw := true } },
   { names := ["read-timeout-ms"], meaning := "Longest wait for the server, in milliseconds"
     form := .value fun text o => (CommandLine.milliseconds? text).map fun readTimeout =>
      { o with readTimeout } },
   { names := ["log-level"], meaning := "How much is reported"
     form := .value fun text o => some { o with logLevel := text } }]

/-- A run that did not get beyond its command line. -/
def stopped (stop : CommandLine.Stop) : Outcome :=
  .ofStop name (CommandLine.usage name settings) stop

/-- The options that words and the environment make. -/
def options (environment : String → Option String) (words : List String) :
    Except CommandLine.Stop Options :=
  CommandLine.read settings {} environment words

/-- What the program runs. -/
inductive Mode where
  /-- The dialog, for a login. -/
  | dialog (login : Login)
  /-- The raw console, which answers challenges if it has a login. -/
  | raw (login : Option Login)
  deriving DecidableEq

/-- Why a client does not get to its server. -/
inductive Failure where
  /-- The dialog has no login. -/
  | noLogin
  /-- The server at an address cannot be reached. -/
  | connect (address : String)
  deriving DecidableEq

/-- What is said of a failure. -/
def Failure.message : Failure → String
  | .noLogin => "interactive mode needs --login user:password (or use --raw)"
  | .connect address => "cannot connect to " ++ address

/-- What to run. -/
def Options.mode (o : Options) : Except Failure Mode :=
  if o.raw then .ok (.raw o.login)
  else
    match o.login with
    | some login => .ok (.dialog login)
    | none => .error .noLogin

/-- Where the server is. -/
def Options.address (o : Options) : String :=
  s!"{o.host}:{o.port.toNat}"

/-- What a run comes to when the server cannot be reached. -/
def outcomeAlone (environment : String → Option String) (words : List String) : Outcome :=
  match options environment words with
  | .error stop => stopped stop
  | .ok o =>
    match o.mode with
    | .error failure => .failure failure.message
    | .ok _ => .failure (Failure.connect o.address).message

end HomeControl.ClientProgram

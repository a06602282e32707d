import HomeControl.Network.Link
import HomeControl.Server.Hub
import HomeControl.Settings.Folder
import HomeControl.Settings.Path
import HomeControl.Settings.Server
import HomeControl.Settings.UserTable
import HomeControl.Shell.Outcome

/-!
# The server program

From the command line to a server that listens. The settings are loaded first, then the users, whose
file is named in the settings; then the address is read; then the server listens. The first of these
that fails ends the program.
-/

namespace HomeControl.ServerProgram

/-- What the command line says. -/
structure Options where
  /-- The file with the settings. -/
  settingsPath : String := defaultSettingsPath
  /-- The port to listen at, instead of the one in the settings. -/
  port : Option UInt16 := none
  /-- The address to listen at, instead of the one in the settings. -/
  bind : Option String := none
  deriving DecidableEq

/-- The name of the program. -/
def name : String := "iotp-server"

/-- The settings of the command line. -/
def settings : List (CommandLine.Setting Options) :=
  [{ names := ["config"], variableName := some "IOTP_CONFIG", meaning := "File with the settings"
     form := .value fun text o =>
      if text.isEmpty then none else some { o with settingsPath := text } },
   { names := ["port"], variableName := some "IOTP_PORT", meaning := "Port to listen at"
     form := .value fun text o => (CommandLine.port? text).map fun port => { o with port := some port } },
   { names := ["bind"], variableName := some "IOTP_BIND", meaning := "Address to listen at"
     form := .value fun text o => some { o with bind := some text } }]

/-- A run that did not get beyond its command line. -/
def stopped (stop : CommandLine.Stop) : Outcome :=
  .ofStop name (CommandLine.usage name settings) stop

/-- The options that words and the environment make. -/
def options (environment : String → Option String) (words : List String) :
    Except CommandLine.Stop Options :=
  CommandLine.read settings {} environment words

/-- Why a server does not start. -/
inductive Failure where
  /-- The settings at a path could not be loaded. -/
  | settings (path : String)
  /-- The users at a path could not be loaded. -/
  | users (path : String)
  /-- The address to listen at is none. -/
  | address (listen : ListenSettings)
  /-- The address to listen at is not to be had. -/
  | bind (place : SocketAddress)
  deriving DecidableEq

/-- What is said of a failure. -/
def Failure.message : Failure → String
  | .settings path => "failed to load config from " ++ path
  | .users path => "cannot start without credentials from " ++ path
  | .address listen => listen.addressComplaint
  | .bind place => "failed to bind IOTP listener on " ++ place.text

/-- What a server starts with. -/
structure Start where
  /-- The settings, with what the command line says instead. -/
  settings : ServerSettings
  /-- The users. -/
  users : Users
  /-- Where to listen. -/
  address : SocketAddress
  deriving DecidableEq

/-- Settings with what the command line says instead. -/
def Options.override (o : Options) (s : ServerSettings) : ServerSettings :=
  { s with
    listen :=
      { s.listen with
        port := o.port.getD s.listen.port
        bindAddress := o.bind.getD s.listen.bindAddress } }

/-- Loads everything a server starts with. -/
def prepare {m : Type → Type} [Monad m] (look : String → m Stored) (o : Options) :
    m (Except Failure Start) := do
  match ServerSettings.load (← look o.settingsPath) with
  | .error _ => return .error (.settings o.settingsPath)
  | .ok loaded =>
    let settings := o.override loaded
    let usersPath := Path.resolve o.settingsPath settings.usersPath
    match UserTable.load (← look usersPath) with
    | .error _ => return .error (.users usersPath)
    | .ok users =>
      match settings.listen.address? with
      | none => return .error (.address settings.listen)
      | some address => return .ok { settings, users, address }

/-- The server with its home made up, before any connection; none if no home can be made up. -/
def Start.hub? (s : Start) : Option Hub :=
  let home := s.settings.home
  (Generator.make home.seed home.maxPerKind).next.map fun made =>
    { version := s.settings.listen.version, users := s.users, home := made.1 }

/-- What a run comes to in a folder, if the server is stopped again once it listens. -/
def outcome (link : Link) (folder : Folder) (environment : String → Option String)
    (words : List String) : Outcome :=
  match options environment words with
  | .error stop => stopped stop
  | .ok o =>
    match Id.run (prepare (fun path => pure (folder.stored path)) o) with
    | .error failure => .failure failure.message
    | .ok start =>
      if link.canBind start.address.ip then {}
      else .failure (Failure.bind start.address).message

end HomeControl.ServerProgram

import HomeControl.Home.Generator
import HomeControl.Network.Address
import HomeControl.Protocol.Message
import HomeControl.Settings.Section
import HomeControl.Settings.Stored
import HomeControl.Settings.Toml.Document
import HomeControl.Text.Quoted

/-!
# Settings of a server

Where a server listens, what home it serves, where its users are listed and how much it reports.
Everything has a default, so an empty document, or none at all, is as good as a full one.
-/

namespace HomeControl

/-- How a server listens. -/
structure ListenSettings where
  /-- The address to listen at. -/
  bindAddress : String := "0.0.0.0"
  /-- The port to listen at. -/
  port : UInt16 := 9070
  /-- How long a wait for connections lasts, in milliseconds. -/
  listenTimeout : UInt64 := 1000
  /-- How long a session waits for its peer before it looks at its updates, in milliseconds. -/
  readTimeout : UInt64 := 1000
  /-- The version that clients must offer. -/
  version : String := protocolVersion
  deriving DecidableEq

/-- Which home is made up at the start. -/
structure HomeSettings where
  /-- The seed of the home. -/
  seed : UInt64 := defaultSeed
  /-- The most devices of a kind. -/
  maxPerKind : UInt8 := defaultMaxPerKind
  deriving DecidableEq

/-- The settings of a server. -/
structure ServerSettings where
  /-- How it listens. -/
  listen : ListenSettings := {}
  /-- Which home it serves. -/
  home : HomeSettings := {}
  /-- The file with its users, seen from the file with these settings. -/
  usersPath : String := "credentials.toml"
  /-- How much it reports. -/
  logLevel : String := "info"
  deriving DecidableEq

/-- The file that holds the settings when no other is named. -/
def defaultSettingsPath : String := "iotp-server.toml"

namespace ListenSettings

/-- Reads the section on listening. -/
def ofSection? (s : Toml.Section) : Option ListenSettings := do
  let bindAddress ← s.string? 0 "bind_address" "0.0.0.0"
  let port ← s.number? 1 "port" UInt16.size 9070
  let listenTimeout ← s.number? 2 "listen_timeout_ms" UInt64.size 1000
  let readTimeout ← s.number? 3 "read_timeout_ms" UInt64.size 1000
  let version ← s.string? 4 "version" protocolVersion
  return {
    bindAddress, version
    port := UInt16.ofNat port
    listenTimeout := UInt64.ofNat listenTimeout
    readTimeout := UInt64.ofNat readTimeout }

/-- The address and the port to listen at, if the address is one. -/
def address? (l : ListenSettings) : Option SocketAddress :=
  (IpAddress.parse? l.bindAddress).map fun ip => { ip, port := l.port }

/-- What is said of an address that is none. -/
def addressComplaint (l : ListenSettings) : String :=
  "invalid bind address " ++ Text.quoted l.bindAddress

end ListenSettings

/-- Reads the section on the home. -/
def HomeSettings.ofSection? (s : Toml.Section) : Option HomeSettings := do
  let seed ← s.number? 0 "seed" UInt64.size defaultSeed.toNat
  let maxPerKind ← s.number? 1 "max_devices_per_type" UInt8.size defaultMaxPerKind.toNat
  return { seed := UInt64.ofNat seed, maxPerKind := UInt8.ofNat maxPerKind }

namespace ServerSettings

/-- The settings that a document holds. -/
def ofDocument? (document : Toml.Entries) : Option ServerSettings := do
  let listen ← ListenSettings.ofSection? (← Toml.Section.ofDocument? document "server")
  let home ← HomeSettings.ofSection? (← Toml.Section.ofDocument? document "home")
  let usersPath ←
    (← Toml.Section.ofDocument? document "auth").string? 0 "credentials_path" "credentials.toml"
  let logLevel ← (← Toml.Section.ofDocument? document "logging").string? 0 "level" "info"
  return { listen, home, usersPath, logLevel }

/-- Loads settings; without a file everything has its default. -/
def load : Stored → Except LoadError ServerSettings
  | .missing => .ok {}
  | stored =>
    match stored.text? with
    | none => .error .unreadable
    | some text =>
      match (Toml.parse? text).bind ofDocument? with
      | none => .error .malformed
      | some settings => .ok settings

end ServerSettings

end HomeControl

import HomeControl.Login.Users
import HomeControl.Protocol.Line
import HomeControl.Protocol.LineReader
import HomeControl.Text.Blank

/-!
# The raw console

A console for trying a server by hand. Every line typed goes to the server as it is, so malformed and
untimely messages can be sent on purpose; every line of the server is decoded and shown. After a
CHALLENGE the console also shows the line that answers it, if it knows a login.
-/

namespace HomeControl

/-- Why a raw console stops. -/
inductive RawEnd where
  /-- Nothing more is typed. -/
  | inputClosed
  /-- The server closed the connection. -/
  | serverClosed
  deriving DecidableEq

/-- A raw console. -/
structure RawConsole where
  /-- The login with which challenges are answered. -/
  login : Option Login
  /-- The reader of the server's stream. -/
  reader : LineReader := {}
  /-- Why it stopped, if it did. -/
  ended : Option RawEnd := none
  deriving DecidableEq

namespace RawConsole

/-- The first line shown. -/
def greeting : String :=
  "raw mode: type hex messages, e.g. 00 for PING or 09 for TERMINATE\n"

/-- What a typed line sends to the server: the line without the blanks around it; nothing if it is
blank. -/
def typed (c : RawConsole) (line : String) : Bytes :=
  let text := Text.trim line
  if c.ended.isSome || text.isEmpty then [] else Utf8.encode text ++ [lineFeed]

/-- The line that answers a challenge, as shown. -/
def answerTo (login : Login) (challenge : Bytes) : String :=
  match Line.encode (.response (login.responseBody challenge)) with
  | .ok line =>
    "   RESPONSE for " ++ login.username ++ ": " ++ Text.trimEnd (Utf8.decodeLossy line) ++ "\n"
  | .error _ => ""

/-- How a line of the server is shown. -/
def showLine (login : Option Login) (line : Bytes) : String :=
  match Line.decode line with
  | .error e =>
    "<- " ++ Text.trimEnd (Utf8.decodeLossy line) ++ " (undecodable: " ++ e.message ++ ")\n"
  | .ok m =>
    let answer := match login with
      | some login => if m.keycode = .challenge then answerTo login m.payload else ""
      | none => ""
    "<- " ++ m.describe ++ "\n" ++ answer

/-- How a frame is shown. -/
def showFrame (login : Option Login) : Frame → String
  | .line line => showLine login line
  | .tooLong => s!"<- (line over {maxLineLength} bytes skipped)\n"

/-- Bytes arrive from the server; returns what is shown. -/
def receive (c : RawConsole) (bytes : Bytes) : RawConsole × String :=
  if c.ended.isSome then (c, "")
  else
    let (reader, frames) := c.reader.frames bytes
    ({ c with reader }, String.join (frames.map (showFrame c.login)))

/-- The server closes the connection; returns what is shown. -/
def serverCloses (c : RawConsole) : RawConsole × String :=
  if c.ended.isSome then (c, "")
  else
    let (reader, last) := c.reader.finish
    ({ c with reader, ended := some .serverClosed },
      String.join (last.toList.map (showFrame c.login)) ++ "server closed the connection\n")

/-- Nothing more is typed. -/
def inputCloses (c : RawConsole) : RawConsole :=
  if c.ended.isSome then c else { c with ended := some .inputClosed }

end RawConsole

end HomeControl

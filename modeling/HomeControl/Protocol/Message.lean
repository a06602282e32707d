import HomeControl.Protocol.Error
import HomeControl.Device.Action
import HomeControl.Text.Utf8

/-!
# Messages

A message is a keycode with a payload whose layout depends on the keycode:

* PING and TERMINATE have an empty payload;
* VERSION and ERROR carry text;
* CHALLENGE carries random bytes and RESPONSE the answer to them;
* INITIAL carries a snapshot;
* ACTION carries a sequence number and an action's target, UPDATE the target alone;
* CONFIRM carries a sequence number and a byte that is 1 if the action was accepted and 0 if not.
-/

namespace HomeControl

/-- The protocol version of this library. -/
def protocolVersion : String := "IOTP 0001"

/-- A keycode with its payload. -/
structure Message where
  /-- What the message is. -/
  keycode : Keycode
  /-- What it carries. -/
  payload : Bytes := []
  deriving DecidableEq

namespace Message

/-- The sentinel with which a machine asks itself for its next message. -/
def internal : Message := { keycode := .internal }

/-- The sentinel that asks the session for an action of its user. -/
def waitUserInput : Message := { keycode := .waitUserInput }

/-- The message that opens a conversation. -/
def ping : Message := { keycode := .ping }

/-- The message that ends a conversation. -/
def terminate : Message := { keycode := .terminate }

/-- Offers a version. -/
def version (text : String) : Message :=
  { keycode := .version, payload := Utf8.encode text }

/-- Reports an error. -/
def error (text : String) : Message :=
  { keycode := .error, payload := Utf8.encode text }

/-- The error for most violations. -/
def errorGeneral : Message := error "General error"

/-- The error for a PING that carries something. -/
def errorPing : Message := error "Ping error"

/-- The error for another version. -/
def errorVersion : Message := error "Unsupported version"

/-- The error for a wrong response. -/
def errorAuth : Message := error "Failed authentication"

/-- Asks for a response to a challenge. -/
def challenge (bytes : Bytes) : Message :=
  { keycode := .challenge, payload := bytes }

/-- Answers a challenge with a response body. -/
def response (body : Bytes) : Message :=
  { keycode := .response, payload := body }

/-- Hands over a snapshot. -/
def initial (snapshot : Bytes) : Message :=
  { keycode := .initial, payload := snapshot }

/-- Asks for an action. -/
def action (a : Action) : Message :=
  { keycode := .action, payload := a.sequence :: a.target }

/-- Reports an action. -/
def update (a : Action) : Message :=
  { keycode := .update, payload := a.target }

/-- Accepts or denies the action with a sequence number. -/
def confirm (sequence : UInt8) (accepted : Bool) : Message :=
  { keycode := .confirm, payload := [sequence, if accepted then 1 else 0] }

/-- The payload as text, if it is text. -/
def text? (m : Message) : Option String :=
  Utf8.decode? m.payload

/-- The payload as text, with U+FFFD where it is none. -/
def lossyText (m : Message) : String :=
  Utf8.decodeLossy m.payload

/-- Refuses a message with another keycode. -/
def expect (m : Message) (k : Keycode) : Except ProtocolError Unit :=
  if m.keycode = k then .ok ()
  else .error (.malformedPayload ("expected " ++ k.name ++ ", got " ++ m.keycode.name))

/-- Reads an action's target. -/
def targetOf (sequence : UInt8) (bs : Bytes) : Except ProtocolError Action :=
  match Action.ofTarget? sequence bs with
  | some a => .ok a
  | none =>
    let given := bs.length
    .error (.malformedPayload s!"device action needs at least 3 bytes, got {given}")

/-- Reads the action an ACTION asks for. -/
def parseAction (m : Message) : Except ProtocolError Action := do
  m.expect .action
  match m.payload with
  | sequence :: target => targetOf sequence target
  | [] => throw (.malformedPayload "ACTION payload is empty")

/-- Reads the action an UPDATE reports; it has sequence number zero. -/
def parseUpdate (m : Message) : Except ProtocolError Action := do
  m.expect .update
  targetOf 0 m.payload

/-- What a CONFIRM says. -/
structure Confirmation where
  /-- The number of the action. -/
  sequence : UInt8
  /-- Whether it was accepted. -/
  accepted : Bool
  deriving DecidableEq

/-- Reads a CONFIRM. -/
def parseConfirm (m : Message) : Except ProtocolError Confirmation := do
  m.expect .confirm
  match m.payload with
  | [sequence, 0] => return { sequence, accepted := false }
  | [sequence, 1] => return { sequence, accepted := true }
  | other =>
    let shown := Text.byteList other
    throw (.malformedPayload ("CONFIRM payload must be [seq, 0|1], got " ++ shown))

/-- One line that shows a message: text in quotes, any other payload in hexadecimal. -/
def describe (m : Message) : String :=
  if m.keycode = .version ∨ m.keycode = .error then
    m.keycode.name ++ " \"" ++ m.lossyText ++ "\""
  else if m.payload.isEmpty then m.keycode.name
  else m.keycode.name ++ " " ++ Hex.text m.payload

/-- The bytes of a message, its keycode first. -/
def bytes (m : Message) : Except ProtocolError Bytes :=
  match m.keycode.wire? with
  | some b => .ok (b :: m.payload)
  | none => .error (.localOnly m.keycode)

/-- Reads the bytes of a message. -/
def ofBytes : Bytes → Except ProtocolError Message
  | [] => .error .empty
  | b :: payload =>
    match Keycode.ofWire? b with
    | some keycode => .ok { keycode, payload }
    | none => .error (.unknownKeycode b)

end Message

end HomeControl

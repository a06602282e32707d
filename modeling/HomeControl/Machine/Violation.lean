import HomeControl.Device.Basic
import HomeControl.Protocol.Message

/-!
# States and violations

The states of a conversation, which both machines share, and what a peer can do wrong. Each state
names the side that waits and what it waits for. Every violation takes the machine that notices it
back to `idle` and is reported to the peer in one of four ERROR messages.
-/

namespace HomeControl

/-- The number a server gives to a connection. -/
abbrev SessionId := UInt64

/-- Where a conversation stands. -/
inductive State where
  /-- Nothing has been said. -/
  | idle
  /-- The client waits for the server's version. -/
  | clientAwaitsVersion
  /-- The server waits for the client's version. -/
  | serverAwaitsVersion
  /-- The client waits for a challenge. -/
  | clientAwaitsChallenge
  /-- The server waits for the response. -/
  | serverAwaitsResponse
  /-- The client waits for the snapshot. -/
  | clientAwaitsInit
  /-- The server waits for an action. -/
  | serverAwaitsAction
  /-- The client waits for the confirmation of its action. -/
  | clientAwaitsConfirm
  deriving DecidableEq, Repr

namespace State

/-- Every state, in the order of a conversation. -/
def all : List State :=
  [idle, clientAwaitsVersion, serverAwaitsVersion, clientAwaitsChallenge, serverAwaitsResponse,
   clientAwaitsInit, serverAwaitsAction, clientAwaitsConfirm]

/-- The short name of a state. -/
def name : State → String
  | idle => "IDLE"
  | clientAwaitsVersion => "C_AWAITS_VERSION"
  | serverAwaitsVersion => "S_AWAITS_VERSION"
  | clientAwaitsChallenge => "C_AWAITS_CHALLENGE"
  | serverAwaitsResponse => "S_AWAITS_RESPONSE"
  | clientAwaitsInit => "C_AWAITS_INIT"
  | serverAwaitsAction => "S_AWAITS_ACTION"
  | clientAwaitsConfirm => "C_AWAITS_CONFIRM"

/-- The name of a state in diagnostics. -/
def longName : State → String
  | idle => "Idle"
  | clientAwaitsVersion => "ClientAwaitsVersion"
  | serverAwaitsVersion => "ServerAwaitsVersion"
  | clientAwaitsChallenge => "ClientAwaitsChallenge"
  | serverAwaitsResponse => "ServerAwaitsResponse"
  | clientAwaitsInit => "ClientAwaitsInit"
  | serverAwaitsAction => "ServerAwaitsAction"
  | clientAwaitsConfirm => "ClientAwaitsConfirm"

end State

/-- What a peer did wrong. -/
inductive Violation where
  /-- A message that the state does not expect. -/
  | unexpected (state : State) (keycode : Keycode)
  /-- A PING that carries something. -/
  | malformedPing
  /-- Another version than ours. -/
  | versionMismatch (offered : String)
  /-- A response that does not answer the challenge. -/
  | authenticationFailed
  /-- A line or payload that cannot be read. -/
  | malformed (error : ProtocolError)
  /-- A snapshot that cannot be read. -/
  | snapshot (error : DeviceError)
  /-- A confirmation of another action than the one that waits. -/
  | confirmMismatch (expected got : UInt8)
  deriving DecidableEq

namespace Violation

/-- The text of a violation. -/
def message : Violation → String
  | unexpected state keycode => keycode.name ++ " is not valid in state " ++ state.name
  | malformedPing => "PING must have an empty payload"
  | versionMismatch offered => "peer speaks version " ++ Text.quoted offered
  | authenticationFailed => "challenge response rejected"
  | malformed error => "malformed message: " ++ error.message
  | snapshot error => "unusable home snapshot: " ++ error.message
  | confirmMismatch expected got => s!"CONFIRM for #{got} while #{expected} is pending"

/-- The ERROR that reports a violation to the peer. -/
def reply : Violation → Message
  | malformedPing => .errorPing
  | versionMismatch _ => .errorVersion
  | authenticationFailed => .errorAuth
  | unexpected _ _ => .errorGeneral
  | malformed _ => .errorGeneral
  | snapshot _ => .errorGeneral
  | confirmMismatch _ _ => .errorGeneral

@[simp] theorem reply_keycode (v : Violation) : v.reply.keycode = .error := by
  cases v <;> rfl

end Violation

end HomeControl

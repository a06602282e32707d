import HomeControl.Device.Kind
import HomeControl.Device.Action

/-!
# Requests

What a user asks a client session for: an operation on a device, or the end of the session.
-/

namespace HomeControl

/-- What a user asks for. -/
inductive Request where
  /-- Run an operation on a device. -/
  | act (kind : Kind) (index opcode : UInt8) (params : Bytes)
  /-- End the session. -/
  | terminate
  deriving DecidableEq

/-- The action a request comes to under a sequence number; ending the session is none. -/
def Request.toAction? (sequence : UInt8) : Request → Option Action
  | .act kind index opcode params => some { sequence, kind := kind.code, index, opcode, params }
  | .terminate => none

end HomeControl

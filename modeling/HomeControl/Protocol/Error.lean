import HomeControl.Protocol.Keycode
import HomeControl.Text.Hex
import HomeControl.Text.Quoted

/-!
# Protocol errors

Why a line or a payload cannot be read, or a message cannot be written.
-/

namespace HomeControl

/-- Why a message cannot be read or written. -/
inductive ProtocolError where
  /-- There is not even a keycode. -/
  | empty
  /-- The line is not hexadecimal text. -/
  | invalidHex (reason : String)
  /-- The first byte is no keycode. -/
  | unknownKeycode (byte : UInt8)
  /-- The keycode never travels. -/
  | localOnly (keycode : Keycode)
  /-- The payload does not have the layout its keycode requires. -/
  | malformedPayload (reason : String)
  /-- More than the given number of bytes came without a line feed. -/
  | lineTooLong (limit : Nat)
  deriving DecidableEq

/-- The text of a fault in hexadecimal text. A byte is shown as the character of the same number. -/
def Hex.Fault.message : Hex.Fault → String
  | .oddLength => "Odd number of digits"
  | .badDigit byte position =>
    let shown := Text.quotedChar (Char.ofNat byte.toNat)
    "Invalid character " ++ shown ++ s!" at position {position}"

/-- Two upper-case hexadecimal digits. -/
def upperHex (b : UInt8) : String :=
  (Hex.text [b]).map Char.toUpper

/-- The text of an error. -/
def ProtocolError.message : ProtocolError → String
  | empty => "empty message"
  | invalidHex reason => "invalid hex encoding: " ++ reason
  | unknownKeycode byte => "unknown keycode: 0x" ++ upperHex byte
  | localOnly keycode => keycode.name ++ " is a local sentinel and cannot be sent"
  | malformedPayload reason => "malformed payload: " ++ reason
  | lineTooLong limit => s!"line longer than {limit} bytes"

end HomeControl

import HomeControl.Bytes

/-!
# Keycodes

What a message is. Ten keycodes travel as the first byte of a message; two more only ever pass
between a protocol machine and the session that drives it and have no byte.
-/

namespace HomeControl

/-- The type of a message. -/
inductive Keycode where
  /-- A machine asking itself for its next message; never sent. -/
  | internal
  /-- The session has to collect an action from its user; never sent. -/
  | waitUserInput
  /-- Opens a conversation. -/
  | ping
  /-- Offers a protocol version. -/
  | version
  /-- Reports a violation. -/
  | error
  /-- Asks the client to prove a login. -/
  | challenge
  /-- Answers a challenge. -/
  | response
  /-- Hands over the snapshot of the home. -/
  | initial
  /-- Asks for an operation on a device. -/
  | action
  /-- Accepts or denies an action. -/
  | confirm
  /-- Reports an action of another client. -/
  | update
  /-- Ends the conversation. -/
  | terminate
  deriving DecidableEq, Repr

namespace Keycode

/-- The byte a keycode is written as. -/
def wire? : Keycode → Option UInt8
  | internal => none
  | waitUserInput => none
  | ping => some 0
  | version => some 1
  | error => some 2
  | challenge => some 3
  | response => some 4
  | initial => some 5
  | action => some 6
  | confirm => some 7
  | update => some 8
  | terminate => some 9

/-- The keycode a byte stands for. -/
def ofWire? : UInt8 → Option Keycode
  | 0 => some ping
  | 1 => some version
  | 2 => some error
  | 3 => some challenge
  | 4 => some response
  | 5 => some initial
  | 6 => some action
  | 7 => some confirm
  | 8 => some update
  | 9 => some terminate
  | _ => none

/-- All keycodes. -/
def all : List Keycode :=
  [internal, waitUserInput, ping, version, error, challenge, response, initial, action, confirm,
   update, terminate]

/-- Whether a keycode never travels. -/
def isLocal (k : Keycode) : Bool :=
  k.wire?.isNone

/-- The name of a keycode. -/
def name : Keycode → String
  | internal => "INTERNAL"
  | waitUserInput => "WAIT_USER_INPUT"
  | ping => "PING"
  | version => "VERSION"
  | error => "ERROR"
  | challenge => "CHALLENGE"
  | response => "RESPONSE"
  | initial => "INITIAL"
  | action => "ACTION"
  | confirm => "CONFIRM"
  | update => "UPDATE"
  | terminate => "TERMINATE"

theorem ofWire?_of_wire? {k : Keycode} {b : UInt8} (h : k.wire? = some b) : ofWire? b = some k := by
  cases k <;> simp_all [wire?] <;> subst h <;> rfl

end Keycode

end HomeControl

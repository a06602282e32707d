import HomeControl.Text.Quoted

/-!
# Actions

A request to run one operation on one device, as it travels: raw bytes, which may name a kind, a
device or an operation that does not exist. Such an action is well formed and is refused by the home.
-/

namespace HomeControl

/-- A request to run one operation on one device. -/
structure Action where
  /-- The number that pairs the request with its confirmation. -/
  sequence : UInt8
  /-- The code of the device's kind. -/
  kind : UInt8
  /-- The device's position among those of its kind. -/
  index : UInt8
  /-- The operation. -/
  opcode : UInt8
  /-- The operation's arguments. -/
  params : Bytes
  deriving DecidableEq

namespace Action

/-- The part of an action that says what to do, without its number. -/
def target (a : Action) : Bytes :=
  a.kind :: a.index :: a.opcode :: a.params

/-- Reads what `target` writes, under a given number. -/
def ofTarget? (sequence : UInt8) : Bytes → Option Action
  | kind :: index :: opcode :: params => some { sequence, kind, index, opcode, params }
  | _ => none

/-- One line that describes an action. -/
def describe (a : Action) : String :=
  let params := Text.byteList a.params
  s!"#{a.sequence} type={a.kind} device={a.index} opcode={a.opcode} params={params}"

theorem ofTarget?_target (a : Action) (sequence : UInt8) :
    ofTarget? sequence a.target = some { a with sequence } :=
  rfl

end Action

end HomeControl

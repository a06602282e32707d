import HomeControl.Device.Kind
import HomeControl.Text.Column

/-!
# Devices

A device is a plain value: a kind, a name, a state and its parameter bytes. `Device.make` admits only
states and parameter counts that the kind allows, and `Device.apply` runs one operation, checking
everything before it changes anything.
-/

namespace HomeControl

/-- Why a device or a home refuses something. -/
inductive DeviceError where
  /-- No kind has this code. -/
  | unknownKind (code : UInt8)
  /-- The home has no device of the kind at this index. -/
  | unknownDevice (kind : Kind) (index : UInt8)
  /-- The kind has no such operation. -/
  | unknownOpcode (kind : Kind) (opcode : UInt8)
  /-- The operation takes another number of arguments. -/
  | wrongArgumentCount (operation : String) (expected given : Nat)
  /-- The device is in the target state already. -/
  | alreadyInState (name state : String)
  /-- The operation is not possible in the state the device is in. -/
  | invalidInState (operation name state : String)
  /-- A description that no device of the kind can have. -/
  | invalidDevice (kind : Kind) (reason : String)
  /-- A byte string that is no snapshot. -/
  | malformedSnapshot (reason : String)
  deriving DecidableEq

/-- The text of an error. -/
def DeviceError.message : DeviceError → String
  | unknownKind code => s!"unknown device type code {code}"
  | unknownDevice kind index => s!"no " ++ kind.label ++ s!" with index {index}"
  | unknownOpcode kind opcode => s!"illegal opcode {opcode} for " ++ kind.label
  | wrongArgumentCount operation expected given =>
    operation ++ s!" expects {expected} parameter(s), given {given}"
  | alreadyInState name state => name ++ " is already " ++ state
  | invalidInState operation name state =>
    "cannot " ++ operation ++ " " ++ name ++ " while it is " ++ state
  | invalidDevice kind reason => "invalid " ++ kind.label ++ " description: " ++ reason
  | malformedSnapshot reason => "malformed home snapshot: " ++ reason

/-- A controllable device. -/
structure Device where
  /-- Its kind. -/
  kind : Kind
  /-- Its name; not necessarily unique. -/
  name : String
  /-- The position of its state among the states of the kind. -/
  state : UInt8
  /-- One byte for each parameter slot of the kind. -/
  params : Bytes
  deriving DecidableEq

namespace Device

/-- A device as its kind allows it: the state is one of the kind's and every slot has its byte. -/
def Legal (d : Device) : Prop :=
  d.state.toNat < d.kind.states.length ∧ d.params.length = d.kind.slots.length

instance (d : Device) : Decidable d.Legal :=
  inferInstanceAs (Decidable (_ ∧ _))

/-- Builds a device, refusing what is not legal; the state is looked at first. -/
def make (kind : Kind) (name : String) (state : UInt8) (params : Bytes) :
    Except DeviceError Device :=
  if kind.states.length ≤ state.toNat then
    .error (.invalidDevice kind s!"state {state} out of range")
  else if params.length ≠ kind.slots.length then
    let expected := kind.slots.length
    let given := params.length
    .error (.invalidDevice kind s!"expected {expected} parameter(s), got {given}")
  else
    .ok { kind, name, state, params }

/-- The name of the state the device is in. -/
def stateName (d : Device) : String :=
  d.kind.stateName d.state

/-- Runs the effect of an operation whose arguments have been counted. -/
def run (d : Device) (op : Operation) (args : Bytes) : Except DeviceError Device :=
  match op.effect with
  | .enter target =>
    if d.state = target then .error (.alreadyInState d.name (d.kind.stateName target))
    else .ok { d with state := target }
  | .adjust slot needs =>
    if d.state ≠ needs then .error (.invalidInState op.name d.name d.stateName)
    else
      match args with
      | arg :: _ => .ok { d with params := d.params.set slot arg }
      | [] => .error (.wrongArgumentCount op.name op.arguments.length 0)

/-- Applies one opcode with its arguments. -/
def apply (d : Device) (opcode : UInt8) (args : Bytes) : Except DeviceError Device :=
  match d.kind.operation? opcode with
  | none => .error (.unknownOpcode d.kind opcode)
  | some op =>
    if args.length ≠ op.arguments.length then
      .error (.wrongArgumentCount op.name op.arguments.length args.length)
    else
      d.run op args

/-- One line that describes a device: name and state in columns, then every parameter. -/
def describe (d : Device) : String :=
  let params := (d.kind.slots.zip d.params).map fun slot =>
    " " ++ slot.1 ++ ": " ++ Text.padRight 4 (toString slot.2.toNat)
  Text.padRight 16 d.name ++ " " ++ Text.padRight 10 d.stateName ++ String.join params

end Device

end HomeControl

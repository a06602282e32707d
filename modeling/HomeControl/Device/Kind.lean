import HomeControl.Bytes

/-!
# Kinds of devices

The five kinds and what the protocol knows of each: the names of its states, its parameter slots, and
its operations with their effects. Everything else that depends on a kind reads these tables.
-/

namespace HomeControl

/-- A kind of device. -/
inductive Kind where
  /-- A dimmable light. -/
  | light
  /-- A window blind. -/
  | blind
  /-- A thermostat. -/
  | thermo
  /-- A television. -/
  | tv
  /-- A security lock. -/
  | slock
  deriving DecidableEq, Repr

/-- What an operation does to a device. -/
inductive Effect where
  /-- Moves the device to another state; refused if it is there already. -/
  | enter (state : UInt8)
  /-- Overwrites one parameter slot with the single argument; only in the state `needs`. -/
  | adjust (slot : Nat) (needs : UInt8)
  deriving DecidableEq, Repr

/-- One operation of a kind. -/
structure Operation where
  /-- The code that selects the operation on the wire. -/
  opcode : UInt8
  /-- What people call it. -/
  name : String
  /-- What people call its arguments, in wire order. -/
  arguments : List String
  /-- What it does. -/
  effect : Effect
  deriving DecidableEq, Repr

namespace Operation

/-- An operation without arguments that moves to a state. -/
def enter (opcode : UInt8) (name : String) (state : UInt8) : Operation :=
  { opcode, name, arguments := [], effect := .enter state }

/-- An operation with one argument that overwrites a slot. -/
def adjust (opcode : UInt8) (name argument : String) (slot : Nat) (needs : UInt8) : Operation :=
  { opcode, name, arguments := [argument], effect := .adjust slot needs }

end Operation

namespace Kind

/-- Every kind, in the order of the codes. Homes and snapshots list devices in this order. -/
def all : List Kind :=
  [light, blind, thermo, tv, slock]

/-- The code of a kind on the wire. -/
def code : Kind → UInt8
  | light => 0
  | blind => 1
  | thermo => 2
  | tv => 3
  | slock => 4

/-- The kind with a code. -/
def ofCode? : UInt8 → Option Kind
  | 0 => some light
  | 1 => some blind
  | 2 => some thermo
  | 3 => some tv
  | 4 => some slock
  | _ => none

/-- What people call a kind. -/
def label : Kind → String
  | light => "light"
  | blind => "blind"
  | thermo => "thermo"
  | tv => "tv"
  | slock => "slock"

/-- The names of the states; a state is a position in this list. -/
def states : Kind → List String
  | light => ["OFF", "ON"]
  | blind => ["UP", "DOWN"]
  | thermo => ["OFF", "ON"]
  | tv => ["OFF", "ON"]
  | slock => ["OFF", "ON", "ARMED"]

/-- The names of the parameter slots. -/
def slots : Kind → List String
  | light => ["dim-level"]
  | blind => ["dim-level"]
  | thermo => ["temp"]
  | tv => ["channel", "volume"]
  | slock => []

/-- The operations. -/
def operations : Kind → List Operation
  | light =>
    [.enter 0 "Turn ON" 1, .enter 1 "Turn OFF" 0, .adjust 2 "Dim" "Dim level" 0 1]
  | blind =>
    [.enter 0 "Put down" 1, .enter 1 "Pull up" 0, .adjust 2 "Dim" "Dim level" 0 1]
  | thermo =>
    [.enter 0 "Turn ON" 1, .enter 1 "Turn OFF" 0, .adjust 2 "Set temperature" "Temperature" 0 1]
  | tv =>
    [.enter 0 "Turn ON" 1, .enter 1 "Turn OFF" 0, .adjust 2 "Set channel" "Channel" 0 1,
     .adjust 3 "Set volume" "Volume" 1 1]
  | slock =>
    [.enter 0 "Turn ON" 1, .enter 1 "Turn OFF" 0, .enter 2 "Arm" 2]

/-- The operation an opcode selects. -/
def operation? (k : Kind) (opcode : UInt8) : Option Operation :=
  k.operations.find? fun op => op.opcode == opcode

/-- The name of a state; a question mark for a number that is no state of the kind. -/
def stateName (k : Kind) (state : UInt8) : String :=
  (k.states[state.toNat]?).getD "?"

end Kind

end HomeControl

import HomeControl.Home.Basic
import HomeControl.Text.Blank
import HomeControl.Text.Utf8

/-!
# Snapshots

The bytes in which a home is handed to a client: for each kind in order, a count byte and then one
record for each device, namely a name field of sixteen bytes, the state and the parameters. A name is
cut or filled with spaces to fit its field; reading a field puts U+FFFD where the cut fell inside a
character and drops trailing blanks.
-/

namespace HomeControl

/-- The length of a name field. -/
def nameLength : Nat := 16

namespace Device

/-- The name field of a device. -/
def nameField (d : Device) : Bytes :=
  let name := (Utf8.encode d.name).take nameLength
  name ++ List.replicate (nameLength - name.length) 0x20

/-- The record of a device. -/
def record (d : Device) : Bytes :=
  d.nameField ++ d.state :: d.params

/-- The name in a name field. -/
def nameOfField (field : Bytes) : String :=
  Text.trimEnd (Utf8.decodeLossy field)

end Device

/-- A place in a snapshot that is being read. -/
structure Cursor where
  /-- The number of bytes read. -/
  position : Nat := 0
  /-- The bytes not read yet. -/
  rest : Bytes

namespace Cursor

/-- Reads the next `n` bytes; `what` names them if there are fewer. -/
def take (c : Cursor) (n : Nat) (what : String) : Except DeviceError (Bytes × Cursor) :=
  let field := c.rest.take n
  if field.length < n then
    .error (.malformedSnapshot (s!"truncated while reading " ++ what ++ s!" at byte {c.position}"))
  else
    .ok (field, { position := c.position + n, rest := c.rest.drop n })

/-- Reads one byte. -/
def takeByte (c : Cursor) (what : String) : Except DeviceError (UInt8 × Cursor) := do
  let (field, c) ← c.take 1 what
  return (field.headD 0, c)

/-- Reads the record of a device of the given kind. -/
def takeDevice (c : Cursor) (kind : Kind) : Except DeviceError (Device × Cursor) := do
  let (name, c) ← c.take nameLength "device name"
  let (state, c) ← c.takeByte "device state"
  let (params, c) ← c.take kind.slots.length "device parameters"
  match Device.make kind (Device.nameOfField name) state params with
  | .ok d => return (d, c)
  | .error e => throw (.malformedSnapshot e.message)

/-- Reads `n` records and adds their devices to a home. -/
def takeDevices (kind : Kind) : Nat → Cursor → Home → Except DeviceError (Home × Cursor)
  | 0, c, h => .ok (h, c)
  | n + 1, c, h => do
    let (d, c) ← c.takeDevice kind
    let (h, _) ← h.add d
    takeDevices kind n c h

/-- Reads the groups of the given kinds and adds their devices to a home. -/
def takeGroups : List Kind → Cursor → Home → Except DeviceError (Home × Cursor)
  | [], c, h => .ok (h, c)
  | kind :: kinds, c, h => do
    let (count, c) ← c.takeByte "device count"
    let (h, c) ← takeDevices kind count.toNat c h
    takeGroups kinds c h

end Cursor

namespace Home

/-- The part of a snapshot that holds the devices of one kind. -/
def groupSnapshot (ds : List Device) : Bytes :=
  UInt8.ofNat ds.length :: ds.flatMap Device.record

/-- The snapshot of a home. -/
def snapshot (h : Home) : Bytes :=
  Kind.all.flatMap fun k => groupSnapshot (h.group k)

/-- Reads a snapshot, which has to end where the last group does. -/
def ofSnapshot (bs : Bytes) : Except DeviceError Home := do
  let (h, c) ← Cursor.takeGroups Kind.all { rest := bs } empty
  match c.rest.length with
  | 0 => return h
  | extra => throw (.malformedSnapshot s!"{extra} trailing byte(s)")

end Home

end HomeControl

import HomeControl.Home.Basic
import HomeControl.Random.Draw

/-!
# Generated homes

A home made up from a seed, so that a server without devices of its own has something to show. The
same seed gives the same homes in the same order.
-/

namespace HomeControl

/-- The seed used when none is set. -/
def defaultSeed : UInt64 := 4

/-- The most devices of a kind when no number is set. -/
def defaultMaxPerKind : UInt8 := 3

/-- The rooms devices are named after. -/
def rooms : List String :=
  ["bedroom", "kitchen", "bathroom", "dining", "living", "garage", "closet", "hallway", "basement",
   "laundry", "study"]

/-- The least and the greatest value a parameter slot is generated with. -/
def slotRange (slot : String) : Nat × Nat :=
  if slot = "temp" then (15, 30)
  else if slot = "channel" then (1, 99)
  else (0, 100)

/-- A source of homes with one up to `maxPerKind` devices of every kind. -/
structure Generator where
  /-- Where the draws come from. -/
  stream : Random.Stream
  /-- The most devices of a kind; at least one. -/
  maxPerKind : UInt8
  deriving DecidableEq

namespace Generator

open HomeControl.Random

/-- A generator at its start. -/
def make (seed : UInt64) (maxPerKind : UInt8) : Generator :=
  { stream := Stream.ofSeed seed, maxPerKind := if maxPerKind = 0 then 1 else maxPerKind }

/-- Draws the room, the state and the parameters of a device; no draw refuses more than `tries` words. -/
def drawDevice (tries : Nat) (k : Kind) : Draw (Except DeviceError Device) := do
  let room ← position tries rooms.length
  let state ← wideBelow tries k.states.length
  let params ← k.slots.mapM fun slot => byteBetween tries (slotRange slot).1 (slotRange slot).2
  let name := rooms.getD room "spare" ++ " " ++ k.label
  return Device.make k name (UInt8.ofNat state) params

/-- Draws `n` devices and adds those that the home takes. -/
def drawDevices (tries : Nat) (k : Kind) : Nat → Home → Draw Home
  | 0, h => return h
  | n + 1, h => do
    let d ← drawDevice tries k
    match d.bind h.add with
    | .ok (h, _) => drawDevices tries k n h
    | .error _ => drawDevices tries k n h

/-- Draws the devices of the given kinds, for each kind the number first. -/
def drawGroups (tries : Nat) (maxPerKind : UInt8) : List Kind → Home → Draw Home
  | [], h => return h
  | k :: ks, h => do
    let count ← byteBetween tries 1 maxPerKind.toNat
    let h ← drawDevices tries k count.toNat h
    drawGroups tries maxPerKind ks h

/-- The next home, if no draw refuses more than `tries` words. -/
def nextWithin (tries : Nat) (g : Generator) : Option (Home × Generator) :=
  match drawGroups tries g.maxPerKind Kind.all Home.empty g.stream with
  | some (h, stream) => some (h, { g with stream })
  | none => none

/-- The next home; `none` if a draw gave up. -/
def next (g : Generator) : Option (Home × Generator) :=
  g.nextWithin drawLimit

end Generator

end HomeControl

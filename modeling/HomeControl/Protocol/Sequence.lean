import HomeControl.Bytes

/-!
# Sequence numbers

A counter that numbers sessions and actions. It counts in 64 bits and starts again at zero after the
last number; actions carry its lowest byte.
-/

namespace HomeControl

/-- A counter; its value is the number given out next. -/
structure Counter where
  /-- The number given out next. -/
  value : UInt64 := 0
  deriving DecidableEq

namespace Counter

/-- Takes a number. -/
def next (c : Counter) : UInt64 × Counter :=
  (c.value, { value := c.value + 1 })

/-- Takes a number and keeps its lowest byte. -/
def nextByte (c : Counter) : UInt8 × Counter :=
  (c.value.toUInt8, { value := c.value + 1 })

end Counter

end HomeControl

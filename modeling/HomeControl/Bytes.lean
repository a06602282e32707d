/-!
# Bytes

Everything that crosses a connection is a finite list of bytes. Lists rather than packed arrays: the
formats of this library are read and written front to back, and a list is what their laws are stated
over.
-/

namespace HomeControl

/-- A finite byte string. -/
abbrev Bytes := List UInt8

/-- The line feed, which ends a line. -/
def lineFeed : UInt8 := 10

/-- The carriage return, which some peers put before the line feed. -/
def carriageReturn : UInt8 := 13

end HomeControl

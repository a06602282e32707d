import HomeControl.Random.Draw

/-!
# Challenges

The random bytes a client has to answer. A challenge never holds a byte that ends a line.
-/

namespace HomeControl

/-- The length of a challenge. -/
def challengeLength : Nat := 16

namespace Challenge

open HomeControl.Random

/-- Whether a byte ends a line. -/
def endsLine (b : UInt8) : Bool :=
  b == lineFeed || b == carriageReturn

/-- Draws sixteen bytes, again and again while one of them ends a line. -/
def drawClean : Nat → Draw Bytes
  | 0 => fun _ => none
  | tries + 1 => fun s =>
    let (bytes, s) := wordBytes 4 s
    if bytes.any endsLine then drawClean tries s else some (bytes, s)

/-- Draws a challenge. -/
def draw : Draw Bytes :=
  drawClean drawLimit

/-- The next challenge of a stream; zeros if the draw gave up. -/
def next (s : Stream) : Bytes × Stream :=
  match draw s with
  | some drawn => drawn
  | none => (List.replicate challengeLength 0, s)

end Challenge

end HomeControl

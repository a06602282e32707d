import HomeControl.Random.Stream

/-!
# Uniform draws

A draw below `n` multiplies a random word by `n`: the high half of the product is the result, and the
low half decides whether the word is accepted, because the words that would favour some results are
drawn again. A draw ends with probability one but not after any fixed number of words, so it is told how
many words it may refuse and gives up then. The programs allow `drawLimit`; no seed that is known comes
near that number.
-/

namespace HomeControl.Random

/-- A computation that draws from a stream; it fails only where a draw gives up. -/
abbrev Draw := StateT Stream Option

/-- How many words the programs allow a draw to refuse. -/
def drawLimit : Nat := 1024

/-- The number of words of `width` bits. -/
def wordCount (width : Nat) : Nat :=
  1 <<< width

/-- Draws below `n` from words of `width` bits, keeping a word if the low half of its product is at
most `zone`. -/
def drawBelow (word : Stream → Nat × Stream) (width n zone : Nat) : Nat → Draw Nat
  | 0 => fun _ => none
  | tries + 1 => fun s =>
    let (v, s) := word s
    let product := v * n
    if product % wordCount width ≤ zone then some (product / wordCount width, s)
    else drawBelow word width n zone tries s

/-- The next 32-bit word as a number. -/
def word32 (s : Stream) : Nat × Stream :=
  let (w, s) := s.next
  (w.toNat, s)

/-- The next 64-bit word as a number. -/
def word64 (s : Stream) : Nat × Stream :=
  let (w, s) := s.next64
  (w.toNat, s)

/-- A number below `n`, which is at least one and fits a word, refusing as few 32-bit words as possible. -/
def below (tries n : Nat) : Draw Nat :=
  drawBelow word32 32 n (wordCount 32 - 1 - (wordCount 32 - n) % n) tries

/-- The number of zero bits above the highest one bit of a `width`-bit number. -/
def leadingZeros (width n : Nat) : Nat :=
  if n = 0 then width else width - (n.log2 + 1)

/-- The bound on the low half that is found by shifting `n` to the top of its word. -/
def shiftZone (width n : Nat) : Nat :=
  n * wordCount (leadingZeros width n) - 1

/-- A position in a list of `n` entries, drawn from 32-bit words. -/
def position (tries n : Nat) : Draw Nat :=
  drawBelow word32 32 n (shiftZone 32 n) tries

/-- A number below `n`, drawn from 64-bit words. -/
def wideBelow (tries n : Nat) : Draw Nat :=
  drawBelow word64 64 n (shiftZone 64 n) tries

/-- A byte between two bounds, both included. -/
def byteBetween (tries low high : Nat) : Draw UInt8 := do
  let v ← below tries (high - low + 1)
  return UInt8.ofNat (low + v)

/-- Four bytes of a word, least significant first. -/
def littleEndian (w : UInt32) : Bytes :=
  [w.toUInt8, (w >>> 8).toUInt8, (w >>> 16).toUInt8, (w >>> 24).toUInt8]

/-- The bytes of the next `n` words. -/
def wordBytes : Nat → Stream → Bytes × Stream
  | 0, s => ([], s)
  | n + 1, s =>
    let (w, s) := s.next
    let (rest, s) := wordBytes n s
    (littleEndian w ++ rest, s)

end HomeControl.Random

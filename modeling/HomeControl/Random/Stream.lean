import HomeControl.Bytes

/-!
# Seeded random words

A stream of 32-bit words from the ChaCha block function with twelve rounds. The key is spread from a
64-bit seed, the nonce is zero and the 64-bit block counter starts at zero, so a seed fixes the whole
stream.
-/

namespace HomeControl.Random

/-- A position in the stream of one seed. -/
structure Stream where
  /-- The eight key words. -/
  key : List UInt32
  /-- The number of the block that follows the buffered words. -/
  block : UInt64 := 0
  /-- The words of the last block that have not been drawn yet. -/
  buffer : List UInt32 := []
  deriving DecidableEq

/-- Rotates a word to the left. -/
def rotl (w : UInt32) (n : UInt32) : UInt32 :=
  (w <<< n) ||| (w >>> (32 - n))

/-- Spreads a seed over `n` key words: each step advances a linear congruential state and takes a
word of it, rotated by its top bits. -/
def spread (seed : UInt64) : Nat → List UInt32
  | 0 => []
  | n + 1 =>
    let s := seed * 6364136223846793005 + 11634580027462260723
    let x := (((s >>> 18) ^^^ s) >>> 27).toUInt32
    let turn := (s >>> 59).toUInt32
    ((x >>> turn) ||| (x <<< ((32 - turn) % 32))) :: spread s n

/-- The stream of a seed, nothing drawn yet. -/
def Stream.ofSeed (seed : UInt64) : Stream :=
  { key := spread seed 8 }

/-- The quarter round on four words of a block. -/
def quarterRound (w : Array UInt32) (i j k l : Nat) : Array UInt32 :=
  let a := w.getD i 0
  let b := w.getD j 0
  let c := w.getD k 0
  let d := w.getD l 0
  let a := a + b
  let d := rotl (d ^^^ a) 16
  let c := c + d
  let b := rotl (b ^^^ c) 12
  let a := a + b
  let d := rotl (d ^^^ a) 8
  let c := c + d
  let b := rotl (b ^^^ c) 7
  (((w.setIfInBounds i a).setIfInBounds j b).setIfInBounds k c).setIfInBounds l d

/-- A round on the columns and one on the diagonals. -/
def doubleRound (w : Array UInt32) : Array UInt32 :=
  let w := quarterRound w 0 4 8 12
  let w := quarterRound w 1 5 9 13
  let w := quarterRound w 2 6 10 14
  let w := quarterRound w 3 7 11 15
  let w := quarterRound w 0 5 10 15
  let w := quarterRound w 1 6 11 12
  let w := quarterRound w 2 7 8 13
  quarterRound w 3 4 9 14

/-- The block before mixing: four constants, the key, the counter and the nonce. -/
def blockInput (key : List UInt32) (counter : UInt64) : List UInt32 :=
  0x61707865 :: 0x3320646e :: 0x79622d32 :: 0x6b206574 :: key
    ++ [counter.toUInt32, (counter >>> 32).toUInt32, 0, 0]

/-- The words of one block. -/
def blockWords (key : List UInt32) (counter : UInt64) : List UInt32 :=
  let input := blockInput key counter
  let mixed := (List.range 6).foldl (fun w _ => doubleRound w) input.toArray
  (mixed.toList.zip input).map fun pair => pair.1 + pair.2

/-- Draws the next word. -/
def Stream.next (s : Stream) : UInt32 × Stream :=
  match s.buffer with
  | w :: rest => (w, { s with buffer := rest })
  | [] =>
    match blockWords s.key s.block with
    | w :: rest => (w, { s with block := s.block + 1, buffer := rest })
    | [] => (0, { s with block := s.block + 1 })

/-- Draws a 64-bit word: the low half comes first. -/
def Stream.next64 (s : Stream) : UInt64 × Stream :=
  let (low, s) := s.next
  let (high, s) := s.next
  (low.toUInt64 ||| (high.toUInt64 <<< 32), s)

end HomeControl.Random

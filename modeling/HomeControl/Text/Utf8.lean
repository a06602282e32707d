import HomeControl.Bytes

/-!
# UTF-8

A byte string is read left to right as a sequence of pieces: each piece is either one scalar value or
one maximal ill-formed stretch (a byte that starts nothing, or the longest beginning of an encoding
that the next byte does not continue). Strict reading asks that every piece be a scalar value; lossy
reading puts U+FFFD for each ill-formed stretch.
-/

namespace HomeControl.Utf8

/-- The encoding of a string. -/
def encode (s : String) : Bytes :=
  s.toList.flatMap String.utf8EncodeChar

/-- How many bytes an encoding that starts with this byte has; zero if none does. -/
def width (lead : UInt8) : Nat :=
  if lead < 0x80 then 1
  else if lead < 0xC2 then 0
  else if lead < 0xE0 then 2
  else if lead < 0xF0 then 3
  else if lead < 0xF5 then 4
  else 0

/-- Whether `b` may follow the bytes `held` inside an encoding. The second byte decides whether the
value is overlong, a surrogate or too large; the others are free. -/
def continues (held : Bytes) (b : UInt8) : Bool :=
  match held with
  | [0xE0] => 0xA0 ≤ b && b ≤ 0xBF
  | [0xED] => 0x80 ≤ b && b ≤ 0x9F
  | [0xF0] => 0x90 ≤ b && b ≤ 0xBF
  | [0xF4] => 0x80 ≤ b && b ≤ 0x8F
  | _ => 0x80 ≤ b && b ≤ 0xBF

/-- The scalar value of a complete encoding. -/
def scalar (bs : Bytes) : Char :=
  match bs with
  | [a] => Char.ofNat a.toNat
  | [a, b] => Char.ofNat (a.toNat % 32 * 64 + b.toNat % 64)
  | [a, b, c] => Char.ofNat (a.toNat % 16 * 4096 + b.toNat % 64 * 64 + c.toNat % 64)
  | [a, b, c, d] =>
    Char.ofNat (a.toNat % 8 * 262144 + b.toNat % 64 * 4096 + c.toNat % 64 * 64 + d.toNat % 64)
  | _ => '\uFFFD'

/-- A reading in progress. -/
structure Scan where
  /-- The bytes of an encoding that is not complete yet. -/
  held : Bytes := []
  /-- The pieces read so far, latest first; `none` is an ill-formed stretch. -/
  pieces : List (Option Char) := []

/-- Takes a byte that no unfinished encoding is waiting for. -/
def Scan.start (s : Scan) (b : UInt8) : Scan :=
  match width b with
  | 0 => { held := [], pieces := none :: s.pieces }
  | 1 => { held := [], pieces := some (scalar [b]) :: s.pieces }
  | _ => { held := [b], pieces := s.pieces }

/-- Takes the next byte. -/
def Scan.push (s : Scan) (b : UInt8) : Scan :=
  match s.held with
  | [] => s.start b
  | lead :: _ =>
    if continues s.held b then
      if s.held.length + 1 = width lead then
        { held := [], pieces := some (scalar (s.held ++ [b])) :: s.pieces }
      else
        { s with held := s.held ++ [b] }
    else
      Scan.start { held := [], pieces := none :: s.pieces } b

/-- The pieces in reading order, once no byte follows. -/
def Scan.finish (s : Scan) : List (Option Char) :=
  match s.held with
  | [] => s.pieces.reverse
  | _ :: _ => (none :: s.pieces).reverse

/-- The pieces of a byte string. -/
def pieces (bs : Bytes) : List (Option Char) :=
  (bs.foldl Scan.push {}).finish

/-- Strict reading: the string a byte string encodes, if it encodes one. -/
def decode? (bs : Bytes) : Option String :=
  ((pieces bs).mapM id).map String.ofList

/-- Lossy reading: every ill-formed stretch becomes U+FFFD. -/
def decodeLossy (bs : Bytes) : String :=
  String.ofList ((pieces bs).map fun piece => piece.getD '\uFFFD')

end HomeControl.Utf8

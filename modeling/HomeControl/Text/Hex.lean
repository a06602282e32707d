import HomeControl.Bytes

/-!
# Hexadecimal text

Bytes are written as two lower-case digits each. Reading accepts digits of either case and says why
it refuses a text: an odd number of digits is noticed before any single digit is looked at, and
otherwise the leftmost byte that is no digit is named.
-/

namespace HomeControl.Hex

/-- The lower-case digit, as an ASCII byte, of a number below sixteen. -/
def digit (n : UInt8) : UInt8 :=
  if n < 10 then n + 48 else n + 87

/-- The number an ASCII digit of either case stands for. -/
def value? (b : UInt8) : Option UInt8 :=
  if 48 ≤ b ∧ b ≤ 57 then some (b - 48)
  else if 97 ≤ b ∧ b ≤ 102 then some (b - 87)
  else if 65 ≤ b ∧ b ≤ 70 then some (b - 55)
  else none

/-- The two digits of one byte, high half first. -/
def digits (b : UInt8) : Bytes :=
  [digit (b / 16), digit (b % 16)]

/-- Writes bytes as ASCII digits. -/
def encode (bs : Bytes) : Bytes :=
  bs.flatMap digits

/-- The digits of `encode` as a string. -/
def text (bs : Bytes) : String :=
  String.ofList ((encode bs).map fun b => Char.ofNat b.toNat)

/-- Why a byte string is not hexadecimal text. -/
inductive Fault where
  /-- The digits do not pair up. -/
  | oddLength
  /-- The byte at a position, counted from zero, is no digit. -/
  | badDigit (byte : UInt8) (position : Nat)
  deriving DecidableEq

/-- Reads pairs of digits; `position` is that of the first byte of the list. -/
def decodePairs (position : Nat) : Bytes → Except Fault Bytes
  | [] => .ok []
  | [_] => .error .oddLength
  | a :: b :: rest =>
    match value? a, value? b with
    | none, _ => .error (.badDigit a position)
    | _, none => .error (.badDigit b (position + 1))
    | some high, some low =>
      match decodePairs (position + 2) rest with
      | .ok tail => .ok ((high * 16 + low) :: tail)
      | .error fault => .error fault

/-- Reads hexadecimal text. -/
def decode (s : Bytes) : Except Fault Bytes :=
  if s.length % 2 = 1 then .error .oddLength else decodePairs 0 s

end HomeControl.Hex

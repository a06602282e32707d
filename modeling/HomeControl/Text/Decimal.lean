/-!
# Decimal numbers

Numbers as people and command lines write them: ASCII digits after at most one sign. Whoever reads a
number says below which bound it has to be; counting stops at the bound.
-/

namespace HomeControl.Decimal

/-- The value of a digit string; `none` if it is empty, holds anything but ASCII digits, or is not
below the bound. -/
def digitsBelow? (bound : Nat) (cs : List Char) : Option Nat :=
  if cs.isEmpty || !cs.all Char.isDigit then none
  else
    let n := cs.foldl (fun n c => min bound (n * 10 + (c.toNat - 48))) 0
    if n < bound then some n else none

/-- An unsigned number below a bound, with an optional plus sign. -/
def unsignedBelow? (bound : Nat) (s : String) : Option Nat :=
  match s.toList with
  | '+' :: cs => digitsBelow? bound cs
  | cs => digitsBelow? bound cs

/-- A number from zero to below a bound, with an optional sign; zero may have a minus sign. -/
def signedBelow? (bound : Nat) (s : String) : Option Nat :=
  match s.toList with
  | '-' :: cs => digitsBelow? (min bound 1) cs
  | _ => unsignedBelow? bound s

/-- An unsigned number that fits one byte. -/
def byte? (s : String) : Option UInt8 :=
  (unsignedBelow? 256 s).map UInt8.ofNat

end HomeControl.Decimal

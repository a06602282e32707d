/-!
# Columns

Text set in columns of a fixed width. A text wider than its column is kept whole; widths count
characters.
-/

namespace HomeControl.Text

/-- Fills with spaces on the right. -/
def padRight (width : Nat) (s : String) : String :=
  String.ofList (s.toList ++ List.replicate (width - s.length) ' ')

/-- A number in at least `width` digits, zeros in front. -/
def zeroPad (width : Nat) (n : Nat) : String :=
  let digits := (Nat.toDigits 10 n)
  String.ofList (List.replicate (width - digits.length) '0' ++ digits)

end HomeControl.Text

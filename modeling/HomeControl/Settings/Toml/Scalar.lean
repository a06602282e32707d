import HomeControl.Text.Column
import HomeControl.Settings.Toml.Node

/-!
# TOML scalars

The words of the format: blanks and line ends, strings, numbers, dates. Each reader takes characters
from the front of a text and returns what is left.
-/

namespace HomeControl.Toml

/-- A reader takes a value from the front of a text, and fails if none stands there. -/
abbrev Reader (α : Type) := List Char → Option (α × List Char)

/-- Skips spaces and tabs. -/
def skipBlanks (cs : List Char) : List Char :=
  cs.dropWhile fun c => c == ' ' || c == '\t'

/-- Whether a character may stand in a comment: anything but a control other than the tab. -/
def isVisible (c : Char) : Bool :=
  c == '\t' || (0x20 ≤ c.toNat && c.toNat != 0x7F)

/-- Skips a comment, if one starts here, up to the end of its line. -/
def skipComment (cs : List Char) : List Char :=
  match cs with
  | '#' :: rest => rest.dropWhile isVisible
  | _ => cs

/-- Takes the end of a line: a line feed with or without a carriage return before it. -/
def takeNewline : List Char → Option (List Char)
  | '\n' :: rest => some rest
  | '\r' :: '\n' :: rest => some rest
  | _ => none

/-- Takes what may follow a statement on its line, and the end of the line. -/
def takeLineEnd (cs : List Char) : Option (List Char) :=
  match skipComment (skipBlanks cs) with
  | [] => some []
  | rest => takeNewline rest

/-! ## Strings -/

/-- The number of a hexadecimal digit. -/
def hexValue? (c : Char) : Option Nat :=
  if '0' ≤ c ∧ c ≤ '9' then some (c.toNat - 48)
  else if 'a' ≤ c ∧ c ≤ 'f' then some (c.toNat - 87)
  else if 'A' ≤ c ∧ c ≤ 'F' then some (c.toNat - 55)
  else none

/-- The character with the code that hexadecimal digits spell, if there is one. -/
def charOfHex? (digits : List Char) : Option Char := do
  let values ← digits.mapM hexValue?
  let n := values.foldl (fun n v => n * 16 + v) 0
  if h : n.isValidChar then some (Char.ofNatAux n h) else none

/-- The character that a backslash and a letter stand for. -/
def escape? : Char → Option Char
  | 'b' => some '\x08'
  | 't' => some '\t'
  | 'n' => some '\n'
  | 'f' => some '\x0c'
  | 'r' => some '\r'
  | '"' => some '"'
  | '\\' => some '\\'
  | _ => none

/-- Puts a character in front of what a reader has read. -/
def prepend (c : Char) : Option (List Char × List Char) → Option (List Char × List Char)
  | some (cs, rest) => some (c :: cs, rest)
  | none => none

/-- The rest of a string in double quotes. -/
def basicBody : List Char → Option (List Char × List Char)
  | '"' :: rest => some ([], rest)
  | '\\' :: 'u' :: a :: b :: c :: d :: rest => do
    let x ← charOfHex? [a, b, c, d]
    prepend x (basicBody rest)
  | '\\' :: 'U' :: a :: b :: c :: d :: e :: f :: g :: h :: rest => do
    let x ← charOfHex? [a, b, c, d, e, f, g, h]
    prepend x (basicBody rest)
  | '\\' :: c :: rest => do
    let x ← escape? c
    prepend x (basicBody rest)
  | c :: rest => if isVisible c && c != '\\' then prepend c (basicBody rest) else none
  | [] => none

/-- The rest of a string in single quotes. -/
def literalBody : List Char → Option (List Char × List Char)
  | '\'' :: rest => some ([], rest)
  | c :: rest => if isVisible c then prepend c (literalBody rest) else none
  | [] => none

/-- Whether nothing but blanks stands between here and the end of the line. -/
def endsLine (cs : List Char) : Bool :=
  (takeNewline (skipBlanks cs)).isSome

/-- The rest of a string in three double quotes. A backslash at the end of a line hides the blanks and
line ends up to the next other character; `hidden` says that they are being skipped. Up to two quotes
may stand directly before the closing three. -/
def longBasicBody (hidden : Bool) : List Char → Option (List Char × List Char)
  | '"' :: '"' :: '"' :: '"' :: '"' :: rest => some (['"', '"'], rest)
  | '"' :: '"' :: '"' :: '"' :: rest => some (['"'], rest)
  | '"' :: '"' :: '"' :: rest => some ([], rest)
  | '\\' :: 'u' :: a :: b :: c :: d :: rest => do
    let x ← charOfHex? [a, b, c, d]
    prepend x (longBasicBody false rest)
  | '\\' :: 'U' :: a :: b :: c :: d :: e :: f :: g :: h :: rest => do
    let x ← charOfHex? [a, b, c, d, e, f, g, h]
    prepend x (longBasicBody false rest)
  | '\\' :: c :: rest =>
    if endsLine (c :: rest) then longBasicBody true (c :: rest)
    else do
      let x ← escape? c
      prepend x (longBasicBody false rest)
  | '\r' :: '\n' :: rest =>
    if hidden then longBasicBody true rest else prepend '\n' (longBasicBody false rest)
  | '\n' :: rest =>
    if hidden then longBasicBody true rest else prepend '\n' (longBasicBody false rest)
  | c :: rest =>
    if hidden && (c == ' ' || c == '\t') then longBasicBody true rest
    else if isVisible c && c != '\\' then prepend c (longBasicBody false rest)
    else none
  | [] => none

/-- The rest of a string in three single quotes. -/
def longLiteralBody : List Char → Option (List Char × List Char)
  | '\'' :: '\'' :: '\'' :: '\'' :: '\'' :: rest => some (['\'', '\''], rest)
  | '\'' :: '\'' :: '\'' :: '\'' :: rest => some (['\''], rest)
  | '\'' :: '\'' :: '\'' :: rest => some ([], rest)
  | '\r' :: '\n' :: rest => prepend '\n' (longLiteralBody rest)
  | '\n' :: rest => prepend '\n' (longLiteralBody rest)
  | c :: rest => if isVisible c then prepend c (longLiteralBody rest) else none
  | [] => none

/-- Drops the line end directly after three opening quotes. -/
def afterOpening (cs : List Char) : List Char :=
  (takeNewline cs).getD cs

/-- A string on one line. -/
def shortString : List Char → Option (String × List Char)
  | '"' :: rest => (basicBody rest).map fun (cs, rest) => (String.ofList cs, rest)
  | '\'' :: rest => (literalBody rest).map fun (cs, rest) => (String.ofList cs, rest)
  | _ => none

/-- A string of any form. -/
def string : List Char → Option (String × List Char)
  | '"' :: '"' :: '"' :: rest =>
    (longBasicBody false (afterOpening rest)).map fun (cs, rest) => (String.ofList cs, rest)
  | '\'' :: '\'' :: '\'' :: rest =>
    (longLiteralBody (afterOpening rest)).map fun (cs, rest) => (String.ofList cs, rest)
  | cs => shortString cs

/-! ## Numbers -/

/-- Further digits of a number, with single underscores between digits. -/
def moreDigits (ok : Char → Bool) : List Char → List Char × List Char
  | '_' :: c :: rest =>
    if ok c then
      let (digits, rest) := moreDigits ok rest
      (c :: digits, rest)
    else ([], '_' :: c :: rest)
  | c :: rest =>
    if ok c then
      let (digits, rest) := moreDigits ok rest
      (c :: digits, rest)
    else ([], c :: rest)
  | [] => ([], [])

/-- One digit or more. -/
def digits (ok : Char → Bool) : List Char → Option (List Char × List Char)
  | c :: rest =>
    if ok c then
      let (more, rest) := moreDigits ok rest
      some (c :: more, rest)
    else none
  | [] => none

/-- The value of digits in a base. -/
def valueOf (base : Nat) (digits : List Char) : Nat :=
  digits.foldl (fun n c => n * base + (hexValue? c).getD 0) 0

/-- Takes a sign, if there is one; true for minus. -/
def sign : List Char → Bool × List Char
  | '-' :: rest => (true, rest)
  | '+' :: rest => (false, rest)
  | cs => (false, cs)

/-- The digits of a decimal number: zero stands alone. -/
def decimalDigits : List Char → Option (List Char × List Char)
  | '0' :: rest => some (['0'], rest)
  | cs => digits Char.isDigit cs

/-- The integer that digits spell, if it fits 64 bits with a sign; with more than 64 digits after the
zeros in front it fits in no base. -/
def inRange? (negative : Bool) (base : Nat) (digits : List Char) : Option Int :=
  let digits := digits.dropWhile (· == '0')
  if 64 < digits.length then none
  else
    let n : Int := valueOf base digits
    let n := if negative then -n else n
    if -9223372036854775808 ≤ n ∧ n ≤ 9223372036854775807 then some n else none

/-- An integer in a base other than ten. -/
def basedInteger (base : Nat) (ok : Char → Bool) : Reader Node := fun cs => do
  let (ds, rest) ← digits ok cs
  let n ← inRange? false base ds
  return (.integer n, rest)

/-- An integer. -/
def integer : List Char → Option (Node × List Char)
  | '0' :: 'x' :: rest => basedInteger 16 (fun c => (hexValue? c).isSome) rest
  | '0' :: 'o' :: rest => basedInteger 8 (fun c => '0' ≤ c && c ≤ '7') rest
  | '0' :: 'b' :: rest => basedInteger 2 (fun c => c == '0' || c == '1') rest
  | cs => do
    let (negative, cs) := sign cs
    let (ds, rest) ← decimalDigits cs
    let n ← inRange? negative 10 ds
    return (.integer n, rest)

/-- The digits after a decimal point; empty if there is no point. -/
def fraction : List Char → Option (List Char × List Char)
  | '.' :: rest => digits Char.isDigit rest
  | cs => some ([], cs)

/-- The exponent and its sign; none if there is no exponent letter. -/
def exponent : List Char → Option (Option (Bool × List Char) × List Char)
  | [] => some (none, [])
  | c :: rest =>
    if c == 'e' || c == 'E' then do
      let (negative, rest) := sign rest
      let (ds, rest) ← digits Char.isDigit rest
      return (some (negative, ds), rest)
    else some (none, c :: rest)

/-- The least number that a 64-bit float rounds to infinity. -/
def floatBound : Nat := 1 <<< 1024 - 1 <<< 970

/-- A power of ten. -/
def tenTo : Nat → Nat
  | 0 => 1
  | n + 1 => 10 * tenTo n

/-- Whether the number with these digits, scaled by a power of ten, is too large for a 64-bit float.
A number of several hundred digits before its point is, whatever they are, and of others only those
digits count, since the bound is whole. -/
def overflows (ds : List Char) (scale : Int) : Bool :=
  let ds := ds.dropWhile (· == '0')
  let places := ds.length + scale
  if ds.isEmpty || places < 300 then false
  else if 320 < places then true
  else floatBound ≤ valueOf 10 (ds.take places.toNat) * tenTo scale.toNat

/-- The size of an exponent. More digits than a text can make up for count as one size. -/
def exponentSize (ds : List Char) : Nat :=
  let ds := ds.dropWhile (· == '0')
  if 18 < ds.length then 1000000000000000000 else valueOf 10 ds

/-- A float with a point or an exponent. -/
def plainFloat (cs : List Char) : Option (Node × List Char) := do
  let (negative, cs) := sign cs
  let (whole, cs) ← decimalDigits cs
  let (part, cs) ← fraction cs
  let (power, cs) ← exponent cs
  if part.isEmpty && power.isNone then none
  else
    let power : Int := match power with
      | some (true, ds) => -(exponentSize ds : Int)
      | some (false, ds) => exponentSize ds
      | none => 0
    if !negative && overflows (whole ++ part) (power - part.length) then none
    else return (.float, cs)

/-- A float, or one of the words for what is no number. -/
def float (cs : List Char) : Option (Node × List Char) :=
  match (sign cs).2 with
  | 'i' :: 'n' :: 'f' :: rest => some (.float, rest)
  | 'n' :: 'a' :: 'n' :: rest => some (.float, rest)
  | _ => plainFloat cs

/-! ## Dates and times -/

/-- A number of two digits between two bounds. -/
def twoDigits (low high : Nat) : List Char → Option (Nat × List Char)
  | a :: b :: rest =>
    if a.isDigit && b.isDigit then
      let n := valueOf 10 [a, b]
      if low ≤ n ∧ n ≤ high then some (n, rest) else none
    else none
  | _ => none

/-- A number of four digits. -/
def fourDigits : List Char → Option (Nat × List Char)
  | a :: b :: c :: d :: rest =>
    if [a, b, c, d].all Char.isDigit then some (valueOf 10 [a, b, c, d], rest) else none
  | _ => none

/-- Takes one given character. -/
def expect (c : Char) : List Char → Option (List Char)
  | x :: rest => if x = c then some rest else none
  | [] => none

/-- The number of days of a month. -/
def daysIn (year month : Nat) : Nat :=
  if month = 2 then
    if year % 4 = 0 ∧ (year % 100 ≠ 0 ∨ year % 400 = 0) then 29 else 28
  else if month = 4 ∨ month = 6 ∨ month = 9 ∨ month = 11 then 30
  else 31

/-- A day of the calendar. -/
def date (cs : List Char) : Option (String × List Char) := do
  let (year, cs) ← fourDigits cs
  let cs ← expect '-' cs
  let (month, cs) ← twoDigits 1 12 cs
  let cs ← expect '-' cs
  let (day, cs) ← twoDigits 1 31 cs
  if daysIn year month < day then none
  else
    let text := Text.zeroPad 4 year ++ "-" ++ Text.zeroPad 2 month ++ "-" ++ Text.zeroPad 2 day
    return (text, cs)

/-- A fraction of a second: nine digits count, and zeros at the end are not shown. -/
def secondFraction : List Char → Option (String × List Char)
  | '.' :: rest =>
    let ds := rest.takeWhile Char.isDigit
    let shown := ((ds.take 9).reverse.dropWhile (· == '0')).reverse
    if ds.isEmpty then none
    else
      some (if shown.isEmpty then "" else "." ++ String.ofList shown, rest.dropWhile Char.isDigit)
  | _ => none

/-- A time of day. -/
def time (cs : List Char) : Option (String × List Char) := do
  let (hour, cs) ← twoDigits 0 23 cs
  let cs ← expect ':' cs
  let (minute, cs) ← twoDigits 0 59 cs
  let cs ← expect ':' cs
  let (second, cs) ← twoDigits 0 60 cs
  let (part, cs) := (secondFraction cs).getD ("", cs)
  let text :=
    Text.zeroPad 2 hour ++ ":" ++ Text.zeroPad 2 minute ++ ":" ++ Text.zeroPad 2 second ++ part
  return (text, cs)

/-- A distance from universal time in hours and minutes. -/
def distance (cs : List Char) : Option (Nat × List Char) := do
  let (hour, cs) ← twoDigits 0 23 cs
  let cs ← expect ':' cs
  let (minute, cs) ← twoDigits 0 59 cs
  return (hour * 60 + minute, cs)

/-- An offset from universal time. -/
def offset : List Char → Option (String × List Char)
  | [] => none
  | c :: rest =>
    if c == 'Z' || c == 'z' then some ("Z", rest)
    else if c == '+' || c == '-' then do
      let (minutes, rest) ← distance rest
      let mark := if c == '-' && minutes != 0 then "-" else "+"
      let text := mark ++ Text.zeroPad 2 (minutes / 60) ++ ":" ++ Text.zeroPad 2 (minutes % 60)
      return (text, rest)
    else none

/-- The time that may follow a date, with the offset that may follow it. -/
def timeAfterDate : List Char → Option (String × List Char)
  | [] => none
  | c :: rest =>
    if c == 'T' || c == 't' || c == ' ' then do
      let (text, rest) ← time rest
      let (zone, rest) := (offset rest).getD ("", rest)
      return ("T" ++ text ++ zone, rest)
    else none

/-- A date with or without a time, or a time. -/
def moment (cs : List Char) : Option (Node × List Char) :=
  match date cs with
  | some (day, rest) =>
    let (text, rest) := (timeAfterDate rest).getD ("", rest)
    some (.moment (day ++ text), rest)
  | none => (time cs).map fun (text, rest) => (.moment text, rest)

/-- A value without parts. -/
def scalar (cs : List Char) : Option (Node × List Char) :=
  match cs with
  | '"' :: _ => (string cs).map fun (s, rest) => (.text s, rest)
  | '\'' :: _ => (string cs).map fun (s, rest) => (.text s, rest)
  | 't' :: 'r' :: 'u' :: 'e' :: rest => some (.boolean true, rest)
  | 'f' :: 'a' :: 'l' :: 's' :: 'e' :: rest => some (.boolean false, rest)
  | _ => ((moment cs).or (float cs)).or (integer cs)

end HomeControl.Toml

import HomeControl.Bytes
import HomeControl.Text.Printable

/-!
# Quoted text

Text shown between quotes, so that blanks and invisible characters can be told apart: the enclosing
quote and the backslash are escaped, five characters have a letter escape, and every character
without a glyph of its own is written as its code in braces.
-/

namespace HomeControl.Text

/-- A character inside quotes of the kind `quote`. -/
def escapeChar (quote c : Char) : List Char :=
  if c = '\\' then ['\\', '\\']
  else if c = quote then ['\\', quote]
  else if c = '\t' then ['\\', 't']
  else if c = '\n' then ['\\', 'n']
  else if c = '\r' then ['\\', 'r']
  else if c = '\x00' then ['\\', '0']
  else if isPrintable c then [c]
  else ['\\', 'u', '\x7b'] ++ Nat.toDigits 16 c.toNat ++ ['\x7d']

/-- A text between double quotes. -/
def quoted (s : String) : String :=
  String.ofList ('"' :: s.toList.flatMap (escapeChar '"') ++ ['"'])

/-- A character between single quotes. -/
def quotedChar (c : Char) : String :=
  String.ofList ('\'' :: escapeChar '\'' c ++ ['\''])

/-- Bytes as a bracketed list of decimal numbers. -/
def byteList (bs : Bytes) : String :=
  "[" ++ ", ".intercalate (bs.map fun b => toString b.toNat) ++ "]"

end HomeControl.Text

import HomeControl.Text.Blank
import HomeControl.Text.Utf8

/-!
# Terminals

The lines a program reads from its standard input, and the one command the server takes from there.
-/

namespace HomeControl.Terminal

/-- The pieces of a byte string between line feeds; what follows the last line feed is kept apart. -/
def cut : Bytes → List Bytes × Bytes
  | [] => ([], [])
  | b :: bs =>
    let (lines, tail) := cut bs
    if b == lineFeed then ([] :: lines, tail)
    else
      match lines with
      | [] => ([], b :: tail)
      | line :: lines => ((b :: line) :: lines, tail)

/-- A line without the one carriage return it may end with. -/
def dropReturn (line : Bytes) : Bytes :=
  if line.getLast? == some carriageReturn then line.dropLast else line

/-- The lines as bytes: an unterminated last line counts, and only a line that had a line feed loses
its carriage return. -/
def rawLines (input : Bytes) : List Bytes :=
  let (lines, tail) := cut input
  lines.map dropReturn ++ if tail.isEmpty then [] else [tail]

/-- The strings up to the first that is missing. -/
def known : List (Option String) → List String
  | some s :: rest => s :: known rest
  | _ => []

/-- The lines read from an input: reading stops at the first line that is no text. -/
def lines (input : Bytes) : List String :=
  known ((rawLines input).map Utf8.decode?)

/-- The lines somebody takes who wants no more after the `wanted`-th; the first is always offered. -/
def offered (wanted : Option Nat) (ls : List String) : List String :=
  match wanted with
  | none => ls
  | some n => ls.take (max n 1)

/-- The next of the lines that have been read, unless the wait for it has been withdrawn. -/
def nextLine (withdrawn : Bool) (ls : List String) : Option String × List String :=
  if withdrawn then (none, ls)
  else
    match ls with
    | [] => (none, [])
    | line :: rest => (some line, rest)

/-- Whether a line asks the server to shut down. -/
def isTerminateCommand (line : String) : Bool :=
  let command := Text.trim line
  command == "t" || command == "T"

/-- Whether an input asks the server to shut down before it ends or cannot be read. -/
def asksToTerminate (input : Bytes) : Bool :=
  (lines input).any isTerminateCommand

end HomeControl.Terminal

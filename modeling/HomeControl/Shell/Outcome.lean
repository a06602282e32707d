import HomeControl.Shell.CommandLine

/-!
# Outcomes

What a program leaves behind: its exit code, what it printed, and what it complained of.
-/

namespace HomeControl

/-- The outcome of a run. -/
structure Outcome where
  /-- The exit code. -/
  code : UInt8 := 0
  /-- The lines printed. -/
  printed : List String := []
  /-- The first line of the complaint, if there is one. -/
  complaint : Option String := none
  deriving DecidableEq

namespace Outcome

/-- The version of both programs. -/
def programVersion : String := "0.1.0"

/-- A run that failed. -/
def failure (reason : String) : Outcome :=
  let line := (reason.toList.takeWhile (· != '\n'))
  { code := 1, complaint := some ("Error: " ++ String.ofList line) }

/-- A run that did not get beyond its command line. -/
def ofStop (program : String) (usage : List String) : CommandLine.Stop → Outcome
  | .help => { printed := usage }
  | .version => { printed := [program ++ " " ++ programVersion] }
  | .misuse => { code := 2 }

end Outcome

end HomeControl

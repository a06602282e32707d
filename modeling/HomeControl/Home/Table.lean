import HomeControl.Home.Basic

/-!
# The table of a home

How a home is shown to people: a heading, then a block of rows for each kind, between rules.
-/

namespace HomeControl.Home

/-- A rule across the table. -/
def rule (c : Char) : String :=
  String.ofList (List.replicate 62 c)

/-- The row of a device; only the first of a kind shows what kind it is. -/
def row (index : Nat) (d : Device) : String :=
  let label := if index = 0 then d.kind.label else ""
  Text.padRight 7 label ++ "#" ++ Text.zeroPad 3 index ++ " " ++ d.describe

/-- The heading of the columns. -/
def heading : String :=
  Text.padRight 7 "Type" ++ Text.padRight 4 "Num" ++ " " ++ Text.padRight 16 "Name" ++ " "
    ++ Text.padRight 10 "State" ++ " Params"

/-- The rows of the devices of one kind, under a thin rule. -/
def block (h : Home) (k : Kind) : List String :=
  rule '-' :: (h.group k).mapIdx row

/-- The whole table. -/
def table (h : Home) : String :=
  "\n".intercalate
    ([rule '=', "Home current state:", heading] ++ Kind.all.flatMap h.block ++ [rule '='])

end HomeControl.Home

import HomeControl.Settings.Toml.Node

/-!
# Sections

A section of a settings document has a fixed list of fields. It is written as a table, in which the
fields stand under their names, or as an array, in which they stand in their order. A field that is
not there has a default; what is no field is ignored.
-/

namespace HomeControl.Toml

/-- A section as it was written. -/
inductive Section where
  /-- A table of fields. -/
  | named (entries : Entries)
  /-- The fields in their order. -/
  | listed (items : List Node)

namespace Section

/-- The section a value stands for. A date is a table with one entry that is nobody's field. -/
def ofNode? : Node → Option Section
  | .table _ entries => some (.named entries)
  | .array items => some (.listed items)
  | .tables elements => some (.listed (elements.reverse.map (.table .header)))
  | .moment _ => some (.named [])
  | _ => none

/-- A section of a document; one that is not there has no fields. -/
def ofDocument? (document : Entries) (name : String) : Option Section :=
  match document.get? name with
  | none => some (.named [])
  | some node => ofNode? node

/-- The value of the field that has this name and this position in the order. -/
def field? (s : Section) (position : Nat) (name : String) : Option Node :=
  match s with
  | .named entries => entries.get? name
  | .listed items => items[position]?

/-- The value of a field that holds a string. -/
def string? (s : Section) (position : Nat) (name : String) (default : String) : Option String :=
  match s.field? position name with
  | none => some default
  | some (.text value) => some value
  | some _ => none

/-- The value of a field that holds a number below a bound. -/
def number? (s : Section) (position : Nat) (name : String) (bound default : Nat) : Option Nat :=
  match s.field? position name with
  | none => some default
  | some (.integer value) =>
    if 0 ≤ value ∧ value < (bound : Int) then some value.toNat else none
  | some _ => none

end Section

end HomeControl.Toml

/-!
# TOML documents as trees

What a TOML document denotes, together with how each of its tables came about: the format lets some
tables be added to and others not. A table may be opened by a header once; a table that was only
implied by the header of a table inside it may still be opened; a table made by a dotted key may be
added to by dotted keys; a table written inline is complete as it stands.
-/

namespace HomeControl.Toml

/-- How a table came about. -/
inductive Origin where
  /-- A header opened it, or it is the document itself. -/
  | header
  /-- The header of a table inside it implied it. -/
  | implied
  /-- A dotted key made it. -/
  | dotted
  /-- It was written between braces. -/
  | inline
  deriving DecidableEq

/-- A value of a document. -/
inductive Node where
  /-- A string. -/
  | text (s : String)
  /-- An integer. -/
  | integer (n : Int)
  /-- A floating-point number; nothing in this library reads one. -/
  | float
  /-- A truth value. -/
  | boolean (b : Bool)
  /-- A date, a time or both, as the format writes it. -/
  | moment (s : String)
  /-- An array. -/
  | array (items : List Node)
  /-- A table. -/
  | table (origin : Origin) (entries : List (String × Node))
  /-- The tables that headers in double brackets have opened under one name, the latest first. -/
  | tables (elements : List (List (String × Node)))

/-- The entries of a table, in the order in which they were first written. -/
abbrev Entries := List (String × Node)

namespace Entries

/-- The value of a key. -/
def get? (es : Entries) (key : String) : Option Node :=
  es.lookup key

/-- The entries with another value for a key. -/
def set (es : Entries) (key : String) (v : Node) : Entries :=
  if (es.get? key).isSome then es.map fun e => if e.1 == key then (key, v) else e
  else es ++ [(key, v)]

/-- Adds a key that is not there yet. -/
def add? (es : Entries) (key : String) (v : Node) : Option Entries :=
  if (es.get? key).isSome then none else some (es ++ [(key, v)])

/-- Writes a value under a dotted key: `path` leads from a table of the given origin to the one that
gets the last part of the key. Only tables that no header opened can be passed through, and only a
table that a dotted key made can be added to. -/
def putDotted (origin : Origin) (key : String) (v : Node) : List String → Entries → Option Entries
  | [], es => if origin = .dotted then es.add? key v else none
  | part :: path, es =>
    match es.get? part with
    | none => do
      let inner ← putDotted .dotted key v path []
      return es.set part (.table .dotted inner)
    | some (.table .implied inner) => do
      let inner ← putDotted .implied key v path inner
      return es.set part (.table .implied inner)
    | some (.table .dotted inner) => do
      let inner ← putDotted .dotted key v path inner
      return es.set part (.table .dotted inner)
    | some (.tables (last :: others)) => do
      let inner ← putDotted .header key v path last
      return es.set part (.tables (inner :: others))
    | _ => none

/-- Writes a value under a plain or dotted key. -/
def put (es : Entries) (path : List String) (key : String) (v : Node) : Option Entries :=
  match path with
  | [] => es.add? key v
  | _ :: _ => es.putDotted .header key v path

/-- As `put`, inside braces, where only tables made by dotted keys can be passed through. -/
def putInline (key : String) (v : Node) : List String → Entries → Option Entries
  | [], es => es.add? key v
  | part :: path, es =>
    match es.get? part with
    | none => do
      let inner ← putInline key v path []
      return es.set part (.table .dotted inner)
    | some (.table .dotted inner) => do
      let inner ← putInline key v path inner
      return es.set part (.table .dotted inner)
    | _ => none

/-- Changes the table at the end of a path of headers; tables on the way that are not there yet are
implied. -/
def under (change : Entries → Option Entries) : List String → Entries → Option Entries
  | [], es => change es
  | part :: path, es =>
    match es.get? part with
    | none => do
      let inner ← under change path []
      return es.set part (.table .implied inner)
    | some (.table .inline _) => none
    | some (.table origin inner) => do
      let inner ← under change path inner
      return es.set part (.table origin inner)
    | some (.tables (last :: others)) => do
      let inner ← under change path last
      return es.set part (.tables (inner :: others))
    | _ => none

/-- Opens a table: it must not be there yet, or only have been implied. -/
def openTable (key : String) (es : Entries) : Option Entries :=
  match es.get? key with
  | none => some (es.set key (.table .header []))
  | some (.table .implied inner) => some (es.set key (.table .header inner))
  | _ => none

/-- Opens one more of the tables that share a name. -/
def openElement (key : String) (es : Entries) : Option Entries :=
  match es.get? key with
  | none => some (es.set key (.tables [[]]))
  | some (.tables elements) => some (es.set key (.tables ([] :: elements)))
  | _ => none

end Entries

end HomeControl.Toml

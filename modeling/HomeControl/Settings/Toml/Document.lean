import HomeControl.Settings.Toml.Scalar

/-!
# Reading TOML

A document is a sequence of lines: blank ones, keys with values, and headers that say which table the
keys after them belong to. `parse?` reads a document whole or not at all.
-/

namespace HomeControl.Toml

/-- How deep values and keys may be nested. -/
def depthLimit : Nat := 80

/-- Whether a character may stand in a key without quotes. -/
def isBare (c : Char) : Bool :=
  c.isAlphanum || c == '_' || c == '-'

/-- One part of a key. -/
def keyPart (cs : List Char) : Option (String × List Char) :=
  match cs with
  | '"' :: _ => shortString cs
  | '\'' :: _ => shortString cs
  | _ =>
    let bare := cs.takeWhile isBare
    if bare.isEmpty then none else some (String.ofList bare, cs.dropWhile isBare)

/-- The parts of a key, separated by dots with blanks around them; at most `depth` of them. -/
def keyParts : Nat → List Char → Option (List String × List Char)
  | 0, _ => none
  | depth + 1, cs => do
    let (part, rest) ← keyPart (skipBlanks cs)
    match skipBlanks rest with
    | '.' :: rest =>
      let (parts, rest) ← keyParts depth rest
      return (part :: parts, rest)
    | rest => return ([part], rest)

/-- A key: the parts on the way and the last part. -/
def key (cs : List Char) : Option ((List String × String) × List Char) := do
  let (parts, rest) ← keyParts (depthLimit - 1) cs
  let last ← parts.getLast?
  return ((parts.dropLast, last), rest)

/-- Skips blanks, comments and line ends; `inComment` says that a comment has begun on this line. -/
def skipGaps (inComment : Bool) : List Char → List Char
  | [] => []
  | '\r' :: '\n' :: rest => skipGaps false rest
  | c :: rest =>
    if c == '\n' then skipGaps false rest
    else if inComment && isVisible c then skipGaps true rest
    else if c == '#' then skipGaps true rest
    else if c == ' ' || c == '\t' then skipGaps false rest
    else c :: rest

/-- Skips all blanks, comments and line ends. -/
def skipAll (cs : List Char) : List Char :=
  skipGaps false cs

/-- The items of an array up to its closing bracket; `n` bounds their number. -/
def items (value : Reader Node) : Nat → List Char → Option (List Node × List Char)
  | 0, _ => none
  | n + 1, cs =>
    match skipAll cs with
    | ']' :: rest => some ([], rest)
    | start => do
      let (item, rest) ← value start
      match skipAll rest with
      | ',' :: rest =>
        let (more, rest) ← items value n rest
        return (item :: more, rest)
      | ']' :: rest => return ([item], rest)
      | _ => none

/-- A key and its value. -/
def keyValue (value : Reader Node) (cs : List Char) :
    Option (((List String × String) × Node) × List Char) := do
  let (name, rest) ← key cs
  let rest ← expect '=' rest
  let (v, rest) ← value (skipBlanks rest)
  return ((name, v), rest)

/-- The pairs of a table in braces after the first; `n` bounds their number. -/
def morePairs (value : Reader Node) : Nat → Entries → List Char → Option (Entries × List Char)
  | 0, _, _ => none
  | n + 1, es, cs =>
    match skipBlanks cs with
    | '\x7d' :: rest => some (es, rest)
    | ',' :: rest => do
      let (((path, name), v), rest) ← keyValue value rest
      let es ← es.putInline name v path
      morePairs value n es rest
    | _ => none

/-- The pairs of a table in braces; `bound` bounds their number. -/
def pairs (value : Reader Node) (bound : Nat) (cs : List Char) : Option (Entries × List Char) :=
  match skipBlanks cs with
  | '\x7d' :: rest => some ([], rest)
  | start => do
    let (((path, name), v), rest) ← keyValue value start
    let es ← Entries.putInline name v path []
    morePairs value bound es rest

/-- A value with at most `depth` arrays and tables around its parts; `bound` bounds the number of
parts of each. -/
def value (bound : Nat) : Nat → List Char → Option (Node × List Char)
  | depth, cs =>
    match depth, cs with
    | 0, '[' :: _ => none
    | 0, '\x7b' :: _ => none
    | depth + 1, '[' :: rest =>
      (items (value bound depth) bound rest).map fun (xs, rest) => (.array xs, rest)
    | depth + 1, '\x7b' :: rest =>
      (pairs (value bound depth) bound rest).map fun (es, rest) => (.table .inline es, rest)
    | _, cs => scalar cs

/-- A document that is being read. -/
structure Draft where
  /-- What has been read. -/
  entries : Entries := []
  /-- The path of the table that the next keys belong to. -/
  current : List String := []

/-- Reads a header in single brackets. -/
def tableHeader (d : Draft) (cs : List Char) : Option (Draft × List Char) := do
  let ((path, name), rest) ← key cs
  let rest ← expect ']' rest
  let rest ← takeLineEnd rest
  let entries ← d.entries.under (Entries.openTable name) path
  return ({ entries, current := path ++ [name] }, rest)

/-- Reads a header in double brackets. -/
def elementHeader (d : Draft) (cs : List Char) : Option (Draft × List Char) := do
  let ((path, name), rest) ← key cs
  let rest ← expect ']' rest
  let rest ← expect ']' rest
  let rest ← takeLineEnd rest
  let entries ← d.entries.under (Entries.openElement name) path
  return ({ entries, current := path ++ [name] }, rest)

/-- Reads a key with its value; `bound` bounds the number of parts of a value. -/
def assignment (bound : Nat) (d : Draft) (cs : List Char) : Option (Draft × List Char) := do
  let (((path, name), v), rest) ← keyValue (value bound (depthLimit - 1)) cs
  let rest ← takeLineEnd rest
  let entries ← d.entries.under (fun es => es.put path name v) d.current
  return ({ d with entries }, rest)

/-- Reads the line that starts here; `bound` bounds the number of parts of a value. -/
def statement (bound : Nat) (d : Draft) (cs : List Char) : Option (Draft × List Char) :=
  match skipBlanks cs with
  | [] => some (d, [])
  | '#' :: rest => do
    let rest ← takeLineEnd ('#' :: rest)
    return (d, rest)
  | '[' :: '[' :: rest => elementHeader d rest
  | '[' :: rest => tableHeader d rest
  | '\n' :: rest => some (d, rest)
  | '\r' :: '\n' :: rest => some (d, rest)
  | rest => assignment bound d rest

/-- Reads at most `n` lines; `bound` bounds the number of parts of a value. -/
def statements (bound : Nat) : Nat → Draft → List Char → Option Draft
  | _, d, [] => some d
  | 0, _, _ :: _ => none
  | n + 1, d, c :: cs => do
    let (d, rest) ← statement bound d (c :: cs)
    statements bound n d rest

/-- Reads a document; a byte order mark at its start is skipped. Neither lines nor the parts of a
value can outnumber the characters. -/
def parse? (s : String) : Option Entries :=
  let cs := match s.toList with
    | '\uFEFF' :: cs => cs
    | cs => cs
  let bound := cs.length + 1
  (statements bound bound {} cs).map fun d => d.entries

end HomeControl.Toml

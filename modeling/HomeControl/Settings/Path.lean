/-!
# Paths

Where the files that the settings name are looked for. A name is relative to the directory of the
file that mentions it.
-/

namespace HomeControl.Path

/-- Whether a path starts at the root. -/
def isAbsolute (path : String) : Bool :=
  path.toList.head? == some '/'

/-- Drops, from the end of a path written backwards, the pieces that name nothing: empty ones and
single points. -/
def dropIdle : List Char → List Char
  | '/' :: rest => dropIdle rest
  | ['.'] => []
  | '.' :: '/' :: rest => dropIdle rest
  | rest => rest

/-- A path without its last piece, both written backwards. -/
def dropPiece (path : List Char) : List Char :=
  dropIdle ((path.dropWhile (· != '/')).drop 1)

/-- Splits off what a path starts with if it is not a piece like the others: the root, or a point
for the directory the program runs in. -/
def splitStart : List Char → List Char × List Char
  | '/' :: rest => (['/'], rest)
  | ['.'] => (['.'], [])
  | '.' :: '/' :: rest => (['.'], '/' :: rest)
  | cs => ([], cs)

/-- The directory of a path, as far as its text says; the root and the empty path have none. -/
def parent? (path : String) : Option String :=
  let (start, body) := splitStart path.toList
  match dropIdle body.reverse with
  | [] => if start = ['.'] then some "" else none
  | pieces => some (String.ofList (start ++ (dropPiece pieces).reverse))

/-- A path inside a directory. -/
def join (directory target : String) : String :=
  if isAbsolute target then target
  else if directory.isEmpty || directory.toList.getLast? == some '/' then directory ++ target
  else directory ++ "/" ++ target

/-- The path that `target` means in the file at `origin`. -/
def resolve (origin target : String) : String :=
  if isAbsolute target then target
  else
    match parent? origin with
    | some directory => join directory target
    | none => target

end HomeControl.Path

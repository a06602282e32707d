import HomeControl.Settings.Stored
import HomeControl.Text.Split

/-!
# Folders

The files below the directory that a program runs in, and what a path leads to from there. A path is
walked piece by piece: an empty piece and a single point stay where they are, two points go up, and
every piece but the last must lead to a directory. Of what lies outside, the directories on the way
up are known, and from the root on those that every machine has.
-/

namespace HomeControl

/-- Files by their paths, which are relative and lead down only. -/
structure Folder where
  /-- The pieces of the paths, and the contents. -/
  files : List (List String × Bytes) := []
  /-- The pieces of the paths of directories that may hold no file. -/
  directories : List (List String) := []
  /-- Whether nothing lies above it, so that going up from it stays there. -/
  isRoot : Bool := false

namespace Folder

/-- The folder with some files. -/
def ofFiles (files : List (String × Bytes)) : Folder :=
  { files := files.map fun file =>
      ((Text.split '/' file.1).filter fun piece => piece != "" && piece != ".", file.2) }

/-- What is stored at the end of some pieces that lead down. -/
def at? (folder : Folder) (pieces : List String) : Stored :=
  match folder.files.lookup pieces with
  | some content => .file content
  | none =>
    let held := folder.files.map Prod.fst ++ folder.directories
    if pieces.isEmpty || held.any pieces.isPrefixOf then .directory else .missing

/-- The longest name a file can have, in bytes. -/
def longestName : Nat := 255

/-- The length, in bytes, from which on a path is too long. -/
def pathBound : Nat := 4096

/-- What every machine has from its root on: the usual directories, a file that is always empty and
lists of users and hosts. -/
def root : Folder :=
  { files :=
      [(["dev", "null"], []),
       (["etc", "hosts"], Utf8.encode "127.0.0.1 localhost\n"),
       (["etc", "passwd"], Utf8.encode "root:x:0:0:root:/root:/bin/sh\n")]
    directories :=
      [["bin"], ["boot"], ["dev"], ["etc"], ["home"], ["lib"], ["media"], ["mnt"], ["opt"], ["proc"],
       ["root"], ["run"], ["sbin"], ["srv"], ["sys"], ["tmp"], ["usr", "bin"], ["usr", "lib"],
       ["usr", "local"], ["usr", "sbin"], ["usr", "share"], ["var", "cache"], ["var", "lib"],
       ["var", "log"], ["var", "tmp"]]
    isRoot := true }

/-- What the rest of a path leads to from a directory above a folder: nothing is known to be there
but the directories on the way up. A name that is too long is an error in every directory. -/
def walkAbove : List String → Stored
  | [] => .directory
  | piece :: rest =>
    if piece = "" ∨ piece = "." ∨ piece = ".." then walkAbove rest
    else if longestName < piece.utf8ByteSize then .directory
    else .missing

/-- What the rest of a path leads to from a directory of the folder. -/
def walk (folder : Folder) (here : List String) : List String → Stored
  | [] => .directory
  | piece :: rest =>
    if piece = "" ∨ piece = "." then walk folder here rest
    else if piece = ".." then
      if here.isEmpty && !folder.isRoot then walkAbove rest else walk folder here.dropLast rest
    else if longestName < piece.utf8ByteSize then .directory
    else
      match folder.at? (here ++ [piece]) with
      | .missing => .missing
      | .directory => walk folder (here ++ [piece]) rest
      | .file content => if rest.isEmpty then .file content else .directory

/-- What a path leads to. -/
def stored (folder : Folder) (path : String) : Stored :=
  if path.isEmpty then .missing
  else if pathBound ≤ path.utf8ByteSize then .directory
  else if path.toList.contains '\x00' then .directory
  else
    let pieces := Text.split '/' path
    walk (if pieces.head? = some "" then root else folder) [] pieces

end Folder

end HomeControl

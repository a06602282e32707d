import HomeControl.Text.Utf8

/-!
# Stored settings

Settings come from files. What stands at a path may be nothing or a directory, and the content of a
file need not be text.
-/

namespace HomeControl

/-- What stands at a path. -/
inductive Stored where
  /-- Nothing. -/
  | missing
  /-- A directory, or something else that has no content. -/
  | directory
  /-- A file. -/
  | file (content : Bytes)
  deriving DecidableEq

/-- The text of a file; nothing else has one. -/
def Stored.text? : Stored → Option String
  | .file content => Utf8.decode? content
  | .missing => none
  | .directory => none

/-- Why settings could not be loaded. -/
inductive LoadError where
  /-- There is no text to read. -/
  | unreadable
  /-- The text is not a document with settings of the right types. -/
  | malformed
  deriving DecidableEq

end HomeControl

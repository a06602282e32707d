import HomeControl.Login.Users
import HomeControl.Settings.Stored
import HomeControl.Settings.Toml.Document

/-!
# User tables

The users of a server are listed in a file of their own, as one table from names to passwords. A
server that nobody can log in to is of no use, so a table without users is an error.
-/

namespace HomeControl.UserTable

/-- Why no users could be loaded. -/
inductive Error where
  /-- There is no such table. -/
  | load (cause : LoadError)
  /-- The table is empty. -/
  | empty
  deriving DecidableEq

/-- The key under which a date stands where a table is expected. -/
def momentKey : String := "$__toml_private_datetime"

/-- A name with its password, if that is a string. -/
def pair? : String × Toml.Node → Option (String × String)
  | (name, .text password) => some (name, password)
  | _ => none

/-- The names and passwords of a document; a document without the table has none. -/
def pairs? (document : Toml.Entries) : Option (List (String × String)) :=
  match document.get? "users" with
  | none => some []
  | some (.table _ entries) => entries.mapM pair?
  | some (.moment text) => some [(momentKey, text)]
  | some _ => none

/-- Loads a table of users. -/
def load (stored : Stored) : Except Error Users :=
  match stored.text? with
  | none => .error (.load .unreadable)
  | some text =>
    match (Toml.parse? text).bind pairs? with
    | none => .error (.load .malformed)
    | some [] => .error .empty
    | some pairs => .ok (Users.ofPasswords pairs)

/-- What is said of an empty table. -/
def emptyComplaint (path : String) : String :=
  "credential store " ++ path ++ " defines no users"

end HomeControl.UserTable

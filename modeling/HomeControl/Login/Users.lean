import HomeControl.Digest.Hmac
import HomeControl.Text.Quoted
import HomeControl.Text.Utf8

/-!
# Logins

A password never travels. Its digest is the secret that both sides share, and the response to a
challenge is the challenge's digest under the secret. The server keeps the secrets of its users and
accepts a response body only if it is the name of a user, a semicolon and the very response that user
would give.
-/

namespace HomeControl

/-- The digest of a password. -/
abbrev Secret := Bytes

/-- A name and a password, as a client holds them. -/
structure Login where
  /-- The name of the user. -/
  username : String
  /-- The password. -/
  password : String
  deriving DecidableEq

/-- The byte between the name and the response. -/
def separator : UInt8 := 0x3b

/-- The secret of a password. -/
def deriveSecret (password : String) : Secret :=
  Sha256.digest (Utf8.encode password)

/-- The response of a secret to a challenge. -/
def respond (challenge : Bytes) (secret : Secret) : Bytes :=
  Hmac.digest secret challenge

/-- The body of a RESPONSE: name, semicolon, response. -/
def Login.responseBody (login : Login) (challenge : Bytes) : Bytes :=
  Utf8.encode login.username ++ separator :: respond challenge (deriveSecret login.password)

/-- One line that shows a login in diagnostics, without its password. -/
def Login.describe (login : Login) : String :=
  let name := Text.quoted login.username
  s!"Credentials \x7b username: {name}, password: \"<redacted>\" \x7d"

/-- The users of a server with their secrets; every name stands once. -/
structure Users where
  /-- Names and secrets. -/
  entries : List (String × Secret) := []
  deriving DecidableEq

namespace Users

/-- Sets the secret of a user. -/
def insert (us : Users) (name : String) (secret : Secret) : Users :=
  { entries := us.entries.filter (fun e => e.1 != name) ++ [(name, secret)] }

/-- The users of a list of names and passwords; of two entries for a name the later one counts. -/
def ofPasswords (pairs : List (String × String)) : Users :=
  pairs.foldl (fun us pair => us.insert pair.1 (deriveSecret pair.2)) {}

/-- The secret of a user. -/
def secret? (us : Users) (name : String) : Option Secret :=
  us.entries.lookup name

/-- The number of users. -/
def count (us : Users) : Nat :=
  us.entries.length

/-- One line that shows the users in diagnostics: how many there are. -/
def describe (us : Users) : String :=
  s!"Authenticator \x7b users: {us.count} \x7d"

/-- Whether a body answers a challenge: it is split at its first semicolon, the part before names a
user, and the part after is that user's response. -/
def verify (us : Users) (challenge body : Bytes) : Bool :=
  match body.dropWhile (· != separator) with
  | [] => false
  | _ :: response =>
    match Utf8.decode? (body.takeWhile (· != separator)) with
    | none => false
    | some name =>
      match us.secret? name with
      | none => false
      | some secret => respond challenge secret == response

end Users

end HomeControl

import HomeControl.Client.Request
import HomeControl.Home.Basic

/-!
# Scripts

A fixed list of requests in place of a user. Whoever asks a script shows it the home the request is
for; the script remembers every home it has been shown. Once the list is used up a script either has
no request any more, or keeps the asker waiting until the question is withdrawn.
-/

namespace HomeControl

/-- A script and what it has seen. -/
structure Script where
  /-- The requests not given out yet. -/
  requests : List Request
  /-- Whether an asker waits once no request is left. -/
  waits : Bool := false
  /-- The homes shown so far, latest first. -/
  latest : List Home := []

namespace Script

/-- The homes shown so far, oldest first. -/
def seen (s : Script) : List Home :=
  s.latest.reverse

/-- What a question comes to. -/
inductive Reply where
  /-- A request, or none. -/
  | posted (request : Option Request)
  /-- The asker waits. -/
  | waiting
  deriving DecidableEq

/-- Asks for the next request; a waiting question that has been withdrawn comes to none. -/
def ask (s : Script) (home : Home) (withdrawn : Bool) : Script × Reply :=
  let s := { s with latest := home :: s.latest }
  match s.requests with
  | request :: rest => ({ s with requests := rest }, .posted (some request))
  | [] => (s, if s.waits && !withdrawn then .waiting else .posted none)

end Script

end HomeControl

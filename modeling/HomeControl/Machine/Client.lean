import HomeControl.Home.Snapshot
import HomeControl.Login.Users
import HomeControl.Machine.Violation

/-!
# The client's machine

The client's side of a conversation. Its session starts it with the sentinel INTERNAL, and it answers
with the PING that opens the conversation. Once logged in it keeps a mirror of the server's home: the
snapshot it was given, with every update and every confirmed action of its own applied in the order
in which they arrive. An action of its own waits for its confirmation before it reaches the mirror.
-/

namespace HomeControl

/-- The client's side of a conversation. -/
structure ClientMachine where
  /-- The version the client offers and requires. -/
  version : String
  /-- The login that answers challenges. -/
  login : Login
  /-- Where the conversation stands. -/
  state : State := .idle
  /-- The mirror of the server's home. -/
  home : Option Home := none
  /-- The response that is about to be sent. -/
  pendingResponse : Option Bytes := none
  /-- The action that has been sent and not been confirmed. -/
  pendingAction : Option Action := none
  deriving DecidableEq

namespace ClientMachine

/-- Back to `idle`, with the values that wait for an answer forgotten. The mirror is kept. -/
def reset (m : ClientMachine) : ClientMachine :=
  { m with state := .idle, pendingResponse := none, pendingAction := none }

/-- Gives up the attempt because of a violation and reports it. -/
def reject (m : ClientMachine) (v : Violation) : ClientMachine × Option Message :=
  (m.reset, some v.reply)

/-- Rejects a message that the state does not expect. -/
def unexpected (m : ClientMachine) (incoming : Message) : ClientMachine × Option Message :=
  m.reject (.unexpected m.state incoming.keycode)

/-- Applies an action to the mirror; one that the mirror refuses changes nothing. -/
def mirror (m : ClientMachine) (a : Action) : ClientMachine :=
  { m with home := m.home.map fun h => h.applyOrKeep a }

/-- Opens the conversation. -/
def onIdle (m : ClientMachine) (incoming : Message) : ClientMachine × Option Message :=
  if incoming.keycode ≠ .internal then m.unexpected incoming
  else ({ m with state := .clientAwaitsVersion }, some .ping)

/-- Sends the client's version. -/
def onServerAwaitsVersion (m : ClientMachine) (incoming : Message) :
    ClientMachine × Option Message :=
  if incoming.keycode ≠ .internal then m.unexpected incoming
  else ({ m with state := .clientAwaitsChallenge }, some (.version m.version))

/-- The server has to offer the client's own version. -/
def onClientAwaitsVersion (m : ClientMachine) (incoming : Message) :
    ClientMachine × Option Message :=
  if incoming.keycode ≠ .version then m.unexpected incoming
  else if incoming.text? ≠ some m.version then m.reject (.versionMismatch incoming.lossyText)
  else onServerAwaitsVersion { m with state := .serverAwaitsVersion } .internal

/-- Sends the response that is pending. -/
def onServerAwaitsResponse (m : ClientMachine) (incoming : Message) :
    ClientMachine × Option Message :=
  if incoming.keycode ≠ .internal then m.unexpected incoming
  else
    match m.pendingResponse with
    | none => m.unexpected incoming
    | some body =>
      ({ m with state := .clientAwaitsInit, pendingResponse := none }, some (.response body))

/-- Answers the challenge. -/
def onClientAwaitsChallenge (m : ClientMachine) (incoming : Message) :
    ClientMachine × Option Message :=
  if incoming.keycode ≠ .challenge then m.unexpected incoming
  else
    let body := m.login.responseBody incoming.payload
    onServerAwaitsResponse { m with state := .serverAwaitsResponse, pendingResponse := some body }
      .internal

/-- Applies the update another client caused. Without a home there is nothing to apply it to, but it
has to be readable all the same. -/
def applyUpdate (m : ClientMachine) (incoming : Message) : Except Violation ClientMachine :=
  match incoming.parseUpdate with
  | .error e => .error (.malformed e)
  | .ok a => .ok (m.mirror a)

/-- Between actions: asks for the user's next action, follows updates, and sends an action that the
session hands in. -/
def onServerAwaitsAction (m : ClientMachine) (incoming : Message) :
    ClientMachine × Option Message :=
  match incoming.keycode with
  | .internal => (m, some .waitUserInput)
  | .update =>
    match m.applyUpdate incoming with
    | .ok m => (m, some .waitUserInput)
    | .error v => m.reject v
  | .action =>
    match incoming.parseAction with
    | .error e => m.reject (.malformed e)
    | .ok a => ({ m with state := .clientAwaitsConfirm, pendingAction := some a }, some incoming)
  | _ => m.unexpected incoming

/-- Takes the snapshot. -/
def onClientAwaitsInit (m : ClientMachine) (incoming : Message) : ClientMachine × Option Message :=
  if incoming.keycode ≠ .initial then m.unexpected incoming
  else
    match Home.ofSnapshot incoming.payload with
    | .error e => m.reject (.snapshot e)
    | .ok home =>
      onServerAwaitsAction { m with state := .serverAwaitsAction, home := some home } .internal

/-- While an action waits for its confirmation: follows updates, and settles the action. -/
def onClientAwaitsConfirm (m : ClientMachine) (incoming : Message) :
    ClientMachine × Option Message :=
  match incoming.keycode with
  | .update =>
    match m.applyUpdate incoming with
    | .ok m => (m, none)
    | .error v => m.reject v
  | .confirm =>
    match incoming.parseConfirm with
    | .error e => m.reject (.malformed e)
    | .ok confirmation =>
      match m.pendingAction with
      | none => m.unexpected incoming
      | some a =>
        let m := { m with pendingAction := none }
        if confirmation.sequence ≠ a.sequence then
          m.reject (.confirmMismatch a.sequence confirmation.sequence)
        else
          let m := if confirmation.accepted then m.mirror a else m
          onServerAwaitsAction { m with state := .serverAwaitsAction } .internal
  | _ => m.unexpected incoming

/-- Handles a message. TERMINATE and ERROR are taken in every state. -/
def process (m : ClientMachine) (incoming : Message) : ClientMachine × Option Message :=
  if incoming.keycode = .terminate then ({ m with state := .idle }, some .terminate)
  else if incoming.keycode = .error then (m.reset, none)
  else
    match m.state with
    | .idle => m.onIdle incoming
    | .clientAwaitsVersion => m.onClientAwaitsVersion incoming
    | .serverAwaitsVersion => m.onServerAwaitsVersion incoming
    | .clientAwaitsChallenge => m.onClientAwaitsChallenge incoming
    | .serverAwaitsResponse => m.onServerAwaitsResponse incoming
    | .clientAwaitsInit => m.onClientAwaitsInit incoming
    | .serverAwaitsAction => m.onServerAwaitsAction incoming
    | .clientAwaitsConfirm => m.onClientAwaitsConfirm incoming

end ClientMachine

end HomeControl

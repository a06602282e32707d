import HomeControl.Home.Snapshot
import HomeControl.Login.Users
import HomeControl.Machine.Violation

/-!
# The server's machine

The server's side of one conversation. It answers a PING with its version, checks the client's, sends
a challenge, verifies the response, hands over the home and then applies one action after another to
the home it shares with all other sessions.

A call is a function of the machine, the shared home, the message and a challenge that has not been
used before; it returns the machine and the home after the call, the reply, and what the call asks of
the fan-out of updates. Some states only produce a message: whoever enters such a state asks the
machine at once for that message with the sentinel INTERNAL, so no call ends in one of them.
-/

namespace HomeControl

/-- What a machine asks of the fan-out of updates. -/
inductive Event where
  /-- Hand an update to every subscribed session but the one it comes from. -/
  | broadcast (update : Message) (origin : SessionId)
  /-- From now on this session receives updates. -/
  | subscribe (session : SessionId)
  /-- From now on this session receives no updates. -/
  | unsubscribe (session : SessionId)
  deriving DecidableEq

/-- The server's side of a conversation. -/
structure ServerMachine where
  /-- The session whose machine this is. -/
  session : SessionId
  /-- The version the server offers and requires. -/
  version : String
  /-- Who may log in. -/
  users : Users
  /-- Where the conversation stands. -/
  state : State := .idle
  /-- The challenge that has been sent and not been answered. -/
  challenge : Option Bytes := none
  /-- The confirmation that is about to be sent. -/
  pendingConfirm : Option Message := none
  deriving DecidableEq

/-- What a call comes to. -/
structure ServerStep where
  /-- The machine after the call. -/
  machine : ServerMachine
  /-- The shared home after the call. -/
  home : Home
  /-- The message to send. -/
  reply : Option Message
  /-- What the call asked of the fan-out, in order. -/
  events : List Event := []

namespace ServerMachine

/-- Whether the session receives updates in this state. -/
def isSubscribed (m : ServerMachine) : Bool :=
  m.state == .serverAwaitsAction || m.state == .clientAwaitsConfirm

/-- Back to `idle`, with everything that belongs to this attempt forgotten. -/
def reset (m : ServerMachine) : ServerMachine :=
  { m with state := .idle, challenge := none, pendingConfirm := none }

/-- The session's subscription ends with the attempt it belongs to. -/
def resetEvents (m : ServerMachine) : List Event :=
  if m.isSubscribed then [.unsubscribe m.session] else []

/-- Gives up the attempt because of a violation and reports it. -/
def reject (m : ServerMachine) (home : Home) (v : Violation) : ServerStep :=
  { machine := m.reset, home, reply := some v.reply, events := m.resetEvents }

/-- Rejects a message that the state does not expect. -/
def unexpected (m : ServerMachine) (home : Home) (incoming : Message) : ServerStep :=
  m.reject home (.unexpected m.state incoming.keycode)

/-- Sends the server's version. -/
def onClientAwaitsVersion (m : ServerMachine) (home : Home) (incoming : Message) : ServerStep :=
  if incoming.keycode ≠ .internal then m.unexpected home incoming
  else
    { machine := { m with state := .serverAwaitsVersion }, home
      reply := some (.version m.version) }

/-- A conversation opens with an empty PING. -/
def onIdle (m : ServerMachine) (home : Home) (incoming : Message) : ServerStep :=
  if incoming.keycode ≠ .ping then m.unexpected home incoming
  else if incoming.payload ≠ [] then m.reject home .malformedPing
  else onClientAwaitsVersion { m with state := .clientAwaitsVersion } home .internal

/-- Sends and remembers a fresh challenge. -/
def onClientAwaitsChallenge (m : ServerMachine) (home : Home) (fresh : Bytes)
    (incoming : Message) : ServerStep :=
  if incoming.keycode ≠ .internal then m.unexpected home incoming
  else
    { machine := { m with state := .serverAwaitsResponse, challenge := some fresh }, home
      reply := some (.challenge fresh) }

/-- The client has to offer the server's own version. -/
def onServerAwaitsVersion (m : ServerMachine) (home : Home) (fresh : Bytes)
    (incoming : Message) : ServerStep :=
  if incoming.keycode ≠ .version then m.unexpected home incoming
  else if incoming.text? ≠ some m.version then
    m.reject home (.versionMismatch incoming.lossyText)
  else onClientAwaitsChallenge { m with state := .clientAwaitsChallenge } home fresh .internal

/-- Hands over the home and subscribes the session, so that it receives exactly the updates that the
snapshot does not contain. -/
def onClientAwaitsInit (m : ServerMachine) (home : Home) (incoming : Message) : ServerStep :=
  if incoming.keycode ≠ .internal then m.unexpected home incoming
  else
    { machine := { m with state := .serverAwaitsAction }, home
      reply := some (.initial home.snapshot), events := [.subscribe m.session] }

/-- The response has to answer the challenge of this attempt. The challenge is used up by it. -/
def onServerAwaitsResponse (m : ServerMachine) (home : Home) (incoming : Message) : ServerStep :=
  if incoming.keycode ≠ .response then m.unexpected home incoming
  else
    let verified := match m.challenge with
      | some challenge => m.users.verify challenge incoming.payload
      | none => false
    let m := { m with challenge := none }
    if verified then onClientAwaitsInit { m with state := .clientAwaitsInit } home .internal
    else m.reject home .authenticationFailed

/-- Sends the confirmation that is pending. -/
def onClientAwaitsConfirm (m : ServerMachine) (home : Home) (incoming : Message) : ServerStep :=
  if incoming.keycode ≠ .internal then m.unexpected home incoming
  else
    { machine := { m with state := .serverAwaitsAction, pendingConfirm := none }, home
      reply := m.pendingConfirm }

/-- Applies an action to the home. If the home accepts it, the other sessions are told before the
client gets its confirmation. -/
def onServerAwaitsAction (m : ServerMachine) (home : Home) (incoming : Message) : ServerStep :=
  if incoming.keycode ≠ .action then m.unexpected home incoming
  else
    match incoming.parseAction with
    | .error e => m.reject home (.malformed e)
    | .ok a =>
      let (home, accepted, events) := match home.apply a with
        | .ok home => (home, true, [Event.broadcast (.update a) m.session])
        | .error _ => (home, false, [])
      let waiting :=
        { m with state := .clientAwaitsConfirm, pendingConfirm := some (.confirm a.sequence accepted) }
      let step := waiting.onClientAwaitsConfirm home .internal
      { step with events := events ++ step.events }

/-- Handles a message; `fresh` is a challenge not used before. -/
def process (m : ServerMachine) (home : Home) (fresh : Bytes) (incoming : Message) : ServerStep :=
  if incoming.keycode = .terminate then
    { machine := m.reset, home, reply := some .terminate, events := m.resetEvents }
  else
    match m.state with
    | .idle => m.onIdle home incoming
    | .clientAwaitsVersion => m.onClientAwaitsVersion home incoming
    | .serverAwaitsVersion => m.onServerAwaitsVersion home fresh incoming
    | .clientAwaitsChallenge => m.onClientAwaitsChallenge home fresh incoming
    | .serverAwaitsResponse => m.onServerAwaitsResponse home incoming
    | .clientAwaitsInit => m.onClientAwaitsInit home incoming
    | .serverAwaitsAction => m.onServerAwaitsAction home incoming
    | .clientAwaitsConfirm => m.onClientAwaitsConfirm home incoming

/-- One line that shows a machine in diagnostics. -/
def describe (m : ServerMachine) : String :=
  let state := m.state.longName
  s!"ServerDfa \x7b session_id: {m.session}, state: {state}, .. \x7d"

end ServerMachine

end HomeControl

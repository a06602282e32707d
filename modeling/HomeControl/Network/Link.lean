import HomeControl.Network.Address

/-!
# Links

What the machine's own network allows. Nothing can be reached while it is down, but listening only
asks whether an address may be one's own: an address of four bytes is believed as long as no list of
the machine's addresses exists, which is made when the network comes up.
-/

namespace HomeControl

/-- The state of the machine's network to itself. -/
inductive Link where
  /-- The machine can reach itself. -/
  | up
  /-- The machine can reach nothing. -/
  | down
  deriving DecidableEq

/-- Why a connection cannot be made. -/
inductive ConnectError where
  /-- There is no way to the address. -/
  | unreachable
  /-- Nobody listens there. -/
  | refused
  deriving DecidableEq

/-- The text of an error. -/
def ConnectError.message : ConnectError → String
  | unreachable => "Network is unreachable (os error 101)"
  | refused => "Connection refused (os error 111)"

namespace Link

/-- Whether a machine whose network is up has an address of four bytes: the unspecified address, one
that leads back to the machine, or one that is meant for many. -/
def hasBytes (q : Vector UInt8 4) : Bool :=
  let first := IpAddress.firstByte q
  q.toList.all (· == 0) || first == 127 || first / 16 == 14 || q.toList.all (· == 255)

/-- Whether a server can listen at an address. -/
def canBind (link : Link) (ip : IpAddress) : Bool :=
  match ip, ip.mapped?, link with
  | .v4 _, _, .down => true
  | .v4 q, _, .up => hasBytes q
  | .v6 _, some _, .down => true
  | .v6 _, some q, .up => hasBytes q
  | .v6 groups, none, .down => groups.toList.all (· == 0)
  | .v6 groups, none, .up => (groups.toList.take 7).all (· == 0) && IpAddress.lastGroup groups ≤ 1

end Link

end HomeControl

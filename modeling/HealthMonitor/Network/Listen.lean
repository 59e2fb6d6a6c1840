import HealthMonitor.Network.Dial

/-!
# Listening

Which addresses a machine without routes can listen at when nobody gives it special rights: every
address of version 4 and no address of version 6 in particular, at any port but the first ones.
-/

namespace HealthMonitor

/-- Why an address cannot be listened at. -/
inductive ListenFault where
  | address (fault : AddressFault)
  | network (fault : NetworkFault)
  deriving DecidableEq, Repr

def ListenFault.message : ListenFault → String
  | .address fault => fault.message
  | .network fault => fault.message

namespace Network

/-- The ports below this one need special rights; port 0 stands for any free port. -/
def firstFreePort : Nat := 1024

/-- Whether nobody without special rights can listen at a port. -/
def isReserved (port : Nat) : Bool :=
  0 < port && port < firstFreePort

/-- The device that a machine talks to itself on. -/
def loopbackDevice : UInt32 := 1

/-- Why an IP address cannot be listened at, at a port that is not reserved. -/
def bindFault? : IpAddress → Option NetworkFault
  | .v4 _ => none
  | .v6 groups scope =>
    if IpAddress.isUnspecified groups || IpAddress.isMapped groups then none
    else if IpAddress.isLinkLocal groups && scope == 0 then some .invalid
    else if IpAddress.isLinkLocal groups && scope != loopbackDevice then some .noDevice
    else some .unavailable

/-- Why an IP address cannot be listened at. -/
def listenFault? (address : IpAddress) (port : Nat) : Option NetworkFault :=
  match address with
  | .v6 groups _ =>
    if IpAddress.isMulticast groups then some .invalid
    else if isReserved port then some .denied
    else bindFault? address
  | .v4 _ => if isReserved port then some .denied else none

/-- Refuses an address that cannot be listened at. -/
def checkListen (address : String) : Except ListenFault Unit := do
  let (ip, port) ← (resolve address).mapError ListenFault.address
  match listenFault? ip port with
  | some fault => .error (.network fault)
  | none => .ok ()

end Network

end HealthMonitor

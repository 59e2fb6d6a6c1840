import HealthMonitor.Dependency.Endpoint
import HealthMonitor.Network.Resolve
import HealthMonitor.Probe.Verdict

/-!
# Dialling

A `Network` says what becomes of an attempt to reach a host. Looking a host up either fails or
gives addresses, which are tried in turn: the first connection wins, and when none is made the
last refusal tells why. `Network.isolated` is the network of a machine without any route: names
have no addresses there, and no address can be reached.
-/

namespace HealthMonitor

/-- The addresses that a look-up finds, each with the end of an attempt to connect to it. -/
structure Network (C : Type) where
  lookup : String → UInt16 → Except String (List (Except IoFailure C))

/-- Why a machine without routes cannot use an address. -/
inductive NetworkFault where
  | denied
  | noDevice
  | invalid
  /-- No device of the machine has the address. -/
  | unavailable
  | unreachable
  deriving DecidableEq, Repr

def NetworkFault.message : NetworkFault → String
  | .denied => "Permission denied (os error 13)"
  | .noDevice => "No such device (os error 19)"
  | .invalid => "Invalid argument (os error 22)"
  | .unavailable => "Cannot assign requested address (os error 99)"
  | .unreachable => "Network is unreachable (os error 101)"

/-- What a failed attempt to connect ran into. -/
def NetworkFault.kind : NetworkFault → IoKind
  | .unreachable => .unreachable
  | _ => .other

namespace Network

variable {C : Type}

/-- The failure of an attempt. -/
def attemptFailure (e : IoFailure) : Failure :=
  if e.kind = .refused then .refused else .io e

/-- The failure of a look-up without addresses. -/
def noAddress : String := "no addresses resolved"

/-- The first connection among attempts, or the failure of the last. -/
def firstOpen (last : Failure) : List (Except IoFailure C) → Except Failure C
  | [] => .error last
  | .ok c :: _ => .ok c
  | .error e :: rest => firstOpen (attemptFailure e) rest

/-- Connects to an endpoint. -/
def connect (n : Network C) (e : Endpoint) : Except Failure C :=
  match n.lookup e.host e.port with
  | .error message => .error (.dns e.host message)
  | .ok attempts => firstOpen (.dns e.host noAddress) attempts

/-! ### A machine without routes -/

/-- Why an attempt to connect to an address fails: version 4 has no route, while version 6 first
looks for an address to come from. -/
def dialFault : IpAddress → NetworkFault
  | .v4 _ => .unreachable
  | .v6 groups scope =>
    if IpAddress.isMapped groups || IpAddress.isMulticast groups then .unreachable
    else if IpAddress.isLinkLocal groups && scope == 0 then .invalid
    else .unavailable

/-- The end of an attempt to connect to an address. -/
def attempt (address : IpAddress) : IoFailure :=
  let fault := dialFault address
  .told fault.kind fault.message

/-- The network of a machine without routes and without name service. -/
def isolated : Network C where
  lookup host port :=
    match resolve (Endpoint.addressOf host port) with
    | .ok (address, _) => .ok [.error (attempt address)]
    | .error fault => .error fault.message

end Network

end HealthMonitor

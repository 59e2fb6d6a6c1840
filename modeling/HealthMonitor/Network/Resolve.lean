import HealthMonitor.Network.IpAddress

/-!
# Resolving addresses

An address is a host and a port behind the last colon. `resolve` finds the IP address of the host on
a machine without name service, where only numeric hosts and the name of the machine itself have
one. An IPv6 address stands in brackets or as it is.
-/

namespace HealthMonitor

/-- Why an address leads nowhere. -/
inductive AddressFault where
  | noColon
  | port
  /-- The host has a null character. -/
  | null
  /-- The host can be the name of no machine. -/
  | noName
  /-- Nobody says whether a machine has the name. -/
  | noAnswer
  deriving DecidableEq, Repr

def AddressFault.message : AddressFault → String
  | .noColon => "invalid socket address"
  | .port => "invalid port value"
  | .null => "file name contained an unexpected NUL byte"
  | .noName => "failed to lookup address information: Name or service not known"
  | .noAnswer => "failed to lookup address information: Temporary failure in name resolution"

namespace Network

/-- The name that a machine gives to itself. -/
def self : List Char := "localhost".toList

/-- The address that a machine gives to itself. -/
def loopback : IpAddress := .v4 0x7F000001

/-- Whether a text can be a part of a host name. -/
def isNameLabel (cs : List Char) : Bool :=
  1 ≤ cs.length && cs.length ≤ 63 && cs.all fun c => c.isAlphanum || c == '-' || c == '_'

/-- The greatest length of a host name. -/
def maxName : Nat := 253

/-- Whether a text can be a host name: labels between points, with one more point at most. -/
def isName (cs : List Char) : Bool :=
  let body := if cs.getLast? = some '.' then cs.dropLast else cs
  body.length ≤ maxName && (body.splitOn '.').all isNameLabel && cs.head? != some '-'

/-- The IP address of a host. -/
def resolveHost (host : List Char) : Except AddressFault IpAddress :=
  if host.contains '\x00' then .error .null
  else
    match (IpAddress.v4? host).or (IpAddress.v6? host) with
    | some address => .ok address
    | none =>
      if Text.lower host == self then .ok loopback
      else if isName host then .error .noAnswer
      else .error .noName

/-- The greatest port and one more. -/
def portLimit : Nat := 65536

/-- An IPv6 address in brackets and a port. -/
def bracketed? (cs : List Char) : Option (IpAddress × Nat) :=
  match cs with
  | '[' :: rest => do
    let (host, behind) ← Text.cut ']' rest
    let address ← IpAddress.scoped? host
    match behind with
    | ':' :: digits => do
      let port ← Text.digits? digits
      if port < portLimit then some (address, port) else none
    | _ => none
  | _ => none

/-- Whether a host is an IP address in its usual form. -/
def isLiteral (host : String) : Bool :=
  (IpAddress.dotted? host.toList).isSome || (IpAddress.scoped? host.toList).isSome

/-- The IP address and the port of an address. -/
def resolve (address : String) : Except AddressFault (IpAddress × Nat) :=
  match bracketed? address.toList with
  | some found => .ok found
  | none =>
    match Text.cutLast ':' address.toList with
    | none => .error .noColon
    | some (host, digits) =>
      match Text.natural? portLimit digits with
      | none => .error .port
      | some port => (resolveHost host).map fun ip => (ip, port)

end Network

end HealthMonitor

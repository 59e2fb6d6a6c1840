import HealthMonitor.ConfigError
import HealthMonitor.Text.Cut

/-!
# Hosts and ports

A port is a number from 1 to 65535, with blanks around it at most. A host part of an address is a
host, a host and a port behind a colon, a host in brackets with or without a port, or a bare host
with several colons.
-/

namespace HealthMonitor.Address

/-- A port number: decimal, from 1 to 65535, with blanks around it at most. -/
def port? (text : List Char) : Option UInt16 :=
  match Text.natural? 65536 (Text.trim text) with
  | some n => if n = 0 then none else some (UInt16.ofNat n)
  | none => none

/-- Reads a port given on its own. -/
def parsePort (text : String) : Except ConfigError UInt16 :=
  match port? text.toList with
  | some p => .ok p
  | none => .error (.invalidPort text)

/-- Removes one bracket at each end, when both are there. -/
def stripBrackets (host : List Char) : List Char :=
  match host with
  | '[' :: rest => if rest.getLast? = some ']' then rest.dropLast else host
  | _ => host

/-- A host part cut into its host and its port text; nothing when a bracket is not closed. Text
between a closing bracket and a colon or the end belongs to neither. -/
def splitPart? (part : List Char) : Option (List Char × Option (List Char)) :=
  match part with
  | '[' :: rest =>
    (Text.cut ']' rest).map fun p =>
      match p.2 with
      | ':' :: port => (p.1, some port)
      | _ => (p.1, none)
  | _ =>
    match Text.cut ':' part with
    | some (host, port) => if port.contains ':' then some (part, none) else some (host, some port)
    | none => some (part, none)

/-- The host and the port of a host part. A part without a port, or with an empty one, has the given
port. -/
def hostPort (fallback : UInt16) (part : List Char) : Except HostFault (String × UInt16) :=
  match splitPart? part with
  | none => .error (.port (String.ofList part))
  | some (host, port) =>
    if host.isEmpty then .error (.empty (String.ofList part))
    else
      match port with
      | none | some [] => .ok (String.ofList host, fallback)
      | some text =>
        match port? text with
        | some p => .ok (String.ofList host, p)
        | none => .error (.port (String.ofList text))

end HealthMonitor.Address

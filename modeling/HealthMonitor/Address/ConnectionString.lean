import HealthMonitor.Address.HostPort

/-!
# Connection strings

A connection string is a row of `key=value` pairs between semicolons. The host stands under one of
six keys; the port stands under its own key, behind a comma in the host, or behind a colon in it.
-/

namespace HealthMonitor.Address

/-- A pair of a connection string: its key in lower case and its value, both trimmed. -/
structure Pair where
  key : List Char
  value : List Char
  deriving DecidableEq, Repr

/-- The pair that a part spells; a part without an equals sign spells none. -/
def pair? (part : List Char) : Option Pair :=
  (Text.cut '=' part).map fun p => ⟨Text.lower (Text.trim p.1), Text.trim p.2⟩

/-- The pairs of a connection string. -/
def pairs (raw : List Char) : List Pair :=
  (raw.splitOn ';').filterMap pair?

/-- The first value under a key that is not empty. -/
def valueOf? (ps : List Pair) (key : String) : Option (List Char) :=
  (ps.find? fun p => p.key == key.toList && !p.value.isEmpty).map Pair.value

/-- The keys that name a host, the first of them first. -/
def hostKeys : List String :=
  ["host", "server", "data source", "address", "addr", "network address"]

def portKey : String := "port"

/-- A host with its port split off: behind a comma, or else behind a colon when that is a port. -/
def splitHost (host : List Char) : List Char × Option (List Char) :=
  match Text.cut ',' host with
  | some (h, p) => (Text.trim h, some (Text.trim p))
  | none =>
    if host.contains ':' then
      match hostPort 0 host with
      | .ok (h, p) => if p = 0 then (host, none) else (h.toList, some (Text.digitsOf p.toNat))
      | .error _ => (host, none)
    else (host, none)

/-- The host and the port of a connection string, or what is wrong with it. -/
def connection (raw : List Char) : Except ConnectionStringFault (String × Option UInt16) := do
  if (Text.trim raw).isEmpty then throw .empty
  let ps := pairs raw
  let some written := hostKeys.findSome? (valueOf? ps) | throw .missingHost
  let (host, port) := match valueOf? ps portKey with
    | some p => (written, some p)
    | none => splitHost written
  let host := String.ofList (stripBrackets host)
  match port with
  | none => return (host, none)
  | some text =>
    match port? text with
    | some p => return (host, some p)
    | none => throw (.port (String.ofList text))

/-- Reads a connection string. -/
def parseConnectionString (raw : String) : Except ConfigError (String × Option UInt16) :=
  (connection raw.toList).mapError ConfigError.invalidConnectionString

end HealthMonitor.Address

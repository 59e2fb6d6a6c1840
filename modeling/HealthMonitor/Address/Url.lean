import HealthMonitor.Address.HostPort
import HealthMonitor.Dependency.Endpoint

/-!
# Connection URLs

A URL names the kind of a dependency by its scheme and lists hosts between commas. User info,
path, query and fragment are left aside; a host without a port has the port of the scheme. A JDBC
URL wraps such a URL for one of two databases and yields its first host alone.
-/

namespace HealthMonitor.Address

/-- A host and a port of a dependency of some kind. -/
structure Target where
  host : String
  port : UInt16
  kind : Kind
  deriving DecidableEq, Repr

/-- A target as an endpoint without labels. -/
def Target.endpoint (t : Target) : Endpoint :=
  Endpoint.plain t.host t.port

/-- The usual port and the kind of a scheme in lower case. -/
def schemeDefaults? (scheme : String) : Option (UInt16 × Kind) :=
  match scheme with
  | "postgres" => some (5432, .postgres)
  | "postgresql" => some (5432, .postgres)
  | "mysql" => some (3306, .mysql)
  | "redis" => some (6379, .redis)
  | "rediss" => some (6379, .redis)
  | "amqp" => some (5672, .amqp)
  | "amqps" => some (5671, .amqp)
  | "http" => some (80, .http)
  | "https" => some (443, .http)
  | "grpc" => some (443, .grpc)
  | "kafka" => some (9092, .kafka)
  | "ldap" => some (389, .ldap)
  | "ldaps" => some (636, .ldap)
  | _ => none

/-- The mark between a scheme and the rest of a URL. -/
def schemeMark : List Char := [':', '/', '/']

/-- Whether a character ends the authority of a URL. -/
def endsAuthority (c : Char) : Bool :=
  c == '/' || c == '?' || c == '#'

/-- The host list of what follows the scheme: the authority behind its last `@`. -/
def hostList (rest : List Char) : List Char :=
  let authority := rest.takeWhile fun c => !endsAuthority c
  match Text.cutLast '@' authority with
  | some (_, hosts) => hosts
  | none => authority

/-- The parts of a host list that are not blank, trimmed. -/
def hostParts (hosts : List Char) : List (List Char) :=
  ((hosts.splitOn ',').map Text.trim).filter fun p => !p.isEmpty

/-- The targets of a URL, or what is wrong with it. -/
def targets (raw : List Char) : Except UrlFault (List Target) := do
  if raw.isEmpty then throw .empty
  let some (scheme, rest) := Text.cutAt schemeMark raw | throw .missingScheme
  if scheme.isEmpty then throw .missingScheme
  let scheme := String.ofList (Text.lower scheme)
  let some (fallback, kind) := schemeDefaults? scheme | throw (.unsupportedScheme scheme)
  let found ← (hostParts (hostList rest)).mapM fun part =>
    ((hostPort fallback part).map fun p => Target.mk p.1 p.2 kind).mapError UrlFault.host
  if found.isEmpty then throw .emptyHost
  return found

/-- Reads a URL. -/
def parseUrl (raw : String) : Except ConfigError (List Target) :=
  (targets raw.toList).mapError (ConfigError.invalidUrl raw)

/-- The word in front of a JDBC URL. -/
def jdbcMark : List Char := ['j', 'd', 'b', 'c', ':']

/-- The target of a JDBC URL, or what is wrong with it. -/
def jdbcTargets (raw : List Char) : Except UrlFault (List Target) := do
  if Text.lower (raw.take jdbcMark.length) != jdbcMark then throw .missingJdbc
  let inner := raw.drop jdbcMark.length
  let subprotocol := match Text.cutAt schemeMark inner with
    | some (scheme, _) => String.ofList (Text.lower scheme)
    | none => ""
  if subprotocol != "postgresql" && subprotocol != "mysql" then
    throw (.unsupportedSubprotocol subprotocol)
  return (← targets inner).take 1

/-- Reads a JDBC URL. -/
def parseJdbc (raw : String) : Except ConfigError (List Target) :=
  (jdbcTargets raw.toList).mapError (ConfigError.invalidUrl raw)

/-- An endpoint from a host and a port in two texts. -/
def parseParams (host port : String) : Except ConfigError Endpoint := do
  if host.isEmpty then throw (.invalidUrl (host ++ ":" ++ port) .emptyHost)
  let port ← parsePort port
  return Endpoint.plain (String.ofList (stripBrackets host.toList)) port

end HealthMonitor.Address

import HealthMonitor.Address.ConnectionString
import HealthMonitor.Address.Url

/-!
# Endpoint sources

The ways in which a dependency can be told where its endpoints are. A source that leaves the port
out falls back on the usual port of the dependency's kind, if that has one.
-/

namespace HealthMonitor

/-- Where the endpoints of a dependency come from. -/
inductive EndpointSource where
  | url (text : String)
  | jdbc (text : String)
  | connectionString (text : String)
  | params (host port : String)
  | listed (endpoints : List Endpoint)
  deriving DecidableEq, Repr

/-- The usual port of a kind. -/
def Kind.usualPort? (kind : Kind) : Option UInt16 :=
  (Address.schemeDefaults? kind.text).map Prod.fst

namespace EndpointSource

/-- The one endpoint of a connection string. -/
def connected (kind : Kind) (text : String) : Except ConfigError Endpoint := do
  let (host, port) ← Address.parseConnectionString text
  match port <|> kind.usualPort? with
  | some port => return Endpoint.plain host port
  | none => throw (.invalidConnectionString .missingPort)

/-- The endpoints that a source tells, for a dependency of a kind. -/
def endpoints (kind : Kind) : EndpointSource → Except ConfigError (List Endpoint)
  | url text => (Address.parseUrl text).map fun ts => ts.map Address.Target.endpoint
  | jdbc text => (Address.parseJdbc text).map fun ts => ts.map Address.Target.endpoint
  | connectionString text => (connected kind text).map fun e => [e]
  | params host port => (Address.parseParams host port).map fun e => [e]
  | listed es => .ok es

/-- The start of a URL that asks for TLS. -/
def securedMark : List Char := "https://".toList

/-- Whether a source is a URL that asks for TLS. -/
def isSecured : EndpointSource → Bool
  | url text => securedMark.isPrefixOf (Text.lower text.toList)
  | _ => false

end EndpointSource

end HealthMonitor

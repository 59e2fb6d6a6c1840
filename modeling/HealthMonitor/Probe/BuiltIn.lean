import HealthMonitor.Network.Dial
import HealthMonitor.Probe.Http
import HealthMonitor.Probe.HttpResponse
import HealthMonitor.Probe.Registry
import HealthMonitor.Redis.Session

/-!
# Built-in probes

Three kinds of dependency have a probe of their own: a bare connection, an HTTP request and a Redis
session. Each first dials the endpoint; what the peer sends afterwards decides.
-/

namespace HealthMonitor

/-- A probe that needs nothing from its caller. -/
inductive BuiltIn where
  | tcp
  | http (probe : HttpProbe)
  | redis (probe : RedisProbe)
  deriving DecidableEq, Repr

namespace BuiltIn

/-- The kind that a probe checks. -/
def kind : BuiltIn → Kind
  | tcp => .tcp
  | http _ => .http
  | redis _ => .redis

/-- The registry of the built-in probes. -/
def registry : ProbeRegistry BuiltIn :=
  ((ProbeRegistry.empty.register .tcp fun _ => tcp).register .http fun s =>
    http (HttpProbe.ofSettings s)).register .redis fun s => redis (RedisProbe.ofSettings s)

/-- What the other end of a connection does: it may ask for TLS first, and it sends its bytes and
closes. -/
structure Peer where
  secured : Bool
  sends : List UInt8
  deriving DecidableEq, Repr

/-- The end of a handshake. Nobody vouches for the certificate of a peer. -/
def handshake (skipVerify : Bool) (p : Peer) : Outcome :=
  if p.secured then
    if skipVerify then .ok () else .error (.tls "invalid peer certificate: UnknownIssuer")
  else if p.sends.isEmpty then .error (.io (.told .unexpectedEnd "tls handshake eof"))
  else .error (.tls "received corrupt message of type InvalidContentType")

/-- Asks a connected peer for the path of a probe. -/
def ask (probe : HttpProbe) (e : Endpoint) (p : Peer) : Outcome := do
  let _ ← probe.request e
  if probe.tls then handshake probe.skipVerify p
  match HttpResponse.status? p.sends with
  | some status => HttpProbe.judge status
  | none => throw HttpResponse.broken

/-- Checks an endpoint over a network. -/
def check (n : Network Peer) (e : Endpoint) : BuiltIn → Outcome
  | tcp => do
    let _ ← n.connect e
  | http probe => do
    let peer ← n.connect e
    ask probe e peer
  | redis probe => do
    let peer ← n.connect e
    (probe.session peer.sends).2

end BuiltIn

end HealthMonitor

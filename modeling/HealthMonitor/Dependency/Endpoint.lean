import HealthMonitor.ConfigError
import HealthMonitor.Json.Fields

/-!
# Endpoints

An `Endpoint` is a host and a port with custom labels. Its address wraps a host with colons in
brackets. Its key under a dependency joins the dependency's name, the host and the port by colons.
-/

namespace HealthMonitor

/-- One network target of a dependency. -/
structure Endpoint where
  host : String
  port : UInt16
  labels : Labels
  deriving DecidableEq, Repr, Inhabited

namespace Endpoint

/-- An endpoint without labels. -/
def plain (host : String) (port : UInt16) : Endpoint :=
  ⟨host, port, Dictionary.empty⟩

/-- A host and a port as one address. -/
def addressOf (host : String) (port : UInt16) : String :=
  if host.toList.contains ':' then "[" ++ host ++ "]:" ++ toString port.toNat
  else host ++ ":" ++ toString port.toNat

def address (e : Endpoint) : String :=
  addressOf e.host e.port

/-- The key of a host and port under a dependency. -/
def keyOf (dependency host : String) (port : UInt16) : String :=
  dependency ++ ":" ++ host ++ ":" ++ toString port.toNat

def key (e : Endpoint) (dependency : String) : String :=
  keyOf dependency e.host e.port

/-! ### JSON -/

/-- One past the greatest port. -/
def portLimit : Nat := 65536

/-- A port from a whole number below the limit. -/
def portOfJson? (j : Json) : Option UInt16 :=
  (Json.natural? portLimit j).map UInt16.ofNat

def toJson (e : Endpoint) : Json :=
  Json.obj <|
    [("host", Json.text e.host), ("port", Json.nat e.port.toNat)]
      ++ (if e.labels.isEmpty then [] else [("labels", Json.ofDictionary e.labels)])

def ofJson? (j : Json) : Option Endpoint := do
  let f ← Json.fields? .refused ["host", "port", "labels"] j
  let host ← f.required? "host" Json.text?
  let port ← f.required? "port" portOfJson?
  let labels ← f.withDefault? "labels" Dictionary.empty Json.dictionary?
  some ⟨host, port, labels⟩

end Endpoint

end HealthMonitor

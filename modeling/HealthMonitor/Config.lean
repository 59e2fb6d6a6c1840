import HealthMonitor.ConfigError
import HealthMonitor.Bytes.Utf8
import HealthMonitor.Dependency.Endpoint
import HealthMonitor.Probe.Settings
import HealthMonitor.Toml.Reader
import HealthMonitor.Toml.Writer

/-!
# Configuration files

A `Config` is what a configuration file says, nothing more: spans stay texts and unset options
stay unset. `Config.toJson` and `Config.ofJson?` go from a configuration to the tree of its file
and back; `Config.parse` and `Config.render` add the text.
-/

namespace HealthMonitor

/-- The form of the log. -/
inductive LogFormat where
  | text
  | json
  deriving DecidableEq, Repr

/-- Settings of checks, as they are written. -/
structure CheckOptions where
  interval : Option String
  timeout : Option String
  initialDelay : Option String
  failureThreshold : Option UInt32
  successThreshold : Option UInt32
  deriving DecidableEq, Repr

/-- One dependency of a configuration file. -/
structure DependencyConfig where
  name : String
  kind : Kind
  critical : Option Bool
  url : Option String
  jdbc : Option String
  connectionString : Option String
  host : Option String
  port : Option UInt16
  labels : Labels
  check : CheckOptions
  probe : ProbeSettings
  deriving DecidableEq, Repr

/-- A configuration file. -/
structure Config where
  name : Option String
  listen : Option String
  logFormat : LogFormat
  defaults : Option CheckOptions
  dependencies : List DependencyConfig
  deriving DecidableEq, Repr

/-- The word for a form of the log. -/
def LogFormat.word : LogFormat → String
  | .text => "text"
  | .json => "json"

def LogFormat.ofWord? (s : String) : Option LogFormat :=
  [LogFormat.text, LogFormat.json].find? fun f => f.word == s

namespace CheckOptions

def none : CheckOptions :=
  ⟨Option.none, Option.none, Option.none, Option.none, Option.none⟩

/-- The names of the options. -/
def names : List String :=
  ["interval", "timeout", "initial_delay", "failure_threshold", "success_threshold"]

def members (c : CheckOptions) : List (String × Json) := [
  ("interval", Json.option Json.text c.interval),
  ("timeout", Json.option Json.text c.timeout),
  ("initial_delay", Json.option Json.text c.initialDelay),
  ("failure_threshold", Json.option (fun n => Json.nat n.toNat) c.failureThreshold),
  ("success_threshold", Json.option (fun n => Json.nat n.toNat) c.successThreshold)]

def ofFields? (f : Json.Fields) : Option CheckOptions := do
  let interval ← f.nullable? "interval" Json.text?
  let timeout ← f.nullable? "timeout" Json.text?
  let initialDelay ← f.nullable? "initial_delay" Json.text?
  let failureThreshold ← f.nullable? "failure_threshold" ProbeSettings.wordOfJson?
  let successThreshold ← f.nullable? "success_threshold" ProbeSettings.wordOfJson?
  some ⟨interval, timeout, initialDelay, failureThreshold, successThreshold⟩

def ofJson? (j : Json) : Option CheckOptions :=
  (Json.fields? .ignored names j).bind ofFields?

end CheckOptions

namespace Config

/-- A word of an enumeration: its text, or a table that holds an empty value under it. -/
def word : Json → Option String
  | .string s => s
  | .object [(name, .object [])] => name
  | .object [(name, .array [])] => name
  | _ => none

end Config

namespace DependencyConfig

def toJson (d : DependencyConfig) : Json :=
  Json.obj <|
    [("name", Json.text d.name),
      ("type", Json.text d.kind.text),
      ("critical", Json.option Json.bool d.critical),
      ("url", Json.option Json.text d.url),
      ("jdbc", Json.option Json.text d.jdbc),
      ("connection_string", Json.option Json.text d.connectionString),
      ("host", Json.option Json.text d.host),
      ("port", Json.option (fun p => Json.nat p.toNat) d.port)]
      ++ (if d.labels.isEmpty then [] else [("labels", Json.ofDictionary d.labels)])
      ++ d.check.members
      ++ [("probe", d.probe.toJson)]

/-- The names of the fields. -/
def names : List String :=
  ["name", "type", "critical", "url", "jdbc", "connection_string", "host", "port", "labels",
    "probe"] ++ CheckOptions.names

/-- A dependency from a table. -/
def ofJson? (j : Json) : Option DependencyConfig :=
  match j with
  | .object _ => do
    let f ← Json.fields? .ignored names j
    let name ← f.required? "name" Json.text?
    let kind ← f.required? "type" fun j => (Config.word j).bind Kind.ofText?
    let critical ← f.nullable? "critical" Json.bool?
    let url ← f.nullable? "url" Json.text?
    let jdbc ← f.nullable? "jdbc" Json.text?
    let connectionString ← f.nullable? "connection_string" Json.text?
    let host ← f.nullable? "host" Json.text?
    let port ← f.nullable? "port" Endpoint.portOfJson?
    let labels ← f.withDefault? "labels" Dictionary.empty Json.dictionary?
    let check ← CheckOptions.ofFields? f
    let probe ← f.withDefault? "probe" ProbeSettings.none (ProbeSettings.ofJson? .ignored)
    some ⟨name, kind, critical, url, jdbc, connectionString, host, port, labels, check, probe⟩
  | _ => none

end DependencyConfig

namespace Config

/-- The address to listen at when none is set. -/
def usualListen : String := "0.0.0.0:9464"

/-- The address to listen at. -/
def listenAddress (c : Config) : String :=
  c.listen.getD usualListen

/-! ### The tree of a file -/

def toJson (c : Config) : Json :=
  Json.obj [
    ("name", Json.option Json.text c.name),
    ("listen", Json.option Json.text c.listen),
    ("log_format", Json.text c.logFormat.word),
    ("defaults", Json.option (fun d => Json.obj d.members) c.defaults),
    ("dependency", .array (c.dependencies.map DependencyConfig.toJson))]

/-- The names of the fields. -/
def names : List String :=
  ["name", "listen", "log_format", "defaults", "dependency"]

/-- The items of an array. -/
def items? : Json → Option (List Json)
  | .array js => some js
  | _ => none

def ofJson? (j : Json) : Option Config := do
  let f ← Json.fields? .ignored names j
  let name ← f.nullable? "name" Json.text?
  let listen ← f.nullable? "listen" Json.text?
  let logFormat ← f.withDefault? "log_format" LogFormat.text fun j =>
    (word j).bind LogFormat.ofWord?
  let defaults ← f.nullable? "defaults" CheckOptions.ofJson?
  let dependencies ← f.withDefault? "dependency" [] fun j =>
    (items? j).bind fun js => js.mapM DependencyConfig.ofJson?
  some ⟨name, listen, logFormat, defaults, dependencies⟩

/-! ### Text -/

/-- Reads the text of a file. -/
def parse (text : String) : Except ConfigError Config :=
  match (Toml.parse? text).bind ofJson? with
  | some c => .ok c
  | none => .error .malformed

/-- The text of a file that says what a configuration says. -/
def render (c : Config) : String :=
  Toml.write c.toJson

/-- Reads a file: its bytes, or why there are none. -/
def ofFile (content : Except FileFault (List UInt8)) : Except ConfigError Config :=
  match content with
  | .error fault => .error (.unreadable fault)
  | .ok bytes =>
    match Utf8.decode? bytes with
    | some cs => parse (String.ofList cs)
    | none => .error (.unreadable .notText)

/-! ### A first file -/

/-- A critical dependency with a URL and nothing else set. -/
def sample (name : String) (kind : Kind) (url : String) : DependencyConfig where
  name := name
  kind := kind
  critical := some true
  url := some url
  jdbc := none
  connectionString := none
  host := none
  port := none
  labels := Dictionary.empty
  check := CheckOptions.none
  probe := ProbeSettings.none

/-- The dependencies of a first file. -/
def examples : List DependencyConfig := [
  { sample "payments-api" .http "http://payments.svc:8080" with
    probe := { ProbeSettings.none with path := some "/healthz" } },
  { sample "session-cache" .redis "redis://redis.svc:6379" with
    critical := some false
    labels := Dictionary.ofList [("role", "cache")] }]

/-- A small configuration to start from. -/
def scaffold (name : String) : Config where
  name := some name
  listen := some usualListen
  logFormat := .text
  defaults := some ⟨some "15s", some "5s", none, some 1, some 1⟩
  dependencies := examples

end Config

end HealthMonitor

import HealthMonitor.CommandLine.Help
import HealthMonitor.CommandLine.Report
import HealthMonitor.Monitor.Build
import HealthMonitor.Probe.BuiltIn

/-!
# Commands at work

What each command does, given the environment and the content of the configuration file. A command
prints something and ends, except that `run` on a good configuration goes on to serve a monitor of
built-in probes.
-/

namespace HealthMonitor

/-- What a program that has ended leaves: its exit code and its output. -/
structure Output where
  code : UInt8
  out : String
  err : String
  deriving DecidableEq, Repr

/-- A monitor to be served. -/
structure Service where
  monitor : Monitor BuiltIn
  address : String
  logFormat : LogFormat

/-- What a command comes to. -/
inductive Action where
  | ends (output : Output)
  | serves (service : Service)

namespace Command

/-- The content of a file, or why there is none. -/
abbrev Content := Except FileFault (List UInt8)

/-- Puts a heading over an error. -/
def under (heading : String) (causes : ε → List String) (r : Except ε α) : Except Report α :=
  r.mapError fun e => ⟨heading, causes e⟩

/-- The configuration in a file. -/
def load (path : String) (content : Content) : Except Report Config :=
  under ("failed to load " ++ path) ConfigError.causes (Config.ofFile content)

/-- The monitor of a configuration. -/
def monitor (path : String) (env : Environment) (c : Config) : Except Report (Monitor BuiltIn) := do
  let heading := "invalid config " ++ path
  let blueprint ← under heading ConfigError.causes (Blueprint.ofConfig c BuiltIn.registry env)
  under heading BuildError.causes blueprint.build.result

/-- What `validate` prints. -/
def validated (path : String) (env : Environment) (content : Content) : Except Report String := do
  let c ← load path content
  let m ← monitor path env c
  return m.name ++ ": " ++ toString c.dependencies.length ++ " dependencies OK\n"

/-- What `run` serves: checks have started before the address is looked at. -/
def service (path : String) (listen : Option String) (env : Environment) (content : Content) :
    Except Report Service := do
  let c ← load path content
  let m ← monitor path env c
  let address := listen.getD c.listenAddress
  let m ← (m.start none).mapError fun e => Report.mk e.message e.causes.tail
  under ("failed to bind " ++ address) (fun fault => [ListenFault.message fault])
    (Network.checkListen address)
  return ⟨m, address, c.logFormat⟩

/-- The action of a program that prints something and ends well. -/
def prints (text : String) : Action :=
  .ends ⟨0, text, ""⟩

/-- The action of a program that fails. -/
def fails (r : Report) : Action :=
  .ends ⟨1, "", r.text⟩

/-- What a command does. -/
def act (env : Environment) (content : Content) : Command → Action
  | help topic => prints topic.text
  | version => prints versionText
  | init name => prints (Config.scaffold name).render
  | validate path =>
    match validated path env content with
    | .ok text => prints text
    | .error r => fails r
  | run path listen =>
    match service path listen env content with
    | .ok s => .serves s
    | .error r => fails r

/-- What a command line that makes no sense comes to. -/
def refuses (e : UsageError) : Action :=
  .ends ⟨2, "", "error: " ++ e.message ++ "\n\n" ++ Topic.program.text⟩

end Command

end HealthMonitor

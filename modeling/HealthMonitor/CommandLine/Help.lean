import HealthMonitor.CommandLine.Arguments

/-!
# Help

What the program says about itself.
-/

namespace HealthMonitor

/-- The name of the program. -/
def programName : String := "depwatchd"

/-- What is printed for the version. -/
def versionText : String := programName ++ " 0.1.0\n"

namespace Verb

/-- What a command does, in a line. -/
def summary : Verb → String
  | run => "Run checks and serve /metrics and /health"
  | init => "Print a scaffold depwatch.toml"
  | validate => "Check a config file without starting any checks"

/-- The lines about the options of a command. -/
def optionLines : Verb → List String
  | run => [
    "  -c, --config <CONFIG>  Path to depwatch.toml [default: depwatch.toml]",
    "      --listen <LISTEN>  Listen address; overrides \x60listen\x60 in the config",
    "  -h, --help             Print help"]
  | init => [
    "      --name <NAME>  Instance name written into the scaffold [default: my-service]",
    "  -h, --help         Print help"]
  | validate => [
    "  -c, --config <CONFIG>  [default: depwatch.toml]",
    "  -h, --help             Print help"]

end Verb

namespace Topic

/-- The lines about a topic. -/
def lines : Topic → List String
  | program => [
    "Dependency health monitor",
    "",
    "Usage: " ++ programName ++ " <COMMAND>",
    "",
    "Commands:",
    "  run       " ++ Verb.run.summary,
    "  init      " ++ Verb.init.summary,
    "  validate  " ++ Verb.validate.summary,
    "  help      Print this message or the help of the given subcommand(s)",
    "",
    "Options:",
    "  -h, --help     Print help",
    "  -V, --version  Print version"]
  | verb v =>
    [v.summary, "", "Usage: " ++ programName ++ " " ++ v.word ++ " [OPTIONS]", "", "Options:"]
      ++ v.optionLines
  | help => [
    "Print this message or the help of the given subcommand(s)",
    "",
    "Usage: " ++ programName ++ " help [COMMAND]...",
    "",
    "Arguments:",
    "  [COMMAND]...  Print help for the subcommand(s)"]

def text (t : Topic) : String :=
  String.join (t.lines.map fun l => l ++ "\n")

end Topic

end HealthMonitor

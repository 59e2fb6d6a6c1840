import HealthMonitor.Dependency.Kind
import HealthMonitor.Dependency.Name
import HealthMonitor.Text.Quoted
import HealthMonitor.Time.Span

/-!
# Configuration errors

Why a configuration is refused before any check runs, as causes with the texts that they are
about. `ConfigError.message` holds all the wording. An error met while one dependency is worked on
can carry its name (`ConfigError.within`), once.
-/

namespace HealthMonitor

/-- What is wrong with one host of a URL. -/
inductive HostFault where
  /-- A part of the host list without a host. -/
  | empty (part : String)
  /-- A port, or a part with an unclosed bracket, that is no port number. -/
  | port (text : String)
  deriving DecidableEq, Repr

/-- What is wrong with a URL. -/
inductive UrlFault where
  | empty
  | missingScheme
  | unsupportedScheme (scheme : String)
  | missingJdbc
  | unsupportedSubprotocol (name : String)
  | emptyHost
  | host (fault : HostFault)
  deriving DecidableEq, Repr

/-- What is wrong with a connection string. -/
inductive ConnectionStringFault where
  | empty
  | missingHost
  | port (text : String)
  /-- No port, and none to fall back on. -/
  | missingPort
  deriving DecidableEq, Repr

/-- The settings of a check that have a range. -/
inductive CheckSetting where
  | interval
  | timeout
  | initialDelay
  | failureThreshold
  | successThreshold
  deriving DecidableEq, Repr

/-- Why a file cannot be read. -/
inductive FileFault where
  | notFound
  | isDirectory
  | notDirectory
  | nameTooLong
  | notText
  /-- Another reason, in words. -/
  | other (reason : String)
  deriving DecidableEq, Repr

/-- Why a configuration is refused. -/
inductive ConfigError where
  | missingName
  | invalidName (name : String) (fault : NameFault)
  | invalidLabel (name : String)
  | reservedLabel (name : String)
  | unknownKind (text : String)
  | missingCritical (dependency : String)
  | noEndpoints (dependency : String)
  | missingHost (dependency : String) (index : Nat)
  | invalidPort (text : String)
  | spanOutOfRange (setting : CheckSetting) (value least greatest : Span)
  | countOutOfRange (setting : CheckSetting) (value least greatest : Nat)
  | timeoutNotBelowInterval (timeout interval : Span)
  | noProbe (kind : Kind)
  | conflictingAuth
  | missingSource
  | invalidUrl (url : String) (fault : UrlFault)
  | invalidConnectionString (fault : ConnectionStringFault)
  | invalidSpan (text : String)
  | inDependency (name : String) (cause : ConfigError)
  | unreadable (fault : FileFault)
  | malformed
  deriving DecidableEq, Repr

/-- The wording of a bad port. -/
def portMessage (text : String) : String :=
  "invalid port " ++ Text.quoted text ++ ": must be a number in 1-65535"

/-- The wording of a bad URL. -/
def urlMessage (url reason : String) : String :=
  "invalid url " ++ Text.quoted url ++ ": " ++ reason

def HostFault.message : HostFault → String
  | .empty part => urlMessage part "empty host"
  | .port text => portMessage text

def UrlFault.message : UrlFault → String
  | .empty => "empty url"
  | .missingScheme => "missing scheme"
  | .unsupportedScheme scheme => "unsupported scheme " ++ Text.quoted scheme
  | .missingJdbc => "missing jdbc: prefix"
  | .unsupportedSubprotocol name => "unsupported subprotocol " ++ Text.quoted name
  | .emptyHost => "empty host"
  | .host fault => fault.message

def ConnectionStringFault.message : ConnectionStringFault → String
  | .empty => "empty connection string"
  | .missingHost => "missing host"
  | .port text => portMessage text
  | .missingPort => "missing port"

/-- The name of a setting in configurations. -/
def CheckSetting.text : CheckSetting → String
  | .interval => "interval"
  | .timeout => "timeout"
  | .initialDelay => "initial_delay"
  | .failureThreshold => "failure_threshold"
  | .successThreshold => "success_threshold"

def FileFault.message : FileFault → String
  | .notFound => "No such file or directory (os error 2)"
  | .isDirectory => "Is a directory (os error 21)"
  | .notDirectory => "Not a directory (os error 20)"
  | .nameTooLong => "File name too long (os error 36)"
  | .notText => "stream did not contain valid UTF-8"
  | .other reason => reason

/-- The wording of a value outside its range. -/
def rangeMessage (setting : CheckSetting) (value least greatest : String) : String :=
  setting.text ++ " " ++ value ++ " out of range [" ++ least ++ ", " ++ greatest ++ "]"

/-- The words for a text that is no TOML, or none of a configuration. -/
def tomlFault : String := "TOML parse error"

namespace ConfigError

/-- An error in words. Of a malformed file it is not told where the fault lies. -/
def message : ConfigError → String
  | .missingName => "missing instance name"
  | .invalidName name fault => "invalid name " ++ Text.quoted name ++ ": " ++ fault.message
  | .invalidLabel name => "invalid label name: " ++ Text.quoted name
  | .reservedLabel name => "reserved label: " ++ Text.quoted name
  | .unknownKind text => "unknown dependency type " ++ Text.quoted text
  | .missingCritical dependency => "missing critical for dependency " ++ Text.quoted dependency
  | .noEndpoints dependency => "dependency " ++ Text.quoted dependency ++ " has no endpoints"
  | .missingHost dependency index =>
    "missing host for dependency " ++ Text.quoted dependency ++ " endpoint " ++ toString index
  | .invalidPort text => portMessage text
  | .spanOutOfRange setting value least greatest =>
    rangeMessage setting value.text least.text greatest.text
  | .countOutOfRange setting value least greatest =>
    rangeMessage setting (toString value) (toString least) (toString greatest)
  | .timeoutNotBelowInterval timeout interval =>
    "timeout " ++ timeout.text ++ " must be less than interval " ++ interval.text
  | .noProbe kind => "no probe registered for type " ++ kind.text
  | .conflictingAuth =>
    "conflicting auth methods: only one of bearer token, basic auth, or Authorization header "
      ++ "may be set"
  | .missingSource => "missing url or host/port parameters"
  | .invalidUrl url fault => urlMessage url fault.message
  | .invalidConnectionString fault => "invalid connection string: " ++ fault.message
  | .invalidSpan text => "invalid duration " ++ Text.quoted text
  | .inDependency name cause => "dependency " ++ Text.quoted name ++ ": " ++ cause.message
  | .unreadable fault => "failed to read config: " ++ fault.message
  | .malformed => "failed to parse config: " ++ tomlFault

/-- The error with the name of the dependency it was met in, unless it carries one already. -/
def within (name : String) : ConfigError → ConfigError
  | e@(.inDependency ..) => e
  | e => .inDependency name e

end ConfigError

end HealthMonitor

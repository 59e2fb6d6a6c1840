import HealthMonitor.Monitor.Basic
import HealthMonitor.Network.Listen

/-!
# Reports

How a failure of the program is told: a heading, and the causes from the nearest to the last. One
cause stands alone, several are numbered from zero, and the later lines of a cause stand under its
first.
-/

namespace HealthMonitor

/-- A failure in words. -/
structure Report where
  heading : String
  causes : List String
  deriving DecidableEq, Repr

namespace Report

/-- A text with something in front of its first line, and something else in front of the others. -/
def indent (first others : String) (s : String) : String :=
  first ++ ("\n" ++ others).intercalate (s.splitOn "\n")

/-- The mark of a numbered cause: the number right-aligned in five columns. -/
def mark (n : Nat) : String :=
  String.ofList (List.replicate (5 - (toString n).length) ' ') ++ toString n ++ ": "

/-- The causes, one after another. -/
def causeTexts : List String → List String
  | [] => []
  | [cause] => [indent "    " "    " cause]
  | causes => causes.mapIdx fun n cause => indent (mark n) "       " cause

/-- A failure as it is printed. -/
def text (r : Report) : String :=
  let causes := match r.causes with
    | [] => ""
    | causes => "\n\nCaused by:" ++ String.join ((causeTexts causes).map fun c => "\n" ++ c)
  "Error: " ++ r.heading ++ causes ++ "\n"

end Report

/-! ### Causes -/

/-- An error and what is behind it. -/
def ConfigError.causes : ConfigError → List String
  | e@(.inDependency _ cause) => e.message :: cause.causes
  | e@(.unreadable fault) => [e.message, fault.message]
  | .malformed => [ConfigError.malformed.message, tomlFault]
  | e => [e.message]

def MetricsError.causes : MetricsError → List String
  | .invalidLabel cause => ("invalid metric label: " ++ cause.message) :: cause.causes
  | .repeatedLabel name => familyCauses ("Error: duplicate variable label name " ++ name)
  | .takenFamily => familyCauses "Duplicate metrics collector registration attempted"
where
  familyCauses (cause : String) : List String := ["prometheus: " ++ cause, cause]

def SchedulerError.causes : SchedulerError → List String
  | .config cause => (SchedulerError.config cause).message :: cause.causes
  | e => [e.message]

def BuildError.causes : BuildError → List String
  | .config cause => cause.causes
  | .metrics cause => cause.causes
  | .scheduler cause => cause.causes

end HealthMonitor

import HealthMonitor.Dependency.Name
import HealthMonitor.Text.Cut

/-!
# Environments

An environment supplies what a configuration leaves out: the name of the instance, the criticality
of a dependency, and more labels for it. Each dependency has variables of its own, named after it
in upper case with underscores for hyphens. A variable without a value counts as missing, except
where it gives a label.
-/

namespace HealthMonitor

/-- Variables with their values, in the order in which they are listed. No name is listed twice. -/
structure Environment where
  entries : List (String × String)
  deriving DecidableEq, Repr

namespace Environment

def empty : Environment := ⟨[]⟩

/-- The start of the name of every variable that is looked at. -/
def root : List Char := "DEPWATCH_".toList

/-- A character of a dependency's name in the names of its variables. -/
def wordLetter (c : Char) : Char :=
  if c = '-' then '_' else c.toUpper

/-- The start of the names of a dependency's variables. -/
def dependencyRoot (dependency : String) : List Char :=
  root ++ dependency.toList.map wordLetter

/-- The variable that names the instance. -/
def nameVariable : String :=
  String.ofList (root ++ "NAME".toList)

/-- The variable that says whether a dependency is critical. -/
def criticalVariable (dependency : String) : String :=
  String.ofList (dependencyRoot dependency ++ "_CRITICAL".toList)

/-- The start of the names of the variables that give labels to a dependency. -/
def labelRoot (dependency : String) : List Char :=
  dependencyRoot dependency ++ "_LABEL_".toList

/-- The value of a variable that has one. -/
def value? (env : Environment) (name : String) : Option String :=
  match env.entries.lookup name with
  | some value => if value.isEmpty then none else some value
  | none => none

/-- The name of the instance. -/
def name? (env : Environment) : Option String :=
  env.value? nameVariable

/-- The criticality that a word stands for, whatever the case of its letters. -/
def criticalityOf? (word : String) : Option Bool :=
  match String.ofList (Text.lower word.toList) with
  | "yes" => some true
  | "true" => some true
  | "no" => some false
  | "false" => some false
  | _ => none

/-- The criticality of a dependency. -/
def critical? (env : Environment) (dependency : String) : Option Bool :=
  (env.value? (criticalVariable dependency)).bind criticalityOf?

/-- The label of a dependency that a variable gives, in lower case. -/
def labelOf? (dependency name : String) : Option String :=
  match (labelRoot dependency).isPrefixOf? name.toList with
  | some (c :: rest) => some (String.ofList (Text.lower (c :: rest)))
  | _ => none

/-- The labels of a dependency with their values, as their variables are listed. -/
def labels (env : Environment) (dependency : String) : List (String × String) :=
  env.entries.filterMap fun v => (labelOf? dependency v.1).map fun label => (label, v.2)

end Environment

end HealthMonitor

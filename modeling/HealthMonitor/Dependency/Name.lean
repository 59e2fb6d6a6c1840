import HealthMonitor.Dictionary

/-!
# Names

Instances and dependencies have names of lower-case letters, digits and hyphens; custom labels have
names of letters, digits and underscores that the metrics do not use themselves. A rule answers with
the first fault of a name.
-/

namespace HealthMonitor

/-! ### Instances and dependencies -/

/-- What can be wrong with the name of an instance or a dependency. -/
inductive NameFault where
  | length
  | start
  | letters
  deriving DecidableEq, Repr

/-- The rule that a name breaks, in words. -/
def NameFault.message : NameFault → String
  | .length => "length must be 1-63"
  | .start => "must start with a lowercase letter"
  | .letters => "must match [a-z][a-z0-9-]*"

/-- The greatest length of a name, in bytes. -/
def maxNameLength : Nat := 63

/-- The characters of a name after its first. -/
def isNameLetter (c : Char) : Bool :=
  c.isLower || c.isDigit || c == '-'

/-- The first rule that a name breaks: its length, its first letter, its other letters. -/
def nameFault? (name : String) : Option NameFault :=
  if name.isEmpty || maxNameLength < name.utf8ByteSize then some .length
  else
    match name.toList with
    | [] => some .length
    | c :: rest =>
      if !c.isLower then some .start
      else if !rest.all isNameLetter then some .letters
      else none

/-! ### Labels -/

/-- What can be wrong with the name of a custom label. -/
inductive LabelFault where
  | malformed
  | reserved
  deriving DecidableEq, Repr

/-- The label names that the metrics use themselves. -/
def reservedLabels : List String :=
  ["name", "group", "dependency", "type", "host", "port", "critical"]

/-- Whether a text is a letter or an underscore, and then letters, digits and underscores. -/
def isLabelWord (name : String) : Bool :=
  match name.toList with
  | [] => false
  | c :: rest => (c.isAlpha || c == '_') && rest.all fun d => d.isAlphanum || d == '_'

/-- The rule that the name of a custom label breaks. -/
def labelFault? (name : String) : Option LabelFault :=
  if !isLabelWord name then some .malformed
  else if reservedLabels.contains name then some .reserved
  else none

/-- Custom labels: values by label name. -/
abbrev Labels := Dictionary String String

end HealthMonitor

import HealthMonitor.Json.Basic

/-!
# Writing TOML

`Toml.write` lays an object out as a document: plain values first, then a section for each table
and for each table of a row, with an empty line in front. Members that are null are left out. A
string takes the first of four forms that needs no escapes, and otherwise an escaped one; keys are
bare where they can be.
-/

namespace HealthMonitor.Toml

/-! ### Strings -/

/-- The length of the longest run of a character, counted on from a run of length `run`. -/
def longestRun (c : Char) (run : Nat) : List Char → Nat
  | [] => run
  | d :: rest => if d = c then longestRun c (run + 1) rest else max run (longestRun c 0 rest)

/-- Whether a character needs an escape: a control that is neither tab nor line feed. -/
def needsEscape (c : Char) : Bool :=
  (c.toNat < 0x20 && c != '\t' && c != '\n') || c.toNat = 0x7F

/-- Four upper-case hexadecimal digits. -/
def hex4 (n : Nat) : List Char :=
  let ds := (Nat.toDigits 16 n).map Char.toUpper
  List.replicate (4 - ds.length) '0' ++ ds

/-- A character between double quotes; line feeds stay as they are in a block. -/
def escaped (block : Bool) (c : Char) : List Char :=
  if c = '\\' then ['\\', '\\']
  else if c = '\t' then ['\\', 't']
  else if c = '\n' then (if block then ['\n'] else ['\\', 'n'])
  else if c = '\r' then ['\\', 'r']
  else if c.toNat = 8 then ['\\', 'b']
  else if c.toNat = 12 then ['\\', 'f']
  else if needsEscape c then '\\' :: 'u' :: hex4 c.toNat
  else [c]

/-- The body of a string between double quotes, behind `run` of them. In a block every third of a
row of quotes is escaped, elsewhere each. -/
def escapedBody (block : Bool) (run : Nat) : List Char → List Char
  | [] => []
  | c :: rest =>
    if c = '"' then
      if block && run < 2 then '"' :: escapedBody block (run + 1) rest
      else '\\' :: '"' :: escapedBody block 0 rest
    else escaped block c ++ escapedBody block 0 rest

/-- A string between double quotes. -/
def basic (cs : List Char) : List Char :=
  '"' :: escapedBody false 0 cs ++ ['"']

/-- A line feed, for a text that has one. -/
def leadingLine (cs : List Char) : List Char :=
  if cs.contains '\n' then ['\n'] else []

/-- A string between three double quotes. -/
def basicBlock (cs : List Char) : List Char :=
  ['"', '"', '"'] ++ leadingLine cs ++ escapedBody true 0 cs ++ ['"', '"', '"']

/-- A string between single quotes, as it is. -/
def literal (cs : List Char) : List Char :=
  '\x27' :: cs ++ ['\x27']

/-- A string between three single quotes, as it is. -/
def literalBlock (cs : List Char) : List Char :=
  ['\x27', '\x27', '\x27'] ++ leadingLine cs ++ cs ++ ['\x27', '\x27', '\x27']

/-- Whether a string needs no escape between double quotes on one line. -/
def fitsBasic (cs : List Char) : Bool :=
  !cs.any fun c => needsEscape c || c == '\n' || c == '\\' || c == '"'

/-- Whether a string can stand between single quotes on one line. -/
def fitsLiteral (cs : List Char) : Bool :=
  !cs.any fun c => needsEscape c || c == '\n' || c == '\x27'

/-- A string in the first form that fits. -/
def string (cs : List Char) : List Char :=
  let plain := !cs.any needsEscape
  if fitsBasic cs then basic cs
  else if fitsLiteral cs then literal cs
  else if plain && !cs.contains '\\' && longestRun '"' 0 cs ≤ 2 then basicBlock cs
  else if plain && longestRun '\x27' 0 cs ≤ 2 then literalBlock cs
  else if cs.contains '\n' then basicBlock cs
  else basic cs

/-- Whether a key needs no quotes. -/
def isBare (cs : List Char) : Bool :=
  !cs.isEmpty && cs.all fun c => c.isAlphanum || c == '_' || c == '-'

/-- A key in the first form that fits. -/
def key (name : String) : List Char :=
  let cs := name.toList
  if isBare cs then cs
  else if fitsBasic cs then basic cs
  else if fitsLiteral cs then literal cs
  else basic cs

/-! ### Documents -/

/-- Whether a value is a table or a row of tables. -/
def isSection : Json → Bool
  | .object _ => true
  | .array items => !items.isEmpty && items.all fun
      | .object _ => true
      | _ => false
  | _ => false

/-- A value on its line. -/
def value : Json → List Char
  | .string s => string (s.getD "").toList
  | .number s => s.toList
  | .bool b => (toString b).toList
  | .array _ => ['[', ']']
  | _ => []

/-- The members of a table that are not null, by name. -/
def shown (members : List (Option String × Json)) : List (String × Json) :=
  members.filterMap fun m =>
    match m.2 with
    | .null => none
    | j => some (m.1.getD "", j)

/-- The plain lines of a table. -/
def plainLines (members : List (String × Json)) : List (List Char) :=
  (members.filter fun m => !isSection m.2).map fun m => key m.1 ++ " = ".toList ++ value m.2

/-- The header of a table, or of one of a row, behind an empty line. -/
def header (row : Bool) (path : List String) : List (List Char) :=
  let name := List.intercalate ['.'] (path.map key)
  [[], if row then '[' :: '[' :: name ++ [']', ']'] else '[' :: name ++ [']']]

mutual

/-- The lines of a table behind its header. A header stands only where it is needed: in front of
plain values, and of nothing at all. -/
def sectionLines (path : List String) (row : Bool) : Json → List (List Char)
  | .object members =>
    let plain := plainLines (shown members)
    let inner := memberLines path members
    let top := if path.isEmpty || (!row && plain.isEmpty && !inner.isEmpty) then []
      else header row path
    top ++ plain ++ inner
  | .array items => rowLines path items
  | _ => []

/-- The lines of the tables among the members of a table. -/
def memberLines (path : List String) : List (Option String × Json) → List (List Char)
  | [] => []
  | (name, j) :: rest => sectionLines (path ++ [name.getD ""]) false j ++ memberLines path rest

/-- The lines of the tables of a row. -/
def rowLines (path : List String) : List Json → List (List Char)
  | [] => []
  | j :: rest => sectionLines path true j ++ rowLines path rest

end

/-- An object as a document. -/
def write (j : Json) : String :=
  String.ofList ((sectionLines [] false j).flatMap fun l => l ++ ['\n'])

end HealthMonitor.Toml

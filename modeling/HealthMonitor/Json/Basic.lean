import HealthMonitor.Number.Binary64
import HealthMonitor.Dictionary
import HealthMonitor.Text.Numeral

/-!
# JSON values and their text

A `Json` value keeps a number as it is written and the members of an object in their order, repeated
names included. A string literal can spell half of a surrogate pair, which is no text; such a value
or member name is kept as `none` and fits nowhere a text is wanted. `Json.compact` writes a value
without blanks.
-/

namespace HealthMonitor

/-- A JSON value. -/
inductive Json where
  | null
  | bool (value : Bool)
  | number (text : String)
  | string (text : Option String)
  | array (items : List Json)
  | object (members : List (Option String × Json))
  deriving Repr, Inhabited

namespace Json

/-- A string value. -/
def text (s : String) : Json := .string (some s)

/-- A whole number. -/
def nat (n : Nat) : Json := .number (String.ofList (Text.digitsOf n))

/-- Doubles without an exponent from `0.00001` up to sixteen digits, and with a decimal point. -/
def doubleStyle : Binary64.Style := ⟨some (-4), some 16, true⟩

/-- A finite double; any other is null. -/
def double (x : Float) : Json :=
  match doubleStyle.text? x with
  | some cs => .number (String.ofList cs)
  | none => .null

/-- An object with readable names. -/
def obj (members : List (String × Json)) : Json :=
  .object (members.map fun m => (some m.1, m.2))

/-- Null, or a value. -/
def option (f : α → Json) : Option α → Json
  | some a => f a
  | none => .null

/-- A dictionary of texts as an object. -/
def ofDictionary (d : Dictionary String String) : Json :=
  obj (d.entries.map fun e => (e.1, text e.2))

/-! ### Text -/

/-- A character below the blank, without a short escape, by its code. -/
def control (n : Nat) : List Char :=
  let digits := Nat.toDigits 16 n
  ['\\', 'u'] ++ List.replicate (4 - digits.length) '0' ++ digits

/-- The spelling of a character inside a string literal. -/
def escaped (c : Char) : List Char :=
  if c = '"' then ['\\', '"']
  else if c = '\\' then ['\\', '\\']
  else if c = '\n' then ['\\', 'n']
  else if c = '\r' then ['\\', 'r']
  else if c = '\t' then ['\\', 't']
  else if c.toNat = 8 then ['\\', 'b']
  else if c.toNat = 12 then ['\\', 'f']
  else if c.toNat < 32 then control c.toNat
  else [c]

/-- A string literal. -/
def literal (s : String) : List Char :=
  '"' :: s.toList.flatMap escaped ++ ['"']

mutual

/-- The text of a value without blanks. -/
def write : Json → List Char
  | .null => ['n', 'u', 'l', 'l']
  | .bool true => ['t', 'r', 'u', 'e']
  | .bool false => ['f', 'a', 'l', 's', 'e']
  | .number s => s.toList
  | .string s => literal (s.getD "")
  | .array items => '[' :: writeItems items ++ [']']
  | .object members => '\x7b' :: writeMembers members ++ ['\x7d']

/-- Values behind each other, with commas between them. -/
def writeItems : List Json → List Char
  | [] => []
  | [item] => write item
  | item :: rest => write item ++ ',' :: writeItems rest

/-- Members behind each other, with commas between them. -/
def writeMembers : List (Option String × Json) → List Char
  | [] => []
  | [(name, value)] => literal (name.getD "") ++ ':' :: write value
  | (name, value) :: rest =>
    literal (name.getD "") ++ ':' :: write value ++ ',' :: writeMembers rest

end

/-- The text of a value without blanks. -/
def compact (j : Json) : String :=
  String.ofList (write j)

end Json

end HealthMonitor

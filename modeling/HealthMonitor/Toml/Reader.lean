import HealthMonitor.Toml.Scalar
import HealthMonitor.Toml.Table

/-!
# Reading TOML

`Toml.parse?` reads a document of TOML 1.0 into one object. Tables and inline tables become objects,
rows of tables and arrays become arrays, and whole numbers are in decimal. Values nest to a limited
depth.
-/

namespace HealthMonitor.Toml

/-- Reads the front of a text: a value and the rest. -/
abbrev Reader (α : Type) := List Char → Option (α × List Char)

/-! ### Blanks, comments and line ends -/

def isSpace (c : Char) : Bool :=
  c == ' ' || c == '\t'

def skip (cs : List Char) : List Char :=
  cs.dropWhile isSpace

/-- Whether a character can stand in a comment or a string: no control but the tab. -/
def isPrintable (c : Char) : Bool :=
  c == '\t' || (0x20 ≤ c.toNat && c.toNat != 0x7F)

/-- What follows a line end. -/
def newline? (cs : List Char) : Option (List Char) :=
  match cs with
  | '\n' :: rest => some rest
  | '\r' :: '\n' :: rest => some rest
  | _ => none

/-- What follows blanks and a comment. -/
def skipComment (cs : List Char) : List Char :=
  match skip cs with
  | '#' :: rest => rest.dropWhile isPrintable
  | rest => rest

/-- What follows the rest of a line that holds nothing more. -/
def lineEnd? (cs : List Char) : Option (List Char) :=
  match skipComment cs with
  | [] => some []
  | rest => newline? rest

/-- What follows blanks, comments and line ends, at most `fuel` of the last. -/
def skipLines : Nat → List Char → List Char
  | 0, cs => cs
  | fuel + 1, cs =>
    match newline? (skipComment cs) with
    | some rest => skipLines fuel rest
    | none => skip cs

/-- What follows any number of blanks, comments and line ends. -/
def gap (cs : List Char) : List Char :=
  skipLines cs.length cs

/-! ### Strings -/

/-- A character by `count` hexadecimal digits, which must be one of Unicode's. -/
def codePoint? (count : Nat) : Reader Char := fun cs => do
  let ds := cs.take count
  guard (ds.length = count && ds.all fun c => (Text.hexValue? c).isSome)
  let n := valueIn 16 ds
  guard (n < 0xD800 || (0xE000 ≤ n && n < 0x110000))
  some (Char.ofNat n, cs.drop count)

/-- The character of an escape, behind its backslash. -/
def escape? : Reader Char := fun cs =>
  match cs with
  | '"' :: rest => some ('"', rest)
  | '\\' :: rest => some ('\\', rest)
  | 'b' :: rest => some ('\x08', rest)
  | 't' :: rest => some ('\t', rest)
  | 'n' :: rest => some ('\n', rest)
  | 'f' :: rest => some ('\x0c', rest)
  | 'r' :: rest => some ('\r', rest)
  | 'u' :: rest => codePoint? 4 rest
  | 'U' :: rest => codePoint? 8 rest
  | _ => none

/-- The rest of a string on one line, up to its closing quote. -/
def lineString? (quote : Char) (escapes : Bool) : Nat → Reader (List Char)
  | 0, _ => none
  | _, [] => none
  | fuel + 1, c :: cs =>
    if c = quote then some ([], cs)
    else if escapes && c == '\\' then do
      let (e, cs) ← escape? cs
      let (s, cs) ← lineString? quote escapes fuel cs
      some (e :: s, cs)
    else if isPrintable c then (lineString? quote escapes fuel cs).map fun p => (c :: p.1, p.2)
    else none

/-- What follows a backslash at the end of a line: the next text, however many blank lines away. -/
def continued? (cs : List Char) : Option (List Char) :=
  (newline? (skip cs)).map fun rest =>
    rest.dropWhile fun c => isSpace c || c == '\n' || c == '\r'

/-- Whether blanks of a continued line hold no stray carriage return. -/
def cleanReturns : List Char → Bool
  | [] => true
  | '\r' :: '\n' :: rest => cleanReturns rest
  | '\r' :: _ => false
  | _ :: rest => cleanReturns rest

/-- The rest of a string on many lines, up to its three closing quotes. -/
def blockString? (quote : Char) (escapes : Bool) : Nat → Reader (List Char)
  | 0, _ => none
  | _, [] => none
  | fuel + 1, c :: cs =>
    if c = quote then
      let run := cs.takeWhile (· == quote)
      if run.length < 2 then
        (blockString? quote escapes fuel (cs.drop run.length)).map fun p =>
          (c :: run ++ p.1, p.2)
      else if run.length ≤ 4 then some (run.drop 2, cs.drop run.length)
      else none
    else if escapes && c == '\\' then
      match continued? cs with
      | some rest =>
        if cleanReturns (cs.take (cs.length - rest.length)) then
          blockString? quote escapes fuel rest
        else none
      | none => do
        let (e, cs) ← escape? cs
        let (s, cs) ← blockString? quote escapes fuel cs
        some (e :: s, cs)
    else
      match newline? (c :: cs) with
      | some rest => (blockString? quote escapes fuel rest).map fun p => ('\n' :: p.1, p.2)
      | none =>
        if isPrintable c then (blockString? quote escapes fuel cs).map fun p => (c :: p.1, p.2)
        else none

/-- A string on many lines behind its three opening quotes; a line end right there is dropped. -/
def block? (quote : Char) (escapes : Bool) : Reader (List Char) := fun cs =>
  let body := (newline? cs).getD cs
  blockString? quote escapes (body.length + 1) body

/-- A string of any of the four forms. -/
def string? : Reader String := fun cs =>
  let found := match cs with
    | '"' :: '"' :: '"' :: rest => block? '"' true rest
    | '\x27' :: '\x27' :: '\x27' :: rest => block? '\x27' false rest
    | '"' :: rest => lineString? '"' true (rest.length + 1) rest
    | '\x27' :: rest => lineString? '\x27' false (rest.length + 1) rest
    | _ => none
  found.map fun p => (String.ofList p.1, p.2)

/-! ### Keys -/

/-- Characters of keys without quotes. -/
def isBareChar (c : Char) : Bool :=
  c.isAlphanum || c == '_' || c == '-'

/-- One key: bare, or a string on one line. -/
def simpleKey? : Reader String := fun cs =>
  let found := match cs with
    | '"' :: rest => lineString? '"' true (rest.length + 1) rest
    | '\x27' :: rest => lineString? '\x27' false (rest.length + 1) rest
    | _ =>
      let run := cs.takeWhile isBareChar
      if run.isEmpty then none else some (run, cs.drop run.length)
  found.map fun p => (String.ofList p.1, p.2)

/-- Keys with dots between them, and with blanks around each. -/
def keys? : Nat → Reader (List String)
  | 0, _ => none
  | fuel + 1, cs => do
    let (k, cs) ← simpleKey? (skip cs)
    match skip cs with
    | '.' :: rest => (keys? fuel rest).map fun p => (k :: p.1, p.2)
    | rest => some ([k], rest)

/-- Values nest, and keys are dotted, fewer times than this. -/
def depthLimit : Nat := 80

/-- Keys with dots between them, fewer than the limit. -/
def dottedKeys? : Reader (List String) := fun cs => do
  let (ks, cs) ← keys? cs.length.succ cs
  guard (ks.length < depthLimit)
  some (ks, cs)

/-! ### Values -/

/-- A number, a boolean or a date; a date may have a blank before its time. -/
def scalar? : Reader Json := fun cs =>
  let run := cs.takeWhile isWordChar
  let rest := cs.drop run.length
  let withTime := match rest with
    | ' ' :: more =>
      let time := more.takeWhile isWordChar
      (DateTime.parse? (run ++ ' ' :: time)).map fun d => (date d, more.drop time.length)
    | _ => none
  match withTime with
  | some p => some p
  | none => (word? run).map fun j => (j, rest)

/-- The items of an array behind its bracket. -/
def items? (read : Reader Json) : Nat → Reader (List Json)
  | 0, _ => none
  | fuel + 1, cs =>
    match gap cs with
    | ']' :: rest => some ([], rest)
    | start => do
      let (j, cs) ← read start
      match gap cs with
      | ',' :: rest => (items? read fuel rest).map fun p => (j :: p.1, p.2)
      | ']' :: rest => some ([j], rest)
      | _ => none

/-- A key, an equals sign and a value. -/
def assignment? (read : Reader Json) : Reader (List String × Json) := fun cs => do
  let (ks, cs) ← dottedKeys? cs
  let cs ← DateTime.mark? '=' cs
  let (j, cs) ← read (skip cs)
  some ((ks, j), cs)

/-- The assignments of an inline table behind its brace, put into a table. -/
def inline? (read : Reader Json) : Nat → Node → Reader Node
  | 0, _, _ => none
  | fuel + 1, table, cs => do
    let ((ks, j), cs) ← assignment? read cs
    let table ← table.assign ks j
    match skip cs with
    | ',' :: rest => inline? read fuel table rest
    | '\x7d' :: rest => some (table, rest)
    | _ => none

/-- A value in which others nest at most `depth` deep. -/
def value? : Nat → Reader Json
  | 0, cs =>
    match cs with
    | '"' :: _ => (string? cs).map fun p => (Json.text p.1, p.2)
    | '\x27' :: _ => (string? cs).map fun p => (Json.text p.1, p.2)
    | _ => scalar? cs
  | depth + 1, cs =>
    match cs with
    | '"' :: _ => (string? cs).map fun p => (Json.text p.1, p.2)
    | '\x27' :: _ => (string? cs).map fun p => (Json.text p.1, p.2)
    | '[' :: rest =>
      (items? (value? depth) rest.length.succ rest).map fun p => (.array p.1, p.2)
    | '\x7b' :: rest =>
      match skip rest with
      | '\x7d' :: rest => some (.object [], rest)
      | _ =>
        (inline? (value? depth) rest.length.succ Node.root rest).map fun p => (p.1.toJson, p.2)
    | _ => scalar? cs

/-! ### Documents -/

/-- A document as far as it is read: its tables, and the path of the table that is open. -/
structure Draft where
  root : Node
  path : List String

/-- The keys of a header behind its opening brackets, with `close` behind them. -/
def header? (close : List Char) : Reader (List String) := fun cs => do
  let (ks, cs) ← dottedKeys? cs
  let rest ← close.isPrefixOf? cs
  some (ks, ← lineEnd? rest)

/-- Reads one line that is not blank. -/
def line? (d : Draft) : Reader Draft := fun cs =>
  match cs with
  | '[' :: '[' :: rest => do
    let (ks, cs) ← header? [']', ']'] rest
    some (⟨← d.root.openTable true ks, ks⟩, cs)
  | '[' :: rest => do
    let (ks, cs) ← header? [']'] rest
    some (⟨← d.root.openTable false ks, ks⟩, cs)
  | _ => do
    let ((ks, j), cs) ← assignment? (value? (depthLimit - 1)) cs
    let root ← Node.editAt false (Node.assign ks j) d.path d.root
    some (⟨root, d.path⟩, ← lineEnd? cs)

/-- Reads the lines of a document, at most `fuel` of them. -/
def lines? : Nat → Draft → List Char → Option Draft
  | 0, _, _ => none
  | fuel + 1, d, cs =>
    match gap cs with
    | [] => some d
    | start => do
      -- a comment may end the document without a line end
      if (skipComment start).isEmpty then some d
      else
        let (d, cs) ← line? d start
        lines? fuel d cs

/-- A text without the mark of its byte order. -/
def withoutMark (cs : List Char) : List Char :=
  match cs with
  | '\uFEFF' :: rest => rest
  | _ => cs

/-- Reads a document. -/
def parse? (s : String) : Option Json := do
  let cs := withoutMark s.toList
  let d ← lines? cs.length.succ ⟨Node.root, []⟩ cs
  some d.root.toJson

end HealthMonitor.Toml

import HealthMonitor.Json.Basic

/-!
# Tables under construction

While a TOML document is read its tables grow line by line. A `Node` is a table, a row of tables
or a finished value. A table remembers how it came to be: `implied` by the header of a table
inside it, or `dotted`, written through keys with dots. A table that was opened by its own header
cannot be opened again, dotted keys cannot reach into it, and no key can be set twice.
-/

namespace HealthMonitor.Toml

/-- A part of a document. -/
inductive Node where
  | leaf (value : Json)
  | table (implied dotted : Bool) (entries : List (String × Node))
  | rows (tables : List Node)
  deriving Inhabited

namespace Node

/-- The table of an empty document. -/
def root : Node := .table false false []

/-- Puts an entry in place of the one of its key, or behind the others. -/
def put (key : String) (node : Node) : List (String × Node) → List (String × Node)
  | [] => [(key, node)]
  | e :: rest => if e.1 = key then (key, node) :: rest else e :: put key node rest

/-- Whether a step through dotted keys may enter a node. -/
def admits (dotted : Bool) : Node → Bool
  | .table implied _ _ => !dotted || implied
  | _ => true

/-- Changes the table at the end of a path. Missing tables on the way are added; of a row of tables
the last is meant. With `dotted` the path is one of dotted keys. -/
def editAt (dotted : Bool) (act : Node → Option Node) : List String → Node → Option Node
  | [], .table i d es => act (.table i d es)
  | [], .rows ts => do some (.rows (ts.dropLast ++ [← act (← ts.getLast?)]))
  | key :: path, .table i d es => do
    let child := (es.lookup key).getD (.table true dotted [])
    guard (child.admits dotted)
    some (.table i d (put key (← editAt dotted act path child) es))
  | key :: path, .rows ts => do
    match ← ts.getLast? with
    | .table i d es =>
      let child := (es.lookup key).getD (.table true dotted [])
      guard (child.admits dotted)
      let last := Node.table i d (put key (← editAt dotted act path child) es)
      some (.rows (ts.dropLast ++ [last]))
    | _ => none
  | _, .leaf _ => none

/-- Sets a key of a table that a path of dotted keys, empty or not, has led to. -/
def assignIn (path : List String) (key : String) (value : Json) : Node → Option Node
  | .table i d es =>
    if d == path.isEmpty || (es.lookup key).isSome then none
    else some (.table i d (es ++ [(key, .leaf value)]))
  | _ => none

/-- Sets the value at dotted keys of a table. -/
def assign (keys : List String) (value : Json) (node : Node) : Option Node := do
  let key ← keys.getLast?
  editAt true (assignIn keys.dropLast key value) keys.dropLast node

/-- Opens a table by its own header. -/
def openIn (key : String) : Node → Option Node
  | .table i d es =>
    match es.lookup key with
    | none => some (.table i d (put key (.table false false []) es))
    | some (.table true false inner) => some (.table i d (put key (.table false false inner) es))
    | some _ => none
  | _ => none

/-- Opens a further table of a row. -/
def openRowIn (key : String) : Node → Option Node
  | .table i d es =>
    match es.lookup key with
    | none => some (.table i d (put key (.rows [.table false false []]) es))
    | some (.rows ts) => some (.table i d (put key (.rows (ts ++ [.table false false []])) es))
    | some _ => none
  | _ => none

/-- Opens the table of a header, or a further one of a row. -/
def openTable (row : Bool) (keys : List String) (node : Node) : Option Node := do
  let key ← keys.getLast?
  editAt false (if row then openRowIn key else openIn key) keys.dropLast node

mutual

/-- The value of a finished node. -/
def toJson : Node → Json
  | .leaf value => value
  | .table _ _ es => .object (entriesToJson es)
  | .rows ts => .array (rowsToJson ts)

/-- The members of a finished table. -/
def entriesToJson : List (String × Node) → List (Option String × Json)
  | [] => []
  | (key, node) :: rest => (some key, node.toJson) :: entriesToJson rest

/-- The tables of a finished row. -/
def rowsToJson : List Node → List Json
  | [] => []
  | t :: rest => t.toJson :: rowsToJson rest

end

end Node

end HealthMonitor.Toml

import HealthMonitor.Toml.Table
import Mathlib.Data.List.Basic
import Mathlib.Data.Option.Basic

/-!
# Tables at the ends of paths

While a document grows, each line changes one table: the one at the end of a path of headers, or, on
the way, the last of a row. `Node.tableAt?` looks it up and `Node.setAt` puts another in its place.
The two obey the laws of a lens, except that what is looked up where nothing stands is an implied
table without entries, and putting that there adds it. `Grown` says that a document has one table
changed and everything else left alone.
-/

namespace HealthMonitor.Toml

/-- A table under construction. -/
structure Table where
  implied : Bool
  dotted : Bool
  entries : List (String × Node)

namespace Table

def node (t : Table) : Node :=
  .table t.implied t.dotted t.entries

/-- What stands for a table that is not there. -/
def absent : Table := ⟨true, false, []⟩

/-- A table right behind its header. -/
def opened : Table := ⟨false, false, []⟩

/-- The node under a key. -/
def child (t : Table) (key : String) : Node :=
  (t.entries.lookup key).getD absent.node

/-- The table with a node under a key. -/
def put (t : Table) (key : String) (node : Node) : Table :=
  { t with entries := Node.put key node t.entries }

/-- The tables of the row under a key, none if there is no row yet. -/
def rowAt? (t : Table) (key : String) : Option (List Node) :=
  match t.entries.lookup key with
  | none => some []
  | some (.rows ts) => some ts
  | some _ => none

/-- The table with further entries. -/
def append (t : Table) (es : List (String × Node)) : Table :=
  { t with entries := t.entries ++ es }

end Table

/-! ### Entries -/

section Entries

variable {key : String} {node : Node} {es : List (String × Node)}

/-- What is put under a key is found there. -/
theorem lookup_put (key : String) (node : Node) (es : List (String × Node)) :
    (Node.put key node es).lookup key = some node := by
  induction es with
  | nil => simp [Node.put]
  | cons e es ih =>
    rw [Node.put]
    split
    next => simp
    next hne =>
      have hkey : (key == e.1) = false := by simpa using Ne.symm hne
      rw [List.lookup_cons, hkey]
      exact ih

/-- What is put under a key later is what counts, and it takes the place of the first. -/
theorem put_put (key : String) (a b : Node) (es : List (String × Node)) :
    Node.put key b (Node.put key a es) = Node.put key b es := by
  induction es with
  | nil => simp [Node.put]
  | cons e es ih =>
    by_cases he : e.1 = key
    · simp [Node.put, he]
    · simp [Node.put, he, ih]

/-- To put under a key what stands there already changes nothing. -/
theorem put_of_lookup (h : es.lookup key = some node) : Node.put key node es = es := by
  induction es with
  | nil => cases h
  | cons e es ih =>
    obtain ⟨k, n⟩ := e
    by_cases hk : k = key
    · subst hk
      have hn : n = node := by simpa using h
      simp [Node.put, hn]
    · have hkey : (key == k) = false := by simpa using Ne.symm hk
      rw [List.lookup_cons, hkey] at h
      rw [Node.put, if_neg hk, ih h]

/-- Under a new key a node is put at the end. -/
theorem put_of_free (h : es.lookup key = none) : Node.put key node es = es ++ [(key, node)] := by
  induction es with
  | nil => rfl
  | cons e es ih =>
    obtain ⟨k, n⟩ := e
    by_cases hk : k = key
    · simp [hk] at h
    · have hkey : (key == k) = false := by simpa using Ne.symm hk
      rw [List.lookup_cons, hkey] at h
      rw [Node.put, if_neg hk, ih h, List.cons_append]

end Entries

namespace Table

theorem child_put (t : Table) (key : String) (node : Node) : (t.put key node).child key = node := by
  rw [child, put, lookup_put, Option.getD_some]

theorem put_put (t : Table) (key : String) (a b : Node) :
    (t.put key a).put key b = t.put key b := by
  rw [put, put, put, Toml.put_put]

theorem put_of_free {t : Table} {key : String} (h : t.entries.lookup key = none) (node : Node) :
    t.put key node = t.append [(key, node)] := by
  rw [put, append, Toml.put_of_free h]

end Table

namespace Node

/-! ### The table of a node -/

/-- The table that a node stands for: itself, or the last of a row. -/
def table? : Node → Option Table
  | .table i d es => some ⟨i, d, es⟩
  | .rows ts =>
    match ts.getLast? with
    | some (.table i d es) => some ⟨i, d, es⟩
    | _ => none
  | .leaf _ => none

/-- A node with another table in the place of its own. -/
def withTable (t : Table) : Node → Node
  | .rows ts => .rows (ts.dropLast ++ [t.node])
  | _ => t.node

/-- The table of a row is the last one. -/
theorem table?_rows {ts : List Node} {t : Table} :
    (rows ts).table? = some t ↔ ts.getLast? = some t.node := by
  simp only [table?]
  split
  next i d es hlast =>
    rw [hlast, Option.some_inj, Option.some_inj]
    exact ⟨fun h => by rw [← h]; rfl, fun h => by cases t; cases h; rfl⟩
  next hno => exact ⟨nofun, fun h => absurd h (hno _ _ _)⟩

/-- The first law of the lens at a node: the table that is put there is found there. -/
theorem table?_withTable (t : Table) (n : Node) : (n.withTable t).table? = some t := by
  cases n with
  | leaf => rfl
  | table => rfl
  | rows ts => simp [withTable, table?, Table.node]

/-- The second law: of two tables that are put there the second counts. -/
theorem withTable_withTable (a b : Table) (n : Node) :
    (n.withTable a).withTable b = n.withTable b := by
  cases n with
  | leaf => rfl
  | table => rfl
  | rows ts => simp [withTable]

/-- The third law: to put a table where it stands changes nothing. -/
theorem withTable_of_table? {n : Node} {t : Table} (h : n.table? = some t) :
    n.withTable t = n := by
  cases n with
  | leaf => cases h
  | table => cases h; rfl
  | rows ts =>
    rw [withTable, List.dropLast_append_getLast? t.node (table?_rows.mp h)]

/-! ### Paths -/

/-- The table at the end of a path. -/
def tableAt? : List String → Node → Option Table
  | [], n => n.table?
  | key :: path, n => n.table?.bind fun t => tableAt? path (t.child key)

/-- Puts another table at the end of a path. -/
def setAt (new : Table) : List String → Node → Node
  | [], n => n.withTable new
  | key :: path, n =>
    match n.table? with
    | some t => n.withTable (t.put key (setAt new path (t.child key)))
    | none => n

section Paths

variable {path : List String} {n : Node} {t : Table}

/-- A table at the end of a path stands below that of its first key. -/
theorem tableAt?_cons_eq_some {key : String} (h : tableAt? (key :: path) n = some t) :
    ∃ t₀, n.table? = some t₀ ∧ tableAt? path (t₀.child key) = some t :=
  Option.bind_eq_some_iff.mp h

/-- **What is put at the end of a path is found there.** The induction is over the path, as it is
for the laws below; what stands on the way has a table at each key. -/
theorem tableAt?_setAt (new : Table) (h : n.tableAt? path = some t) :
    (n.setAt new path).tableAt? path = some new := by
  induction path generalizing n with
  | nil => exact table?_withTable new n
  | cons key path ih =>
    obtain ⟨t₀, h₀, hpath⟩ := tableAt?_cons_eq_some h
    simp only [setAt, h₀, tableAt?, table?_withTable, Option.bind_some, Table.child_put]
    exact ih hpath

/-- **Of two tables that are put at the end of a path the second counts.** -/
theorem setAt_setAt (a b : Table) (h : n.tableAt? path = some t) :
    (n.setAt a path).setAt b path = n.setAt b path := by
  induction path generalizing n with
  | nil => exact withTable_withTable a b n
  | cons key path ih =>
    obtain ⟨t₀, h₀, hpath⟩ := tableAt?_cons_eq_some h
    simp only [setAt, h₀, table?_withTable, withTable_withTable, Table.child_put, Table.put_put,
      ih hpath]

/-- Where nothing stands, an implied table without entries is found at the end of any path. -/
theorem tableAt?_absent (path : List String) :
    Table.absent.node.tableAt? path = some Table.absent := by
  induction path with
  | nil => rfl
  | cons key path ih => exact ih

/-- Nothing changes when a table is put where it stands already. -/
theorem setAt_of_tableAt? (h : n.tableAt? path = some t) (hthere : t ≠ Table.absent) :
    n.setAt t path = n := by
  induction path generalizing n with
  | nil => exact withTable_of_table? h
  | cons key path ih =>
    obtain ⟨t₀, h₀, hpath⟩ := tableAt?_cons_eq_some h
    cases hlookup : t₀.entries.lookup key with
    | none =>
      have hchild : t₀.child key = Table.absent.node := by rw [Table.child, hlookup]; rfl
      rw [hchild, tableAt?_absent] at hpath
      exact absurd (Option.some.inj hpath).symm hthere
    | some c =>
      have hchild : t₀.child key = c := by rw [Table.child, hlookup]; rfl
      rw [hchild] at hpath
      have hput : t₀.put key c = t₀ := by rw [Table.put, put_of_lookup hlookup]
      simp only [setAt, h₀, hchild, ih hpath, hput]
      exact withTable_of_table? h₀

/-- One key further down, the table of the child is found. -/
theorem tableAt?_concat (key : String) (h : n.tableAt? path = some t) :
    n.tableAt? (path ++ [key]) = (t.child key).table? := by
  induction path generalizing n with
  | nil =>
    have ht : n.table? = some t := h
    simp only [List.nil_append, tableAt?, ht, Option.bind_some]
  | cons k path ih =>
    obtain ⟨t₀, h₀, hpath⟩ := tableAt?_cons_eq_some h
    simp only [List.cons_append, tableAt?, h₀, Option.bind_some, ih hpath]

/-- To put a table one key further down is to put it into the child of the table above. -/
theorem setAt_concat (new : Table) (key : String) (h : n.tableAt? path = some t) :
    n.setAt new (path ++ [key]) = n.setAt (t.put key ((t.child key).withTable new)) path := by
  induction path generalizing n with
  | nil =>
    have ht : n.table? = some t := h
    simp only [List.nil_append, setAt, ht]
  | cons k path ih =>
    obtain ⟨t₀, h₀, hpath⟩ := tableAt?_cons_eq_some h
    simp only [List.cons_append, setAt, h₀, ih hpath]

/-- A header may go through any table. -/
theorem admits_headers (n : Node) : n.admits false = true := by
  cases n <;> rfl

/-- A change below a key changes the child, and puts it back into the table above. -/
theorem editAt_cons {act : Node → Option Node} {key : String} (h : n.table? = some t) :
    editAt false act (key :: path) n =
      (editAt false act path (t.child key)).map fun c => n.withTable (t.put key c) := by
  cases n with
  | leaf => cases h
  | table i d es =>
    cases h
    have hchild : (es.lookup key).getD (.table true false []) = Table.child ⟨i, d, es⟩ key := rfl
    simp only [editAt]
    rw [hchild, admits_headers]
    cases editAt false act path (Table.child ⟨i, d, es⟩ key) <;> rfl
  | rows ts =>
    have hlast : ts.getLast? = some t.node := table?_rows.mp h
    have hchild : (t.entries.lookup key).getD (.table true false []) = t.child key := rfl
    simp only [editAt, hlast, Option.bind_eq_bind, Option.bind_some, Table.node]
    rw [hchild, admits_headers]
    cases editAt false act path (t.child key) <;> rfl

/-- A change at the end of a path of headers is a change of the table there. -/
theorem editAt_eq_setAt {act : Node → Option Node} {new : Table} (h : n.tableAt? path = some t)
    (hact : act t.node = some new.node) : editAt false act path n = some (n.setAt new path) := by
  induction path generalizing n with
  | nil =>
    cases n with
    | leaf => cases h
    | table =>
      cases h
      exact hact
    | rows ts =>
      have hlast : ts.getLast? = some t.node := table?_rows.mp h
      simp only [editAt, hlast, hact, Option.bind_eq_bind, Option.bind_some, setAt, withTable]
  | cons key path ih =>
    obtain ⟨t₀, h₀, hpath⟩ := tableAt?_cons_eq_some h
    simp only [editAt_cons h₀, ih hpath, Option.map_some, setAt, h₀]

/-! ### What lines do to a table -/

variable {key : String}

/-- A header of a free key opens a table there. -/
theorem openTable_table (h : n.tableAt? path = some t) (hfree : t.entries.lookup key = none) :
    n.openTable false (path ++ [key]) = some (n.setAt (t.put key Table.opened.node) path) := by
  have hopen : openIn key t.node = some (t.put key Table.opened.node).node := by
    simp only [Table.node, openIn, hfree]
    rfl
  simpa [openTable] using editAt_eq_setAt h hopen

/-- A header of a row adds a table to the row, or starts the row. -/
theorem openTable_row {ts : List Node} (h : n.tableAt? path = some t)
    (hrow : t.rowAt? key = some ts) : n.openTable true (path ++ [key]) =
      some (n.setAt (t.put key (.rows (ts ++ [Table.opened.node]))) path) := by
  have hopen : openRowIn key t.node =
      some (t.put key (.rows (ts ++ [Table.opened.node]))).node := by
    cases hlookup : t.entries.lookup key with
    | none =>
      rw [Table.rowAt?, hlookup] at hrow
      cases hrow
      simp only [Table.node, openRowIn, hlookup]
      rfl
    | some node =>
      rw [Table.rowAt?, hlookup] at hrow
      cases node with
      | leaf | table => cases hrow
      | rows =>
        cases hrow
        simp only [Table.node, openRowIn, hlookup]
        rfl
  simpa [openTable] using editAt_eq_setAt h hopen

/-- A line with a free key adds an entry to the table above it. -/
theorem editAt_assign {j : Json} (h : n.tableAt? path = some t) (hheader : t.dotted = false)
    (hfree : t.entries.lookup key = none) :
    editAt false (assign [key] j) path n = some (n.setAt (t.append [(key, .leaf j)]) path) := by
  refine editAt_eq_setAt h ?_
  simp [assign, editAt, assignIn, Table.node, hheader, hfree, Table.append]

end Paths

/-! ### Documents that grow -/

/-- A document with another table at the end of a path, and otherwise as it was. -/
structure Grown (path : List String) (t : Table) (n n' : Node) : Prop where
  there : n'.tableAt? path = some t
  frame : ∀ new, n'.setAt new path = n.setAt new path

namespace Grown

variable {path : List String} {t t' new : Table} {n n₁ n' : Node} {key : String}

theorem refl (h : n.tableAt? path = some t) : Grown path t n n :=
  ⟨h, fun _ => rfl⟩

theorem trans (h : Grown path t n n₁) (h' : Grown path t' n₁ n') : Grown path t' n n' :=
  ⟨h'.there, fun new => (h'.frame new).trans (h.frame new)⟩

theorem set (h : n.tableAt? path = some t) (new : Table) :
    Grown path new n (n.setAt new path) :=
  ⟨tableAt?_setAt new h, fun other => setAt_setAt new other h⟩

/-- A document has grown as far as its table has. An implied table without entries is left out, for
to put it there would add it. -/
theorem eq_setAt (h : Grown path t n n') (hthere : t ≠ Table.absent) : n' = n.setAt t path := by
  rw [← h.frame, setAt_of_tableAt? h.there hthere]

/-- A table that has grown inside of another has made that grow. -/
theorem outer (hpath : n.tableAt? path = some t) (h : Grown (path ++ [key]) new n n')
    (hthere : new ≠ Table.absent) :
    Grown path (t.put key ((t.child key).withTable new)) n n' := by
  rw [h.eq_setAt hthere, setAt_concat new key hpath]
  exact set hpath _

end Grown

end Node

end HealthMonitor.Toml

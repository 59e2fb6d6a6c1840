import HealthMonitor.Proofs.Toml.Lines
import HealthMonitor.Proofs.Toml.Tables

/-!
# Documents read back

The lines of an object are a document, and what is read from it is the object as a document says it
(`said`, `parse?_write`): members that are null are gone, and the plain ones stand in front of
tables and rows of tables. That asks of the object that the names in a table differ, that numbers
are whole and not too large, that an array holds tables or nothing, and that tables do not nest too
deep (`Writable`). Section by section, a document has one table grown by what the section says.
-/

namespace HealthMonitor.Toml

open Node

/-! ### What a document can say -/

mutual

/-- Whether a value at the end of a path of `depth` keys can be written and read back. -/
def Writable (depth : Nat) : Json → Prop
  | .object members =>
    depth < depthLimit ∧ ((shown members).map Prod.fst).Nodup ∧ WritableMembers (depth + 1) members
  | .array items => items = [] ∨ isSection (.array items) = true ∧ WritableItems depth items
  | .null => True
  | .bool b => IsPlain (.bool b)
  | .number s => IsPlain (.number s)
  | .string s => IsPlain (.string s)

def WritableMembers (depth : Nat) : List (Option String × Json) → Prop
  | [] => True
  | (_, j) :: rest => Writable depth j ∧ WritableMembers depth rest

def WritableItems (depth : Nat) : List Json → Prop
  | [] => True
  | j :: rest => Writable depth j ∧ WritableItems depth rest

end

/-- The members of a table that stand on lines of their own. -/
def plainMembers (members : List (String × Json)) : List (String × Json) :=
  members.filter fun m => !isSection m.2

mutual

/-- A value as a document says it. -/
def said : Json → Json
  | .object members =>
    .object ((plainMembers (shown members)).map (fun m => (some m.1, m.2))
      ++ saidSections members)
  | .array items => .array (saidItems items)
  | j => j

def saidSections : List (Option String × Json) → List (Option String × Json)
  | [] => []
  | (name, j) :: rest =>
    if isSection j then (some (name.getD ""), said j) :: saidSections rest
    else saidSections rest

def saidItems : List Json → List Json
  | [] => []
  | j :: rest => said j :: saidItems rest

end

/-- The members of a table that have sections of their own. -/
def sectionMembers (members : List (Option String × Json)) : List (String × Json) :=
  (shown members).filter fun m => isSection m.2

/-- The members that are shown are those that are not null; a name that is missing counts as an
empty one. -/
theorem mem_shown {members : List (Option String × Json)} {m : String × Json} :
    m ∈ shown members ↔ ∃ name, (name, m.2) ∈ members ∧ m.2 ≠ .null ∧ name.getD "" = m.1 := by
  obtain ⟨k, j⟩ := m
  rw [shown, List.mem_filterMap]
  constructor
  · rintro ⟨⟨name, j'⟩, hmem, hj⟩
    cases j' <;> cases hj <;> exact ⟨name, hmem, nofun, rfl⟩
  · rintro ⟨name, hmem, hj, rfl⟩
    refine ⟨(name, j), hmem, ?_⟩
    cases j <;> trivial

/-- The members with sections of their own are told one by one. -/
theorem sectionMembers_cons (name : Option String) (j : Json)
    (rest : List (Option String × Json)) : sectionMembers ((name, j) :: rest) =
      if isSection j then (name.getD "", j) :: sectionMembers rest else sectionMembers rest := by
  cases j <;> simp [sectionMembers, shown, isSection, List.filter_cons]

/-! ### Values without sections -/

section Plain

variable {depth : Nat} {j : Json}

/-- What can be written and is no section is null or stands on a line. -/
theorem eq_null_or_isPlain (hj : Writable depth j) (hplain : isSection j = false) :
    j = .null ∨ IsPlain j := by
  cases j with
  | null => exact .inl rfl
  | object => cases hplain
  | array items =>
    simp only [Writable, hplain] at hj
    rcases hj with rfl | ⟨hsection, -⟩
    · exact .inr .empty
    · cases hsection
  | bool | number | string => exact .inr (by simpa only [Writable] using hj)

/-- A value that is neither a table nor a row has no lines of its own. -/
theorem sectionLines_of_plain (hj : Writable depth j) (hplain : isSection j = false)
    (path : List String) : sectionLines path false j = [] := by
  rcases eq_null_or_isPlain hj hplain with rfl | h
  · rfl
  · cases h <;> rfl

/-- A table without sections has no lines below its own. -/
theorem memberLines_of_plain {members : List (Option String × Json)}
    (h : WritableMembers depth members) (hplain : saidSections members = [])
    (path : List String) : memberLines path members = [] := by
  induction members with
  | nil => rfl
  | cons m rest ih =>
    obtain ⟨name, j⟩ := m
    obtain ⟨hj, hrest⟩ : Writable depth j ∧ WritableMembers depth rest := h
    rw [saidSections] at hplain
    split at hplain
    next => cases hplain
    next hnot =>
      rw [memberLines, sectionLines_of_plain hj (by simpa using hnot), ih hrest hplain]
      rfl

/-- Each member of a table that can be written can be written. -/
theorem writable_of_mem {members : List (Option String × Json)} (h : WritableMembers depth members)
    {m : Option String × Json} (hm : m ∈ members) : Writable depth m.2 := by
  induction members with
  | nil => cases hm
  | cons m' rest ih =>
    obtain ⟨hj, hrest⟩ : Writable depth m'.2 ∧ WritableMembers depth rest := h
    rcases List.mem_cons.mp hm with rfl | hm
    · exact hj
    · exact ih hrest hm

/-- A member on a line of its own has a plain value. -/
theorem isPlain_of_mem_plainMembers {members : List (Option String × Json)}
    (h : WritableMembers depth members) {m : String × Json}
    (hm : m ∈ plainMembers (shown members)) : IsPlain m.2 := by
  obtain ⟨hshown, hplain⟩ := List.mem_filter.mp hm
  obtain ⟨name, hmem, hnull, -⟩ := mem_shown.mp hshown
  have hj := eq_null_or_isPlain (writable_of_mem h hmem) (by simpa using hplain)
  exact hj.resolve_left hnull

end Plain

/-! ### Lines of a table -/

section Lines

variable {path : List String} {t : Table} {root : Node}

/-- A name that does not stand twice is free as long as only other names have been read. -/
theorem lookup_of_nodup {es : List (String × Node)} {name : String} {rest : List String}
    (h : (es.map Prod.fst ++ name :: rest).Nodup) : es.lookup name = none := by
  rw [List.lookup_eq_none_iff]
  intro e he
  have hdisjoint := (List.nodup_append.mp h).2.2
  have hne : e.1 ≠ name := hdisjoint e.1 (List.mem_map_of_mem he) name List.mem_cons_self
  simpa using hne.symm

/-- Plain members are added to the table that is open, one by one. -/
theorem reads_plainMembers {members : List (String × Json)} (hplain : ∀ m ∈ members, IsPlain m.2)
    (hat : root.tableAt? path = some t) (hheader : t.dotted = false)
    (hnodup : (t.entries.map Prod.fst ++ members.map Prod.fst).Nodup) :
    ∃ root', Grown path (t.append (members.map fun m => (m.1, .leaf m.2))) root root' ∧
      Reads ⟨root, path⟩ (members.map fun m => key m.1 ++ " = ".toList ++ value m.2)
        ⟨root', path⟩ := by
  induction members generalizing t root with
  | nil => exact ⟨root, by simpa [Table.append] using Grown.refl hat, .nil _⟩
  | cons m members ih =>
    obtain ⟨name, j⟩ := m
    obtain ⟨hj, hmembers⟩ := List.forall_mem_cons.mp hplain
    have hfree : t.entries.lookup name = none := lookup_of_nodup hnodup
    have hset := Grown.set hat (t.append [(name, .leaf j)])
    have hnext : ((t.append [(name, .leaf j)]).entries.map Prod.fst
        ++ members.map Prod.fst).Nodup := by
      simpa [Table.append] using hnodup
    obtain ⟨root', hgrown, hreads⟩ := ih hmembers hset.there hheader hnext
    refine ⟨root', ?_, reads_plain hj (editAt_assign hat hheader hfree) hreads⟩
    have hall := hset.trans hgrown
    simpa [Table.append] using hall

/-- The lines of the tables among the members of a table add these tables to it. -/
def MembersSay (depth : Nat) (members : List (Option String × Json)) : Prop :=
  ∀ {path : List String} {t : Table} {root : Node}, path.length = depth →
    root.tableAt? path = some t →
    (t.entries.map Prod.fst ++ (sectionMembers members).map Prod.fst).Nodup →
    ∀ current, ∃ es root' current', entriesToJson es = saidSections members ∧
      Grown path (t.append es) root root' ∧
      Reads ⟨root, current⟩ (memberLines path members) ⟨root', current'⟩

/-- The entries of a table are read off one by one. -/
theorem entriesToJson_eq (es : List (String × Node)) :
    entriesToJson es = es.map fun e => (some e.1, e.2.toJson) := by
  induction es with
  | nil => rfl
  | cons e es ih => rw [entriesToJson, ih, List.map_cons]

/-- A table that holds the plain members of an object, and behind them what its sections say, is the
object as a document says it. -/
theorem said_object {members : List (Option String × Json)} {es : List (String × Node)}
    (hes : entriesToJson es = saidSections members) :
    Json.object (entriesToJson
      ((plainMembers (shown members)).map (fun m => (m.1, .leaf m.2)) ++ es)) =
      said (.object members) := by
  rw [said, ← hes, entriesToJson_eq, entriesToJson_eq, List.map_append, List.map_map]
  rfl

/-- Names that differ still do so when the members on lines of their own are put in front. -/
theorem nodup_sorted {members : List (String × Json)} (h : (members.map Prod.fst).Nodup) :
    ((plainMembers members).map Prod.fst
      ++ (members.filter fun m => isSection m.2).map Prod.fst).Nodup := by
  rw [← List.map_append]
  refine ((List.Perm.map Prod.fst ?_).nodup_iff).mpr h
  exact List.perm_append_comm.trans (List.filter_append_perm (fun m => isSection m.2) members)

/-- **The lines behind a header fill its table.** -/
theorem reads_table {members : List (Option String × Json)}
    (hmembers : MembersSay path.length members)
    (hplain : ∀ m ∈ plainMembers (shown members), IsPlain m.2)
    (hnodup : ((shown members).map Prod.fst).Nodup)
    (hat : root.tableAt? path = some Table.opened) :
    ∃ es root' current, Json.object (entriesToJson es) = said (.object members) ∧
      Grown path (Table.opened.append es) root root' ∧
      Reads ⟨root, path⟩ (plainLines (shown members) ++ memberLines path members)
        ⟨root', current⟩ := by
  have hnames := nodup_sorted hnodup
  obtain ⟨root₁, hgrown, hreads⟩ :=
    reads_plainMembers hplain hat rfl (List.nodup_append.mp hnames).1
  have hfilled : ((Table.opened.append ((plainMembers (shown members)).map
      fun m => (m.1, .leaf m.2))).entries.map Prod.fst
        ++ (sectionMembers members).map Prod.fst).Nodup := by
    simpa [Table.append, Table.opened, Function.comp_def, sectionMembers] using hnames
  obtain ⟨es, root', current, hes, hgrown', hreads'⟩ := hmembers rfl hgrown.there hfilled path
  exact ⟨_, root', current, said_object hes, hgrown.trans hgrown', hreads.append hreads'⟩

/-- A table that has its header is not one that no line has reached. -/
theorem Table.opened_append_ne_absent (es : List (String × Node)) :
    Table.opened.append es ≠ Table.absent :=
  fun h => Bool.noConfusion (congrArg Table.implied h)

/-- A header and the lines behind it fill the table that the header opens. -/
theorem reads_opened {row : Bool} {name : String} {node : Node}
    {members : List (Option String × Json)} (hmembers : MembersSay (path.length + 1) members)
    (hw : Writable (path.length + 1) (.object members)) (hat : root.tableAt? path = some t)
    (hopen : root.openTable row (path ++ [name]) = some (root.setAt (t.put name node) path))
    (hnode : node.table? = some Table.opened) (current : List String) :
    ∃ es root' current', Json.object (entriesToJson es) = said (.object members) ∧
      Grown path (t.put name (node.withTable (Table.opened.append es))) root root' ∧
      Reads ⟨root, current⟩ (header row (path ++ [name]) ++ (plainLines (shown members)
        ++ memberLines (path ++ [name]) members)) ⟨root', current'⟩ := by
  obtain ⟨hdepth, hnodup, hall⟩ := hw
  have hlength : (path ++ [name]).length = path.length + 1 := List.length_append
  have hset := Grown.set hat (t.put name node)
  have hinner : (root.setAt (t.put name node) path).tableAt? (path ++ [name]) =
      some Table.opened := by
    rw [tableAt?_concat name hset.there, Table.child_put, hnode]
  obtain ⟨es, root', current', hes, hgrown, hreads⟩ := reads_table (hlength ▸ hmembers)
    (fun m => isPlain_of_mem_plainMembers hall) hnodup hinner
  have houter := hset.trans (Grown.outer hset.there hgrown (Table.opened_append_ne_absent es))
  rw [Table.child_put, Table.put_put] at houter
  exact ⟨es, root', current', hes, houter,
    reads_header (by simp) (hlength ▸ hdepth) hopen hreads⟩

end Lines

/-! ### Sections -/

/-- The lines of a section add it to the table around it. -/
def SectionSays (depth : Nat) (j : Json) : Prop :=
  ∀ {path : List String} {name : String} {t : Table} {root : Node}, path.length + 1 = depth →
    root.tableAt? path = some t → t.entries.lookup name = none →
    ∀ current, ∃ node root' current', node.toJson = said j ∧
      Grown path (t.append [(name, node)]) root root' ∧
      Reads ⟨root, current⟩ (sectionLines (path ++ [name]) false j) ⟨root', current'⟩

/-- The lines of a row add further tables to it. -/
def RowSays (depth : Nat) (items : List Json) : Prop :=
  ∀ {path : List String} {name : String} {t : Table} {ts : List Node} {root : Node},
    path.length + 1 = depth → root.tableAt? path = some t → t.rowAt? name = some ts →
    ∀ current, ∃ nodes root' current', rowsToJson nodes = saidItems items ∧
      Grown path (t.put name (.rows (ts ++ nodes))) root root' ∧
      Reads ⟨root, current⟩ (rowLines (path ++ [name]) items) ⟨root', current'⟩

section Object

variable {path : List String} {name : String} {members : List (Option String × Json)}

/-- A table that holds nothing but sections has no header: those inside imply it. -/
theorem sectionLines_implied (hplain : plainLines (shown members) = [])
    (hinner : memberLines (path ++ [name]) members ≠ []) :
    sectionLines (path ++ [name]) false (.object members) =
      memberLines (path ++ [name]) members := by
  simp [sectionLines, hplain, hinner]

/-- Any other table has its header, its plain members, and the lines of its sections. -/
theorem sectionLines_opened (hlines : ¬ (plainLines (shown members) = [] ∧
      memberLines (path ++ [name]) members ≠ [])) :
    sectionLines (path ++ [name]) false (.object members) = header false (path ++ [name])
      ++ (plainLines (shown members) ++ memberLines (path ++ [name]) members) := by
  have hheader : (false || (!false && (plainLines (shown members)).isEmpty
      && !(memberLines (path ++ [name]) members).isEmpty)) = false := by
    simpa [List.isEmpty_iff] using hlines
  have hne : (path ++ [name]).isEmpty = false := by simp
  simp only [sectionLines, hne, hheader, Bool.false_eq_true, if_false, List.append_assoc]

/-- The headers of the tables inside imply the table around them. -/
theorem reads_implied {t : Table} {root : Node} (hmembers : MembersSay (path.length + 1) members)
    (hw : Writable (path.length + 1) (.object members)) (hat : root.tableAt? path = some t)
    (hfree : t.entries.lookup name = none) (hplain : plainLines (shown members) = [])
    (hinner : memberLines (path ++ [name]) members ≠ []) (current : List String) :
    ∃ es root' current', Json.object (entriesToJson es) = said (.object members) ∧
      Grown path (t.append [(name, (Table.absent.append es).node)]) root root' ∧
      Reads ⟨root, current⟩ (memberLines (path ++ [name]) members) ⟨root', current'⟩ := by
  have hchild : t.child name = Table.absent.node := by rw [Table.child, hfree]; rfl
  have habsent : root.tableAt? (path ++ [name]) = some Table.absent := by
    rw [tableAt?_concat name hat, hchild]
    rfl
  have hnodup : ((sectionMembers members).map Prod.fst).Nodup :=
    (List.filter_sublist.map Prod.fst).nodup hw.2.1
  obtain ⟨es, root', current', hes, hgrown, hreads⟩ :=
    hmembers List.length_append habsent hnodup current
  -- the table would not be there if no line inside had reached it
  have hthere : Table.absent.append es ≠ Table.absent := by
    intro h
    have hnil : es = [] := congrArg Table.entries h
    rw [hnil] at hes
    exact hinner (memberLines_of_plain hw.2.2 hes.symm _)
  have houter := Grown.outer hat hgrown hthere
  rw [hchild, Table.put_of_free hfree] at houter
  have hnone : plainMembers (shown members) = [] := List.map_eq_nil_iff.mp hplain
  have hsaid := said_object hes
  rw [hnone] at hsaid
  exact ⟨es, root', current', hsaid, houter, hreads⟩

end Object

/-- A table adds itself to the one around it, by its own header or by those inside. -/
theorem sectionSays_object {depth : Nat} {members : List (Option String × Json)}
    (hw : Writable depth (.object members)) (hmembers : MembersSay depth members) :
    SectionSays depth (.object members) := by
  intro path name t root hdepth hat hfree current
  subst hdepth
  by_cases hlines : plainLines (shown members) = [] ∧ memberLines (path ++ [name]) members ≠ []
  · obtain ⟨es, root', current', hes, hgrown, hreads⟩ :=
      reads_implied hmembers hw hat hfree hlines.1 hlines.2 current
    rw [← sectionLines_implied hlines.1 hlines.2] at hreads
    exact ⟨(Table.absent.append es).node, root', current', hes, hgrown, hreads⟩
  · obtain ⟨es, root', current', hes, hgrown, hreads⟩ :=
      reads_opened hmembers hw hat (openTable_table hat hfree) rfl current
    rw [Table.put_of_free hfree] at hgrown
    rw [← sectionLines_opened hlines] at hreads
    exact ⟨(Table.opened.append es).node, root', current', hes, hgrown, hreads⟩

/-- A row adds itself by the header of its first table. -/
theorem sectionSays_array {depth : Nat} {items : List Json} (hrow : RowSays depth items) :
    SectionSays depth (.array items) := by
  intro path name t root hdepth hat hfree current
  have hempty : t.rowAt? name = some [] := by rw [Table.rowAt?, hfree]
  obtain ⟨nodes, root', current', hnodes, hgrown, hreads⟩ := hrow hdepth hat hempty current
  refine ⟨.rows nodes, root', current', ?_, ?_, hreads⟩
  · rw [toJson, hnodes, said]
  · rw [Table.put_of_free hfree] at hgrown
    exact hgrown

/-- A table adds itself behind the others of its row. -/
theorem rowSays_singleton {depth : Nat} {members : List (Option String × Json)}
    (hw : Writable depth (.object members)) (hmembers : MembersSay depth members) :
    RowSays depth [.object members] := by
  intro path name t ts root hdepth hat hrow current
  subst hdepth
  have hnode : (Node.rows (ts ++ [Table.opened.node])).table? = some Table.opened :=
    table?_rows.mpr List.getLast?_concat
  obtain ⟨es, root', current', hes, hgrown, hreads⟩ :=
    reads_opened hmembers hw hat (openTable_row hat hrow) hnode current
  refine ⟨[(Table.opened.append es).node], root', current', ?_, ?_, ?_⟩
  · rw [rowsToJson, rowsToJson, saidItems, saidItems, ← hes]
    rfl
  · rw [withTable, List.dropLast_concat] at hgrown
    exact hgrown
  · have hlines : rowLines (path ++ [name]) [.object members] =
        header true (path ++ [name]) ++ (plainLines (shown members)
          ++ memberLines (path ++ [name]) members) := by
      simp [rowLines, sectionLines]
    rw [hlines]
    exact hreads

theorem rowsToJson_append (nodes nodes' : List Node) :
    rowsToJson (nodes ++ nodes') = rowsToJson nodes ++ rowsToJson nodes' := by
  induction nodes with
  | nil => rfl
  | cons node nodes ih => rw [List.cons_append, rowsToJson, ih, rowsToJson, List.cons_append]

/-- The first table of a row is added, and then the rest behind it. -/
theorem rowSays_cons {depth : Nat} {j : Json} {items : List Json}
    (hj : RowSays depth [j]) (hitems : RowSays depth items) :
    RowSays depth (j :: items) := by
  intro path name t ts root hdepth hat hrow current
  obtain ⟨nodes, root₁, current₁, hnodes, hgrown, hreads⟩ := hj hdepth hat hrow current
  have hnext : (t.put name (.rows (ts ++ nodes))).rowAt? name = some (ts ++ nodes) := by
    rw [Table.rowAt?, Table.put, lookup_put]
  obtain ⟨nodes', root', current', hnodes', hgrown', hreads'⟩ :=
    hitems hdepth hgrown.there hnext current₁
  refine ⟨nodes ++ nodes', root', current', ?_, ?_, ?_⟩
  · rw [rowsToJson_append, hnodes, hnodes']
    rfl
  · have hall := hgrown.trans hgrown'
    rwa [Table.put_put, List.append_assoc] at hall
  · have hboth := hreads.append hreads'
    rwa [rowLines, rowLines, List.append_nil] at hboth

theorem membersSay_nil {depth : Nat} : MembersSay depth [] :=
  fun _ hat _ current => ⟨[], _, current, rfl, by simpa [Table.append] using Grown.refl hat, .nil _⟩

/-- A member that is a section is added by its lines, and any other has been added before. -/
theorem membersSay_cons {depth : Nat} {name : Option String} {j : Json}
    {rest : List (Option String × Json)} (hw : Writable (depth + 1) j)
    (hj : isSection j = true → SectionSays (depth + 1) j) (hrest : MembersSay depth rest) :
    MembersSay depth ((name, j) :: rest) := by
  intro path t root hdepth hat hnodup current
  rw [sectionMembers_cons] at hnodup
  cases hsection : isSection j with
  | true =>
    rw [hsection, if_pos rfl, List.map_cons] at hnodup
    have hfree : t.entries.lookup (name.getD "") = none := lookup_of_nodup hnodup
    obtain ⟨node, root₁, current₁, hnode, hgrown, hreads⟩ :=
      hj hsection (hdepth ▸ rfl) hat hfree current
    have hnext : ((t.append [(name.getD "", node)]).entries.map Prod.fst
        ++ (sectionMembers rest).map Prod.fst).Nodup := by
      simpa [Table.append] using hnodup
    obtain ⟨es, root', current', hes, hgrown', hreads'⟩ :=
      hrest hdepth hgrown.there hnext current₁
    refine ⟨(name.getD "", node) :: es, root', current', ?_, ?_, hreads.append hreads'⟩
    · rw [entriesToJson, hes, hnode, saidSections, hsection, if_pos rfl]
    · have hall := hgrown.trans hgrown'
      simpa [Table.append] using hall
  | false =>
    rw [hsection, if_neg (by decide)] at hnodup
    obtain ⟨es, root', current', hes, hgrown, hreads⟩ := hrest hdepth hat hnodup current
    refine ⟨es, root', current', ?_, hgrown, ?_⟩
    · rw [hes, saidSections, hsection, if_neg (by decide)]
    · rw [memberLines, sectionLines_of_plain hw hsection, List.nil_append]
      exact hreads

/-- A row that is written by headers can be written table by table. -/
theorem writableItems_of_isSection {depth : Nat} {items : List Json}
    (hw : Writable depth (.array items)) (hsection : isSection (.array items) = true) :
    WritableItems depth items := by
  rcases hw with rfl | ⟨-, hitems⟩
  · cases hsection
  · exact hitems

theorem isSection_tail {j next : Json} {rest : List Json}
    (h : isSection (.array (j :: next :: rest)) = true) :
    isSection (.array (next :: rest)) = true := by
  simp only [isSection, List.all_cons, Bool.and_eq_true] at h ⊢
  exact ⟨rfl, h.2.2⟩

mutual

/-- **Every section is added as it is said.** -/
theorem sectionSays : ∀ (j : Json) {depth : Nat}, Writable depth j → isSection j = true →
    SectionSays depth j
  | .object members, _, hw, _ => sectionSays_object hw (membersSay members hw.2.2)
  | .array items, _, hw, hsection =>
    sectionSays_array (rowSays items (writableItems_of_isSection hw hsection) hsection)
  | .null, _, _, hsection => nomatch hsection
  | .bool _, _, _, hsection => nomatch hsection
  | .number _, _, _, hsection => nomatch hsection
  | .string _, _, _, hsection => nomatch hsection

/-- **Every row is added table by table.** -/
theorem rowSays : ∀ (items : List Json) {depth : Nat}, WritableItems depth items →
    isSection (.array items) = true → RowSays depth items
  | [], _, _, hsection => nomatch hsection
  | [.object members], _, hw, _ => rowSays_singleton hw.1 (membersSay members hw.1.2.2)
  | .object members :: next :: rest, _, hw, hsection =>
    rowSays_cons (rowSays_singleton hw.1 (membersSay members hw.1.2.2))
      (rowSays (next :: rest) hw.2 (isSection_tail hsection))
  | .null :: _, _, _, hsection => nomatch hsection
  | .bool _ :: _, _, _, hsection => nomatch hsection
  | .number _ :: _, _, _, hsection => nomatch hsection
  | .string _ :: _, _, _, hsection => nomatch hsection
  | .array _ :: _, _, _, hsection => nomatch hsection

/-- **The sections of a table are added one by one.** -/
theorem membersSay : ∀ (members : List (Option String × Json)) {depth : Nat},
    WritableMembers (depth + 1) members → MembersSay depth members
  | [], _, _ => membersSay_nil
  | (_, j) :: rest, _, hw =>
    membersSay_cons hw.1 (fun hsection => sectionSays j hw.1 hsection)
      (membersSay rest hw.2)

end

/-- **An object that can be written is read back as a document says it.** -/
theorem parse?_write {members : List (Option String × Json)} (h : Writable 0 (.object members)) :
    parse? (write (.object members)) = some (said (.object members)) := by
  obtain ⟨-, hnodup, hall⟩ := h
  have hplain : ∀ m ∈ plainMembers (shown members), IsPlain m.2 :=
    fun m => isPlain_of_mem_plainMembers hall
  have hroot : Node.root.tableAt? [] = some Table.opened := rfl
  obtain ⟨es, root', current, hes, hgrown, hreads⟩ :=
    reads_table (membersSay members hall) hplain hnodup hroot
  have hdocument : root' = (Table.opened.append es).node :=
    hgrown.eq_setAt (Table.opened_append_ne_absent es)
  have hlines : sectionLines [] false (.object members) =
      plainLines (shown members) ++ memberLines [] members := by
    simp [sectionLines]
  rw [parse?_of_reads (hlines ▸ hreads), hdocument]
  exact congrArg some hes

end HealthMonitor.Toml

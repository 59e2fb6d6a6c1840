import HealthMonitor.Proofs.Toml.Values

/-!
# Lines of a document

A document is read line by line, and each line that the writer lays out has one effect on the tables
under construction: a header opens a table (`reads_header`), and a key with its value is assigned in
the table that is open (`reads_plain`). `Reads` chains the lines of a document, and the whole of
them is what the reader makes of the text (`parse?_of_reads`).
-/

namespace HealthMonitor.Toml

/-! ### Keys -/

theorem isSpace_of_class {p : Char → Bool} {c : Char} (hc : p c = true) (hblank : p ' ' = false)
    (htab : p '\t' = false) : isSpace c = false := by
  simp [isSpace, Text.ne_of_class hc hblank, Text.ne_of_class hc htab]

theorem skip_cons {c : Char} (h : isSpace c = false) (cs : List Char) : skip (c :: cs) = c :: cs :=
  List.dropWhile_cons_of_neg (by simp [h])

/-- No space is skipped in front of a key, quoted or bare. -/
theorem skip_key (name : String) (rest : List Char) :
    skip (key name ++ rest) = key name ++ rest := by
  obtain ⟨c, text, hc, htext⟩ := key_eq_cons name
  rw [htext]
  exact skip_cons (isSpace_of_class hc (by decide) (by decide)) _

section Keys

variable {path : List String} {rest : List Char}

/-- With fuel for every character the keys of a path are read back one after another. -/
theorem keys?_intercalate (hne : path ≠ []) (hrest : ∀ c ∈ rest.head?, isBareChar c = false)
    (hdot : (skip rest).head? ≠ some '.') {fuel : Nat}
    (hfuel : (List.intercalate ['.'] (path.map key) ++ rest).length < fuel) :
    keys? fuel (List.intercalate ['.'] (path.map key) ++ rest) = some (path, skip rest) := by
  induction path generalizing fuel with
  | nil => exact absurd rfl hne
  | cons name path ih =>
    obtain ⟨fuel, rfl⟩ : ∃ n, fuel = n + 1 := ⟨fuel - 1, by omega⟩
    cases path with
    | nil =>
      rw [List.map_singleton, List.intercalate_singleton, keys?, skip_key, simpleKey?_key hrest]
      simp only [Option.bind_eq_bind, Option.bind_some]
      split
      next heq => exact absurd (by rw [heq]; rfl) hdot
      next => rfl
    | cons next path =>
      have hdotted : List.intercalate ['.'] ((name :: next :: path).map key) ++ rest =
          key name ++ '.' :: (List.intercalate ['.'] ((next :: path).map key) ++ rest) := by
        simp [List.intercalate_cons_cons]
      rw [hdotted] at hfuel ⊢
      rw [List.length_append, List.length_cons] at hfuel
      have hmore := ih (List.cons_ne_nil _ _) (by omega : _ < fuel)
      have hstop : isBareChar '.' = false := by decide
      rw [keys?, skip_key, simpleKey?_key (by simpa using hstop)]
      simp only [Option.bind_eq_bind, Option.bind_some, skip_cons (by decide : isSpace '.' = false),
        hmore, Option.map_some]

/-- The keys of a path are read back, up to what follows them. -/
theorem dottedKeys?_intercalate (hne : path ≠ []) (hshort : path.length < depthLimit)
    (hrest : ∀ c ∈ rest.head?, isBareChar c = false) (hdot : (skip rest).head? ≠ some '.') :
    dottedKeys? (List.intercalate ['.'] (path.map key) ++ rest) = some (path, skip rest) := by
  have hkeys := keys?_intercalate hne hrest hdot (Nat.lt_succ_self _)
  have hdepth : guard (path.length < depthLimit) = some () := if_pos hshort
  rw [dottedKeys?, hkeys]
  change (guard (path.length < depthLimit) >>= fun _ => some (path, skip rest)) = _
  rw [hdepth]
  rfl

theorem dottedKeys?_key {name : String} (hrest : ∀ c ∈ rest.head?, isBareChar c = false)
    (hdot : (skip rest).head? ≠ some '.') :
    dottedKeys? (key name ++ rest) = some ([name], skip rest) := by
  have hkeys := dottedKeys?_intercalate (List.cons_ne_nil name []) (by simp [depthLimit]) hrest hdot
  rwa [List.map_singleton, List.intercalate_singleton] at hkeys

/-- A header is read up to the end of its line, if its brackets are closed as they were opened. -/
theorem header?_intercalate (hne : path ≠ []) (hshort : path.length < depthLimit)
    {close : List Char} (hclose : close.head? = some ']') (more : List Char) :
    header? close (List.intercalate ['.'] (path.map key) ++ (close ++ '\n' :: more)) =
      some (path, more) := by
  obtain ⟨close, rfl⟩ : ∃ cs, close = ']' :: cs := by
    cases close with
    | nil => cases hclose
    | cons c cs => exact ⟨cs, by rw [Option.some.inj hclose]⟩
  have hstop : isBareChar ']' = false := by decide
  have hskip : skip (']' :: close ++ '\n' :: more) = ']' :: close ++ '\n' :: more :=
    skip_cons (by decide) _
  have hcut : (']' :: close).isPrefixOf? (']' :: close ++ '\n' :: more) = some ('\n' :: more) :=
    List.isPrefixOf?_eq_some_iff_append_eq.mpr rfl
  have hend : lineEnd? ('\n' :: more) = some more := rfl
  have hkeys : dottedKeys? (List.intercalate ['.'] (path.map key) ++
      (']' :: close ++ '\n' :: more)) = some (path, skip (']' :: close ++ '\n' :: more)) :=
    dottedKeys?_intercalate hne hshort (by simpa using hstop) (by rw [hskip]; simp)
  rw [hskip] at hkeys
  simp only [header?, hkeys, Option.bind_eq_bind, Option.bind_some, hcut, hend]

end Keys

/-! ### Effects of lines -/

/-- A path that is written starts as a key does. -/
theorem intercalate_eq_cons {path : List String} (hne : path ≠ []) :
    ∃ c text, isKeyStart c = true ∧ List.intercalate ['.'] (path.map key) = c :: text := by
  cases path with
  | nil => exact absurd rfl hne
  | cons name path =>
    obtain ⟨c, text, hc, htext⟩ := key_eq_cons name
    cases path with
    | nil => exact ⟨c, text, hc, by simpa using htext⟩
    | cons next path =>
      refine ⟨c, text ++ '.' :: List.intercalate ['.'] ((next :: path).map key), hc, ?_⟩
      simp [List.intercalate_cons_cons, htext]

section Headers

variable {d : Draft} {path : List String} {root : Node}

/-- The line of a table opens the table. -/
theorem line?_table (hne : path ≠ []) (hshort : path.length < depthLimit)
    (hopen : d.root.openTable false path = some root) (more : List Char) :
    line? d ('[' :: (List.intercalate ['.'] (path.map key) ++ ([']'] ++ '\n' :: more))) =
      some (⟨root, path⟩, more) := by
  have hheader := header?_intercalate hne hshort (rfl : [']'].head? = _) more
  obtain ⟨c, text, hc, htext⟩ := intercalate_eq_cons hne
  have hbracket : c ≠ '[' := Text.ne_of_class hc (by decide)
  rw [htext, List.cons_append] at hheader ⊢
  unfold line?
  split
  next heq =>
    cases heq
    exact absurd rfl hbracket
  next heq =>
    cases heq
    simp only [hheader, Option.bind_eq_bind, Option.bind_some, hopen]
  next hno => exact absurd rfl (hno _)

/-- The line of a row adds a row and opens it. -/
theorem line?_row (hne : path ≠ []) (hshort : path.length < depthLimit)
    (hopen : d.root.openTable true path = some root) (more : List Char) :
    line? d ('[' :: '[' ::
        (List.intercalate ['.'] (path.map key) ++ ([']', ']'] ++ '\n' :: more))) =
      some (⟨root, path⟩, more) := by
  have hheader := header?_intercalate hne hshort (rfl : [']', ']'].head? = _) more
  simp only [line?, hheader, Option.bind_eq_bind, Option.bind_some, hopen]

end Headers

/-- No space is skipped in front of a plain value. -/
theorem skip_value {j : Json} (h : IsPlain j) (rest : List Char) :
    skip (value j ++ rest) = value j ++ rest := by
  obtain ⟨c, text, hc, htext⟩ : ∃ c text, isSpace c = false ∧ value j = c :: text := by
    cases h with
    | text s =>
      obtain ⟨quote, escapes, text, hquote, htext⟩ := string_eq_cons s.toList
      exact ⟨quote, text, hquote.isSpace, htext⟩
    | @nat n hn =>
      have hvalue : value (Json.nat n) = Text.digitsOf n := String.toList_ofList
      cases hdigits : Text.digitsOf n with
      | nil => exact absurd hdigits (Text.digitsOf_ne_nil n)
      | cons c text =>
        have hc : c.isDigit = true := Text.isDigit_of_mem_digitsOf (hdigits ▸ List.mem_cons_self)
        have hbare : isKeyStart c = true := by simp [isKeyStart, isBareChar, Char.isAlphanum, hc]
        exact ⟨c, text, isSpace_of_class hbare (by decide) (by decide), hvalue.trans hdigits⟩
    | bool b => cases b <;> exact ⟨_, _, rfl, rfl⟩
    | empty => exact ⟨_, _, rfl, rfl⟩
  rw [htext]
  exact skip_cons hc _

/-- The line of a key with a plain value assigns it in the table that is open. -/
theorem line?_plain {d : Draft} {name : String} {j : Json} {root : Node} (hj : IsPlain j)
    (hassign : Node.editAt false (Node.assign [name] j) d.path d.root = some root)
    (more : List Char) :
    line? d (key name ++ (" = ".toList ++ (value j ++ '\n' :: more))) =
      some (⟨root, d.path⟩, more) := by
  have hequals : " = ".toList ++ (value j ++ '\n' :: more) =
      ' ' :: '=' :: ' ' :: (value j ++ '\n' :: more) := rfl
  have hbare : isBareChar ' ' = false := by decide
  have hkeys : dottedKeys? (key name ++ ' ' :: '=' :: ' ' :: (value j ++ '\n' :: more)) =
      some ([name], '=' :: ' ' :: (value j ++ '\n' :: more)) :=
    dottedKeys?_key (by simpa using hbare) (by simp [skip, isSpace])
  have hskip : skip (' ' :: (value j ++ '\n' :: more)) = value j ++ '\n' :: more :=
    skip_value hj _
  have hvalue := value?_value hj 78 more
  have hread : assignment? (value? (depthLimit - 1))
      (key name ++ ' ' :: '=' :: ' ' :: (value j ++ '\n' :: more)) =
      some (([name], j), '\n' :: more) := by
    simp only [assignment?, hkeys, DateTime.mark?, if_true, Option.bind_eq_bind, Option.bind_some,
      hskip, depthLimit, hvalue]
  have hend : lineEnd? ('\n' :: more) = some more := rfl
  obtain ⟨c, text, hc, htext⟩ := key_eq_cons name
  have hbracket : c ≠ '[' := Text.ne_of_class hc (by decide)
  rw [hequals]
  rw [htext, List.cons_append] at hread ⊢
  unfold line?
  split
  next heq => exact absurd (List.cons.inj heq).1 hbracket
  next heq => exact absurd (List.cons.inj heq).1 hbracket
  next => simp only [hread, Option.bind_eq_bind, Option.bind_some, hassign, hend]

/-! ### Chains of lines -/

/-- Characters that a line of the writer can start with. -/
def isLineStart (c : Char) : Bool :=
  isKeyStart c || c == '['

/-- What the lines of a document, one after another, make of a draft. -/
inductive Reads : Draft → List (List Char) → Draft → Prop
  | nil (d : Draft) : Reads d [] d
  | blank {d d' : Draft} {ls : List (List Char)} (more : Reads d ls d') : Reads d ([] :: ls) d'
  | line {d d₁ d' : Draft} {c : Char} {l : List Char} {ls : List (List Char)}
      (starts : isLineStart c = true)
      (effect : ∀ rest, line? d (c :: l ++ '\n' :: rest) = some (d₁, rest))
      (more : Reads d₁ ls d') : Reads d ((c :: l) :: ls) d'

/-- The lines of one part of a document are followed by those of the next. -/
theorem Reads.append {d d₁ d' : Draft} {ls ls' : List (List Char)} (h : Reads d ls d₁)
    (h' : Reads d₁ ls' d') : Reads d (ls ++ ls') d' := by
  induction h with
  | nil => exact h'
  | blank _ ih => exact .blank (ih h')
  | line starts effect _ ih => exact .line starts effect (ih h')

/-- Lines with their ends. -/
def joined (ls : List (List Char)) : List Char :=
  ls.flatMap fun l => l ++ ['\n']

theorem gap_blank (rest : List Char) : gap ('\n' :: rest) = gap rest := rfl

/-- No line of the writer is a comment. -/
theorem skipComment_line {c : Char} (h : isLineStart c = true) (rest : List Char) :
    skipComment (c :: rest) = c :: rest := by
  have hskip : skip (c :: rest) = c :: rest :=
    skip_cons (isSpace_of_class h (by decide) (by decide)) rest
  unfold skipComment
  rw [hskip]
  split
  next heq => exact absurd (List.cons.inj heq).1 (Text.ne_of_class h (by decide))
  next => rfl

/-- A line of the writer is not passed over. -/
theorem gap_line {c : Char} (h : isLineStart c = true) (rest : List Char) :
    gap (c :: rest) = c :: rest := by
  have hskip : skip (c :: rest) = c :: rest :=
    skip_cons (isSpace_of_class h (by decide) (by decide)) rest
  have hend : newline? (c :: rest) = none :=
    newline?_of_ne (Text.ne_of_class h (by decide)) (Text.ne_of_class h (by decide)) rest
  rw [gap, List.length_cons, skipLines, skipComment_line h, hend]
  exact hskip

/-- **The chained lines are what is read.** -/
theorem Reads.lines? {d d' : Draft} {ls : List (List Char)} (h : Reads d ls d') {fuel : Nat}
    (hfuel : (joined ls).length < fuel) : lines? fuel d (joined ls) = some d' := by
  induction h generalizing fuel with
  | nil d =>
    obtain ⟨fuel, rfl⟩ : ∃ n, fuel = n + 1 := ⟨fuel - 1, by omega⟩
    rfl
  | @blank d d' ls more ih =>
    obtain ⟨fuel, rfl⟩ : ∃ n, fuel = n + 1 := ⟨fuel - 1, by omega⟩
    have hjoined : joined ([] :: ls) = '\n' :: joined ls := rfl
    have hread := ih (Nat.lt_of_succ_lt hfuel)
    rw [Toml.lines?] at hread
    rw [hjoined, Toml.lines?, gap_blank]
    exact hread
  | @line d d₁ d' c l ls starts effect more ih =>
    obtain ⟨fuel, rfl⟩ : ∃ n, fuel = n + 1 := ⟨fuel - 1, by omega⟩
    have hjoined : joined ((c :: l) :: ls) = c :: (l ++ '\n' :: joined ls) := by simp [joined]
    have heffect : line? d (c :: (l ++ '\n' :: joined ls)) = some (d₁, joined ls) :=
      effect (joined ls)
    rw [hjoined, List.length_cons, List.length_append, List.length_cons] at hfuel
    have hread := ih (by omega : _ < fuel)
    rw [hjoined, Toml.lines?, gap_line starts]
    simp only [skipComment_line starts, List.isEmpty_cons, Bool.false_eq_true, if_false, heffect,
      Option.bind_eq_bind, Option.bind_some, hread]

/-- Lines of the writer do not start with a byte order mark. -/
theorem Reads.withoutMark {d d' : Draft} {ls : List (List Char)} (h : Reads d ls d') :
    withoutMark (joined ls) = joined ls := by
  cases h with
  | nil => rfl
  | blank => rfl
  | line starts =>
    unfold Toml.withoutMark
    split
    next heq => exact absurd (List.cons.inj heq).1 (Text.ne_of_class starts (by decide))
    next => rfl

/-- **What the lines of an object make of an empty document is what is read.** -/
theorem parse?_of_reads {j : Json} {d : Draft}
    (h : Reads ⟨Node.root, []⟩ (sectionLines [] false j) d) :
    parse? (write j) = some d.root.toJson := by
  have htext : (write j).toList = joined (sectionLines [] false j) := String.toList_ofList
  have hread := h.lines? (Nat.lt_succ_self _)
  simp only [parse?, htext, h.withoutMark, hread, Option.bind_eq_bind, Option.bind_some]

/-! ### Effects in chains -/

section Chains

variable {d d' : Draft} {ls : List (List Char)} {root : Node}

/-- A header opens its table. -/
theorem reads_header {row : Bool} {path : List String} (hne : path ≠ [])
    (hshort : path.length < depthLimit) (hopen : d.root.openTable row path = some root)
    (more : Reads ⟨root, path⟩ ls d') : Reads d (header row path ++ ls) d' := by
  cases row with
  | true =>
    refine .blank (.line (by decide) (fun rest => ?_) more)
    have hline := line?_row hne hshort hopen rest
    simpa using hline
  | false =>
    refine .blank (.line (by decide) (fun rest => ?_) more)
    have hline := line?_table hne hshort hopen rest
    simpa using hline

/-- A key with its value is set in the table that is open. -/
theorem reads_plain {name : String} {j : Json} (hj : IsPlain j)
    (hassign : Node.editAt false (Node.assign [name] j) d.path d.root = some root)
    (more : Reads ⟨root, d.path⟩ ls d') :
    Reads d ((key name ++ " = ".toList ++ value j) :: ls) d' := by
  obtain ⟨c, text, hc, htext⟩ := key_eq_cons name
  have hline := line?_plain hj hassign
  rw [htext] at hline ⊢
  refine .line (by simp [isLineStart, hc]) (fun rest => ?_) more
  have hrest := hline rest
  simpa using hrest

end Chains

end HealthMonitor.Toml

/-!
# Cutting texts at separators

`cut` splits a text at its first separator, `cutLast` at its last, and `cutAt` at the first
occurrence of a separating word. Each loses the separator and nothing else: joining the parts again
gives the text back. A text with many separators is split by `List.splitOn`.
-/

namespace HealthMonitor.Text

/-- The text before and after the first `sep`; nothing when `sep` does not occur. -/
def cut (sep : Char) : List Char → Option (List Char × List Char)
  | [] => none
  | c :: cs => if c = sep then some ([], cs) else (cut sep cs).map fun p => (c :: p.1, p.2)

/-- The text before and after the last `sep`; nothing when `sep` does not occur. -/
def cutLast (sep : Char) : List Char → Option (List Char × List Char)
  | [] => none
  | c :: cs =>
    match cutLast sep cs with
    | some p => some (c :: p.1, p.2)
    | none => if c = sep then some ([], cs) else none

/-- The text before and after the first occurrence of the word `sep`. -/
def cutAt (sep : List Char) : List Char → Option (List Char × List Char)
  | [] => if sep.isEmpty then some ([], []) else none
  | c :: cs =>
    match sep.isPrefixOf? (c :: cs) with
    | some rest => some ([], rest)
    | none => (cutAt sep cs).map fun p => (c :: p.1, p.2)

/-- Whether `word` occurs anywhere in a text. -/
def holds (word cs : List Char) : Bool :=
  (cutAt word cs).isSome

/-- A text in lower case, for ASCII letters; every other character stays. -/
def lower (cs : List Char) : List Char :=
  cs.map Char.toLower

/-! ### What a cut loses -/

/-- A cut is at the first separator: none stands before it. -/
theorem cut_eq_some {sep : Char} {cs before after : List Char}
    (h : cut sep cs = some (before, after)) : cs = before ++ sep :: after ∧ sep ∉ before := by
  induction cs generalizing before after with
  | nil => simp [cut] at h
  | cons c rest ih =>
    by_cases hc : c = sep
    · simp only [cut, hc, if_true, Option.some.injEq, Prod.mk.injEq] at h
      simp [← h.1, ← h.2, hc]
    · simp only [cut, hc, if_false, Option.map_eq_some_iff] at h
      obtain ⟨⟨b, a⟩, hp, he⟩ := h
      simp only [Prod.mk.injEq] at he
      obtain ⟨rfl, hn⟩ := ih hp
      simp [← he.1, ← he.2, hn, Ne.symm hc]

/-- Where none stands before a separator, the cut is there. -/
theorem cut_append {sep : Char} {before after : List Char} (h : sep ∉ before) :
    cut sep (before ++ sep :: after) = some (before, after) := by
  induction before with
  | nil => simp [cut]
  | cons c rest ih =>
    simp only [List.mem_cons, not_or] at h
    simp [cut, Ne.symm h.1, ih h.2]

theorem cut_eq_none {sep : Char} {cs : List Char} : cut sep cs = none ↔ sep ∉ cs := by
  induction cs with
  | nil => simp [cut]
  | cons c rest ih =>
    by_cases hc : c = sep
    · simp [cut, hc]
    · simp [cut, hc, ih, Ne.symm hc]

theorem cutLast_eq_none {sep : Char} {cs : List Char} : cutLast sep cs = none ↔ sep ∉ cs := by
  induction cs with
  | nil => simp [cutLast]
  | cons c rest ih =>
    simp only [cutLast, List.mem_cons, not_or]
    split
    next p hp => simp [mt ih.2, hp]
    next hn => by_cases hc : c = sep <;> simp_all [Ne.symm]

/-- Where none stands behind a separator, the last cut is there. -/
theorem cutLast_append {sep : Char} {before after : List Char} (h : sep ∉ after) :
    cutLast sep (before ++ sep :: after) = some (before, after) := by
  induction before with
  | nil => simp [cutLast, cutLast_eq_none.2 h]
  | cons c rest ih => simp [cutLast, ih]

end HealthMonitor.Text

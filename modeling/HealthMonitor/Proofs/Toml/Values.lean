import HealthMonitor.Proofs.Toml.Strings
import Mathlib.Data.Option.Basic

/-!
# Values of a document

What the writer puts on a line is a string, a whole number, a truth value or an empty array
(`IsPlain`), and each is read back up to the end of its line (`value?_value`). Digits are the only
ones that could be taken for something else: for a number in another base, for a date, which has a
mark behind its first digits, or for no number at all if they started with a needless zero.
-/

namespace HealthMonitor.Toml

/-! ### Digits -/

/-- Only zero is written with a zero in front. -/
theorem eq_zero_of_head?_digitsOf {n : Nat} (h : (Text.digitsOf n).head? = some '0') : n = 0 := by
  induction n using Nat.strongRecOn with
  | ind n ih =>
    by_cases hsmall : n < 10
    · rw [Text.digitsOf, Nat.toDigits_of_lt_base hsmall] at h
      have hzero : n.digitChar = '0' := Option.some.inj h
      exact (by decide : ∀ m < 10, m.digitChar = '0' → m = 0) n hsmall hzero
    · have hle : 10 ≤ n := Nat.le_of_not_lt hsmall
      have hne : Nat.toDigits 10 (n / 10) ≠ [] := Text.digitsOf_ne_nil (n / 10)
      rw [Text.digitsOf, Nat.toDigits_of_base_le (by decide) hle,
        List.head?_append_of_ne_nil _ hne] at h
      have hquotient : n / 10 = 0 := ih (n / 10) (by omega) h
      omega

/-- Decimal digits have the value that the library gives them. -/
theorem valueIn_ten {cs : List Char} (h : ∀ c ∈ cs, c.isDigit = true) (n : Nat) :
    cs.foldl (fun n c => n * 10 + (Text.hexValue? c).getD 0) n = Nat.ofDigitChars 10 cs n := by
  induction cs generalizing n with
  | nil => rfl
  | cons c cs ih =>
    obtain ⟨hc, hcs⟩ := List.forall_mem_cons.mp h
    have hvalue : Text.hexValue? c = some (c.toNat - '0'.toNat) := if_pos hc
    rw [List.foldl_cons, hvalue, Option.getD_some, ih hcs, Nat.ofDigitChars_cons, Nat.mul_comm]

theorem valueIn_digitsOf (n : Nat) : valueIn 10 (Text.digitsOf n) = n := by
  have hdigits : ∀ c ∈ Text.digitsOf n, c.isDigit = true := fun _ => Text.isDigit_of_mem_digitsOf
  rw [valueIn, valueIn_ten hdigits]
  exact Nat.ofDigitChars_toDigits (by decide) (by decide)

/-- The digits of a number have no underscores, so they are read as they stand. -/
theorem digitsOf?_digitsOf (n : Nat) :
    digitsOf? Char.isDigit (Text.digitsOf n) = some (Text.digitsOf n) := by
  have hunderscore : '_' ∉ Text.digitsOf n := Text.notMem_digitsOf (by decide)
  have hall : (Text.digitsOf n).all Char.isDigit = true :=
    List.all_eq_true.mpr fun _ => Text.isDigit_of_mem_digitsOf
  simp [digitsOf?, List.splitOn_eq_singleton hunderscore, Text.digitsOf_ne_nil, hall]

/-- The digits of a number have no needless zero in front. -/
theorem plainDigits?_digitsOf (n : Nat) :
    plainDigits? (Text.digitsOf n) = some (Text.digitsOf n) := by
  unfold plainDigits?
  split
  next => rfl
  next hne heq =>
    have hzero : n = 0 := eq_zero_of_head?_digitsOf (by rw [heq]; rfl)
    rw [hzero] at heq
    exact absurd (List.cons.inj heq).2.symm hne
  next => exact digitsOf?_digitsOf n

/-- The digits of a number within the range of integers are read as the number. -/
theorem integer?_digitsOf {n : Nat} (h : n < wholeLimit) :
    integer? (Text.digitsOf n) = some (Json.nat n) := by
  have hwhole : wholeNumber? false n = some (Json.nat n) := by
    by_cases hzero : n = 0
    · rw [hzero]
      rfl
    · simp [wholeNumber?, hzero, h]
  have hsign : splitSign (Text.digitsOf n) = (false, Text.digitsOf n) := by
    unfold splitSign
    split
    next heq => exact absurd heq (Text.digitsOf_ne_cons (by decide) _)
    next heq => exact absurd heq (Text.digitsOf_ne_cons (by decide) _)
    next => rfl
  have hbase : ∀ c rest, c.isDigit = false → Text.digitsOf n ≠ '0' :: c :: rest := by
    intro c rest hc heq
    have hmem : c ∈ Text.digitsOf n := by simp [heq]
    exact Text.notMem_digitsOf hc hmem
  unfold integer?
  split
  next heq => exact absurd heq (hbase _ _ (by decide))
  next heq => exact absurd heq (hbase _ _ (by decide))
  next heq => exact absurd heq (hbase _ _ (by decide))
  next => simp [hsign, plainDigits?_digitsOf, valueIn_digitsOf, hwhole]

/-! ### Dates -/

section Dates

variable {cs : List Char}

theorem DateTime.mark?_eq_none {m : Char} (h : m ∉ cs) : mark? m cs = none := by
  cases cs with
  | nil => rfl
  | cons c cs =>
    have hc : c ≠ m := fun heq => h (heq ▸ List.mem_cons_self)
    exact if_neg hc

/-- What a part of a date leaves is the rest of its text. -/
theorem DateTime.mem_of_part? {width low high n : Nat} {rest : List Char}
    (h : part? width low high cs = some (n, rest)) {c : Char} (hc : c ∈ rest) : c ∈ cs := by
  simp only [part?] at h
  split at h
  next =>
    obtain ⟨k, -, hk⟩ := Option.bind_eq_some_iff.mp h
    split at hk
    next =>
      obtain rfl : cs.drop width = rest := (Prod.mk.inj (Option.some.inj hk)).2
      exact List.mem_of_mem_drop hc
    next => cases hk
  next => cases h

/-- A text without the marks between their parts is neither a date nor a time. -/
theorem DateTime.parse?_eq_none (hdash : '-' ∉ cs) (hcolon : ':' ∉ cs) : parse? cs = none := by
  have hdate : date? cs = none := by
    unfold date?
    cases hpart : part? 4 0 9999 cs with
    | none => rfl
    | some p =>
      have hmark : mark? '-' p.2 = none := mark?_eq_none (mt (mem_of_part? hpart) hdash)
      simp [hmark]
  have htime : time? cs = none := by
    unfold time?
    cases hpart : part? 2 0 23 cs with
    | none => rfl
    | some p =>
      have hmark : mark? ':' p.2 = none := mark?_eq_none (mt (mem_of_part? hpart) hcolon)
      simp [hmark]
  simp [parse?, hdate, htime]

end Dates

/-! ### Words -/

/-- Digits are neither a truth value nor a date, so they are read as a number. -/
theorem word?_digitsOf {n : Nat} (h : n < wholeLimit) :
    word? (Text.digitsOf n) = some (Json.nat n) := by
  have htrue : (Text.digitsOf n == ['t', 'r', 'u', 'e']) = false :=
    beq_eq_false_iff_ne.mpr (Text.digitsOf_ne_cons (by decide) _)
  have hfalse : (Text.digitsOf n == ['f', 'a', 'l', 's', 'e']) = false :=
    beq_eq_false_iff_ne.mpr (Text.digitsOf_ne_cons (by decide) _)
  have hdate : DateTime.parse? (Text.digitsOf n) = none :=
    DateTime.parse?_eq_none (Text.notMem_digitsOf (by decide)) (Text.notMem_digitsOf (by decide))
  simp [word?, htrue, hfalse, hdate, integer?_digitsOf h]

/-- A word is read up to the end of its line. -/
theorem scalar?_word {run : List Char} {j : Json} (hrun : ∀ c ∈ run, isWordChar c = true)
    (hword : word? run = some j) (more : List Char) :
    scalar? (run ++ '\n' :: more) = some (j, '\n' :: more) := by
  have hstop : isWordChar '\n' = false := by decide
  have htake : (run ++ '\n' :: more).takeWhile isWordChar = run :=
    takeWhile_append_of_stop hrun (by simpa using hstop)
  simp [scalar?, htake, hword]

/-! ### Plain values -/

/-- A value that stands on the line of its key. -/
inductive IsPlain : Json → Prop
  | text (s : String) : IsPlain (Json.text s)
  | nat {n : Nat} (h : n < wholeLimit) : IsPlain (Json.nat n)
  | bool (b : Bool) : IsPlain (.bool b)
  | empty : IsPlain (.array [])

theorem Quoting.value? {quote : Char} {escapes : Bool} (h : Quoting quote escapes) (depth : Nat)
    (text : List Char) : value? depth (quote :: text) =
      (Toml.string? (quote :: text)).map fun p => (Json.text p.1, p.2) := by
  cases h <;> cases depth <;> rfl

theorem Quoting.isSpace {quote : Char} {escapes : Bool} (h : Quoting quote escapes) :
    isSpace quote = false := by
  cases h <;> rfl

/-- A word is a value of its own, which starts none of the others. -/
theorem value?_word {run : List Char} {j : Json} (hne : run ≠ [])
    (hrun : ∀ c ∈ run, isWordChar c = true) (hword : word? run = some j) (depth : Nat)
    (more : List Char) : value? depth (run ++ '\n' :: more) = some (j, '\n' :: more) := by
  have hfirst : ∀ c text, run ++ '\n' :: more = c :: text → isWordChar c = true :=
    fun _ _ => first_of_run hne hrun
  have hscalar : value? depth (run ++ '\n' :: more) = scalar? (run ++ '\n' :: more) := by
    cases depth with
    | zero =>
      unfold value?
      split
      next heq => exact absurd (hfirst _ _ heq) (by decide)
      next heq => exact absurd (hfirst _ _ heq) (by decide)
      next => rfl
    | succ depth =>
      unfold value?
      split
      next heq => exact absurd (hfirst _ _ heq) (by decide)
      next heq => exact absurd (hfirst _ _ heq) (by decide)
      next heq => exact absurd (hfirst _ _ heq) (by decide)
      next heq => exact absurd (hfirst _ _ heq) (by decide)
      next => rfl
  exact hscalar.trans (scalar?_word hrun hword more)

/-- **A plain value is read back, and the end of its line is left.** -/
theorem value?_value {j : Json} (h : IsPlain j) (depth : Nat) (more : List Char) :
    value? (depth + 1) (value j ++ '\n' :: more) = some (j, '\n' :: more) := by
  cases h with
  | text s =>
    have hread : string? (string s.toList ++ '\n' :: more) = some (String.ofList s.toList, _) :=
      string?_string (by simp) (by simp) s.toList
    obtain ⟨quote, escapes, text, hquote, htext⟩ := string_eq_cons s.toList
    change value? (depth + 1) (string s.toList ++ '\n' :: more) = _
    rw [htext, List.cons_append] at hread ⊢
    rw [hquote.value?, hread, Option.map_some, String.ofList_toList]
  | @nat n hn =>
    have hrun : ∀ c ∈ Text.digitsOf n, isWordChar c = true := fun c hc => by
      simp [isWordChar, Char.isAlphanum, Text.isDigit_of_mem_digitsOf hc]
    have hvalue : value (Json.nat n) = Text.digitsOf n := String.toList_ofList
    rw [hvalue]
    exact value?_word (Text.digitsOf_ne_nil n) hrun (word?_digitsOf hn) _ more
  | bool b =>
    cases b with
    | true =>
      change value? (depth + 1) (['t', 'r', 'u', 'e'] ++ '\n' :: more) = _
      exact value?_word (List.cons_ne_nil _ _) (List.all_eq_true.mp rfl) rfl _ more
    | false =>
      change value? (depth + 1) (['f', 'a', 'l', 's', 'e'] ++ '\n' :: more) = _
      exact value?_word (List.cons_ne_nil _ _) (List.all_eq_true.mp rfl) rfl _ more
  | empty => rfl

end HealthMonitor.Toml

/-!
# White space and trimming

`isBlank` is the Unicode property `White_Space`; `trim` drops the longest blank run at either end of
a text. What is left starts and ends with a character that is not blank, and trimming it again
changes nothing.
-/

namespace HealthMonitor.Text

/-- The characters of the Unicode property `White_Space`. -/
def isBlank (c : Char) : Bool :=
  let n := c.toNat
  (9 ≤ n && n ≤ 13) || n == 0x20 || n == 0x85 || n == 0xA0 || n == 0x1680
    || (0x2000 ≤ n && n ≤ 0x200A) || n == 0x2028 || n == 0x2029 || n == 0x202F || n == 0x205F
    || n == 0x3000

/-- Drops leading blanks. -/
def trimStart (cs : List Char) : List Char :=
  cs.dropWhile isBlank

/-- Drops trailing blanks. -/
def trimEnd (cs : List Char) : List Char :=
  (cs.reverse.dropWhile isBlank).reverse

/-- Drops blanks at both ends. -/
def trim (cs : List Char) : List Char :=
  trimEnd (trimStart cs)

@[simp] theorem trim_nil : trim [] = [] := rfl

/-- A text without blanks at its two ends is its own trimmed form. -/
theorem trim_eq_self {cs : List Char} (hfirst : ∀ c ∈ cs.head?, isBlank c = false)
    (hlast : ∀ c ∈ cs.getLast?, isBlank c = false) : trim cs = cs := by
  have hs : trimStart cs = cs := by
    cases cs with
    | nil => rfl
    | cons c rest =>
      have hc : isBlank c = false := hfirst c (by simp)
      simp [trimStart, hc]
  rw [trim, hs, trimEnd]
  cases hr : cs.reverse with
  | nil => simp_all
  | cons c rest =>
    have hc : isBlank c = false := hlast c (by rw [List.getLast?_eq_head?_reverse, hr]; simp)
    rw [List.dropWhile_cons, if_neg (by simp [hc]), ← hr, List.reverse_reverse]

end HealthMonitor.Text

/-!
# Decimal numerals

Whole numbers written in ASCII digits. `natural?` reads an unsigned numeral below a limit, with an
optional plus sign and any number of leading zeros; `integer?` reads a signed one. `digitsOf` writes
a number, and reading what it writes gives the number back (`natural?_digitsOf`).
-/

namespace HealthMonitor.Text

/-- The value of a text of one or more ASCII digits. -/
def digits? (cs : List Char) : Option Nat :=
  if !cs.isEmpty && cs.all Char.isDigit then some (Nat.ofDigitChars 10 cs 0) else none

/-- An unsigned numeral below `limit`: an optional plus sign, then digits. -/
def natural? (limit : Nat) (cs : List Char) : Option Nat :=
  let body := match cs with
    | '+' :: rest => rest
    | _ => cs
  (digits? body).bind fun n => if n < limit then some n else none

/-- A signed numeral from `-limit` to `limit - 1`: an optional sign, then digits. -/
def integer? (limit : Nat) (cs : List Char) : Option Int :=
  match cs with
  | '-' :: rest => (digits? rest).bind fun n => if n ≤ limit then some (-(n : Int)) else none
  | _ => (natural? limit cs).map Int.ofNat

/-- The decimal digits of `n`, without leading zeros. -/
def digitsOf (n : Nat) : List Char :=
  Nat.toDigits 10 n

/-- `n` with at least `width` digits, filled up with zeros in front. -/
def padded (width n : Nat) : List Char :=
  List.replicate (width - (digitsOf n).length) '0' ++ digitsOf n

/-- The value of a hexadecimal digit of either case. -/
def hexValue? (c : Char) : Option Nat :=
  if c.isDigit then some (c.toNat - '0'.toNat)
  else if 'a' ≤ c && c ≤ 'f' then some (c.toNat - 'a'.toNat + 10)
  else if 'A' ≤ c && c ≤ 'F' then some (c.toNat - 'A'.toNat + 10)
  else none

/-! ### Classes of characters -/

/-- A class tells two characters apart. -/
theorem ne_of_class {p : Char → Bool} {c d : Char} (hc : p c = true) (hd : p d = false) :
    c ≠ d := by
  rintro rfl
  rw [hc] at hd
  cases hd

theorem toNat_of_isDigit {c : Char} (h : c.isDigit = true) : 48 ≤ c.toNat ∧ c.toNat ≤ 57 := by
  simpa [Char.isDigit, UInt32.le_iff_toNat_le] using h

/-! ### Reading what was written -/

theorem isDigit_of_mem_digitsOf {n : Nat} {c : Char} (h : c ∈ digitsOf n) : c.isDigit = true :=
  Nat.isDigit_of_mem_toDigits (by decide) (by decide) h

theorem digitsOf_ne_nil (n : Nat) : digitsOf n ≠ [] := by
  intro h
  have hv : Nat.ofDigitChars 10 (digitsOf n) 0 = n :=
    Nat.ofDigitChars_toDigits (by decide) (by decide)
  have h0 : n = 0 := by rw [h] at hv; exact hv.symm
  rw [h0] at h
  exact absurd h (by decide)

/-- The digits of a number are read back. -/
theorem digits?_digitsOf (n : Nat) : digits? (digitsOf n) = some n := by
  have hall : (digitsOf n).all Char.isDigit = true :=
    List.all_eq_true.2 fun _ hc => isDigit_of_mem_digitsOf hc
  have hne : (digitsOf n).isEmpty = false := by simp [digitsOf_ne_nil]
  have hv : Nat.ofDigitChars 10 (digitsOf n) 0 = n :=
    Nat.ofDigitChars_toDigits (by decide) (by decide)
  simp [digits?, hall, hne, hv]

theorem notMem_digitsOf {n : Nat} {c : Char} (h : c.isDigit = false) : c ∉ digitsOf n := fun hc =>
  ne_of_class (isDigit_of_mem_digitsOf hc) h rfl

theorem digitsOf_ne_cons {n : Nat} {c : Char} (h : c.isDigit = false) (rest : List Char) :
    digitsOf n ≠ c :: rest := fun hn =>
  notMem_digitsOf h (hn ▸ List.mem_cons_self)

theorem natural?_digitsOf {limit n : Nat} (h : n < limit) :
    natural? limit (digitsOf n) = some n := by
  unfold natural?
  split
  next rest hr => exact absurd hr (digitsOf_ne_cons (by decide) rest)
  next => simp [digits?_digitsOf, h]

theorem integer?_digitsOf {limit n : Nat} (h : n < limit) :
    integer? limit (digitsOf n) = some (n : Int) := by
  unfold integer?
  split
  next rest hr => exact absurd hr (digitsOf_ne_cons (by decide) rest)
  next => rw [natural?_digitsOf h]; rfl

/-- Different numbers have different digits. -/
theorem digitsOf_inj {m n : Nat} : digitsOf m = digitsOf n ↔ m = n := by
  refine ⟨fun h => ?_, congrArg digitsOf⟩
  have hdigits := digits?_digitsOf m
  rw [h, digits?_digitsOf] at hdigits
  exact (Option.some.inj hdigits).symm

end HealthMonitor.Text

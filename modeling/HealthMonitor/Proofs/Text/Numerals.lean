import HealthMonitor.Text.Numeral
import Mathlib.Tactic.Common

/-!
# Numerals

What the readers of whole numbers take: one or more digits, whose value counts and not how many
zeros they start with, and in front of them a sign where the reader allows one (`IsDecimal`,
`IsSigned`). A text has one value only.
-/

namespace HealthMonitor.Text

/-- A text is the digits of a number, perhaps behind zeros. -/
def IsDecimal (cs : List Char) (n : Nat) : Prop :=
  cs ≠ [] ∧ (∀ c ∈ cs, c.isDigit) ∧ Nat.ofDigitChars 10 cs 0 = n

theorem digits?_eq_some_iff {cs : List Char} {n : Nat} :
    digits? cs = some n ↔ IsDecimal cs n := by
  simp [digits?, IsDecimal, and_assoc]

instance (cs : List Char) (n : Nat) : Decidable (IsDecimal cs n) :=
  decidable_of_iff _ digits?_eq_some_iff

/-- A sign is no digit. -/
theorem digits?_cons_eq_none {c : Char} (h : c.isDigit = false) (cs : List Char) :
    digits? (c :: cs) = none := by
  simp [digits?, h]

/-- **A numeral has digits, and a plus sign at most.** -/
theorem natural?_eq_some_iff {limit n : Nat} {cs : List Char} :
    natural? limit cs = some n ↔
      n < limit ∧ ∃ digits, (cs = digits ∨ cs = '+' :: digits) ∧ IsDecimal digits n := by
  have hbody (body : List Char) :
      ((digits? body).bind fun m => if m < limit then some m else none) = some n ↔
        n < limit ∧ digits? body = some n := by
    cases digits? body with
    | none => simp
    | some m =>
      simp only [Option.bind_some, Option.ite_none_right_eq_some, Option.some.injEq]
      constructor <;> (rintro ⟨h, rfl⟩; exact ⟨h, rfl⟩)
  unfold natural?
  simp only [hbody, ← digits?_eq_some_iff]
  refine and_congr_right fun _ => ?_
  split
  next rest =>
    -- a plus sign is no digit, so the text behind it is the numeral
    have hsigned : digits? ('+' :: rest) = none := digits?_cons_eq_none (by decide) rest
    constructor
    · exact fun h => ⟨rest, Or.inr rfl, h⟩
    · rintro ⟨digits, rfl | hrest, h⟩
      · rw [hsigned] at h
        cases h
      · rwa [(List.cons.inj hrest).2]
  next hplain =>
    constructor
    · exact fun h => ⟨cs, Or.inl rfl, h⟩
    · rintro ⟨digits, rfl | rfl, h⟩
      · exact h
      · exact absurd rfl (hplain digits)

/-! ### Signs -/

/-- A text is the digits of a whole number, perhaps with a sign in front of them. -/
inductive IsSigned : List Char → Int → Prop where
  | plain {cs : List Char} {n : Nat} (digits : IsDecimal cs n) : IsSigned cs n
  | plus {cs : List Char} {n : Nat} (digits : IsDecimal cs n) : IsSigned ('+' :: cs) n
  | minus {cs : List Char} {n : Nat} (digits : IsDecimal cs n) : IsSigned ('-' :: cs) (-n)

/-- A signed numeral without a sign has digits only. -/
theorem IsSigned.isDecimal {cs : List Char} {n : Nat} (h : IsSigned cs n)
    (digits : ∀ c ∈ cs, c.isDigit) : IsDecimal cs n := by
  generalize hm : (n : Int) = m at h
  cases h with
  | plain decimal => exact Int.ofNat_inj.mp hm ▸ decimal
  | plus => exact absurd (digits '+' List.mem_cons_self) (by decide)
  | minus => exact absurd (digits '-' List.mem_cons_self) (by decide)

/-- **A signed numeral is read if its number is in range.** -/
theorem integer?_eq_some_iff {limit : Nat} (positive : 0 < limit) {cs : List Char} {n : Int} :
    integer? limit cs = some n ↔ IsSigned cs n ∧ -limit ≤ n ∧ n < limit := by
  constructor
  · intro h
    unfold integer? at h
    split at h
    next rest =>
      obtain ⟨m, hm, h⟩ := Option.bind_eq_some_iff.mp h
      obtain ⟨hle, rfl⟩ : m ≤ limit ∧ -(m : Int) = n := by simpa using h
      exact ⟨.minus (digits?_eq_some_iff.mp hm), by omega, by omega⟩
    next =>
      obtain ⟨m, hm, rfl⟩ := Option.map_eq_some_iff.mp h
      obtain ⟨hlt, digits, hcs, hdigits⟩ := natural?_eq_some_iff.mp hm
      have hrange : -(limit : Int) ≤ Int.ofNat m ∧ Int.ofNat m < limit := by
        rw [Int.ofNat_eq_natCast]
        omega
      rcases hcs with rfl | rfl
      · exact ⟨.plain hdigits, hrange⟩
      · exact ⟨.plus hdigits, hrange⟩
  · rintro ⟨signed, hleast, hgreatest⟩
    cases signed with
    | @plain cs m digits =>
      have hm : natural? limit cs = some m :=
        natural?_eq_some_iff.mpr ⟨by omega, cs, Or.inl rfl, digits⟩
      unfold integer?
      split
      next rest =>
        rw [← digits?_eq_some_iff, digits?_cons_eq_none (by decide)] at digits
        cases digits
      next => rw [hm]; rfl
    | @plus cs m digits =>
      have hm : natural? limit ('+' :: cs) = some m :=
        natural?_eq_some_iff.mpr ⟨by omega, cs, Or.inr rfl, digits⟩
      exact congrArg (Option.map Int.ofNat) hm
    | @minus cs m digits =>
      have hle : m ≤ limit := by omega
      simp [integer?, digits?_eq_some_iff.mpr digits, hle]

end HealthMonitor.Text

import HealthMonitor.Number.Shortest

/-!
# Doubles as decimal text

A double is a sign, a whole number and a power of two (`Binary64.parts?`). `Binary64.decimal?` is
its shortest decimal, and a `Style` says how a format lays such a decimal out: how far it goes
without an exponent, and whether whole numbers keep a decimal point. The other way,
`Binary64.ofDecimal` is the double nearest to a decimal, and `Binary64.roundScaled?` counts units
in a double, a tie going to the even count.
-/

namespace HealthMonitor.Binary64

/-- A finite double: `mantissa * 2 ^ exponent`, negated when `negative`. -/
structure Parts where
  negative : Bool
  mantissa : Nat
  exponent : Int
  deriving DecidableEq, Repr

/-- The top bit of a mantissa, which is not written down. -/
def hiddenBit : Nat := Nat.pow 2 52

/-- The parts of a finite double. -/
def parts? (x : Float) : Option Parts :=
  let bits := x.toBits.toNat
  let negative := decide (Nat.pow 2 63 ≤ bits)
  let field := bits / hiddenBit % 2048
  let low := bits % hiddenBit
  if field = 2047 then none
  else if field = 0 then some ⟨negative, low, -1074⟩
  else some ⟨negative, low + hiddenBit, Int.ofNat field - 1075⟩

/-- The shortest decimal of a finite double's magnitude; zero has the digits `0`. -/
def Parts.decimal (p : Parts) : Shortest.Decimal :=
  if p.mantissa = 0 then ⟨0, 0⟩
  else Shortest.shortest p.mantissa p.exponent
    (p.mantissa = hiddenBit && decide (-1074 < p.exponent))

/-- How a format writes a decimal. Let `point` be the number of digits before the decimal point. -/
structure Style where
  /-- Written without an exponent when `point` is at least this, if there is a bound. -/
  leastPoint : Option Int
  /-- Written without an exponent when `point` is at most this, if there is a bound. -/
  greatestPoint : Option Int
  /-- Whole numbers end in `.0`. -/
  keepsPoint : Bool

/-- Whether a style writes a decimal with `point` digits before its point without an exponent. -/
def Style.positional (s : Style) (point : Int) : Bool :=
  s.leastPoint.all (fun l => decide (l ≤ point))
    && s.greatestPoint.all (fun g => decide (point ≤ g))

/-- The text of a decimal in a style. -/
def Style.write (s : Style) (d : Shortest.Decimal) : List Char :=
  let ds := Nat.toDigits 10 d.digits
  let point : Int := ds.length + d.exponent
  if s.positional point then
    if 0 ≤ d.exponent then
      ds ++ List.replicate d.exponent.toNat '0' ++ (if s.keepsPoint then ['.', '0'] else [])
    else if 0 < point then ds.take point.toNat ++ '.' :: ds.drop point.toNat
    else ['0', '.'] ++ List.replicate (-point).toNat '0' ++ ds
  else
    let sign := if point - 1 < 0 then ['-'] else []
    let tail := match ds.drop 1 with
      | [] => []
      | rest => '.' :: rest
    ds.take 1 ++ tail ++ ['e'] ++ sign ++ Nat.toDigits 10 (point - 1).natAbs

/-- A finite double in a style, with a minus sign when it is negative or negative zero. -/
def Style.text? (s : Style) (x : Float) : Option (List Char) :=
  (parts? x).map fun p => (if p.negative then ['-'] else []) ++ s.write p.decimal

/-! ### From decimals -/

/-- No decimal from this power of ten on is finite, and none below its negative is above zero. -/
def decimalLimit : Int := 400

/-- The double nearest to `digits * 10 ^ exponent`; nothing when it is beyond the finite ones. -/
def ofDecimal? (negative : Bool) (digits : Nat) (exponent : Int) : Option Float :=
  let point : Int := (Nat.toDigits 10 digits).length + exponent
  let magnitude : Option Float :=
    if digits = 0 || point < -decimalLimit then some 0.0
    else if decimalLimit < point then none
    else
      let x := Float.ofScientific digits (decide (exponent < 0)) exponent.natAbs
      if x.isFinite then some x else none
  magnitude.map fun x => if negative then -x else x

/-- The whole number nearest to `num / den`; a tie goes to the even one. -/
def nearest (num den : Nat) : Nat :=
  let low := num / den
  let rest := 2 * (num % den)
  if rest < den || (rest = den && low % 2 = 0) then low else low + 1

/-- How many units of `1 / scale` are nearest to a double that is not below zero. -/
def roundScaled? (scale : Nat) (x : Float) : Option Nat :=
  match parts? x with
  | none => none
  | some p =>
    if p.negative && p.mantissa != 0 then none
    else
      some (nearest (p.mantissa * Nat.pow 2 p.exponent.toNat * scale)
        (Nat.pow 2 (-p.exponent).toNat))

end HealthMonitor.Binary64

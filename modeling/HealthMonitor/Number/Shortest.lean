/-!
# Shortest decimals

A positive binary fraction `m * 2 ^ q` stands for every real that rounds to it. `shortest` gives the
decimal with the fewest digits among those reals, and the nearest to the value among the decimals
with that many. Everything is decided in whole-number arithmetic: on the grid of `n` digits only the
two neighbours of the value can be nearest, and the first grid with a neighbour inside wins.
-/

namespace HealthMonitor.Shortest

/-- The number `digits * 10 ^ exponent`. -/
structure Decimal where
  digits : Nat
  exponent : Int
  deriving DecidableEq, Repr

/-- The reals that round to a binary fraction, with all three numbers multiplied by a common
denominator: the least, the value itself, the greatest, and whether the ends count. -/
structure Interval where
  least : Nat
  value : Nat
  greatest : Nat
  denominator : Nat
  closed : Bool
  deriving DecidableEq, Repr

/-- The interval of `m * 2 ^ q`. The gap below the value is half of the gap above when
`narrowBelow` holds. -/
def interval (m : Nat) (q : Int) (narrowBelow : Bool) : Interval :=
  let up := Nat.pow 2 (q - 2).toNat
  let down := Nat.pow 2 (2 - q).toNat
  let below := if narrowBelow then 1 else 2
  ⟨(4 * m - below) * up, 4 * m * up, (4 * m + 2) * up, down, m % 2 = 0⟩

/-- Whether `num / den` lies in the interval. -/
def Interval.holds (i : Interval) (num den : Nat) : Bool :=
  let x := num * i.denominator
  if i.closed then i.least * den ≤ x && x ≤ i.greatest * den
  else i.least * den < x && x < i.greatest * den

/-- The distance of `num / den` from the value, in units of the common denominator. -/
def Interval.distance (i : Interval) (num den : Nat) : Nat :=
  let x := num * i.denominator
  let v := i.value * den
  if x ≤ v then v - x else x - v

/-- The power of ten of the first digit of `num / den`. -/
def leading (num den : Nat) : Int :=
  if den ≤ num then ((Nat.toDigits 10 (num / den)).length : Int) - 1
  else -((Nat.toDigits 10 (den / num)).length : Int)

/-- The best decimal of the grid `10 ^ k`, if one of the value's two neighbours on it lies inside;
of two at the same distance the even one. -/
def onGrid? (i : Interval) (k : Int) : Option Decimal :=
  let up := Nat.pow 10 k.toNat
  let down := Nat.pow 10 (-k).toNat
  let low := i.value * down / (i.denominator * up)
  let inside := [low, low + 1].filter fun d => d != 0 && i.holds (d * up) down
  match inside with
  | [] => none
  | [d] => some ⟨d, k⟩
  | d :: e :: _ =>
    let near := i.distance (d * up) down
    let far := i.distance (e * up) down
    if near < far || (near = far && d % 2 = 0) then some ⟨d, k⟩ else some ⟨e, k⟩

/-- Tries grids of ever more digits, `fuel` of them, from the grid `10 ^ k` on. -/
def search (i : Interval) (k : Int) : Nat → Decimal
  | 0 => ⟨i.value / i.denominator, 0⟩
  | fuel + 1 =>
    match onGrid? i k with
    | some d => d
    | none => search i (k - 1) fuel

/-- Moves trailing zeros of the digits into the exponent, at most `fuel` of them. -/
def strip (d : Decimal) : Nat → Decimal
  | 0 => d
  | fuel + 1 =>
    if d.digits != 0 && d.digits % 10 = 0 then strip ⟨d.digits / 10, d.exponent + 1⟩ fuel else d

/-- No double needs more digits than this to read back. -/
def enough : Nat := 17

/-- The shortest decimal that rounds to `m * 2 ^ q`, for `m` above zero. -/
def shortest (m : Nat) (q : Int) (narrowBelow : Bool) : Decimal :=
  let i := interval m q narrowBelow
  strip (search i (leading i.value i.denominator) enough) enough

end HealthMonitor.Shortest

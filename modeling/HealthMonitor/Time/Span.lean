import HealthMonitor.Text.Blank
import HealthMonitor.Text.Numeral

/-!
# Lengths of time

A `Span` is a whole number of nanoseconds. `Span.text` writes one in the largest unit that it
reaches, with as many decimals as it needs; `Span.parse?` reads the short forms of a
configuration, a whole number followed by a unit. Reading is exact: a numeral that does not fit is
refused, never wrapped.
-/

namespace HealthMonitor

/-- A length of time in nanoseconds. -/
structure Span where
  nanos : Nat
  deriving DecidableEq, Repr, Inhabited

namespace Span

def ofMillis (n : Nat) : Span := ⟨n * 1000000⟩

def ofSeconds (n : Nat) : Span := ⟨n * 1000000000⟩

def ofMinutes (n : Nat) : Span := ofSeconds (60 * n)

def zero : Span := ⟨0⟩

instance : LT Span := ⟨fun a b => a.nanos < b.nanos⟩

instance : LE Span := ⟨fun a b => a.nanos ≤ b.nanos⟩

instance (a b : Span) : Decidable (a < b) := inferInstanceAs (Decidable (a.nanos < b.nanos))

instance (a b : Span) : Decidable (a ≤ b) := inferInstanceAs (Decidable (a.nanos ≤ b.nanos))

/-- A span in seconds, as a double: whole seconds and the fraction of one, added up. -/
def seconds (s : Span) : Float :=
  Float.ofNat (s.nanos / 1000000000) + Float.ofNat (s.nanos % 1000000000) / 1000000000.0

/-! ### Text -/

/-- A decimal fraction of `places` digits without its trailing zeros, after its point. -/
def fraction (places n : Nat) : List Char :=
  let digits := ((Text.padded places n).reverse.dropWhile (· == '0')).reverse
  if digits.isEmpty then [] else '.' :: digits

/-- `n / 10 ^ places` in decimal, with as many decimals as it needs. -/
def decimal (places n : Nat) : List Char :=
  let unit := Nat.pow 10 places
  Text.digitsOf (n / unit) ++ (if n % unit = 0 then [] else fraction places (n % unit))

/-- A span in seconds, milliseconds, microseconds or nanoseconds, the largest unit that it
reaches. -/
def text (s : Span) : String :=
  String.ofList <|
    if 1000000000 ≤ s.nanos then decimal 9 s.nanos ++ ['s']
    else if 1000000 ≤ s.nanos then decimal 6 s.nanos ++ ['m', 's']
    else if 1000 ≤ s.nanos then decimal 3 s.nanos ++ ['µ', 's']
    else decimal 0 s.nanos ++ ['n', 's']

/-! ### Reading -/

/-- The scales of a configured span. -/
inductive Scale where
  | minutes
  | seconds
  | millis
  deriving DecidableEq, Repr

/-- `n` units of a scale. -/
def ofScale : Scale → Nat → Span
  | .minutes, n => ofMinutes n
  | .seconds, n => ofSeconds n
  | .millis, n => ofMillis n

/-- Splits the scale off the end of a text; a text without one counts seconds. -/
def splitScale (cs : List Char) : List Char × Scale :=
  match cs.reverse with
  | 's' :: 'm' :: rest => (rest.reverse, .millis)
  | 's' :: rest => (rest.reverse, .seconds)
  | 'm' :: rest => (rest.reverse, .minutes)
  | _ => (cs, .seconds)

/-- Counts of seconds and of milliseconds stay below this. -/
def countLimit : Nat := Nat.pow 2 64

/-- A count on a scale as a span, when it stays below the limit in seconds or milliseconds. -/
def ofCount? (scale : Scale) (n : Nat) : Option Span :=
  let count := match scale with
    | .minutes => 60 * n
    | _ => n
  if count < countLimit then some (ofScale scale n) else none

/-- Reads a whole number and a unit, with blanks around them. -/
def parse? (s : String) : Option Span :=
  let (digits, scale) := splitScale (Text.trim s.toList)
  (Text.natural? countLimit digits).bind (ofCount? scale)

end Span

end HealthMonitor

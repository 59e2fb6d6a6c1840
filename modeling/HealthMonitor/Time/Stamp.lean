import HealthMonitor.Text.Blank
import HealthMonitor.Text.Numeral

/-!
# Time stamps

A `Stamp` is an instant of the proleptic Gregorian calendar in universal time, to the nanosecond; a
leap second is the second 59 of its minute with a thousand million nanoseconds more. `Stamp.text`
writes the profile of RFC 3339 with `Z` and as many groups of three decimals as the instant needs.
`Stamp.parse?` reads that profile with some freedom: blanks before the parts, years of other lengths
behind a sign, and an offset, which is subtracted.
-/

namespace HealthMonitor

/-- An instant: seconds from the start of 1970, and nanoseconds after that second. -/
structure Stamp where
  seconds : Int
  nanos : Nat
  deriving DecidableEq, Repr, Inhabited

namespace Stamp

/-! ### Calendar -/

/-- Years are counted in eras of four hundred, each of this many days. -/
def daysPerEra : Int := 146097

/-- The days from the start of 1970 to a date. Years start in March here, so that a leap day is the
last of its year. -/
def daysOf (year : Int) (month day : Nat) : Int :=
  let y := if month ≤ 2 then year - 1 else year
  let era := y.fdiv 400
  let yearOfEra := y - era * 400
  let m : Int := if month ≤ 2 then month + 9 else (month : Int) - 3
  let dayOfYear := (153 * m + 2) / 5 + day - 1
  let dayOfEra := yearOfEra * 365 + yearOfEra / 4 - yearOfEra / 100 + dayOfYear
  era * daysPerEra + dayOfEra - 719468

/-- A calendar date. -/
structure Date where
  year : Int
  month : Nat
  day : Nat
  deriving DecidableEq, Repr

/-- The date that lies `days` after the start of 1970. -/
def dateOf (days : Int) : Date :=
  let z := days + 719468
  let era := z.fdiv daysPerEra
  let dayOfEra := z - era * daysPerEra
  let yearOfEra := (dayOfEra - dayOfEra / 1460 + dayOfEra / 36524 - dayOfEra / 146096) / 365
  let dayOfYear := dayOfEra - (365 * yearOfEra + yearOfEra / 4 - yearOfEra / 100)
  let m := (5 * dayOfYear + 2) / 153
  let day := dayOfYear - (153 * m + 2) / 5 + 1
  let month := if m < 10 then m + 3 else m - 9
  let year := yearOfEra + era * 400 + (if month ≤ 2 then 1 else 0)
  ⟨year, month.toNat, day.toNat⟩

def isLeap (year : Int) : Bool :=
  year % 4 = 0 && (year % 100 != 0 || year % 400 = 0)

/-- The number of days of a month, from 1 to 12. -/
def monthLength (year : Int) (month : Nat) : Nat :=
  if month = 2 then (if isLeap year then 29 else 28)
  else if month = 4 || month = 6 || month = 9 || month = 11 then 30
  else 31

/-- The first and the last year that a stamp can lie in. -/
def leastYear : Int := -262143

def greatestYear : Int := 262142

/-- Whether a second lies in a year that stamps reach. -/
def inRange (seconds : Int) : Bool :=
  decide (daysOf leastYear 1 1 * 86400 ≤ seconds)
    && decide (seconds < (daysOf greatestYear 12 31 + 1) * 86400)

/-! ### Writing -/

/-- A year in four digits; one outside 0 to 9999 has a sign and at least four digits. -/
def yearText (year : Int) : List Char :=
  if 0 ≤ year && year ≤ 9999 then Text.padded 4 year.toNat
  else (if year < 0 then '-' else '+') :: Text.padded 4 year.natAbs

/-- Nanoseconds in no, three, six or nine decimals. -/
def fractionText (nanos : Nat) : List Char :=
  if nanos = 0 then []
  else if nanos % 1000000 = 0 then '.' :: Text.padded 3 (nanos / 1000000)
  else if nanos % 1000 = 0 then '.' :: Text.padded 6 (nanos / 1000)
  else '.' :: Text.padded 9 nanos

/-- A stamp in RFC 3339, in universal time. -/
def text (s : Stamp) : String :=
  let days := s.seconds.fdiv 86400
  let rest := (s.seconds - days * 86400).toNat
  let date := dateOf days
  let leap := decide (1000000000 ≤ s.nanos)
  let second := rest % 60 + (if leap then 1 else 0)
  let nanos := if leap then s.nanos - 1000000000 else s.nanos
  String.ofList <|
    yearText date.year ++ '-' :: Text.padded 2 date.month ++ '-' :: Text.padded 2 date.day
      ++ 'T' :: Text.padded 2 (rest / 3600) ++ ':' :: Text.padded 2 (rest / 60 % 60)
      ++ ':' :: Text.padded 2 second ++ fractionText nanos ++ ['Z']

/-! ### Reading -/

/-- A reader of the front of a text: a value and the rest. -/
abbrev Reader (α : Type) := List Char → Option (α × List Char)

/-- One to `width` digits as a number, or as many as there are when no width is given. -/
def digits? (width : Option Nat) : Reader Nat := fun cs =>
  let run := cs.takeWhile Char.isDigit
  let taken := match width with
    | some w => run.take w
    | none => run
  (Text.digits? taken).map fun n => (n, cs.drop taken.length)

/-- A number of at most two digits in a range, after blanks. -/
def field? (low high : Nat) : Reader Nat := fun cs =>
  match digits? (some 2) (Text.trimStart cs) with
  | some (n, rest) => if low ≤ n && n ≤ high then some (n, rest) else none
  | none => none

/-- Years have at most four digits unless a sign stands in front. -/
def year? : Reader Int := fun cs =>
  match Text.trimStart cs with
  | '-' :: rest => (digits? none rest).map fun p => (-(p.1 : Int), p.2)
  | '+' :: rest => (digits? none rest).map fun p => ((p.1 : Int), p.2)
  | rest => (digits? (some 4) rest).map fun p => ((p.1 : Int), p.2)

/-- A separator, after blanks. -/
def mark? (c : Char) (cs : List Char) : Option (List Char) :=
  match Text.trimStart cs with
  | d :: rest => if d = c then some rest else none
  | [] => none

/-- Decimals of a second as nanoseconds; digits after the ninth are dropped. -/
def decimals? : Reader Nat := fun cs =>
  match cs with
  | '.' :: rest =>
    (digits? (some 9) rest).map fun p =>
      let used := rest.length - p.2.length
      (p.1 * Nat.pow 10 (9 - used), p.2.dropWhile Char.isDigit)
  | _ => some (0, cs)

/-- Two digits as a number, the first at most `high`. -/
def pair? (high : Nat) : Reader Nat := fun cs =>
  match cs with
  | a :: b :: rest =>
    if a.isDigit && b.isDigit && a.toNat - '0'.toNat ≤ high then
      some (10 * (a.toNat - '0'.toNat) + (b.toNat - '0'.toNat), rest)
    else none
  | _ => none

/-- The signs of an offset; `true` for the two minus signs. -/
def sign? : Reader Bool := fun cs =>
  match cs with
  | '+' :: rest => some (false, rest)
  | '-' :: rest => some (true, rest)
  | '\u2212' :: rest => some (true, rest)
  | _ => none

/-- An offset from universal time in seconds: `Z`, `UTC`, or hours and minutes behind a sign. -/
def offset? : Reader Int := fun cs =>
  match cs.map Char.toLower with
  | 'u' :: 't' :: 'c' :: _ => some (0, cs.drop 3)
  | 'z' :: _ => some (0, cs.drop 1)
  | _ => do
    let (negative, rest) ← sign? cs
    let (hours, rest) ← pair? 9 rest
    let (minutes, rest) ← pair? 5 (rest.dropWhile fun c => c == ':' || Text.isBlank c)
    let seconds : Int := (hours * 3600 + minutes * 60 : Nat)
    some (if negative then -seconds else seconds, rest)

/-- The letter or blank between the date and the time. -/
def joint? (cs : List Char) : Option (List Char) :=
  match cs with
  | c :: rest => if c = 't' || c = 'T' || c = ' ' then some rest else none
  | [] => none

/-- Reads a date, a time and an offset, with nothing but blanks behind them. -/
def parse? (s : String) : Option Stamp := do
  let (year, cs) ← year? s.toList
  let (month, cs) ← field? 1 12 (← mark? '-' cs)
  let (day, cs) ← field? 1 31 (← mark? '-' cs)
  let (hour, cs) ← field? 0 23 (← joint? cs)
  let (minute, cs) ← field? 0 59 (← mark? ':' cs)
  let (second, cs) ← field? 0 60 (← mark? ':' cs)
  let (nanos, cs) ← decimals? cs
  let (offset, cs) ← offset? (Text.trimStart cs)
  guard (Text.trimStart cs).isEmpty
  guard (leastYear ≤ year && year ≤ greatestYear && day ≤ monthLength year month)
  guard (decide (offset.natAbs < 86400))
  let leap := decide (second = 60)
  let clock : Int := (hour * 3600 + minute * 60 + (if leap then 59 else second) : Nat)
  let seconds := daysOf year month day * 86400 + clock - offset
  guard (inRange seconds)
  some ⟨seconds, nanos + (if leap then 1000000000 else 0)⟩

end Stamp

end HealthMonitor

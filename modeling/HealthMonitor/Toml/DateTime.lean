import HealthMonitor.Time.Stamp

/-!
# Dates and times in TOML

A `DateTime` is a date, a time of day, or both, with or without an offset from universal time.
`DateTime.parse?` reads any of its spellings, and `DateTime.text` writes the usual one: `T` between
date and time, decimals of a second without zeros at their end, and at most nine of them.
-/

namespace HealthMonitor.Toml

/-- A time of day; a minute may have a sixty-first second. -/
structure TimeOfDay where
  hour : Nat
  minute : Nat
  second : Nat
  nanos : Nat
  deriving DecidableEq, Repr

/-- How far a time is from universal time. -/
inductive Offset where
  | universal
  | minutes (count : Int)
  deriving DecidableEq, Repr

/-- A date, a time, or both. -/
structure DateTime where
  date : Option Stamp.Date
  time : Option TimeOfDay
  offset : Option Offset
  deriving DecidableEq, Repr

namespace DateTime

/-! ### Reading -/

/-- A number of exactly `width` digits within a range, and the rest. -/
def part? (width low high : Nat) (cs : List Char) : Option (Nat × List Char) :=
  let ds := cs.take width
  if ds.length = width then
    (Text.digits? ds).bind fun n => if low ≤ n && n ≤ high then some (n, cs.drop width) else none
  else none

/-- What follows a character. -/
def mark? (c : Char) (cs : List Char) : Option (List Char) :=
  match cs with
  | d :: rest => if d = c then some rest else none
  | [] => none

/-- A date of the calendar at the front of a text, and the rest. -/
def date? (cs : List Char) : Option (Stamp.Date × List Char) := do
  let (year, cs) ← part? 4 0 9999 cs
  let (month, cs) ← part? 2 1 12 (← mark? '-' cs)
  let (day, cs) ← part? 2 1 31 (← mark? '-' cs)
  guard (day ≤ Stamp.monthLength year month)
  some (⟨year, month, day⟩, cs)

/-- How many decimals of a second count. -/
def precision : Nat := 9

/-- The nanoseconds of decimals of a second; those beyond the precision are cut off. -/
def nanosOf (decimals : List Char) : Nat :=
  let kept := decimals.take precision
  Nat.ofDigitChars 10 kept 0 * Nat.pow 10 (precision - kept.length)

/-- A time of day at the front of a text, and the rest. -/
def time? (cs : List Char) : Option (TimeOfDay × List Char) := do
  let (hour, cs) ← part? 2 0 23 cs
  let (minute, cs) ← part? 2 0 59 (← mark? ':' cs)
  let (second, cs) ← part? 2 0 60 (← mark? ':' cs)
  match cs with
  | '.' :: rest =>
    let run := rest.takeWhile Char.isDigit
    guard !run.isEmpty
    some (⟨hour, minute, second, nanosOf run⟩, rest.drop run.length)
  | _ => some (⟨hour, minute, second, 0⟩, cs)

/-- A whole text as an offset from universal time. -/
def offset? (cs : List Char) : Option Offset :=
  match cs with
  | ['Z'] | ['z'] => some .universal
  | c :: rest => do
    guard (c == '+' || c == '-')
    let (hours, cs) ← part? 2 0 23 rest
    let (minutes, cs) ← part? 2 0 59 (← mark? ':' cs)
    guard cs.isEmpty
    let count : Int := hours * 60 + minutes
    some (.minutes (if c = '-' then -count else count))
  | [] => none

/-- Whether a character stands between a date and a time. -/
def isDelimiter (c : Char) : Bool :=
  c == 'T' || c == 't' || c == ' '

/-- A whole text as a date, a time, or both with or without an offset. -/
def parse? (cs : List Char) : Option DateTime :=
  match date? cs with
  | some (date, []) => some ⟨some date, none, none⟩
  | some (date, c :: rest) => do
    guard (isDelimiter c)
    let (time, rest) ← time? rest
    if rest.isEmpty then some ⟨some date, some time, none⟩
    else
      let offset ← offset? rest
      some ⟨some date, some time, some offset⟩
  | none => do
    let (time, rest) ← time? cs
    guard rest.isEmpty
    some ⟨none, some time, none⟩

/-! ### Writing -/

def dateText (d : Stamp.Date) : List Char :=
  Text.padded 4 d.year.toNat ++ '-' :: Text.padded 2 d.month ++ '-' :: Text.padded 2 d.day

/-- Decimals without zeros at their end. -/
def trimmed (decimals : List Char) : List Char :=
  (decimals.reverse.dropWhile (· == '0')).reverse

def timeText (t : TimeOfDay) : List Char :=
  Text.padded 2 t.hour ++ ':' :: Text.padded 2 t.minute ++ ':' :: Text.padded 2 t.second
    ++ if t.nanos = 0 then [] else '.' :: trimmed (Text.padded precision t.nanos)

def offsetText : Offset → List Char
  | .universal => ['Z']
  | .minutes count =>
    (if count < 0 then '-' else '+')
      :: Text.padded 2 (count.natAbs / 60) ++ ':' :: Text.padded 2 (count.natAbs % 60)

/-- A date and time in the usual spelling. -/
def text (d : DateTime) : List Char :=
  let date := (d.date.map dateText).getD []
  let time := (d.time.map timeText).getD []
  let offset := (d.offset.map offsetText).getD []
  date ++ (if d.date.isSome && d.time.isSome then ['T'] else []) ++ time ++ offset

end DateTime

end HealthMonitor.Toml

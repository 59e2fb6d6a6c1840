import HealthMonitor.Json.Fields
import HealthMonitor.Toml.DateTime

/-!
# TOML scalars

Numbers, booleans and dates are single words of a document: `word?` tells what a whole word is. A
date is kept as a record of its usual spelling under a name of its own, so that it fits no other
kind of value.
-/

namespace HealthMonitor.Toml

/-- Characters of numbers, booleans and dates. -/
def isWordChar (c : Char) : Bool :=
  c.isAlphanum || c == '_' || c == '+' || c == '-' || c == '.' || c == ':'

/-- Digits with single underscores between them, without the underscores. -/
def digitsOf? (isDigit : Char → Bool) (cs : List Char) : Option (List Char) :=
  let groups := cs.splitOn '_'
  if groups.all fun g => !g.isEmpty && g.all isDigit then some groups.flatten else none

/-- A text without its sign, and whether that is a minus. -/
def splitSign (cs : List Char) : Bool × List Char :=
  match cs with
  | '+' :: rest => (false, rest)
  | '-' :: rest => (true, rest)
  | _ => (false, cs)

/-- Whole numbers lie from `-wholeLimit` to `wholeLimit - 1`. -/
def wholeLimit : Nat := Nat.pow 2 63

/-- A whole number within the limits. -/
def wholeNumber? (negative : Bool) (n : Nat) : Option Json :=
  if n = 0 then some (Json.nat 0)
  else if negative then
    if n ≤ wholeLimit then some (.number ("-" ++ toString n)) else none
  else if n < wholeLimit then some (Json.nat n) else none

/-- The value of digits in a base. -/
def valueIn (base : Nat) (digits : List Char) : Nat :=
  digits.foldl (fun n c => n * base + (Text.hexValue? c).getD 0) 0

/-- A decimal digit sequence that does not start with a needless zero. -/
def plainDigits? (cs : List Char) : Option (List Char) :=
  match cs with
  | ['0'] => some cs
  | '0' :: _ => none
  | _ => digitsOf? Char.isDigit cs

/-- A whole number: decimal with a sign, or in base 16, 8 or 2 without one. -/
def integer? (cs : List Char) : Option Json :=
  let inBase := fun (base : Nat) (isDigit : Char → Bool) (rest : List Char) =>
    (digitsOf? isDigit rest).bind fun ds => wholeNumber? false (valueIn base ds)
  match cs with
  | '0' :: 'x' :: rest => inBase 16 (fun c => (Text.hexValue? c).isSome) rest
  | '0' :: 'o' :: rest => inBase 8 (fun c => '0' ≤ c && c ≤ '7') rest
  | '0' :: 'b' :: rest => inBase 2 (fun c => c == '0' || c == '1') rest
  | _ =>
    let (negative, rest) := splitSign cs
    (plainDigits? rest).bind fun ds => wholeNumber? negative (valueIn 10 ds)

/-- The digits behind the point, and behind the mark of an exponent. -/
def exponentPart? (cs : List Char) : Option (List Char) :=
  let sign := match cs with
    | '-' :: _ => ['-']
    | _ => []
  (digitsOf? Char.isDigit (splitSign cs).2).map fun ds => 'e' :: sign ++ ds

/-- A number with a point or an exponent, or one of the words for numbers that are not finite. A
number above all doubles is none, while one below them stands for minus infinity. -/
def float? (cs : List Char) : Option Json := do
  let (negative, rest) := splitSign cs
  let sign := if negative then ['-'] else []
  if rest == ['i', 'n', 'f'] || rest == ['n', 'a', 'n'] then
    some (.number (String.ofList (sign ++ rest)))
  else
    let isMark := fun c : Char => c == 'e' || c == 'E'
    let mantissa := rest.takeWhile fun c => !isMark c
    let power := rest.dropWhile fun c => !isMark c
    let whole ← plainDigits? (mantissa.takeWhile (· != '.'))
    let decimals ← match mantissa.dropWhile (· != '.') with
      | [] => some []
      | _ :: ds => (digitsOf? Char.isDigit ds).map ('.' :: ·)
    let exponent ← match power with
      | [] => some []
      | _ :: ds => exponentPart? ds
    guard !(decimals.isEmpty && exponent.isEmpty)
    let text := String.ofList (sign ++ whole ++ decimals ++ exponent)
    let (negative, digits, exponent) := Json.numberParts text
    guard (negative || (Binary64.ofDecimal? negative digits exponent).isSome)
    some (.number text)

/-! ### Words -/

/-- The name that a date stands under. -/
def dateField : String := "$__toml_private_datetime"

/-- A date as a value. -/
def date (d : DateTime) : Json :=
  Json.obj [(dateField, Json.text (String.ofList d.text))]

/-- What a whole word is. -/
def word? (cs : List Char) : Option Json :=
  if cs == ['t', 'r', 'u', 'e'] then some (.bool true)
  else if cs == ['f', 'a', 'l', 's', 'e'] then some (.bool false)
  else
    match DateTime.parse? cs with
    | some d => some (date d)
    | none => (integer? cs).or (float? cs)

end HealthMonitor.Toml

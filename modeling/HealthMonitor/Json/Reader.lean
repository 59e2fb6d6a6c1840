import HealthMonitor.Json.Basic

/-!
# Reading JSON

`Json.parse?` reads one value with nothing but blanks around it, by the grammar of RFC 8259: no
leading zeros, no bare control characters, no trailing commas.
-/

namespace HealthMonitor.Json

/-- The blanks of the grammar. -/
def isSpace (c : Char) : Bool :=
  c = ' ' || c = '\n' || c = '\t' || c = '\r'

def skip (cs : List Char) : List Char :=
  cs.dropWhile isSpace

/-- Four hexadecimal digits. -/
def hex4? : List Char → Option (Nat × List Char)
  | a :: b :: c :: d :: rest => do
    let a ← Text.hexValue? a
    let b ← Text.hexValue? b
    let c ← Text.hexValue? c
    let d ← Text.hexValue? d
    some (((a * 16 + b) * 16 + c) * 16 + d, rest)
  | _ => none

/-- The character of a one-letter escape. -/
def shortEscape? (c : Char) : Option Char :=
  if c = '"' || c = '\\' || c = '/' then some c
  else if c = 'b' then some '\x08'
  else if c = 'f' then some '\x0c'
  else if c = 'n' then some '\n'
  else if c = 'r' then some '\r'
  else if c = 't' then some '\t'
  else none

/-- One unit of a string literal: a character, or a UTF-16 unit given by its number. -/
inductive Glyph where
  | char (c : Char)
  | code (n : Nat)

/-- The units of a string literal whose opening quote is read, and what follows its closing one. -/
def units? : Nat → List Char → Option (List Glyph × List Char)
  | _, [] => none
  | 0, _ => none
  | fuel + 1, c :: cs =>
    if c = '"' then some ([], cs)
    else if c = '\\' then
      match cs with
      | 'u' :: rest => do
        let (n, rest) ← hex4? rest
        let (us, rest) ← units? fuel rest
        some (.code n :: us, rest)
      | e :: rest => do
        let c ← shortEscape? e
        let (us, rest) ← units? fuel rest
        some (.char c :: us, rest)
      | [] => none
    else if c.toNat < 32 then none
    else (units? fuel cs).map fun p => (.char c :: p.1, p.2)

/-- The characters that units spell; nothing when one is half of a pair. -/
def spell? : List Glyph → Option (List Char)
  | [] => some []
  | .char c :: rest => (spell? rest).map (c :: ·)
  | .code n :: rest =>
    if 0xD800 ≤ n && n < 0xDC00 then
      match rest with
      | .code m :: rest =>
        if 0xDC00 ≤ m && m < 0xE000 then
          (spell? rest).map (Char.ofNat (0x10000 + (n - 0xD800) * 1024 + (m - 0xDC00)) :: ·)
        else none
      | _ => none
    else if 0xDC00 ≤ n && n < 0xE000 then none
    else (spell? rest).map (Char.ofNat n :: ·)

/-- A string literal whose opening quote is read. -/
def string? (cs : List Char) : Option (Option String × List Char) :=
  (units? cs.length cs).map fun p => ((spell? p.1).map String.ofList, p.2)

/-- The longest run of digits, which must not be empty. -/
def digits? (cs : List Char) : Option (List Char × List Char) :=
  let run := cs.takeWhile Char.isDigit
  if run.isEmpty then none else some (run, cs.drop run.length)

/-- The digits before the point: a single zero, or a number that starts with another digit. -/
def whole? (cs : List Char) : Option (List Char × List Char) :=
  match cs with
  | '0' :: rest => some (['0'], rest)
  | _ => digits? cs

/-- The point and the digits behind it, if there is a point. -/
def decimals? (cs : List Char) : Option (List Char × List Char) :=
  match cs with
  | '.' :: rest => (digits? rest).map fun p => ('.' :: p.1, p.2)
  | _ => some ([], cs)

/-- The exponent, if there is one. -/
def exponent? (cs : List Char) : Option (List Char × List Char) :=
  match cs with
  | e :: rest =>
    if e = 'e' || e = 'E' then
      match rest with
      | '+' :: rest => (digits? rest).map fun p => (e :: '+' :: p.1, p.2)
      | '-' :: rest => (digits? rest).map fun p => (e :: '-' :: p.1, p.2)
      | _ => (digits? rest).map fun p => (e :: p.1, p.2)
    else some ([], cs)
  | [] => some ([], [])

/-- A number as it is written. -/
def number? (cs : List Char) : Option (List Char × List Char) := do
  let (sign, cs) := match cs with
    | '-' :: rest => (['-'], rest)
    | _ => ([], cs)
  let (whole, cs) ← whole? cs
  let (decimals, cs) ← decimals? cs
  let (exponent, cs) ← exponent? cs
  some (sign ++ whole ++ decimals ++ exponent, cs)

/-- A value by its first word, when that is `null`, `true` or `false`. -/
def word? (cs : List Char) : Option (Json × List Char) :=
  match cs with
  | 'n' :: 'u' :: 'l' :: 'l' :: rest => some (.null, rest)
  | 't' :: 'r' :: 'u' :: 'e' :: rest => some (.bool true, rest)
  | 'f' :: 'a' :: 'l' :: 's' :: 'e' :: rest => some (.bool false, rest)
  | _ => (number? cs).map fun p => (.number (String.ofList p.1), p.2)

mutual

/-- Reads a value, after blanks. -/
def value? : Nat → List Char → Option (Json × List Char)
  | 0, _ => none
  | fuel + 1, cs =>
    match skip cs with
    | [] => none
    | '"' :: rest => (string? rest).map fun p => (.string p.1, p.2)
    | '[' :: rest =>
      match skip rest with
      | ']' :: rest => some (.array [], rest)
      | _ => (items? fuel rest).map fun p => (.array p.1, p.2)
    | '\x7b' :: rest =>
      match skip rest with
      | '\x7d' :: rest => some (.object [], rest)
      | _ => (members? fuel rest).map fun p => (.object p.1, p.2)
    | other => word? other

/-- Reads one or more items up to the closing bracket. -/
def items? : Nat → List Char → Option (List Json × List Char)
  | 0, _ => none
  | fuel + 1, cs =>
    match value? fuel cs with
    | none => none
    | some (item, rest) =>
      match skip rest with
      | ']' :: rest => some ([item], rest)
      | ',' :: rest => (items? fuel rest).map fun p => (item :: p.1, p.2)
      | _ => none

/-- Reads one or more members up to the closing brace. -/
def members? : Nat → List Char → Option (List (Option String × Json) × List Char)
  | 0, _ => none
  | fuel + 1, cs =>
    match skip cs with
    | '"' :: rest =>
      match string? rest with
      | none => none
      | some (name, rest) =>
        match skip rest with
        | ':' :: rest =>
          match value? fuel rest with
          | none => none
          | some (value, rest) =>
            match skip rest with
            | '\x7d' :: rest => some ([(name, value)], rest)
            | ',' :: rest => (members? fuel rest).map fun p => ((name, value) :: p.1, p.2)
            | _ => none
        | _ => none
    | _ => none

end

/-- Reads the one value of a text. -/
def parse? (s : String) : Option Json :=
  let cs := s.toList
  match value? (2 * cs.length + 1) cs with
  | some (j, rest) => if (skip rest).isEmpty then some j else none
  | none => none

end HealthMonitor.Json

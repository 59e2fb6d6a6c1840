import HealthMonitor.Json.Basic

/-!
# Records in JSON

A record with named fields is read from an object, whose members come in any order and may hold
unknown names, or from an array, whose items fill the fields in their declared order. A field given
twice spoils the record. A field of an object may be left out when it can be null or has a default;
in an array only a default stands in for an item. Items behind the last field are a matter of the
format that the record is written in.
-/

namespace HealthMonitor.Json

/-- The fields of a record that are given, and whether they were given by place. -/
structure Fields where
  given : List (String × Json)
  byPlace : Bool

/-- What becomes of the items of an array behind the last field. -/
inductive Surplus where
  | refused
  | ignored
  deriving DecidableEq, Repr

/-- Whether a name occurs twice. -/
def hasRepeat : List String → Bool
  | [] => false
  | name :: rest => rest.contains name || hasRepeat rest

/-- The fields with the given names. -/
def fields? (surplus : Surplus) (names : List String) : Json → Option Fields
  | .object members => do
    let all ← members.mapM fun m => m.1.map fun name => (name, m.2)
    let known := all.filter fun m => names.contains m.1
    if hasRepeat (known.map Prod.fst) then none else some ⟨known, false⟩
  | .array items =>
    if surplus = .refused ∧ names.length < items.length then none
    else some ⟨names.zip items, true⟩
  | _ => none

namespace Fields

/-- A field that has to be given. -/
def required? (f : Fields) (name : String) (read : Json → Option α) : Option α :=
  (f.given.lookup name).bind read

/-- A field with a default. -/
def withDefault? (f : Fields) (name : String) (default : α) (read : Json → Option α) : Option α :=
  match f.given.lookup name with
  | some j => read j
  | none => some default

/-- A field that may be null. -/
def nullable? (f : Fields) (name : String) (read : Json → Option α) : Option (Option α) :=
  match f.given.lookup name with
  | some .null => some none
  | some j => (read j).map some
  | none => if f.byPlace then none else some none

/-- A field that may be null and that is null by default. -/
def optional? (f : Fields) (name : String) (read : Json → Option α) : Option (Option α) :=
  match f.given.lookup name with
  | some .null => some none
  | some j => (read j).map some
  | none => some none

end Fields

/-! ### Plain values -/

def text? : Json → Option String
  | .string s => s
  | _ => none

def bool? : Json → Option Bool
  | .bool b => some b
  | _ => none

/-- A whole number below a limit, written without sign, point and exponent. -/
def natural? (limit : Nat) : Json → Option Nat
  | .number s => (Text.digits? s.toList).bind fun n => if n < limit then some n else none
  | _ => none

/-- The parts of a number: sign, digits, and the power of ten of the last digit. -/
def numberParts (s : String) : Bool × Nat × Int :=
  let (negative, cs) := match s.toList with
    | '-' :: rest => (true, rest)
    | cs => (false, cs)
  let isMark := fun c : Char => c == 'e' || c == 'E'
  let mantissa := cs.takeWhile fun c => !isMark c
  let power := (cs.dropWhile fun c => !isMark c).drop 1
  let decimals := ((mantissa.dropWhile (· != '.')).drop 1).length
  let digits := Nat.ofDigitChars 10 (mantissa.filter (· != '.')) 0
  let written : Int := match power with
    | '-' :: rest => -(Nat.ofDigitChars 10 rest 0 : Int)
    | '+' :: rest => Nat.ofDigitChars 10 rest 0
    | rest => Nat.ofDigitChars 10 rest 0
  (negative, digits, written - decimals)

/-- A number as the nearest double, if that is finite. -/
def double? : Json → Option Float
  | .number s =>
    let (negative, digits, exponent) := numberParts s
    Binary64.ofDecimal? negative digits exponent
  | _ => none

/-- An object of texts; of two members of one name the later wins. -/
def dictionary? : Json → Option (Dictionary String String)
  | .object members => do
    let es ← members.mapM fun m => do some (← m.1, ← text? m.2)
    some (Dictionary.ofList es)
  | _ => none

/-- A word of an enumeration: its text, or an object that holds null under it. -/
def word : Json → Option String
  | .string s => s
  | .object [(name, .null)] => name
  | _ => none

end HealthMonitor.Json

import HealthMonitor.Text.Cut
import HealthMonitor.Text.Numeral

/-!
# IP addresses

An `IpAddress` is read from the numeric form of a host. `v4?` takes one to four numbers between
points, each decimal, octal behind `0` or hexadecimal behind `0x`; the last number fills the bytes
that are left. `v6?` takes eight hexadecimal groups between colons, of which one run of zeros can be
left out and the last two can be written as an address of version 4.
-/

namespace HealthMonitor

/-- An address of a machine. Scope 0 of an address of version 6 leaves the device open. -/
inductive IpAddress where
  | v4 (word : UInt32)
  | v6 (groups : List UInt16) (scope : UInt32)
  deriving DecidableEq, Repr

namespace IpAddress

/-! ### Version 4 -/

/-- The value of one or more digits of a base. -/
def digitsIn? (base : Nat) (cs : List Char) : Option Nat := do
  guard !cs.isEmpty
  let ds ← cs.mapM Text.hexValue?
  guard (ds.all fun d => decide (d < base))
  some (ds.foldl (fun n d => n * base + d) 0)

/-- A number in decimal, in octal behind `0`, or in hexadecimal behind `0x`. -/
def number? (cs : List Char) : Option Nat :=
  match cs with
  | '0' :: c :: rest => if c == 'x' || c == 'X' then digitsIn? 16 rest else digitsIn? 8 (c :: rest)
  | _ => digitsIn? 10 cs

/-- The word of numbers that share `room` bytes: all but the last are bytes, and the last fills the
rest. -/
def word? : Nat → List Nat → Option Nat
  | room + 1, [n] => if n < Nat.pow 256 (room + 1) then some n else none
  | room + 1, n :: rest =>
    if n < 256 then (word? room rest).map (n * Nat.pow 256 room + ·) else none
  | _, _ => none

/-- An address of version 4 in numeric form. -/
def v4? (cs : List Char) : Option IpAddress := do
  let numbers ← (cs.splitOn '.').mapM number?
  let word ← word? 4 numbers
  some (.v4 (UInt32.ofNat word))

/-! ### Version 6 -/

/-- A group of at most four hexadecimal digits. -/
def group? (cs : List Char) : Option UInt16 := do
  guard (cs.length ≤ 4)
  (digitsIn? 16 cs).map UInt16.ofNat

/-- A decimal byte without needless zeros. -/
def byte? (cs : List Char) : Option Nat := do
  guard (cs.length ≤ 1 || cs.head? != some '0')
  let n ← digitsIn? 10 cs
  if n < 256 then some n else none

/-- Four decimal bytes between points, as two groups. -/
def dotted? (cs : List Char) : Option (List UInt16) := do
  match ← (cs.splitOn '.').mapM byte? with
  | [a, b, c, d] => some [UInt16.ofNat (a * 256 + b), UInt16.ofNat (c * 256 + d)]
  | _ => none

/-- Groups between colons. -/
def groups? (cs : List Char) : Option (List UInt16) :=
  if cs.isEmpty then some [] else (cs.splitOn ':').mapM group?

/-- Groups between colons, of which the last two can be four bytes. -/
def lastGroups? (cs : List Char) : Option (List UInt16) :=
  match groups? cs with
  | some gs => some gs
  | none =>
    match Text.cutLast ':' cs with
    | none => dotted? cs
    | some (before, last) => do
      guard !before.isEmpty
      some ((← groups? before) ++ (← dotted? last))

/-- The groups of an address of version 6. -/
def v6Groups? (cs : List Char) : Option (List UInt16) := do
  match Text.cutAt [':', ':'] cs with
  | none =>
    let gs ← lastGroups? cs
    if gs.length = 8 then some gs else none
  | some (before, after) =>
    let front ← groups? before
    let back ← lastGroups? after
    let used := front.length + back.length
    if used < 8 then some (front ++ List.replicate (8 - used) 0 ++ back) else none

/-- An address of version 6 that leaves the device open. -/
def v6? (cs : List Char) : Option IpAddress :=
  (v6Groups? cs).map fun gs => .v6 gs 0

/-- An address of version 6 with or without the number of a device behind a percent sign. -/
def scoped? (cs : List Char) : Option IpAddress :=
  match Text.cut '%' cs with
  | none => v6? cs
  | some (address, device) => do
    let gs ← v6Groups? address
    let scope ← digitsIn? 10 device
    if scope < UInt32.size then some (.v6 gs (UInt32.ofNat scope)) else none

/-! ### Classes -/

/-- The first group of an address of version 6. -/
def leading (groups : List UInt16) : UInt16 :=
  groups.headD 0

/-- Whether groups stand for an address of version 4. -/
def isMapped (groups : List UInt16) : Bool :=
  groups.take 6 == [0, 0, 0, 0, 0, 0xFFFF]

/-- Whether groups are an address of many machines. -/
def isMulticast (groups : List UInt16) : Bool :=
  0xFF00 ≤ leading groups

/-- Whether groups are an address that counts on one device only. -/
def isLinkLocal (groups : List UInt16) : Bool :=
  0xFE80 ≤ leading groups && leading groups < 0xFEC0

/-- Whether groups are no address in particular. -/
def isUnspecified (groups : List UInt16) : Bool :=
  groups.all (· == 0)

end IpAddress

end HealthMonitor

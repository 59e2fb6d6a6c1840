/-!
# UTF-8

`Utf8.encode` writes characters as bytes. `Utf8.pieces` reads bytes back as a row of pieces: whole
characters, and the runs of one to three bytes that no character goes on with. A text decodes when
every piece is a character (`decode?`); `decodeLossy` puts the replacement character in place of
each other piece, and `fault?` says where and how the first of them breaks the encoding.
-/

namespace HealthMonitor.Utf8

/-- The bytes of a row of characters. -/
def encode (cs : List Char) : List UInt8 :=
  cs.flatMap String.utf8EncodeChar

/-- The bytes of a string. -/
def bytesOf (s : String) : List UInt8 :=
  encode s.toList

/-- How a character goes on after its first byte: its length in bytes and the range of the second
byte. All later bytes are tails. -/
structure Lead where
  size : Nat
  low : UInt8
  high : UInt8

/-- The characters of two to four bytes that start with byte `a`, if any do. -/
def lead? (a : UInt8) : Option Lead :=
  if 0xC2 ≤ a && a ≤ 0xDF then some ⟨2, 0x80, 0xBF⟩
  else if a = 0xE0 then some ⟨3, 0xA0, 0xBF⟩
  else if a = 0xED then some ⟨3, 0x80, 0x9F⟩
  else if 0xE1 ≤ a && a ≤ 0xEF then some ⟨3, 0x80, 0xBF⟩
  else if a = 0xF0 then some ⟨4, 0x90, 0xBF⟩
  else if 0xF1 ≤ a && a ≤ 0xF3 then some ⟨4, 0x80, 0xBF⟩
  else if a = 0xF4 then some ⟨4, 0x80, 0x8F⟩
  else none

/-- Whether `b` can stand at a later place of a character. -/
def isTail (b : UInt8) : Bool :=
  0x80 ≤ b && b ≤ 0xBF

/-- The six bits that a tail adds. -/
def addTail (n : Nat) (b : UInt8) : Nat :=
  64 * n + (b.toNat - 0x80)

/-- One step of reading: a character of `size` bytes, `size` bytes that no character goes on with,
or `size` bytes of a character that the text ends within. -/
inductive Piece where
  | char (c : Char) (size : Nat)
  | bad (size : Nat)
  | cut (size : Nat)
  deriving DecidableEq, Repr

/-- Reads bytes piece by piece, each as long as the encoding allows. -/
def pieces : List UInt8 → List Piece
  | [] => []
  | a :: rest =>
    if a < 0x80 then .char (Char.ofNat a.toNat) 1 :: pieces rest
    else
      match lead? a with
      | none => .bad 1 :: pieces rest
      | some l =>
        match rest with
        | [] => [.cut 1]
        | b :: rest2 =>
          if !(l.low ≤ b && b ≤ l.high) then .bad 1 :: pieces (b :: rest2)
          else if l.size = 2 then .char (Char.ofNat (addTail (a.toNat - 0xC0) b)) 2 :: pieces rest2
          else
            match rest2 with
            | [] => [.cut 2]
            | c :: rest3 =>
              if !isTail c then .bad 2 :: pieces (c :: rest3)
              else if l.size = 3 then
                .char (Char.ofNat (addTail (addTail (a.toNat - 0xE0) b) c)) 3 :: pieces rest3
              else
                match rest3 with
                | [] => [.cut 3]
                | d :: rest4 =>
                  if !isTail d then .bad 3 :: pieces (d :: rest4)
                  else
                    let n := addTail (addTail (addTail (a.toNat - 0xF0) b) c) d
                    .char (Char.ofNat n) 4 :: pieces rest4

/-- The characters of well-formed bytes. -/
def decode? (bytes : List UInt8) : Option (List Char) :=
  (pieces bytes).mapM fun
    | .char c _ => some c
    | _ => none

/-- The characters of any bytes, each faulty piece replaced by U+FFFD. -/
def decodeLossy (bytes : List UInt8) : List Char :=
  (pieces bytes).map fun
    | .char c _ => c
    | _ => '\uFFFD'

/-- The first fault of a byte text: its place, and its length unless the text just ends early. -/
structure Fault where
  index : Nat
  size : Option Nat
  deriving DecidableEq, Repr

/-- The first fault among pieces that start at byte `index`. -/
def faultFrom? (index : Nat) : List Piece → Option Fault
  | [] => none
  | .char _ n :: rest => faultFrom? (index + n) rest
  | .bad n :: _ => some ⟨index, some n⟩
  | .cut _ :: _ => some ⟨index, none⟩

/-- Where and how a byte text first breaks the encoding. -/
def fault? (bytes : List UInt8) : Option Fault :=
  faultFrom? 0 (pieces bytes)

/-- A fault in words. -/
def Fault.message (f : Fault) : String :=
  match f.size with
  | some n => "invalid utf-8 sequence of " ++ toString n ++ " bytes from index " ++ toString f.index
  | none => "incomplete utf-8 byte sequence from index " ++ toString f.index

end HealthMonitor.Utf8

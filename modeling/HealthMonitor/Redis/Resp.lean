import HealthMonitor.Bytes.Utf8
import HealthMonitor.Probe.Failure
import HealthMonitor.Text.Numeral
import HealthMonitor.Text.Quoted

/-!
# The Redis serialization protocol

Commands are arrays of bulk strings; replies are simple strings, errors, integers and bulk strings.
A bulk string is framed by its length in bytes, so that no argument can be taken for the start of
another command.
-/

namespace HealthMonitor.Redis

/-- A reply of a server. -/
inductive Reply where
  | simple (text : String)
  | error (text : String)
  | integer (value : Int)
  | bulk (data : Option (List UInt8))
  deriving DecidableEq, Repr

/-- A command: its name and its arguments. -/
abbrev Command := List String

def carriageReturn : UInt8 := 13

def lineFeed : UInt8 := 10

/-- A line with its end. -/
def line (cs : List Char) : List UInt8 :=
  Utf8.encode cs ++ [carriageReturn, lineFeed]

/-- One argument as a bulk string. -/
def encodeBulk (part : String) : List UInt8 :=
  let bytes := Utf8.bytesOf part
  line ('$' :: Text.digitsOf bytes.length) ++ bytes ++ [carriageReturn, lineFeed]

/-- A command as it is sent. -/
def encode (parts : Command) : List UInt8 :=
  line ('*' :: Text.digitsOf parts.length) ++ parts.flatMap encodeBulk

/-! ### Replies -/

/-- The greatest length of a line, its end included, and of a bulk string. -/
def maxLine : Nat := 65536

/-- The failure of a reply that breaks the protocol. -/
def malformed (text : String) : Failure :=
  .wrapped (.note ("malformed redis reply: " ++ Text.quoted text)) []

/-- The failure of a server that closes before it replies. -/
def closed : Failure :=
  .io (.told .unexpectedEnd "connection closed before reply")

/-- The failure of a server that closes within a bulk string. -/
def cutShort : Failure :=
  .io (.told .unexpectedEnd "early eof")

/-- The bytes up to the first line feed and behind it, of the first `limit` bytes at most. -/
def takeLine (limit : Nat) (bytes : List UInt8) : List UInt8 × List UInt8 :=
  let run := (bytes.take limit).takeWhile (· != lineFeed)
  let size := if run.length < limit then run.length + 1 else run.length
  (bytes.take size, bytes.drop size)

/-- The bytes of a line without its end. -/
def dropEnd? (bytes : List UInt8) : Option (List UInt8) :=
  match bytes.reverse with
  | b :: a :: rest => if b = lineFeed ∧ a = carriageReturn then some rest.reverse else none
  | _ => none

/-- Reads a line: its text and the bytes behind it. -/
def readLine (bytes : List UInt8) : Except Failure (String × List UInt8) :=
  if bytes.isEmpty then .error closed
  else
    let (taken, rest) := takeLine maxLine bytes
    match dropEnd? taken with
    | none => .error (malformed (String.ofList (Utf8.decodeLossy taken)))
    | some body =>
      match Utf8.decode? body with
      | some cs => .ok (String.ofList cs, rest)
      | none => .error (malformed (((Utf8.fault? body).map Utf8.Fault.message).getD ""))

/-- Integers lie from `-integerLimit` to `integerLimit - 1`. -/
def integerLimit : Nat := Nat.pow 2 63

/-- Reads a reply and leaves the bytes behind it. -/
def readReply (bytes : List UInt8) : Except Failure (Reply × List UInt8) := do
  let (text, rest) ← readLine bytes
  match text.toList with
  | '+' :: body => return (.simple (String.ofList body), rest)
  | '-' :: body => return (.error (String.ofList body), rest)
  | ':' :: body =>
    match Text.integer? integerLimit body with
    | some n => return (.integer n, rest)
    | none => throw (malformed text)
  | '$' :: body =>
    match Text.integer? integerLimit body with
    | none => throw (malformed text)
    | some n =>
      if n < 0 then return (.bulk none, rest)
      else if maxLine < n.toNat then throw (malformed text)
      else if rest.length < n.toNat + 2 then throw cutShort
      else return (.bulk (some (rest.take n.toNat)), rest.drop (n.toNat + 2))
  | _ => throw (malformed text)

/-- A reply in messages about it. -/
def Reply.describe : Reply → String
  | .simple text => "Simple(" ++ Text.quoted text ++ ")"
  | .error text => "Error(" ++ Text.quoted text ++ ")"
  | .integer n => "Integer(" ++ toString n ++ ")"
  | .bulk none => "Bulk(None)"
  | .bulk (some data) =>
    "Bulk(Some([" ++ ", ".intercalate (data.map fun b => toString b.toNat) ++ "]))"

end HealthMonitor.Redis

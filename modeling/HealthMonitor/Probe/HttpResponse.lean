import HealthMonitor.Probe.Http

/-!
# HTTP responses

`HttpResponse.status?` reads the status of the first final answer in the bytes of a peer: a status
line, header lines and an empty line. Interim answers (1xx) are skipped. Anything else is a broken
response.
-/

namespace HealthMonitor.HttpResponse

/-- The failure of a response that is broken or cut short. -/
def broken : Failure :=
  .wrapped (.note "invalid or incomplete response") ["http request failed"]

def lineFeed : UInt8 := 10

def carriageReturn : UInt8 := 13

/-- A line without its end, and the bytes behind it; nothing when no line ends. -/
def line? (bytes : List UInt8) : Option (List UInt8 × List UInt8) :=
  let run := bytes.takeWhile (· != lineFeed)
  match bytes.drop run.length with
  | [] => none
  | _ :: rest => some (if run.getLast? = some carriageReturn then run.dropLast else run, rest)

/-- A byte of text: no control but the tab. -/
def isText (b : UInt8) : Bool :=
  b = 9 || (32 ≤ b && b != 127)

/-- The status of a status line. -/
def statusOf? (line : List UInt8) : Option Nat :=
  match line with
  | h :: t1 :: t2 :: p :: slash :: one :: point :: minor :: space :: a :: b :: c :: reason =>
    let word := [h, t1, t2, p, slash, one, point]
    let digits := [a, b, c].map fun d => Char.ofNat d.toNat
    if word == Utf8.bytesOf "HTTP/1." && (minor = 48 || minor = 49) && space = 32
        && (reason.isEmpty || reason.head? = some 32) && reason.all isText then
      Text.digits? digits
    else none
  | _ => none

/-- Whether a line is a header: a name, a colon and a value. -/
def isHeader (line : List UInt8) : Bool :=
  let name := line.takeWhile (· != 58)
  name.length < line.length
    && HttpRequest.isHeaderName (name.map fun b => Char.ofNat b.toNat)
    && (line.drop (name.length + 1)).all isText

/-- The bytes behind the empty line that ends the headers. -/
def afterHeaders? : Nat → List UInt8 → Option (List UInt8)
  | 0, _ => none
  | fuel + 1, bytes =>
    match line? bytes with
    | none => none
    | some ([], rest) => some rest
    | some (line, rest) => if isHeader line then afterHeaders? fuel rest else none

/-- The status of the first final answer among at most `fuel` answers. -/
def statusWithin? : Nat → List UInt8 → Option Nat
  | 0, _ => none
  | fuel + 1, bytes =>
    match line? bytes with
    | none => none
    | some ([], rest) => statusWithin? fuel rest
    | some (line, rest) => do
      let status ← statusOf? line
      let rest ← afterHeaders? rest.length.succ rest
      if status < 100 then none
      else if status < 200 && status != 101 then statusWithin? fuel rest
      else some status

/-- The status of the first final answer. -/
def status? (bytes : List UInt8) : Option Nat :=
  statusWithin? (bytes.length + 1) bytes

end HealthMonitor.HttpResponse

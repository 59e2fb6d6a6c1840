import HealthMonitor.Bytes.Base64
import HealthMonitor.Bytes.Utf8
import HealthMonitor.Dependency.Endpoint
import HealthMonitor.Probe.Settings
import HealthMonitor.Probe.Verdict

/-!
# The HTTP probe

The probe asks an endpoint for one path and judges the status of the answer: 2xx is healthy, 401 and
403 are refusals, and any other status is unhealthy under its number. `HttpProbe.request` puts the
request together; a path, header name or header value that HTTP does not allow leaves no request.
-/

namespace HealthMonitor

/-- A request for a path, with headers in the order in which they were added. -/
structure HttpRequest where
  path : List Char
  headers : List (List Char × List Char)
  deriving DecidableEq, Repr

namespace HttpRequest

/-! ### What HTTP allows -/

/-- Bytes of a path: those that need no escape, three that clients send all the same, and bytes
above ASCII. -/
def isPathByte (n : Nat) : Bool :=
  n == 0x21 || n == 0x22 || (0x24 ≤ n && n ≤ 0x3B) || n == 0x3D || (0x40 ≤ n && n ≤ 0x5F)
    || (0x61 ≤ n && n ≤ 0x7A) || n == 0x7B || n == 0x7C || n == 0x7D || n == 0x7E || 0x7F ≤ n

/-- Bytes of a query. -/
def isQueryByte (n : Nat) : Bool :=
  n == 0x21 || (0x24 ≤ n && n ≤ 0x3B) || n == 0x3D || 0x3F ≤ n

/-- A target cut before its fragment. -/
def withoutFragment (target : List Char) : List Char :=
  target.takeWhile (· != '#')

/-- The greatest length of a target, in bytes. -/
def maxTarget : Nat := 65534

/-- Whether a target is a path, with or without a query, of allowed bytes. -/
def isTarget (target : List Char) : Bool :=
  let path := target.takeWhile (· != '?')
  let query := (target.dropWhile (· != '?')).drop 1
  path.all (fun c => isPathByte c.toNat) && query.all (fun c => isQueryByte c.toNat)

/-- Punctuation that a header name may hold. -/
def namePunctuation : List Char :=
  ['!', '#', '$', '%', '&', '\x27', '*', '+', '-', '.', '^', '_', '\x60', '|', '~']

/-- Whether a text is the name of a header. -/
def isHeaderName (name : List Char) : Bool :=
  !name.isEmpty && name.length ≤ 65535
    && name.all fun c => c.isAlphanum || namePunctuation.contains c

/-- Whether a text is the value of a header: no controls but the tab. -/
def isHeaderValue (value : List Char) : Bool :=
  value.all fun c => (0x20 ≤ c.toNat && c.toNat != 0x7F) || c == '\t'

/-! ### Text -/

/-- Headers with those of one name moved together to the place of the first. -/
def grouped (headers : List (List Char × List Char)) : List (List Char × List Char) :=
  let names := (headers.map Prod.fst).eraseDups
  names.flatMap fun name => headers.filter fun h => h.1 == name

/-- A line end. -/
def lineEnd : List Char := ['\r', '\n']

/-- The request as it is sent. -/
def render (r : HttpRequest) : List Char :=
  "GET ".toList ++ r.path ++ " HTTP/1.1".toList ++ lineEnd
    ++ ((grouped r.headers).flatMap fun h => h.1 ++ ": ".toList ++ h.2 ++ lineEnd) ++ lineEnd

end HttpRequest

/-- A probe that asks for one path. -/
structure HttpProbe where
  path : String
  /-- Headers after the usual ones, credentials included. -/
  headers : Dictionary String String
  tls : Bool
  skipVerify : Bool
  deriving DecidableEq, Repr

namespace HttpProbe

/-- The path that is asked for when none is set. -/
def usualPath : String := "/health"

/-- The name that a probe gives itself. -/
def userAgent : String := "depwatch/0.1.0"

/-- The header that holds a credential. -/
def credential : String := "Authorization"

/-- The path of a probe: it starts with a slash. -/
def pathOf : Option String → String
  | none => usualPath
  | some p =>
    match p.toList with
    | [] => usualPath
    | '/' :: _ => p
    | _ => "/" ++ p

/-- The credential of a user name and password. -/
def basicValue (a : BasicAuth) : String :=
  "Basic " ++ String.ofList (Base64.encode (Utf8.bytesOf (a.username ++ ":" ++ a.password)))

/-- The headers of settings, with the credential that they ask for. -/
def headersOf (s : ProbeSettings) : Dictionary String String :=
  let withToken := match s.bearerToken with
    | some token => s.headers.insert credential ("Bearer " ++ token)
    | none => s.headers
  match s.basicAuth with
  | some a => withToken.insert credential (basicValue a)
  | none => withToken

/-- The probe of settings. -/
def ofSettings (s : ProbeSettings) : HttpProbe where
  path := pathOf s.path
  headers := headersOf s
  tls := s.tls.getD false
  skipVerify := s.skipVerify

/-- A probe in one line, without the values of its headers. -/
def describe (p : HttpProbe) : String :=
  "HttpProbe \x7b path: " ++ Text.quoted p.path ++ ", headers: ["
    ++ ", ".intercalate (p.headers.keys.map Text.quoted) ++ "], tls: " ++ toString p.tls ++ " \x7d"

/-- The headers of a request to an endpoint, the usual ones first. -/
def requestHeaders (p : HttpProbe) (e : Endpoint) : List (String × String) :=
  ("host", e.address) :: ("user-agent", userAgent) :: p.headers.entries

/-- The failure of a request that cannot be put together. -/
def invalidRequest : Failure :=
  .wrapped (.note "not allowed in a request") ["invalid http request"]

/-- The request to an endpoint. -/
def request (p : HttpProbe) (e : Endpoint) : Except Failure HttpRequest :=
  let headers := (p.requestHeaders e).map fun h => (h.1.toList, h.2.toList)
  let target := HttpRequest.withoutFragment p.path.toList
  if p.path.utf8ByteSize ≤ HttpRequest.maxTarget && HttpRequest.isTarget target
      && headers.all fun h => HttpRequest.isHeaderName h.1 && HttpRequest.isHeaderValue h.2 then
    .ok ⟨target, headers.map fun h => (Text.lower h.1, h.2)⟩
  else .error invalidRequest

/-- How a check with a given answer ends. -/
def judge (status : Nat) : Outcome :=
  let message := "http status " ++ toString status
  if 200 ≤ status && status < 300 then .ok ()
  else if status = 401 || status = 403 then
    .error (.classified .authError "auth_error" message)
  else .error (.classified .unhealthy ("http_" ++ toString status) message)

end HttpProbe

end HealthMonitor
